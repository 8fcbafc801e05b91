import PipelineScript.Failure.CompileError
import PipelineScript.Files.Path
import PipelineScript.Table

/-
  Trees of files.

  Every place of a tree is reached from its root by names. A
  path is followed piece by piece, and all but its last piece
  must lead to directories. The system that keeps the tree has
  its own words for what it refuses.

  Key definitions include:
    * `FileRefusal.words`
    * `Entry`
    * `FileTree`
    * `FileTree.walk`
    * `FileTree.read`
    * `FileTree.write`
    * `FileTree.makeDirectories`

  The main statement is that a text that was written can be
  read: `FileTree.read_of_write`.
-/

namespace PipelineScript

/- What stands at a place: a file with or without a text. -/
inductive Entry where
  | text (content : String)
  | binary
  | directory
deriving DecidableEq, Repr

/- What is refused, in the words of a usual system. -/
def FileRefusal.words : FileRefusal → String
  | .notFound => "No such file or directory (os error 2)"
  | .isDirectory => "Is a directory (os error 21)"
  | .notDirectory => "Not a directory (os error 20)"
  | .alreadyExists => "File exists (os error 17)"

/-
  The entries at all places but the root, and the words for
  what is refused.
-/
structure FileTree where
  entries : Table (List String) Entry
  words : FileRefusal → String

namespace FileTree

/- A tree without files, on a usual system. -/
def empty : FileTree where
  entries := .empty
  words := FileRefusal.words

/- The fault of what is refused. -/
def fault (tree : FileTree) (refusal : FileRefusal) : FileFault :=
  .refused refusal (tree.words refusal)

------------------------------------------------------------
-- Places
------------------------------------------------------------

/- The entry at a place. The root is a directory. -/
def entryAt?
    (tree : FileTree)
    (place : List String) : Option Entry :=
  if place.isEmpty then
    some .directory
  else
    tree.entries.get? place

/- The tree with an entry at a place. -/
def put
    (tree : FileTree)
    (place : List String)
    (entry : Entry) : FileTree :=
  { tree with entries := tree.entries.insert place entry }

/- Where a piece leads from a place. -/
def step
    (place : List String)
    (piece : String) : List String :=
  if Path.isIdle piece then
    place
  else if piece == ".." then
    place.dropLast
  else
    place ++ [piece]

/- Where pieces lead from a place through directories. -/
def walk (tree : FileTree) :
    (place pieces : List String) →
    Except FileFault (List String)
  | place, [] => .ok place
  | place, piece :: rest =>
      match tree.entryAt? (step place piece) with
      | none => .error (tree.fault .notFound)
      | some .directory => tree.walk (step place piece) rest
      | some _ => .error (tree.fault .notDirectory)

------------------------------------------------------------
-- Reading and Writing
------------------------------------------------------------

/- The text of the file at a path. -/
def read
    (tree : FileTree)
    (path : String) : Except FileFault String :=
  let pieces := Path.pieces path
  match tree.walk [] pieces.dropLast, pieces.getLast? with
  | .error fault, _ => .error fault
  | .ok _, none => .error (tree.fault .notFound)
  | .ok place, some last =>
      if path.isEmpty then
        .error (tree.fault .notFound)
      else
        match tree.entryAt? (step place last) with
        | none => .error (tree.fault .notFound)
        | some .directory => .error (tree.fault .isDirectory)
        | some .binary => .error .notText
        | some (.text content) => .ok content

/- The pieces without empty ones at the end. -/
def dropSlashes (pieces : List String) : List String :=
  (pieces.reverse.dropWhile (· == "")).reverse

/- The tree with a text in the file at a path. -/
def write
    (tree : FileTree)
    (path content : String) : Except FileFault FileTree :=
  let pieces := Path.pieces path
  let named := dropSlashes pieces
  match tree.walk [] named.dropLast, named.getLast? with
  | .error fault, _ => .error fault
  | .ok _, none =>
      .error
        (tree.fault
          (if path.isEmpty then .notFound else .isDirectory))
  | .ok place, some last =>
      if named.length < pieces.length then
        .error (tree.fault .isDirectory)
      else
        match tree.entryAt? (step place last) with
        | some .directory => .error (tree.fault .isDirectory)
        | _ => .ok (tree.put (step place last) (.text content))

/- The tree with directories along pieces from a place. -/
def makeAlong :
    (tree : FileTree) →
    (place pieces : List String) →
    Except FileFault FileTree
  | tree, _, [] => .ok tree
  | tree, place, piece :: rest =>
      match tree.entryAt? (step place piece) with
      | none =>
          makeAlong (tree.put (step place piece) .directory)
            (step place piece) rest
      | some .directory => makeAlong tree (step place piece) rest
      | some _ =>
          .error
            (tree.fault
              (if rest.isEmpty then
                .alreadyExists
              else
                .notDirectory))

/- The tree with directories along a path. -/
def makeDirectories
    (tree : FileTree)
    (path : String) : Except FileFault FileTree :=
  tree.makeAlong [] (Path.dropIdleEnd (Path.pieces path))

------------------------------------------------------------
-- Reading What Was Written
------------------------------------------------------------

/- Putting an entry changes what stands at its own place only. -/
theorem entryAt?_put
    (tree : FileTree)
    {place : List String}
    (hPlace : place ≠ [])
    (entry : Entry)
    (other : List String) :
    (tree.put place entry).entryAt? other =
      if other = place then
        some entry
      else
        tree.entryAt? other := by
  unfold entryAt? put
  by_cases hRoot : other = []
  · have hOther : ¬ [] = place := fun h => hPlace h.symm
    simp [hRoot, hOther]
  · simp only [List.isEmpty_iff, hRoot, if_false]
    exact Table.get?_insert tree.entries place other entry

/- Directories still lead on if they are left in place. -/
theorem walk_put
    (tree : FileTree)
    {place : List String}
    (hPlace : place ≠ [])
    (hEntry : tree.entryAt? place ≠ some .directory)
    (entry : Entry)
    {start target pieces : List String}
    (h : tree.walk start pieces = .ok target) :
    (tree.put place entry).walk start pieces = .ok target := by
  induction pieces generalizing start with
  | nil => exact h
  | cons piece rest ih =>
      unfold walk at h ⊢
      cases hStep : tree.entryAt? (step start piece) with
      | none => simp [hStep] at h
      | some found =>
          cases found with
          | text content => simp [hStep] at h
          | binary => simp [hStep] at h
          | directory =>
              have hOther : step start piece ≠ place := by
                intro hSame
                exact hEntry (hSame ▸ hStep)
              rw [entryAt?_put tree hPlace, if_neg hOther, hStep]
              simp only [hStep] at h
              exact ih h

/- What is left of pieces is not longer. -/
theorem length_dropSlashes_le (pieces : List String) :
    (dropSlashes pieces).length ≤ pieces.length := by
  unfold dropSlashes
  rw [List.length_reverse]
  exact Nat.le_trans
    (List.dropWhile_sublist _).length_le
    (Nat.le_of_eq List.length_reverse)

/- Pieces that lose none of their number are left as they are. -/
theorem dropSlashes_eq_of_length
    {pieces : List String}
    (h : ¬ (dropSlashes pieces).length < pieces.length) :
    dropSlashes pieces = pieces := by
  have hLength := length_dropSlashes_le pieces
  have hBack :
      (pieces.reverse.dropWhile (· == "")).length =
        pieces.reverse.length := by
    unfold dropSlashes at h hLength
    rw [List.length_reverse] at h hLength
    rw [List.length_reverse]
    omega
  unfold dropSlashes
  rw [(List.dropWhile_sublist _).eq_of_length hBack,
    List.reverse_reverse]

/- A text that was written can be read. -/
theorem read_of_write
    {tree written : FileTree}
    {path content : String}
    (h : tree.write path content = .ok written) :
    written.read path = .ok content := by
  unfold write at h
  dsimp only at h
  split at h
  · simp at h
  · simp at h
  · next place last hWalk hLast =>
      split at h
      · simp at h
      · next hLength =>
          rw [dropSlashes_eq_of_length hLength] at hWalk hLast
          have hPath : path.isEmpty = false := by
            cases hEmpty : path.isEmpty with
            | false => rfl
            | true =>
                have hText : path = "" := by simpa using hEmpty
                subst hText
                exact (hLength (by decide)).elim
          have hMade :
              tree.entryAt? (step place last) ≠ some .directory
                ∧ tree.put (step place last) (.text content) =
                  written := by
            split at h
            · simp at h
            · next hEntry =>
                exact ⟨hEntry, Except.ok.inj h⟩
          have hPlace : step place last ≠ [] := by
            intro hRoot
            exact hMade.1 (by rw [hRoot]; rfl)
          rw [← hMade.2]
          unfold read
          dsimp only
          rw [walk_put tree hPlace hMade.1 (.text content) hWalk,
            hLast]
          simp only [hPath]
          rw [entryAt?_put tree hPlace, if_pos rfl]
          rfl

end FileTree

end PipelineScript
