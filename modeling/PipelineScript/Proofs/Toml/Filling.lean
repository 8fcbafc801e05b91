import PipelineScript.Proofs.Toml.Lines

/-
  The tables that come out of a document whose sections follow
  each other: whatever is filled is the last entry of the
  table around it.

  Key definitions include:
    * `Toml.inside`
    * `Toml.Keyed.member`
    * `Toml.tablePart`
    * `Toml.itemPart`

  Key theorems include:
    * `Toml.assignAll_entries`
    * `Toml.underAll_inside`
    * `Toml.underAll_tablePart`
    * `Toml.underAll_itemParts`
-/

namespace PipelineScript

------------------------------------------------------------
-- Last Entries
------------------------------------------------------------

namespace Entries

variable {κ α : Type} [DecidableEq κ]
variable {key : κ} {before : List (κ × α)}

/- A key that is not there has no value. -/
theorem lookup_of_not_mem
    (hNew : key ∉ keys before) :
    before.lookup key = none := by
  rw [List.lookup_eq_none_iff]
  intro entry hEntry
  have hOther : key ≠ entry.1 := by
    rintro rfl
    exact hNew (List.mem_map_of_mem hEntry)
  simpa using hOther

/- The last entry is found if its key is nowhere else. -/
theorem lookup_last
    (hNew : key ∉ keys before)
    (value : α) :
    (before ++ [(key, value)]).lookup key = some value := by
  rw [List.lookup_append, lookup_of_not_mem hNew]
  simp

/- It is the one that another value is put in place of. -/
theorem put_last
    (hNew : key ∉ keys before)
    (old value : α) :
    put key value (before ++ [(key, old)]) =
      before ++ [(key, value)] := by
  induction before with
  | nil => simp [put]
  | cons entry before ih =>
      rw [keys, List.map_cons, List.mem_cons, not_or] at hNew
      rw [List.cons_append, put, if_neg (Ne.symm hNew.1),
        ih hNew.2, List.cons_append]

end Entries

namespace Toml

------------------------------------------------------------
-- Entries
------------------------------------------------------------

/- What an entry adds to a table. -/
def Keyed.branch (entry : Keyed) : String × Tree :=
  (entry.key, .leaf entry.content.value)

/- What an entry is as a member of a table. -/
def Keyed.member (entry : Keyed) : String × Value :=
  (entry.key, entry.content.value)

/- Entries with new keys are added one after the other. -/
theorem assignAll_entries
    {entries : List Keyed}
    {before : Branches}
    (hKeys :
      (Entries.keys before ++ entries.map Keyed.key).Nodup) :
    assignAll (entries.map Keyed.assignment) before =
      some (before ++ entries.map Keyed.branch) := by
  induction entries generalizing before with
  | nil => simp [assignAll]
  | cons entry entries ih =>
      have hNew : entry.key ∉ Entries.keys before := by
        rw [List.map_cons, List.nodup_append] at hKeys
        intro hMem
        exact hKeys.2.2 entry.key hMem entry.key
          List.mem_cons_self rfl
      have hAssign :
          assign entry.content.value true [entry.key] before =
            some (before ++ [entry.branch]) := by
        simp [assign, Entries.lookup_of_not_mem hNew,
          Keyed.branch]
      have hKeys :
          (Entries.keys (before ++ [entry.branch])
            ++ entries.map Keyed.key).Nodup := by
        simpa [Entries.keys, Keyed.branch] using hKeys
      rw [List.map_cons, assignAll, Keyed.assignment, hAssign]
      dsimp only
      rw [ih hKeys, List.map_cons, List.append_assoc]
      rfl

/- The members of a table that entries made. -/
theorem membersOf_entries (entries : List Keyed) :
    membersOf (entries.map Keyed.branch) =
      entries.map Keyed.member := by
  induction entries with
  | nil => rfl
  | cons entry entries ih =>
      rw [List.map_cons, Keyed.branch, membersOf, ih,
        List.map_cons]
      rfl

/- Members are made one by one. -/
theorem membersOf_append (first second : Branches) :
    membersOf (first ++ second) =
      membersOf first ++ membersOf second := by
  induction first with
  | nil => rfl
  | cons branch first ih =>
      rcases branch with ⟨key, tree⟩
      rw [List.cons_append, membersOf, ih, membersOf,
        List.cons_append]

------------------------------------------------------------
-- Sections
------------------------------------------------------------

variable {sections : List Section} {entries made : Branches}

/- Sections behind others fill what those have left. -/
theorem underAll_append
    {middle : Branches}
    {first second : List Section}
    (hFirst : underAll first entries = some middle)
    (hSecond : underAll second middle = some made) :
    underAll (first ++ second) entries = some made := by
  induction first generalizing entries with
  | nil =>
      rw [underAll, Option.some.injEq] at hFirst
      rw [List.nil_append, hFirst, hSecond]
  | cons part first ih =>
      rw [underAll] at hFirst
      split at hFirst
      · simp at hFirst
      · next changed hPart =>
          rw [List.cons_append, underAll, hPart]
          exact ih hFirst

/- The section with a key in front of its path. -/
def inside (key : String) (part : Section) : Section where
  header :=
    { opensItem := part.header.opensItem
      path := key :: part.header.path }
  assignments := part.assignments

/-
  Sections that lead through the last table of a table fill
  it, however it came about.
-/
theorem underAll_inside
    {before inner : Branches}
    {key : String}
    {origin : Origin}
    (hNew : key ∉ Entries.keys before)
    (hPaths : ∀ part ∈ sections, part.header.path ≠ [])
    (hUnder : underAll sections inner = some made) :
    underAll (sections.map (inside key))
        (before ++ [(key, .table origin inner)]) =
      some (before ++ [(key, .table origin made)]) := by
  induction sections generalizing inner with
  | nil =>
      rw [underAll, Option.some.injEq] at hUnder
      rw [hUnder]
      rfl
  | cons part sections ih =>
      rw [List.forall_mem_cons] at hPaths
      rcases List.exists_cons_of_ne_nil hPaths.1 with
        ⟨next, path, hPath⟩
      rw [underAll] at hUnder
      split at hUnder
      · simp at hUnder
      · next changed hPart =>
          rw [hPath] at hPart
          rw [List.map_cons, underAll, inside]
          dsimp only
          rw [hPath, under, Entries.lookup_last hNew]
          dsimp only
          rw [hPart]
          dsimp only [Option.map_some]
          rw [Entries.put_last hNew]
          exact ih hPaths.2 hUnder

/-
  If there is no such table yet, the first of them makes one
  in passing.
-/
theorem underAll_inside_new
    {before : Branches}
    {key : String}
    (hNew : key ∉ Entries.keys before)
    (hSome : sections ≠ [])
    (hPaths : ∀ part ∈ sections, part.header.path ≠ [])
    (hUnder : underAll sections [] = some made) :
    underAll (sections.map (inside key)) before =
      some (before ++ [(key, .table .passed made)]) := by
  rcases List.exists_cons_of_ne_nil hSome with
    ⟨part, others, rfl⟩
  rw [List.forall_mem_cons] at hPaths
  rcases List.exists_cons_of_ne_nil hPaths.1 with
    ⟨next, path, hPath⟩
  rw [underAll] at hUnder
  split at hUnder
  · simp at hUnder
  · next changed hPart =>
      rw [hPath] at hPart
      rw [List.map_cons, underAll, inside]
      dsimp only
      rw [hPath, under, Entries.lookup_of_not_mem hNew]
      dsimp only
      rw [hPart]
      exact underAll_inside hNew hPaths.2 hUnder

------------------------------------------------------------
-- Tables and Lists of Tables
------------------------------------------------------------

/- The table with some entries, under a key. -/
def tablePart (key : String) (entries : List Keyed) : Section where
  header := ⟨false, [key]⟩
  assignments := entries.map Keyed.assignment

/- One more table of the list under a key. -/
def itemPart (key : String) (entries : List Keyed) : Section where
  header := ⟨true, [key]⟩
  assignments := entries.map Keyed.assignment

/- A table of its own comes behind what is there. -/
theorem underAll_tablePart
    {before : Branches}
    {key : String}
    {contents : List Keyed}
    (hNew : key ∉ Entries.keys before)
    (hKeys : (contents.map Keyed.key).Nodup) :
    underAll [tablePart key contents] before =
      some (before
        ++ [(key,
          .table .opened (contents.map Keyed.branch))]) := by
  have hFill :
      assignAll (contents.map Keyed.assignment) [] =
        some (contents.map Keyed.branch) :=
    assignAll_entries hKeys
  simp [underAll, tablePart, under, openLast,
    Entries.lookup_of_not_mem hNew, hFill]

/- Items are added to the list that is the last entry. -/
theorem underAll_itemParts_of_list
    {before : Branches}
    {key : String}
    {tables : List Branches}
    {items : List (List Keyed)}
    (hNew : key ∉ Entries.keys before)
    (hKeys : ∀ item ∈ items, (item.map Keyed.key).Nodup) :
    underAll (items.map (itemPart key))
        (before ++ [(key, .list tables)]) =
      some (before
        ++ [(key,
          .list (tables
            ++ items.map (List.map Keyed.branch)))]) := by
  induction items generalizing tables with
  | nil => simp [underAll]
  | cons item items ih =>
      rw [List.forall_mem_cons] at hKeys
      have hFill :
          assignAll (item.map Keyed.assignment) [] =
            some (item.map Keyed.branch) :=
        assignAll_entries hKeys.1
      rw [List.map_cons, underAll, itemPart]
      dsimp only
      rw [under, openLast, if_pos rfl, Entries.lookup_last hNew]
      dsimp only
      rw [hFill]
      dsimp only [Option.map_some]
      rw [Entries.put_last hNew, ih hKeys.2, List.append_assoc]
      rfl

/- The first item opens the list. -/
theorem underAll_itemParts
    {before : Branches}
    {key : String}
    {items : List (List Keyed)}
    (hNew : key ∉ Entries.keys before)
    (hSome : items ≠ [])
    (hKeys : ∀ item ∈ items, (item.map Keyed.key).Nodup) :
    underAll (items.map (itemPart key)) before =
      some (before
        ++ [(key,
          .list (items.map (List.map Keyed.branch)))]) := by
  rcases List.exists_cons_of_ne_nil hSome with
    ⟨item, others, rfl⟩
  rw [List.forall_mem_cons] at hKeys
  have hFill :
      assignAll (item.map Keyed.assignment) [] =
        some (item.map Keyed.branch) :=
    assignAll_entries hKeys.1
  rw [List.map_cons, underAll, itemPart]
  dsimp only
  rw [under, openLast, if_pos rfl,
    Entries.lookup_of_not_mem hNew]
  dsimp only
  rw [hFill]
  exact underAll_itemParts_of_list hNew hKeys.2

/- The tables of a list as values. -/
theorem tablesOf_items (items : List (List Keyed)) :
    tablesOf (items.map (List.map Keyed.branch)) =
      items.map fun item => .table (item.map Keyed.member) := by
  induction items with
  | nil => rfl
  | cons item items ih =>
      rw [List.map_cons, tablesOf, membersOf_entries, ih,
        List.map_cons]

end Toml

end PipelineScript
