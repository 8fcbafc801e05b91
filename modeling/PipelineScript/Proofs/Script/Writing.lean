import PipelineScript.Proofs.Script.Rendering

/-
  Code as the calls that it makes to a writer, one after the
  other: a line is written, a block is entered, a block is
  left. How deep a line stands is how many blocks were entered
  before it and not left.

  Key definitions include:
    * `Code.Call`
    * `Code.calls`
    * `Code.openBlocks`
    * `Code.placed`

  Key theorems include:
    * `Code.openBlocks_append_calls`
    * `Code.placed_calls`
    * `Code.Writer.putAll_writes_calls`
-/

namespace PipelineScript

namespace Code

------------------------------------------------------------
-- Calls
------------------------------------------------------------

/- What a writer is called for. -/
inductive Call where
  | write (text : String)
  | enter (header : String)
  | leave
deriving DecidableEq, Repr

namespace Call

/- The text of a call that writes a line. -/
def text? : Call → Option String
  | .write text => some text
  | .enter header => some header
  | .leave => none

/- The call opens a block. -/
def isEnter : Call → Bool
  | .enter _ => true
  | _ => false

/- The call closes a block. -/
def isLeave : Call → Bool
  | .leave => true
  | _ => false

end Call

mutual

/- The calls of an item, in their order. -/
def callsOf : Item → List Call
  | .line text => [.write text]
  | .blank => [.write ""]
  | .block header body =>
      .enter header :: (calls body ++ [.leave])

/- The calls of items, in their order. -/
def calls : List Item → List Call
  | [] => []
  | item :: rest => callsOf item ++ calls rest

end

/- The number of calls that write a line. -/
def written (made : List Call) : Nat :=
  made.countP fun call => call.text?.isSome

/- The number of blocks that were entered and not left. -/
def openBlocks (made : List Call) : Nat :=
  made.countP Call.isEnter - made.countP Call.isLeave

------------------------------------------------------------
-- Balance
------------------------------------------------------------

mutual

/- An item leaves every block that it enters. -/
theorem countP_isLeave_callsOf :
    ∀ item,
      (callsOf item).countP Call.isLeave =
        (callsOf item).countP Call.isEnter
  | .line text => rfl
  | .blank => rfl
  | .block header body => by
      have hBody := countP_isLeave_calls body
      simp [callsOf, List.countP_cons, Call.isEnter, Call.isLeave,
        hBody]

/- Items leave every block that they enter. -/
theorem countP_isLeave_calls :
    ∀ items,
      (calls items).countP Call.isLeave =
        (calls items).countP Call.isEnter
  | [] => rfl
  | item :: rest => by
      rw [calls, List.countP_append, List.countP_append,
        countP_isLeave_callsOf item, countP_isLeave_calls rest]

end

variable {past made : List Call}

/- Items leave as many blocks open as they found. -/
theorem openBlocks_append_calls
    (past : List Call)
    (items : List Item) :
    openBlocks (past ++ calls items) = openBlocks past := by
  unfold openBlocks
  rw [List.countP_append, List.countP_append,
    countP_isLeave_calls]
  omega

/- One more block is open behind a header. -/
theorem openBlocks_enter
    (hOpen : past.countP Call.isLeave ≤ past.countP Call.isEnter)
    (header : String) :
    openBlocks (past ++ [.enter header]) =
      openBlocks past + 1 := by
  simp [openBlocks, Call.isEnter, Call.isLeave]
  omega

------------------------------------------------------------
-- Lines in Their Places
------------------------------------------------------------

/-
  The texts of all calls that write a line, each with the
  number of blocks that were open when it was written.
-/
def placed (past : List Call) : List Call → List (Nat × String)
  | [] => []
  | call :: rest =>
      (call.text?.map fun text => (openBlocks past, text)).toList
        ++ placed (past ++ [call]) rest

/- Calls behind other calls find the blocks of these open. -/
theorem placed_append
    (past first second : List Call) :
    placed past (first ++ second) =
      placed past first ++ placed (past ++ first) second := by
  induction first generalizing past with
  | nil => simp [placed]
  | cons call first ih =>
      rw [List.cons_append, placed, placed, ih,
        List.append_assoc, List.append_assoc]
      rfl

/- Every call that writes has one text in its place. -/
theorem length_placed (past made : List Call) :
    (placed past made).length = written made := by
  induction made generalizing past with
  | nil => rfl
  | cons call made ih =>
      rw [placed, List.length_append, ih, written, written,
        List.countP_cons]
      cases call.text? with
      | none => simp
      | some text => simp [Nat.add_comm]

/- The text of a call stands behind those that came before. -/
theorem getElem?_placed
    (past : List Call)
    {before behind : List Call}
    {call : Call}
    {text : String}
    (hText : call.text? = some text) :
    (placed past (before ++ call :: behind))[written before]? =
      some (openBlocks (past ++ before), text) := by
  have hLength := length_placed past before
  rw [placed_append, ← hLength, List.getElem?_append_right
    (Nat.le_refl _), Nat.sub_self, placed, hText]
  rfl

mutual

/- The calls of an item stand where its entries do. -/
theorem placed_callsOf
    (past : List Call)
    (hOpen :
      past.countP Call.isLeave ≤ past.countP Call.isEnter) :
    ∀ item,
      placed past (callsOf item) =
        entriesOf (openBlocks past) item
  | .line text => rfl
  | .blank => rfl
  | .block header body => by
      have hInside :
          (past ++ [Call.enter header]).countP Call.isLeave ≤
            (past ++ [Call.enter header]).countP
              Call.isEnter := by
        simp [Call.isEnter, Call.isLeave]
        omega
      have hBody :=
        placed_calls (past ++ [.enter header]) hInside body
      rw [callsOf, placed, placed_append, hBody,
        openBlocks_enter hOpen header, entriesOf]
      simp [placed, Call.text?]

/- The calls of items stand where their entries do. -/
theorem placed_calls
    (past : List Call)
    (hOpen :
      past.countP Call.isLeave ≤ past.countP Call.isEnter) :
    ∀ items,
      placed past (calls items) =
        entries (openBlocks past) items
  | [] => rfl
  | item :: rest => by
      have hNext :
          (past ++ callsOf item).countP Call.isLeave ≤
            (past ++ callsOf item).countP Call.isEnter := by
        rw [List.countP_append, List.countP_append,
          countP_isLeave_callsOf]
        omega
      have hSame :
          openBlocks (past ++ callsOf item) =
            openBlocks past := by
        have hAll := openBlocks_append_calls past [item]
        rwa [calls, calls, List.append_nil] at hAll
      rw [calls, placed_append,
        placed_callsOf past hOpen item,
        placed_calls (past ++ callsOf item) hNext rest, hSame,
        entries]

end

namespace Writer

/-
  Whatever was written before, code adds one line for every
  line, every empty line and every header in it, in the order
  of its calls. An empty text is an empty line. Any other one
  stands behind as many units as there are levels, those of the
  writer and those of the blocks that are open. The writer is
  at the level where it was.
-/
theorem putAll_writes_calls
    (writer : Writer)
    (items : List Item) :
    ∃ lines,
      (writer.putAll items).lines = writer.lines ++ lines ∧
      lines.length = written (calls items) ∧
      (∀ before call behind text,
        calls items = before ++ call :: behind →
          call.text? = some text →
            lines[written before]? =
              some
                (if text = "" then
                  ""
                else
                  String.join
                      (List.replicate
                        (writer.level + openBlocks before)
                        writer.unit)
                    ++ text)) ∧
      (writer.putAll items).level = writer.level ∧
      (writer.putAll items).unit = writer.unit := by
  have hPlaced : placed [] (calls items) = entries 0 items :=
    placed_calls [] (Nat.le_refl 0) items
  have hEntries :=
    entries_add writer.level 0 items
  rw [Nat.add_zero, ← hPlaced] at hEntries
  rw [putAll_eq, hEntries]
  refine ⟨_, rfl, ?_, ?_, rfl, rfl⟩
  · rw [List.length_map, List.length_map, length_placed]
  · intro before call behind text hCalls hText
    rw [hCalls, List.getElem?_map, List.getElem?_map,
      getElem?_placed [] hText, List.nil_append, Option.map_some,
      Option.map_some, lineAt]
    simp only [String.isEmpty_iff, indented]

/- A block in a block, and an empty line behind both. -/
example :
    render "  "
        [.line "x = 1",
          .block "if x:"
            [.line "", .block "for i in y:" [.line "pass"]],
          .blank] =
      ["x = 1", "if x:", "", "  for i in y:", "    pass", ""] := by
  decide

end Writer

end Code

end PipelineScript
