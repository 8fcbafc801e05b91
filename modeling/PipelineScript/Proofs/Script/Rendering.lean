import PipelineScript.Proofs.Lexis.Statements
import PipelineScript.Settings.Settings

/-
  Items of code as lines, and what their indent is to a
  reader of the script.

  Key definitions include:
    * `Code.entries`
    * `Code.texts`
    * `Code.lineAt`

  Key theorems include:
    * `Code.render_eq_map`
    * `Code.yields_lineAt`
-/

namespace PipelineScript

namespace Code

------------------------------------------------------------
-- Items as Entries
------------------------------------------------------------

mutual

/- The texts of an item, each with its level. -/
def entriesOf (level : Nat) : Item → List (Nat × String)
  | .line text => [(level, text)]
  | .blank => [(level, "")]
  | .block header body =>
      (level, header) :: entries (level + 1) body

/- The texts of items, each with its level. -/
def entries (level : Nat) : List Item → List (Nat × String)
  | [] => []
  | item :: rest => entriesOf level item ++ entries level rest

end

/- The entries of items behind other items. -/
theorem entries_append
    (level : Nat)
    (first second : List Item) :
    entries level (first ++ second) =
      entries level first ++ entries level second := by
  induction first with
  | nil => rfl
  | cons item first ih =>
      rw [List.cons_append, entries, entries, ih,
        List.append_assoc]

mutual

/- An item that stands deeper has deeper entries. -/
theorem entriesOf_add
    (base level : Nat) :
    ∀ item,
      entriesOf (base + level) item =
        (entriesOf level item).map fun entry =>
          (base + entry.1, entry.2)
  | .line text => rfl
  | .blank => rfl
  | .block header body => by
      rw [entriesOf, entriesOf, List.map_cons, Nat.add_assoc,
        entries_add base (level + 1) body]

/- Items that stand deeper have deeper entries. -/
theorem entries_add
    (base level : Nat) :
    ∀ items,
      entries (base + level) items =
        (entries level items).map fun entry =>
          (base + entry.1, entry.2)
  | [] => rfl
  | item :: rest => by
      rw [entries, entries, List.map_append,
        entriesOf_add base level item, entries_add base level rest]

end

mutual

/- The texts of an item. -/
def textsOf : Item → List String
  | .line text => [text]
  | .blank => [""]
  | .block header body => header :: texts body

/- The texts of items. -/
def texts : List Item → List String
  | [] => []
  | item :: rest => textsOf item ++ texts rest

end

mutual

/- The entries of an item have its texts. -/
theorem map_snd_entriesOf
    (level : Nat) :
    ∀ item, (entriesOf level item).map Prod.snd = textsOf item
  | .line text => rfl
  | .blank => rfl
  | .block header body => by
      rw [entriesOf, textsOf, List.map_cons,
        map_snd_entries (level + 1) body]

/- The entries of items have their texts. -/
theorem map_snd_entries
    (level : Nat) :
    ∀ items, (entries level items).map Prod.snd = texts items
  | [] => rfl
  | item :: rest => by
      rw [entries, texts, List.map_append,
        map_snd_entriesOf level item, map_snd_entries level rest]

end

/- What holds of all texts holds of the texts of all entries. -/
theorem forall_mem_entries
    {items : List Item}
    {P : String → Prop}
    (hTexts : ∀ text ∈ texts items, P text)
    (level : Nat) :
    ∀ entry ∈ entries level items, P entry.2 := by
  rw [← map_snd_entries level] at hTexts
  exact List.forall_mem_map.mp hTexts

/- The texts of items behind other items. -/
theorem texts_append (first second : List Item) :
    texts (first ++ second) = texts first ++ texts second := by
  rw [← map_snd_entries 0, entries_append, List.map_append,
    map_snd_entries, map_snd_entries]

/- An entry as a line. An empty one is not indented. -/
def lineAt
    (unit : String)
    (entry : Nat × String) : String :=
  if entry.2.isEmpty then
    ""
  else
    Writer.indented unit entry.1 entry.2

mutual

/- An item is written as its entries. -/
theorem put_eq
    (writer : Writer) :
    ∀ item,
      writer.put item =
        { writer with
          lines :=
            writer.lines ++
              (entriesOf writer.level item).map
                (lineAt writer.unit) }
  | .line text => rfl
  | .blank => rfl
  | .block header body => by
      simp only [Writer.put, Writer.block, putAll_eq, entriesOf,
        Writer.deeper, Writer.line, List.map_cons,
        List.append_assoc, List.singleton_append]
      rfl

/- Items are written as their entries. -/
theorem putAll_eq
    (writer : Writer) :
    ∀ items,
      writer.putAll items =
        { writer with
          lines :=
            writer.lines ++
              (entries writer.level items).map
                (lineAt writer.unit) }
  | [] => by simp [Writer.putAll, entries]
  | item :: rest => by
      rw [Writer.putAll, put_eq, putAll_eq, entries,
        List.map_append, List.append_assoc]

end

/- The lines of items are those of their entries. -/
theorem render_eq_map
    (unit : String)
    (items : List Item) :
    render unit items =
      (entries 0 items).map (lineAt unit) := by
  rw [render, putAll_eq]
  rfl

------------------------------------------------------------
-- Indents
------------------------------------------------------------

/- An indent that consists of room. -/
def IsRoom (unit : String) : Prop :=
  ∀ c ∈ unit.toList, Lexis.isRoom c

/- The indent of any level is room. -/
theorem isRoom_replicate
    {unit : String}
    (hUnit : IsRoom unit)
    (level : Nat) :
    IsRoom (String.join (List.replicate level unit)) := by
  intro c hMem
  rw [String.toList_join, List.mem_flatMap] at hMem
  rcases hMem with ⟨copy, hCopy, hMem⟩
  rw [List.eq_of_mem_replicate hCopy] at hMem
  exact hUnit c hMem

/- The indent of a line changes nothing about its tokens. -/
theorem lineTokens?_lineAt
    {unit : String}
    (hUnit : IsRoom unit)
    (entry : Nat × String)
    (depth : Nat) :
    Lexis.lineTokens? depth (lineAt unit entry).toList =
      Lexis.lineTokens? depth entry.2.toList := by
  unfold lineAt
  split
  · next hEmpty => rw [String.isEmpty_iff.mp hEmpty]
  · rw [Writer.indented, String.toList_append]
    exact Lexis.lineTokens?_room
      (isRoom_replicate hUnit entry.1) _

/- Good entries are good lines, whatever their indent is. -/
theorem yields_lineAt
    {unit : String}
    (hUnit : IsRoom unit)
    {IsGood : List Lexis.Placed → Prop}
    {given : List (Nat × String)}
    (hYields : Lexis.Yields IsGood (given.map Prod.snd)) :
    Lexis.Yields IsGood (given.map (lineAt unit)) := by
  rcases hYields with ⟨statements, hStatements, hGood⟩
  rw [List.map_map] at hStatements
  have hSame (entry : Nat × String) (depth : Nat) :
      Lexis.lineTokens? depth entry.2.toList =
        Lexis.lineTokens? depth (lineAt unit entry).toList :=
    (lineTokens?_lineAt hUnit entry depth).symm
  rcases Lexis.exists_gather_map hSame rfl hStatements with
    ⟨others, hOthers, hTokens⟩
  refine ⟨others, ?_, ?_⟩
  · rw [List.map_map]
    exact hOthers
  · intro statement hStatement
    have hMem :
        statement.tokens ∈
          statements.map Lexis.Statement.tokens := by
      rw [← hTokens]
      exact List.mem_map_of_mem hStatement
    rcases List.mem_map.mp hMem with ⟨other, hOther, hEq⟩
    rw [← hEq]
    exact hGood other hOther

end Code

------------------------------------------------------------
-- Indents
------------------------------------------------------------

namespace Settings

variable {indent : String}

/- An indent is room. -/
theorem isRoom
    (hIndent : isIndent indent) :
    Code.IsRoom indent := by
  rw [isIndent, Bool.and_eq_true] at hIndent
  exact List.all_eq_true.mp hIndent.2

/- An indent has some width. -/
theorem length_pos
    (hIndent : isIndent indent) :
    0 < indent.length := by
  rw [isIndent, Bool.and_eq_true] at hIndent
  rw [Nat.pos_iff_ne_zero, Ne, String.length_eq_zero_iff]
  rintro rfl
  exact absurd hIndent.1 (by decide)

end Settings

end PipelineScript
