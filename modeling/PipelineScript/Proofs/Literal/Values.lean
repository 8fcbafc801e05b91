import PipelineScript.Proofs.Json.Values
import PipelineScript.Proofs.Literal.Reading

/-
  The literal of a value stands for that value and for no
  other.

  A literal is on one line whatever the value says, and it is
  read back with the kinds of its numbers, the characters of
  its texts and the order of its items and keys.

  Key definitions include:
    * `Json.Value.datum`
    * `Json.Value.HasDistinctKeys`
    * `Datum.value?`
    * `Literal.StandsFor`

  Key theorems include:
    * `Datum.value?_datum`
    * `Datum.reads_value`
    * `Datum.reads_tupleOf`
    * `Literal.value_is_faithful`
-/

namespace PipelineScript

------------------------------------------------------------
-- Values as Data
------------------------------------------------------------

/- A number in its written kind. -/
def Number.datum : Number → Datum
  | .integer value _ => .integer value
  | .binary value => .float value

namespace Json.Value

mutual

/- What a value of any shape is in a script. -/
def datum : Value → Datum
  | .null => .nothing
  | .boolean flag => .truth flag
  | .number n => n.datum
  | .text content => .text content
  | .array items => .list (itemData items)
  | .object members => .mapping (memberData members)

/- The items of an array, each as a datum. -/
def itemData : List Value → List Datum
  | [] => []
  | item :: rest => datum item :: itemData rest

/- The members of an object, under the same keys. -/
def memberData :
    List (String × Value) → List (String × Datum)
  | [] => []
  | (key, item) :: rest => (key, datum item) :: memberData rest

end

/- Items become data one by one. -/
theorem itemData_eq (items : List Value) :
    itemData items = items.map datum := by
  induction items with
  | nil => rfl
  | cons item items ih => rw [itemData, ih, List.map_cons]

/- So do members. -/
theorem memberData_eq (members : List (String × Value)) :
    memberData members =
      members.map fun member =>
        (member.1, member.2.datum) := by
  induction members with
  | nil => rfl
  | cons member members ih =>
      rcases member with ⟨key, item⟩
      rw [memberData, ih, List.map_cons]

/- The keys stay as they are. -/
theorem keys_memberData (members : List (String × Value)) :
    Entries.keys (memberData members) =
      Entries.keys members := by
  rw [memberData_eq, Entries.keys, Entries.keys, List.map_map]
  rfl

/-
  No object in the value has a key twice, at any depth. How
  many levels the value has does not count.
-/
def HasDistinctKeys (value : Value) : Prop :=
  ∃ depth, value.Fits depth

end Json.Value

------------------------------------------------------------
-- Data as Values
------------------------------------------------------------

namespace Datum

mutual

/-
  The value of a document that a datum comes from. There is
  none for an integer of more than 64 bits, and for tuples.
-/
def value? : Datum → Option Json.Value
  | .nothing => some .null
  | .truth flag => some (.boolean flag)
  | .integer n => (Number.ofInt? n).map .number
  | .float value => some (.number (.binary value))
  | .text content => some (.text content)
  | .list items => (itemValues? items).map .array
  | .tuple _ => none
  | .mapping entries => (memberValues? entries).map .object

/- The values that some data come from. -/
def itemValues? : List Datum → Option (List Json.Value)
  | [] => some []
  | item :: rest => do
      let value ← value? item
      let values ← itemValues? rest
      some (value :: values)

/- The members that some entries come from. -/
def memberValues? :
    List (String × Datum) → Option (List (String × Json.Value))
  | [] => some []
  | (key, item) :: rest => do
      let value ← value? item
      let values ← memberValues? rest
      some ((key, value) :: values)

end

/- A number is got back in its kind. -/
theorem value?_number (n : Number) :
    n.datum.value? = some (.number n) := by
  cases n with
  | integer value hRange =>
      rw [Number.datum, value?, Number.ofInt?, dif_pos hRange]
      rfl
  | binary value => rfl

mutual

/- A value of any shape is got back from its datum. -/
theorem value?_datum :
    ∀ value : Json.Value, value.datum.value? = some value
  | .null => rfl
  | .boolean _ => rfl
  | .number n => value?_number n
  | .text _ => rfl
  | .array items => by
      rw [Json.Value.datum, value?, itemValues?_itemData items]
      rfl
  | .object members => by
      rw [Json.Value.datum, value?,
        memberValues?_memberData members]
      rfl

/- So are items. -/
theorem itemValues?_itemData :
    ∀ items : List Json.Value,
      itemValues? (Json.Value.itemData items) = some items
  | [] => rfl
  | item :: rest => by
      rw [Json.Value.itemData, itemValues?, value?_datum item,
        itemValues?_itemData rest]
      rfl

/- So are members. -/
theorem memberValues?_memberData :
    ∀ members : List (String × Json.Value),
      memberValues? (Json.Value.memberData members) =
        some members
  | [] => rfl
  | (key, item) :: rest => by
      rw [Json.Value.memberData, memberValues?,
        value?_datum item, memberValues?_memberData rest]
      rfl

end

------------------------------------------------------------
-- Values That Are Read Back
------------------------------------------------------------

/- What holds nothing in brackets is read at every level. -/
theorem reads_at
    {text : String}
    {datum : Datum}
    (hReads : ∀ {inner}, Reads (readAround inner) text datum)
    (levels : Nat) :
    Reads (readDatum levels) text datum := by
  cases levels with
  | zero => exact hReads
  | succ levels => exact hReads

/- A number of either kind is read back. -/
theorem reads_number
    {inner : Reader Datum}
    (n : Number) :
    Reads (readAround inner) (Literal.number n) n.datum := by
  cases n with
  | integer value hRange => exact reads_integer value hRange
  | binary value => exact reads_binary value

/- No part is longer than all parts together. -/
theorem length_part_le
    {text : String}
    {texts : List String}
    (hMem : text ∈ texts) :
    text.length ≤ (", ".intercalate texts).length := by
  induction texts with
  | nil => simp at hMem
  | cons first texts ih =>
      cases texts with
      | nil =>
          rw [List.mem_singleton] at hMem
          rw [hMem, String.intercalate_singleton]
      | cons second texts =>
          rw [String.intercalate_cons_cons, String.length_append,
            String.length_append]
          rcases List.mem_cons.mp hMem with rfl | hRest
          · omega
          · have hLength := ih hRest
            omega

/- A bracket leaves a level for what stands behind it. -/
theorem exists_level_inside
    {c : Char}
    {text closing : String}
    {levels : Nat}
    (hLevels :
      (String.ofList [c] ++ text ++ closing).length ≤ levels) :
    ∃ left, levels = left + 1 ∧ text.length ≤ left := by
  rw [String.length_append, String.length_append,
    String.length_ofList, List.length_singleton] at hLevels
  exact ⟨levels - 1, by omega, by omega⟩

/- Items are written one by one. -/
theorem itemTexts_eq (items : List Json.Value) :
    Literal.itemTexts items = items.map Literal.value := by
  induction items with
  | nil => rfl
  | cons item items ih =>
      rw [Literal.itemTexts, ih, List.map_cons]

/- So are members, with their keys in quotes. -/
theorem memberTexts_eq (members : List (String × Json.Value)) :
    Literal.memberTexts members =
      members.map fun member =>
        Literal.text member.1 ++ ": "
          ++ Literal.value member.2 := by
  induction members with
  | nil => rfl
  | cons member members ih =>
      rcases member with ⟨key, item⟩
      rw [Literal.memberTexts, ih, List.map_cons]

/- Items are read back if each of them is that fits inside. -/
theorem reads_items
    {left : Nat}
    {items : List Json.Value}
    (hLength :
      ∀ text ∈ Literal.itemTexts items, text.length ≤ left)
    (hReads :
      ∀ item ∈ items,
        (Literal.value item).length ≤ left →
          Reads (readDatum left) (Literal.value item)
            item.datum) :
    List.Forall₂ (Reads (readDatum left))
      (Literal.itemTexts items)
      (Json.Value.itemData items) := by
  rw [itemTexts_eq] at hLength ⊢
  rw [Json.Value.itemData_eq, List.forall₂_map_left_iff,
    List.forall₂_map_right_iff, List.forall₂_same]
  intro item hItem
  exact hReads item hItem
    (hLength _ (List.mem_map_of_mem hItem))

/- So are members. -/
theorem reads_members
    {left : Nat}
    {members : List (String × Json.Value)}
    (hLength :
      ∀ text ∈ Literal.memberTexts members,
        text.length ≤ left)
    (hReads :
      ∀ member ∈ members,
        (Literal.value member.2).length ≤ left →
          Reads (readDatum left) (Literal.value member.2)
            member.2.datum) :
    List.Forall₂ (Reads (readMember (readDatum left)))
      (Literal.memberTexts members)
      (Json.Value.memberData members) := by
  rw [memberTexts_eq] at hLength ⊢
  rw [Json.Value.memberData_eq, List.forall₂_map_left_iff,
    List.forall₂_map_right_iff, List.forall₂_same]
  intro member hMember
  have hPart := hLength _ (List.mem_map_of_mem hMember)
  rw [String.length_append] at hPart
  exact reads_member member.1
    (hReads member hMember (by omega))

/-
  A value is read back by a reader that has a level for every
  character, as brackets take characters.
-/
theorem reads_value
    {depth levels : Nat}
    {value : Json.Value}
    (hFits : value.Fits depth)
    (hLevels : (Literal.value value).length ≤ levels) :
    Reads (readDatum levels) (Literal.value value)
      value.datum := by
  induction hFits generalizing levels with
  | null =>
      have hWord :
          (['N', 'o', 'n', 'e'], Datum.nothing) ∈ words :=
        List.mem_cons_self
      exact reads_at (reads_word hWord) levels
  | boolean flag => exact reads_at (reads_boolean flag) levels
  | number n => exact reads_at (reads_number n) levels
  | text content => exact reads_at (reads_text content) levels
  | @array depth items _ ih =>
      rcases exists_level_inside hLevels with
        ⟨left, rfl, hInside⟩
      apply reads_list
      apply reads_items
      · intro text hText
        exact Nat.le_trans (length_part_le hText) hInside
      · intro item hItem hLength
        exact ih item hItem hLength
  | @object depth members hKeys _ ih =>
      rcases exists_level_inside hLevels with
        ⟨left, rfl, hInside⟩
      rw [← Json.Value.keys_memberData] at hKeys
      apply reads_mapping hKeys
      apply reads_members
      · intro text hText
        exact Nat.le_trans (length_part_le hText) hInside
      · intro member hMember hLength
        exact ih member hMember hLength

/- A tuple of any length is read back. -/
theorem reads_tupleOf
    {levels : Nat}
    {items : List Json.Value}
    (hItems : ∀ item ∈ items, item.HasDistinctKeys)
    (hLevels : (Literal.tuple items).length ≤ levels) :
    Reads (readDatum levels) (Literal.tuple items)
      (.tuple (Json.Value.itemData items)) := by
  -- All items are read back where there is a level for each.
  have hInside (left : Nat)
      (hLength :
        ∀ text ∈ Literal.itemTexts items, text.length ≤ left) :
      List.Forall₂ (Reads (readDatum left))
        (Literal.itemTexts items)
        (Json.Value.itemData items) := by
    apply reads_items hLength
    intro item hItem hLevels
    rcases hItems item hItem with ⟨depth, hFits⟩
    exact reads_value hFits hLevels
  unfold Literal.tuple at hLevels ⊢
  split at hLevels
  · next single hSingle =>
      rcases exists_level_inside hLevels with
        ⟨left, rfl, hLength⟩
      have hAll := hInside left
      rw [hSingle, List.forall_mem_singleton] at hAll
      rcases List.forall₂_cons_left_iff.mp (hAll hLength) with
        ⟨datum, none, hReads, hNone, hData⟩
      rw [List.forall₂_nil_left_iff] at hNone
      rw [hData, hNone]
      exact reads_single hReads
  · next hOther =>
      rcases exists_level_inside hLevels with
        ⟨left, rfl, hLength⟩
      have hReads := hInside left fun text hText =>
        Nat.le_trans (length_part_le hText) hLength
      apply reads_tuple _ hReads
      intro hOne
      rw [← hReads.length_eq] at hOne
      rcases List.length_eq_one_iff.mp hOne with
        ⟨single, hSingle⟩
      exact hOther single hSingle

/- What is read back is all that a text stands for. -/
theorem read?_of_reads
    {text : String}
    {datum : Datum}
    (hReads : Reads (readDatum text.length) text datum) :
    read? text = some datum := by
  have hRead := hReads.read_eq endsLiteral_nil
  rw [List.append_nil] at hRead
  rw [read?, hRead]

end Datum

------------------------------------------------------------
-- Literals as a Whole
------------------------------------------------------------

/- A text that has quiet tokens stands on one line. -/
theorem Lexis.IsQuietText.isLegible
    {text : String}
    (hQuiet : Lexis.IsQuietText text) :
    ∀ c ∈ text.toList, Lexis.isLegible c := by
  rcases hQuiet 0 with
    ⟨tokens, ⟨begun, mode, last, hMoves, -⟩, -⟩
  exact Lexis.isLegible_of_run hMoves

/- A number in positional form has a point. -/
theorem point_mem_positional
    (digits : List Char)
    (exponent : Int) :
    '.' ∈ Number.Layout.positional digits exponent := by
  unfold Number.Layout.positional
  dsimp only
  split
  · simp
  split
  · simp
  · simp

namespace Literal

/- The literal of a binary number has a point. -/
theorem point_mem_binary (x : Binary64) :
    '.' ∈ (binary x).toList := by
  have hMagnitude : '.' ∈ layout.magnitude x := by
    have hPositional :
        ∀ point, layout.isPositional point = true :=
      fun _ => rfl
    unfold Number.Layout.magnitude
    split
    · decide
    · dsimp only
      rw [if_pos (hPositional _)]
      exact point_mem_positional _ _
  rw [binary, String.toList_ofList, Number.Layout.render]
  split
  · exact List.mem_cons_of_mem _ hMagnitude
  · exact hMagnitude

/-
  A text is one literal with nothing behind it, on one line,
  and it stands for a datum.
-/
structure StandsFor
    (text : String)
    (datum : Datum) : Prop where
  read?_eq : Datum.read? text = some datum
  isLegible : ∀ c ∈ text.toList, Lexis.isLegible c

/- The literal of a value stands for the value. -/
theorem standsFor_value
    {value : Json.Value}
    (hKeys : value.HasDistinctKeys) :
    StandsFor (Literal.value value) value.datum where
  read?_eq := by
    rcases hKeys with ⟨depth, hFits⟩
    exact Datum.read?_of_reads
      (Datum.reads_value hFits (Nat.le_refl _))
  isLegible := (Lexis.isQuietText_value value).isLegible

/- A tuple stands for its items, whatever their number. -/
theorem standsFor_tuple
    {items : List Json.Value}
    (hItems : ∀ item ∈ items, item.HasDistinctKeys) :
    StandsFor (tuple items)
      (.tuple (items.map Json.Value.datum)) where
  read?_eq := by
    rw [← Json.Value.itemData_eq]
    exact Datum.read?_of_reads
      (Datum.reads_tupleOf hItems (Nat.le_refl _))
  isLegible := (Lexis.isQuietText_tuple items).isLegible

/- Two values with the same literal are the same value. -/
theorem eq_of_value_eq
    {first second : Json.Value}
    (hFirst : first.HasDistinctKeys)
    (hSecond : second.HasDistinctKeys)
    (hSame : Literal.value first = Literal.value second) :
    first = second := by
  have hData : some first.datum = some second.datum := by
    rw [← (standsFor_value hFirst).read?_eq, hSame,
      (standsFor_value hSecond).read?_eq]
  rw [Option.some.injEq] at hData
  rw [← Option.some.injEq, ← Datum.value?_datum first, hData,
    Datum.value?_datum]

/-
  The literal of a value whose objects have no key twice is
  one literal on one line that stands for the value, and for
  no other such value. A float has a point in it. A tuple of
  such values stands for all of them in their order.
-/
theorem value_is_faithful :
    (∀ value : Json.Value,
      value.HasDistinctKeys →
        StandsFor (Literal.value value) value.datum) ∧
    (∀ first second : Json.Value,
      first.HasDistinctKeys → second.HasDistinctKeys →
        Literal.value first = Literal.value second →
          first = second) ∧
    (∀ x : Binary64,
      '.' ∈ (Literal.value (.number (.binary x))).toList) ∧
    ∀ items : List Json.Value,
      (∀ item ∈ items, item.HasDistinctKeys) →
        StandsFor (tuple items)
          (.tuple (items.map Json.Value.datum)) := by
  refine ⟨?_, ?_, ?_, ?_⟩
  · intro value hKeys
    exact standsFor_value hKeys
  · intro first second hFirst hSecond hSame
    exact eq_of_value_eq hFirst hSecond hSame
  · intro x
    exact point_mem_binary x
  · intro items hItems
    exact standsFor_tuple hItems

/-
  A list of an integer, a float and a text stands for just
  that, zero is written in another way as a float, and a
  tuple of one item is one.
-/
theorem value_of_mixed_list :
    StandsFor
        (Literal.value (.object
          [("it's", .array
            [.number (.integer 0 (by decide)),
              .number (.binary (.zero true)),
              .text "\\n\n\x7f"])]))
        (.mapping
          [("it's", .list
            [.integer 0, .float (.zero true),
              .text "\\n\n\x7f"])]) ∧
      Literal.value (.number (.integer 0 (by decide))) ≠
        Literal.value (.number (.binary (.zero false))) ∧
      StandsFor (tuple [.null]) (.tuple [.nothing]) := by
  rcases value_is_faithful with
    ⟨hValue, hOnly, -, hTuple⟩
  refine ⟨hValue _ ⟨2, .object (by decide) ?_⟩, ?_,
    hTuple [.null] ?_⟩
  · rw [List.forall_mem_singleton]
    apply Json.Value.Fits.array
    rw [List.forall_mem_cons, List.forall_mem_cons,
      List.forall_mem_singleton]
    exact ⟨.number _, .number _, .text _⟩
  · intro hSame
    have hKind := hOnly _ _ ⟨0, .number _⟩ ⟨0, .number _⟩ hSame
    simp at hKind
  · rw [List.forall_mem_singleton]
    exact ⟨0, .null⟩

end Literal

end PipelineScript
