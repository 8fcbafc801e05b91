import PipelineScript.Json.Record

/-
  What it means that a reader reads a value back from the
  document of what it was written as, and how this goes
  together for containers and records: where all parts are
  read back, so is what has them.

  Key definitions include:
    * `Json.Reader.Reads`
    * `Json.Reader.Fills`

  Key theorems include:
    * `Json.Reader.list_reads`
    * `Json.Reader.table_reads`
    * `Json.Record.optional_fills`
    * `Json.Record.reader_reads`
    * `Json.decode_of_reads`
-/

namespace PipelineScript

namespace Json

namespace Reader

variable {ω α β σ : Type}

------------------------------------------------------------
-- Readers That Read a Value Back
------------------------------------------------------------

/- A reader reads what is shown as a value, without events. -/
structure Reads
    (reader : Reader ω α)
    (shown : Value)
    (value : α) : Prop where
  read_eq : reader.read (.ofValue shown) = .done value

variable {reader : Reader ω α} {shown : Value} {value : α}

/- What is read back goes through a function. -/
theorem Reads.map
    (hReads : reader.Reads shown value)
    (f : α → β) :
    (reader.map f).Reads shown (f value) where
  read_eq := by
    unfold Reader.map
    dsimp only
    rw [hReads.read_eq]
    rfl

/- What is read back leaves no events if its value has none. -/
theorem Reads.noting
    {remarks : α → List ω}
    (hReads : reader.Reads shown value)
    (hNone : remarks value = []) :
    (reader.noting remarks).Reads shown value where
  read_eq := by
    unfold Reader.noting
    dsimp only
    rw [hReads.read_eq]
    change Traced.after [] ⟨remarks value, .ok value⟩ = _
    rw [hNone]
    rfl

/- A text is read back. -/
theorem text_reads (content : String) :
    (text : Reader ω String).Reads (.text content) content :=
  ⟨rfl⟩

/- A text that may be missing is read back if it is there. -/
theorem option_reads (content : String) :
    (text.option : Reader ω _).Reads (.text content)
      (some content) :=
  ⟨rfl⟩

/- So is a truth value. -/
theorem boolean_reads (flag : Bool) :
    (boolean : Reader ω Bool).Reads (.boolean flag) flag :=
  ⟨rfl⟩

------------------------------------------------------------
-- Items
------------------------------------------------------------

/- Items are read back if each of them is. -/
theorem items_reads
    {item : Reader ω α}
    (toJson : α → Value)
    {values : List α}
    (hReads : ∀ value ∈ values, item.Reads (toJson value) value) :
    items item none (Document.ofItems (values.map toJson)) =
      .done values := by
  induction values with
  | nil => rfl
  | cons value values ih =>
      rw [List.forall_mem_cons] at hReads
      rw [List.map_cons, Document.ofItems, items,
        hReads.1.read_eq, ih hReads.2]
      rfl

/- So is a list. -/
theorem list_reads
    {depth : Nat}
    (item : Nat → Reader ω α)
    (toJson : α → Value)
    {values : List α}
    (hReads :
      ∀ value ∈ values,
        (item depth).Reads (toJson value) value) :
    (list item (depth + 1)).Reads (.array (values.map toJson))
      values where
  read_eq := items_reads toJson hReads

------------------------------------------------------------
-- Members
------------------------------------------------------------

/-
  Members change a state one after the other, each of them
  being read back.
-/
inductive Fills
    (member : σ → String → Reader ω σ) :
    σ → List (String × Value) → σ → Prop
  | nil (state : σ) : Fills member state [] state
  | cons
      {state next final : σ}
      {key : String}
      {shown : Value}
      {others : List (String × Value)}
      (hMember : (member state key).Reads shown next)
      (hRest : Fills member next others final) :
      Fills member state ((key, shown) :: others) final

variable {member : σ → String → Reader ω σ}
variable {state next final : σ}

/- Members are filled in one list after the other. -/
theorem Fills.append
    {first second : List (String × Value)}
    (hFirst : Fills member state first next)
    (hSecond : Fills member next second final) :
    Fills member state (first ++ second) final := by
  induction hFirst with
  | nil => exact hSecond
  | cons hMember _ ih => exact .cons hMember (ih hSecond)

/- Members that fill a state are read up to it. -/
theorem Fills.members_eq
    {shown : List (String × Value)}
    (hFills : Fills member state shown final) :
    members member none (Document.ofMembers shown) state =
      .done final := by
  induction hFills with
  | nil => rfl
  | cons hMember _ ih =>
      rw [Document.ofMembers, members, hMember.read_eq]
      exact ih

/- Members are inserted into a table one by one. -/
theorem table_fill
    {κ : Type}
    [DecidableEq κ]
    {named : String → κ}
    {key : κ → String}
    {item : Reader ω α}
    {start table : Table κ α}
    {entries : List (κ × α)}
    (toJson : α → Value)
    (hNamed : ∀ k, named (key k) = k)
    (hEntries : table.entries = start.entries ++ entries)
    (hReads :
      ∀ entry ∈ entries, item.Reads (toJson entry.2) entry.2) :
    Fills
      (fun entries key =>
        item.map (entries.insert (named key) ·))
      start
      (entries.map fun entry => (key entry.1, toJson entry.2))
      table := by
  induction entries generalizing start with
  | nil =>
      rw [List.append_nil] at hEntries
      rw [Table.ext_entries hEntries]
      exact .nil start
  | cons entry entries ih =>
      rcases entry with ⟨k, value⟩
      rw [List.forall_mem_cons] at hReads
      have hKeys := table.distinct
      rw [hEntries, Entries.keys, List.map_append,
        List.map_cons, List.nodup_append] at hKeys
      have hNew : k ∉ Entries.keys start.entries := by
        intro hMem
        exact hKeys.2.2 k hMem k List.mem_cons_self rfl
      have hRest :
          table.entries =
            (start.insert (named (key k)) value).entries
              ++ entries := by
        change _ =
          Entries.put (named (key k)) value start.entries
            ++ entries
        rw [hNamed, Entries.put_of_not_mem value hNew, hEntries,
          List.append_assoc]
        rfl
      exact .cons (hReads.1.map _) (ih hRest hReads.2)

/- A table is read back where its values are. -/
theorem table_reads
    {κ : Type}
    [DecidableEq κ]
    {depth : Nat}
    (named : String → κ)
    (key : κ → String)
    (hNamed : ∀ k, named (key k) = k)
    (item : Nat → Reader ω α)
    (toJson : α → Value)
    (entries : Table κ α)
    (hReads :
      ∀ value ∈ entries.values,
        (item depth).Reads (toJson value) value) :
    (table named item (depth + 1)).Reads
      (.object (entries.entries.map fun entry =>
        (key entry.1, toJson entry.2)))
      entries where
  read_eq := by
    refine Fills.members_eq (table_fill toJson hNamed rfl ?_)
    intro entry hEntry
    exact hReads entry.2 (List.mem_map_of_mem hEntry)

end Reader

------------------------------------------------------------
-- Records
------------------------------------------------------------

namespace Record

open Reader

variable {ω σ α : Type} {depth : Nat}
variable {record : Record ω σ α}

/- A member fills the field that it is named for. -/
theorem fillMember_reads
    {draft : σ}
    {key : String}
    {field : Field ω σ}
    {shown : Value}
    {fill : σ → σ}
    (hField :
      record.fields.find? (Field.isNamed key) = some field)
    (hFree : field.isFilled draft = false)
    (hReads : (field.fill depth).Reads shown fill) :
    (record.fillMember depth draft key).Reads shown
      (fill draft) := by
  simp only [fillMember, hField, hFree, Bool.false_eq_true,
    if_false]
  exact hReads.map fun fill => fill draft

/- The member for a text, if there is one. -/
def optionalMember
    (key : String) : Option String → List (String × Value)
  | some text => [(key, .text text)]
  | none => []

/- A text that may be missing fills its place if it is there. -/
theorem optional_fills
    {draft next : σ}
    {key : String}
    {others : List String}
    {content : σ → Option (Option String)}
    {put : Option String → σ → σ}
    (hField :
      record.fields.find? (Field.isNamed key) =
        some (.place key others content put
          fun _ => Reader.text.option))
    (hFree : content draft = none)
    {text : Option String}
    (hNext :
      text.elim draft (fun shown => put (some shown) draft) =
        next) :
    Fills (record.fillMember depth) draft
      (optionalMember key text) next := by
  subst hNext
  cases text with
  | none => exact .nil draft
  | some shown =>
      exact .cons
        (fillMember_reads hField (by simp [Field.place, hFree])
          ((option_reads shown).map put))
        (.nil _)

/- A record is read back if its members fill its draft. -/
theorem reader_reads
    {members : List (String × Value)}
    {draft : σ}
    {value : α}
    (hFills :
      Fills (record.fillMember depth) record.empty members
        draft)
    (hComplete : record.complete draft = .ok value) :
    (record.reader (depth + 1)).Reads (.object members)
      value where
  read_eq := by
    rw [Document.ofValue, reader]
    dsimp only
    rw [hFills.members_eq]
    change Traced.ofExcept (record.completeObject draft) = _
    rw [completeObject, hComplete]
    rfl

end Record

------------------------------------------------------------
-- Whole Texts
------------------------------------------------------------

/- A text that shows what is read back is decoded. -/
theorem decode_of_reads
    {ω α : Type}
    [Codec]
    {reader : Nat → Reader ω α}
    {text : String}
    {shown : Value}
    {value : α}
    (hParse : Codec.parse text = .ofValue shown)
    (hReads : (reader greatestDepth).Reads shown value) :
    decode reader text = .done value := by
  unfold decode
  rw [hParse, Source.ofValue]
  dsimp only
  rw [hReads.read_eq]
  rfl

end Json

end PipelineScript
