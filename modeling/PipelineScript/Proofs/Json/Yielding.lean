import PipelineScript.Proofs.Json.Values
import PipelineScript.Proofs.Outcome

/-
  What is known of everything that a reader accepts, whatever
  the document was.

  A value that was read fits the levels it was read with: no
  level more, and no object with a key twice.

  Key definitions include:
    * `Json.Reader.Yields`

  Key theorems include:
    * `Json.Reader.items_yield`
    * `Json.Reader.members_yield`
    * `Json.Reader.value_yields`
    * `Json.Reader.table_yields`
    * `Json.Record.reader_yields`
-/

namespace PipelineScript

namespace Json

namespace Reader

variable {ω α β σ : Type}
variable {reader : Reader ω α} {P : α → Prop}

/- Everything that a reader accepts has a property. -/
structure Yields
    (reader : Reader ω α)
    (P : α → Prop) : Prop where
  of_read :
    ∀ {document : Document} {value : α},
      (reader.read document).outcome = .ok value → P value

------------------------------------------------------------
-- Readers of Readers
------------------------------------------------------------

/- A function that keeps the property may be applied. -/
theorem Yields.map
    {f : α → β}
    {Q : β → Prop}
    (hYields : reader.Yields P)
    (hKeeps : ∀ value, P value → Q (f value)) :
    (reader.map f).Yields Q where
  of_read := by
    intro document value hRead
    rcases Traced.outcome_bind_eq_ok.mp hRead with
      ⟨a, hOk, hMade⟩
    rw [← Except.ok.inj hMade]
    exact hKeeps a (hYields.of_read hOk)

/- Events do not count. -/
theorem Yields.noting
    {remarks : α → List ω}
    (hYields : reader.Yields P) :
    (reader.noting remarks).Yields P where
  of_read := by
    intro document value hRead
    rcases Traced.outcome_bind_eq_ok.mp hRead with
      ⟨a, hOk, hMade⟩
    rw [← Except.ok.inj hMade]
    exact hYields.of_read hOk

/- Nothing need be known of what is accepted. -/
theorem yields_true : reader.Yields fun _ => True where
  of_read := fun _ => trivial

/- A reader that always fails accepts nothing. -/
theorem fault_yields
    {cause : Fault} :
    (Reader.fault cause : Reader ω α).Yields P where
  of_read := by
    intro document value hRead
    cases hRead

/- What is closed is what was there before. -/
theorem eq_of_closed
    {ending : Option Fault}
    {value found : α}
    (hClosed :
      (closed ending value : Traced ω _ _).outcome = .ok found) :
    found = value := by
  cases ending with
  | none => exact (Except.ok.inj hClosed).symm
  | some cause => cases hClosed

------------------------------------------------------------
-- Parts of Containers
------------------------------------------------------------

variable {item : Reader ω α} {ending : Option Fault}

/- All items have what every item has. -/
theorem items_yield
    (hYields : item.Yields P)
    {documents : List Document}
    {values : List α}
    (hRead :
      (items item ending documents).outcome = .ok values) :
    ∀ value ∈ values, P value := by
  induction documents generalizing values with
  | nil =>
      rw [eq_of_closed hRead]
      exact List.forall_mem_nil P
  | cons document documents ih =>
      rcases Traced.outcome_bind_eq_ok.mp hRead with
        ⟨first, hFirst, hRest⟩
      rcases Traced.outcome_bind_eq_ok.mp hRest with
        ⟨others, hOthers, hMade⟩
      rw [← Except.ok.inj hMade, List.forall_mem_cons]
      exact ⟨hYields.of_read hFirst, ih hOthers⟩

variable {member : σ → String → Reader ω σ}
variable {I : σ → Prop} {state final : σ}

/- What every member keeps is kept by all of them. -/
theorem members_yield
    (hMember :
      ∀ state key, I state → (member state key).Yields I)
    {documents : List (Except Fault String × Document)}
    (hState : I state)
    (hRead :
      (members member ending documents state).outcome =
        .ok final) :
    I final := by
  induction documents generalizing state with
  | nil =>
      rw [eq_of_closed hRead]
      exact hState
  | cons first documents ih =>
      rcases first with ⟨cause | key, document⟩
      · cases hRead
      · rcases Traced.outcome_bind_eq_ok.mp hRead with
          ⟨next, hNext, hRest⟩
        exact ih ((hMember state key hState).of_read hNext) hRest

------------------------------------------------------------
-- Values of Any Shape
------------------------------------------------------------

/- Entries that fit and have no key twice. -/
structure EntriesFit
    (depth : Nat)
    (entries : List (String × Value)) : Prop where
  nodup : (Entries.keys entries).Nodup
  fits : ∀ entry ∈ entries, entry.2.Fits depth

/- No entries do. -/
theorem entriesFit_nil (depth : Nat) : EntriesFit depth [] where
  nodup := List.nodup_nil
  fits := by simp

/- A value that fits may be put under any key. -/
theorem EntriesFit.put
    {depth : Nat}
    {entries : List (String × Value)}
    {value : Value}
    (hEntries : EntriesFit depth entries)
    (hValue : value.Fits depth)
    (key : String) :
    EntriesFit depth (Entries.put key value entries) where
  nodup := Entries.nodup_keys_put hEntries.nodup
  fits := by
    intro entry hEntry
    have hFound :=
      (Entries.lookup_eq_some_iff_mem
        (Entries.nodup_keys_put hEntries.nodup)).mpr hEntry
    rw [Entries.lookup_put] at hFound
    split at hFound
    · rw [Option.some.injEq] at hFound
      exact hFound ▸ hValue
    · exact hEntries.fits entry
        ((Entries.lookup_eq_some_iff_mem
          hEntries.nodup).mp hFound)

/- A value fits if the values inside it do. -/
theorem valueAround_yields
    {depth : Nat}
    {inner : Option (Reader ω Value)}
    (hInner :
      ∀ reader ∈ inner, ∃ level,
        depth = level + 1 ∧ reader.Yields (Value.Fits level)) :
    (valueAround inner).Yields (Value.Fits depth) where
  of_read := by
    intro document value hRead
    cases document with
    | null =>
        rw [← Except.ok.inj hRead]
        exact .null
    | boolean flag =>
        rw [← Except.ok.inj hRead]
        exact .boolean flag
    | number n =>
        rw [← Except.ok.inj hRead]
        exact .number n
    | text content =>
        rw [← Except.ok.inj hRead]
        exact .text content
    | flawed => cases hRead
    | array documents ending =>
        cases inner with
        | none => cases hRead
        | some reader =>
            rcases hInner reader rfl with ⟨level, rfl, hYields⟩
            rcases Traced.outcome_bind_eq_ok.mp hRead with
              ⟨values, hValues, hMade⟩
            rw [← Except.ok.inj hMade]
            exact .array (items_yield hYields hValues)
    | object documents ending =>
        cases inner with
        | none => cases hRead
        | some reader =>
            rcases hInner reader rfl with ⟨level, rfl, hYields⟩
            rcases Traced.outcome_bind_eq_ok.mp hRead with
              ⟨entries, hEntries, hMade⟩
            rw [← Except.ok.inj hMade]
            have hFit : EntriesFit level entries :=
              members_yield
                (fun entries key hEntries =>
                  hYields.map fun value hValue =>
                    hEntries.put hValue key)
                (entriesFit_nil level) hEntries
            exact .object hFit.nodup hFit.fits

/- A value that was read fits the levels it was read with. -/
theorem value_yields (depth : Nat) :
    (Reader.value depth : Reader ω Value).Yields
      (Value.Fits depth) := by
  induction depth with
  | zero =>
      apply valueAround_yields
      simp
  | succ depth ih =>
      apply valueAround_yields
      rintro _ ⟨⟩
      exact ⟨depth, rfl, ih⟩

------------------------------------------------------------
-- Tables
------------------------------------------------------------

/- All values of a table have what every value has. -/
theorem table_yields
    {κ : Type}
    [DecidableEq κ]
    {named : String → κ}
    {depth : Nat}
    {item : Nat → Reader ω α}
    (hYields : (item depth).Yields P) :
    (Reader.table named item (depth + 1)).Yields
      fun table => ∀ value ∈ table.values, P value where
  of_read := by
    intro document table hRead
    cases document with
    | object documents ending =>
        refine members_yield
          (I := fun table : Table κ α =>
            ∀ value ∈ table.values, P value) ?_ ?_ hRead
        · intro entries key hEntries
          refine hYields.map fun value hValue => ?_
          intro other hOther
          rcases List.mem_map.mp hOther with ⟨entry, hEntry, rfl⟩
          have hFound := Table.get?_eq_some_iff.mpr hEntry
          rw [Table.get?_insert] at hFound
          split at hFound
          · rw [Option.some.injEq] at hFound
            exact hFound ▸ hValue
          · exact hEntries _ (List.mem_map_of_mem
              (Table.get?_eq_some_iff.mp hFound))
        · simp [Table.empty, Table.values]
    | null | boolean | number | text | array | flawed =>
        cases hRead

end Reader

------------------------------------------------------------
-- Records
------------------------------------------------------------

namespace Record

open Reader

variable {ω σ α : Type} {record : Record ω σ α}
variable {depth : Nat} {I : σ → Prop} {P : α → Prop}

/- What every field keeps is kept by each member. -/
theorem fillMember_yields
    (hFields :
      ∀ field ∈ record.fields,
        (field.fill depth).Yields fun fill =>
          ∀ draft, I draft → I (fill draft))
    (draft : σ)
    (key : String)
    (hDraft : I draft) :
    (record.fillMember depth draft key).Yields I := by
  unfold fillMember
  split
  · next field hField =>
      split
      · exact fault_yields
      · exact (hFields field
          (List.mem_of_find?_eq_some hField)).map
            fun fill hFill => hFill draft hDraft
  · exact yields_true.map fun _ _ => hDraft

/- So is it by the fields of an array. -/
theorem fillItems_yield
    {ending : Option Fault}
    {fields : List (Field ω σ)}
    {documents : List Document}
    {draft final : σ}
    (hFields :
      ∀ field ∈ fields,
        (field.fill depth).Yields fun fill =>
          ∀ draft, I draft → I (fill draft))
    (hDraft : I draft)
    (hRead :
      (fillItems depth ending fields documents draft).outcome =
        .ok final) :
    I final := by
  fun_induction fillItems depth ending fields documents draft with
  | case1 =>
      rw [eq_of_closed hRead]
      exact hDraft
  | case2 => cases hRead
  | case3 field fields document rest draft ih =>
      rw [List.forall_mem_cons] at hFields
      rcases Traced.outcome_bind_eq_ok.mp hRead with
        ⟨fill, hFill, hRest⟩
      exact ih fill hFields.2
        (hFields.1.of_read hFill draft hDraft) hRest

/-
  A record has what its draft promises, if every field keeps
  the promise. It holds of records in either form.
-/
theorem reader_yields
    (hEmpty : I record.empty)
    (hFields :
      ∀ field ∈ record.fields,
        (field.fill depth).Yields fun fill =>
          ∀ draft, I draft → I (fill draft))
    (hComplete :
      ∀ draft value,
        I draft → record.complete draft = .ok value →
          P value) :
    (record.reader (depth + 1)).Yields P where
  of_read := by
    intro document value hRead
    cases document with
    | array documents ending =>
        rcases Traced.outcome_bind_eq_ok.mp hRead with
          ⟨draft, hDraft, hMade⟩
        have hKept := fillItems_yield hFields hEmpty hDraft
        change record.completeArray draft = _ at hMade
        unfold completeArray at hMade
        split at hMade
        · next found hFound =>
            rw [← Except.ok.inj hMade]
            exact hComplete draft found hKept hFound
        · cases hMade
    | object documents ending =>
        rcases Traced.outcome_bind_eq_ok.mp hRead with
          ⟨draft, hDraft, hMade⟩
        have hKept :=
          members_yield (fillMember_yields hFields) hEmpty hDraft
        change record.completeObject draft = _ at hMade
        unfold completeObject at hMade
        split at hMade
        · next found hFound =>
            rw [← Except.ok.inj hMade]
            exact hComplete draft found hKept hFound
        · cases hMade
    | null | boolean | number | text | flawed => cases hRead

end Record

/- What is decoded has what its reader yields. -/
theorem of_decode
    {ω α : Type}
    [Codec]
    {reader : Nat → Reader ω α}
    {P : α → Prop}
    {text : String}
    {value : α}
    (hYields : (reader greatestDepth).Yields P)
    (hDecode : (decode reader text).outcome = .ok value) :
    P value := by
  rcases Traced.outcome_bind_eq_ok.mp hDecode with
    ⟨found, hFound, hClosed⟩
  rw [Reader.eq_of_closed hClosed]
  exact hYields.of_read hFound

end Json

end PipelineScript
