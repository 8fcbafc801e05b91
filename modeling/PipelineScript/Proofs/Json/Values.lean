import PipelineScript.Proofs.Json.Reading

/-
  Values of any shape are read back.

  A value is read back where the reader has enough levels left
  for it, and where no object in it has a key twice.

  Key definitions include:
    * `Json.Value.Fits`

  Key theorems include:
    * `Json.Reader.value_reads`
-/

namespace PipelineScript

namespace Json

------------------------------------------------------------
-- Values That Fit
------------------------------------------------------------

/-
  A value has at most so many levels, and its objects have no
  key twice, at any depth.
-/
inductive Value.Fits : (depth : Nat) → Value → Prop
  | null {depth : Nat} : Fits depth .null
  | boolean {depth : Nat} (value : Bool) :
      Fits depth (.boolean value)
  | number {depth : Nat} (value : Number) :
      Fits depth (.number value)
  | text {depth : Nat} (value : String) :
      Fits depth (.text value)
  | array
      {depth : Nat}
      {items : List Value}
      (hItems : ∀ item ∈ items, Fits depth item) :
      Fits (depth + 1) (.array items)
  | object
      {depth : Nat}
      {members : List (String × Value)}
      (hKeys : (Entries.keys members).Nodup)
      (hMembers : ∀ member ∈ members, Fits depth member.2) :
      Fits (depth + 1) (.object members)

namespace Reader

variable {ω : Type}

------------------------------------------------------------
-- Scalars
------------------------------------------------------------

/- What encloses nothing is read alike at every depth. -/
theorem value_reads_of_around
    {shown : Value}
    (hReads :
      ∀ inner : Option (Reader ω Value),
        (valueAround inner).Reads shown shown)
    (depth : Nat) :
    (Reader.value depth : Reader ω Value).Reads shown shown := by
  cases depth with
  | zero => exact hReads none
  | succ depth => exact hReads (some (Reader.value depth))

------------------------------------------------------------
-- Containers
------------------------------------------------------------

variable {item : Reader ω Value}

/- Entries with new keys are put behind those before. -/
theorem entries_fill
    {before entries : List (String × Value)}
    (hKeys : (Entries.keys (before ++ entries)).Nodup)
    (hReads :
      ∀ entry ∈ entries, item.Reads entry.2 entry.2) :
    Fills
      (fun entries key =>
        item.map fun value => Entries.put key value entries)
      before entries (before ++ entries) := by
  induction entries generalizing before with
  | nil =>
      rw [List.append_nil]
      exact .nil before
  | cons entry entries ih =>
      rcases entry with ⟨key, value⟩
      rw [List.forall_mem_cons] at hReads
      have hNew : key ∉ Entries.keys before := by
        rw [Entries.keys, List.map_append, List.map_cons,
          List.nodup_append] at hKeys
        intro hMem
        exact hKeys.2.2 key hMem key List.mem_cons_self rfl
      have hPut :
          Entries.put key value before =
            before ++ [(key, value)] :=
        Entries.put_of_not_mem value hNew
      rw [List.append_cons] at hKeys ⊢
      have hRest := ih hKeys hReads.2
      rw [← hPut] at hRest ⊢
      exact .cons (hReads.1.map _) hRest

/- An array is read back if its items are. -/
theorem array_reads
    {items : List Value}
    (hReads : ∀ shown ∈ items, item.Reads shown shown) :
    (valueAround (some item)).Reads (.array items)
      (.array items) where
  read_eq := by
    have hItems := items_reads id hReads
    rw [List.map_id] at hItems
    rw [Document.ofValue, valueAround]
    dsimp only
    rw [hItems]
    rfl

/- An object is read back if its members are. -/
theorem object_reads
    {members : List (String × Value)}
    (hKeys : (Entries.keys members).Nodup)
    (hReads :
      ∀ member ∈ members, item.Reads member.2 member.2) :
    (valueAround (some item)).Reads (.object members)
      (.object members) where
  read_eq := by
    rw [← List.nil_append members] at hKeys
    have hMembers := (entries_fill hKeys hReads).members_eq
    rw [List.nil_append] at hMembers
    rw [Document.ofValue, valueAround]
    dsimp only
    rw [hMembers]
    rfl

/- A value that fits is read back. -/
theorem value_reads
    {depth : Nat}
    {value : Value}
    (hFits : value.Fits depth) :
    (Reader.value depth : Reader ω Value).Reads value value := by
  induction hFits with
  | null => exact value_reads_of_around (fun _ => ⟨rfl⟩) _
  | boolean flag =>
      exact value_reads_of_around (fun _ => ⟨rfl⟩) _
  | number n => exact value_reads_of_around (fun _ => ⟨rfl⟩) _
  | text content =>
      exact value_reads_of_around (fun _ => ⟨rfl⟩) _
  | array _ ih => exact array_reads ih
  | object hKeys _ ih => exact object_reads hKeys ih

end Reader

end Json

end PipelineScript
