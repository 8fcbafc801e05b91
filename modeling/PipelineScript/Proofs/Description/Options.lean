import PipelineScript.Description.Options
import PipelineScript.Proofs.Literal.Values
import PipelineScript.Proofs.Number.Signed

/-
  How options are read.

  All readers go through one lookup, in which a `null` is the
  same as nothing. So options are read alike with and without
  their nulls. A number is read as the integer that it is, as
  far as the integers of 64 bits reach.

  Key definitions include:
    * `Number.StandsFor`
    * `Entries.withoutNulls`
    * `Options.withoutNulls`

  Key theorems include:
    * `Options.integerOr_is_exact_iff`
    * `Options.get?_withoutNulls`
    * `Options.get?_ofMembers_withoutNulls`
-/

namespace PipelineScript

------------------------------------------------------------
-- Integers
------------------------------------------------------------

/-
  What stands for a number where an integer is asked for: the
  value of the number if that is a signed integer of 64 bits,
  and the default if it is none.
-/
structure Number.StandsFor
    (n : Number)
    (default result : Int) : Prop where
  own :
    ∀ signed : Int,
      n.value = signed → IsSigned signed → result = signed
  otherwise :
    (∀ signed : Int, n.value = signed → ¬ IsSigned signed) →
      result = default

namespace Options

variable {ε α : Type}
variable {options others : Options}
variable {key : String} {default : Int} {n : Number}

/- A number is used as an integer, or reported and not used. -/
theorem outcome_integerOr
    (hStored : options.members.lookup key = some (.number n)) :
    (options.integerOr key default :
        Traced Event ε Int).outcome =
      .ok (n.toInteger?.getD default) := by
  have hFound : options.get? key = some (.number n) := by
    simp [get?, hStored, Json.Value.isNull]
  unfold integerOr getOr
  simp only [hFound]
  cases n.toInteger? with
  | none => rfl
  | some signed => rfl

/-
  An integer is read from every number that is stored: the
  value of the number, never anything near it, or the default.
  It is the value wherever that is a signed integer of 64
  bits, and the default elsewhere, for every number but one.
  The least integer in binary is not read as what it is, and
  the default stands for it.
-/
theorem integerOr_is_exact_iff
    (key : String)
    (default : Int)
    (options : Options)
    (n : Number)
    (hStored : options.members.lookup key = some (.number n)) :
    ∃ result : Int,
      (options.integerOr key default :
          Traced Event ε Int).outcome = .ok result ∧
        (n.value = result ∧ Number.IsSigned result ∨
          result = default) ∧
        (n = .binary .leastSigned → result = default) ∧
        (n.StandsFor default result ↔
          n = .binary .leastSigned →
            default = -9223372036854775808) := by
  refine ⟨n.toInteger?.getD default,
    outcome_integerOr hStored, ?_⟩
  cases hRead : n.toInteger? with
  | some signed =>
      rcases Number.toInteger?_eq_some_iff.mp hRead with
        ⟨hValue, hSigned, hOther⟩
      refine ⟨Or.inl ⟨hValue, hSigned⟩,
        fun hLeast => absurd hLeast hOther, ?_⟩
      refine ⟨fun _ hLeast => absurd hLeast hOther,
        fun _ => ⟨?_, ?_⟩⟩
      · intro own hOwn _
        exact_mod_cast hValue.symm.trans hOwn
      · intro hNone
        exact absurd hSigned (hNone signed hValue)
  | none =>
      have hOnly :
          ∀ signed : Int,
            n.value = signed → Number.IsSigned signed →
              n = .binary .leastSigned := by
        intro signed hValue hSigned
        by_contra hOther
        have hSome :=
          Number.toInteger?_eq_some_iff.mpr
            ⟨hValue, hSigned, hOther⟩
        rw [hRead] at hSome
        cases hSome
      refine ⟨Or.inr rfl, fun _ => rfl, ?_⟩
      constructor
      · rintro ⟨hOwn, -⟩ rfl
        exact hOwn _ Binary64.value_leastSigned
          Number.isSigned_least
      · intro hLeast
        refine ⟨?_, fun _ => rfl⟩
        intro signed hValue hSigned
        have hSame := hOnly signed hValue hSigned
        have hDefault := hLeast hSame
        rw [hSame] at hValue
        have hEq :=
          Binary64.value_leastSigned.symm.trans hValue
        rw [Option.getD_none, hDefault]
        exact_mod_cast hEq

/- The greatest integer there is is not rounded into range. -/
theorem integerOr_of_greatest :
    let greatest : Number :=
      .integer 18446744073709551615 (by decide)
    let options : Options := ⟨[("epochs", .number greatest)]⟩
    ∃ result : Int,
      (options.integerOr "epochs" 10 :
          Traced Event CompileError Int).outcome = .ok result ∧
        greatest.StandsFor 10 result := by
  intro greatest options
  rcases integerOr_is_exact_iff (ε := CompileError) "epochs" 10
      options greatest rfl with
    ⟨result, hResult, -, -, hStands⟩
  refine ⟨result, hResult, hStands.mpr ?_⟩
  intro hLeast
  simp [greatest] at hLeast

/- The least integer in binary is in range and not read. -/
theorem integerOr_of_least :
    let least : Number := .binary .leastSigned
    let options : Options := ⟨[("epochs", .number least)]⟩
    least.value = (-9223372036854775808 : Int) ∧
      Number.IsSigned (-9223372036854775808) ∧
      (options.integerOr "epochs" 10 :
          Traced Event CompileError Int).outcome = .ok 10 ∧
      ¬ least.StandsFor 10 10 := by
  intro least options
  have hValue := Binary64.value_leastSigned
  have hNone : least.toInteger? = none := by
    rw [Option.eq_none_iff_forall_ne_some]
    intro signed hSome
    exact (Number.toInteger?_eq_some_iff.mp hSome).2.2 rfl
  refine ⟨hValue, Number.isSigned_least, ?_, ?_⟩
  · rw [outcome_integerOr rfl, hNone]
    rfl
  · intro hStands
    have hOwn := hStands.own _ hValue Number.isSigned_least
    omega

end Options

------------------------------------------------------------
-- Members Without Nulls
------------------------------------------------------------

/- Members of an object, without those that are `null`. -/
def Entries.withoutNulls
    (members : List (String × Json.Value)) :
    List (String × Json.Value) :=
  members.filter fun member => !member.2.isNull

/- Under every key there is what was there, unless `null`. -/
theorem Entries.lookup_withoutNulls
    {members : List (String × Json.Value)}
    (hKeys : (Entries.keys members).Nodup)
    (key : String) :
    (Entries.withoutNulls members).lookup key =
      (members.lookup key).filter (!·.isNull) := by
  have hKept :
      (Entries.keys (Entries.withoutNulls members)).Nodup :=
    hKeys.sublist (List.filter_sublist.map Prod.fst)
  apply Option.ext
  intro value
  rw [Option.filter_eq_some_iff,
    Entries.lookup_eq_some_iff_mem hKept,
    Entries.lookup_eq_some_iff_mem hKeys]
  exact List.mem_filter

namespace Options

variable {ε α : Type} {options others : Options}

/- The options whose values are mappings of options. -/
def sections : List String :=
  ["optimizerConfig", "crop"]

/- A value under a key, without nulls if it is a section. -/
def valueWithoutNulls
    (key : String)
    (value : Json.Value) : Json.Value :=
  match value with
  | .object members =>
      if key ∈ sections then
        .object (Entries.withoutNulls members)
      else
        value
  | _ => value

/-
  The options without those that are `null`, and without those
  in the sections.
-/
def withoutNulls (options : Options) : Options where
  members :=
    (Entries.withoutNulls options.members).map fun member =>
      (member.1, valueWithoutNulls member.1 member.2)

/- A value that has changed is what it was under its key. -/
theorem lookup_map_values
    (change : String → Json.Value → Json.Value)
    (members : List (String × Json.Value))
    (key : String) :
    (members.map fun member =>
        (member.1, change member.1 member.2)).lookup key =
      (members.lookup key).map (change key) := by
  induction members with
  | nil => rfl
  | cons member rest ih =>
      rcases member with ⟨first, value⟩
      by_cases hFirst : key = first
      · subst hFirst
        simp
      · have hTest : (key == first) = false := by
          simp [hFirst]
        simp [List.lookup_cons, hTest, ih]

/- Taking nulls out of a value does not make it one. -/
theorem isNull_valueWithoutNulls
    (key : String)
    (value : Json.Value) :
    (valueWithoutNulls key value).isNull = value.isNull := by
  unfold valueWithoutNulls
  split
  · split <;> rfl
  · rfl

/-
  The lookup that all readers go through finds the same, with
  the nulls taken out of what it finds.
-/
theorem get?_withoutNulls
    (hKeys : options.keys.Nodup)
    (key : String) :
    options.withoutNulls.get? key =
      (options.get? key).map (valueWithoutNulls key) := by
  unfold get? withoutNulls
  rw [lookup_map_values, Entries.lookup_withoutNulls hKeys]
  cases options.members.lookup key with
  | none => rfl
  | some value =>
      have hSame := isNull_valueWithoutNulls key value
      cases hNull : value.isNull with
      | true => simp [Option.filter, hNull]
      | false =>
          rw [hNull] at hSame
          simp [Option.filter, hNull, hSame]

/- It finds just the same where there is no section. -/
theorem get?_withoutNulls_of_not_mem
    (hKeys : options.keys.Nodup)
    {key : String}
    (hKey : key ∉ sections) :
    options.withoutNulls.get? key = options.get? key := by
  have hSame : valueWithoutNulls key = id := by
    funext value
    unfold valueWithoutNulls
    split
    · exact if_neg hKey
    · rfl
  rw [get?_withoutNulls hKeys, hSame, Option.map_id, id]

/- And it finds just the same in a section. -/
theorem get?_ofMembers_withoutNulls
    {members : List (String × Json.Value)}
    (hKeys : (Entries.keys members).Nodup)
    (key : String) :
    get? key ⟨Entries.withoutNulls members⟩ =
      get? key ⟨members⟩ := by
  unfold get?
  rw [Entries.lookup_withoutNulls hKeys, Option.filter_filter]
  simp

/- Readers that find the same read the same. -/
theorem getOr_congr
    {key : String}
    (hSame : options.get? key = others.get? key)
    (expected : OptionKind)
    (default : α)
    (use? : Json.Value → Option α) :
    (options.getOr key expected default use? :
        Traced Event ε α) =
      others.getOr key expected default use? := by
  unfold getOr
  rw [hSame]

/- Options with distinct keys have them in their sections too. -/
theorem nodup_keys_of_get?
    (hKeys : options.toJson.HasDistinctKeys)
    {key : String}
    {members : List (String × Json.Value)}
    (hFound : options.get? key = some (.object members)) :
    (Entries.keys members).Nodup := by
  rcases hKeys with ⟨depth, hFits⟩
  rcases List.lookup_eq_some_iff.mp
      (Option.filter_eq_some_iff.mp hFound).1 with
    ⟨before, after, hMembers, -⟩
  cases hFits with
  | object _ hAll =>
      have hInner := hAll (key, .object members) (by
        rw [hMembers]
        simp)
      cases hInner with
      | object hInnerKeys _ => exact hInnerKeys

/- The keys of such options are distinct. -/
theorem nodup_keys
    (hKeys : options.toJson.HasDistinctKeys) :
    options.keys.Nodup := by
  rcases hKeys with ⟨depth, hFits⟩
  cases hFits with
  | object hOwn _ => exact hOwn

end Options

end PipelineScript
