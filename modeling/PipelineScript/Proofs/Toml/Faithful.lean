import Mathlib.Data.List.Forall2
import PipelineScript.Table
import PipelineScript.Toml.Codec

/-
  What is asked of a library that reads and writes TOML.

  A table that is printed is read back, with its members in any
  order. Only texts, truth values, arrays and tables count: to
  write a number or a moment and to read it again is not the
  same for every library.

  Key definitions include:
    * `Toml.Value.Same`
    * `Toml.Value.IsPlain`
    * `Toml.Codec.IsFaithful`

  Key theorems include:
    * `Toml.Value.IsPlain.same_self`
    * `Toml.Value.Same.lookup_of_some`
    * `Toml.Value.Same.lookup_of_none`
-/

namespace PipelineScript

namespace Toml

namespace Value

------------------------------------------------------------
-- Values That Say the Same
------------------------------------------------------------

/-
  Two values say the same: the members of their tables are the
  same, in whatever order, and none of them is there twice.
-/
inductive Same : Value → Value → Prop
  | text (content : String) :
      Same (.text content) (.text content)
  | boolean (flag : Bool) :
      Same (.boolean flag) (.boolean flag)
  | array
      {items others : List Value}
      (hItems : List.Forall₂ Same items others) :
      Same (.array items) (.array others)
  | table
      {members others : List (String × Value)}
      (hDistinct : (Entries.keys others).Nodup)
      (hKeys :
        (Entries.keys members).Perm (Entries.keys others))
      (hMembers :
        ∀ key value other,
          (key, value) ∈ members → (key, other) ∈ others →
            Same value other) :
      Same (.table members) (.table others)

variable {members others : List (String × Value)}
variable {key : String} {value : Value}

/- What is in one table is in the other. -/
theorem Same.lookup_of_some
    (hSame : Same (.table members) (.table others))
    (hLookup : members.lookup key = some value) :
    ∃ other, others.lookup key = some other ∧ Same value other := by
  cases hSame with
  | table hDistinct hKeys hMembers =>
      have hFirst : (Entries.keys members).Nodup :=
        hKeys.nodup_iff.mpr hDistinct
      rw [Entries.lookup_eq_some_iff_mem hFirst] at hLookup
      have hMem : key ∈ Entries.keys others :=
        hKeys.mem_iff.mp (List.mem_map_of_mem hLookup)
      rcases List.mem_map.mp hMem with ⟨entry, hEntry, rfl⟩
      exact ⟨entry.2,
        (Entries.lookup_eq_some_iff_mem hDistinct).mpr hEntry,
        hMembers _ _ _ hLookup hEntry⟩

/- What is not in one table is not in the other. -/
theorem Same.lookup_of_none
    (hSame : Same (.table members) (.table others))
    (hLookup : members.lookup key = none) :
    others.lookup key = none := by
  cases hSame with
  | table hDistinct hKeys hMembers =>
      rw [List.lookup_eq_none_iff] at hLookup ⊢
      intro entry hEntry
      have hMem : entry.1 ∈ Entries.keys members :=
        hKeys.mem_iff.mpr (List.mem_map_of_mem hEntry)
      rcases List.mem_map.mp hMem with ⟨other, hOther, hKey⟩
      rw [← hKey]
      exact hLookup other hOther

------------------------------------------------------------
-- Plain Values
------------------------------------------------------------

/-
  A value of texts, truth values, arrays and tables, with at
  most so many levels and no key twice in any table.
-/
inductive IsPlain : (levels : Nat) → Value → Prop
  | text {levels : Nat} (content : String) :
      IsPlain levels (.text content)
  | boolean {levels : Nat} (flag : Bool) :
      IsPlain levels (.boolean flag)
  | array
      {levels : Nat}
      {items : List Value}
      (hItems : ∀ item ∈ items, IsPlain levels item) :
      IsPlain (levels + 1) (.array items)
  | table
      {levels : Nat}
      {members : List (String × Value)}
      (hDistinct : (Entries.keys members).Nodup)
      (hMembers :
        ∀ member ∈ members, IsPlain levels member.2) :
      IsPlain (levels + 1) (.table members)

/- A plain value says the same as itself. -/
theorem IsPlain.same_self
    {levels : Nat}
    (hPlain : value.IsPlain levels) :
    value.Same value := by
  induction hPlain with
  | text content => exact .text content
  | boolean flag => exact .boolean flag
  | array _ ih => exact .array (List.forall₂_same.mpr ih)
  | @table levels members hDistinct _ ih =>
      refine .table hDistinct (List.Perm.refl _) ?_
      intro key value other hValue hOther
      rw [← Entries.lookup_eq_some_iff_mem hDistinct]
        at hOther
      have hSame :=
        (Entries.lookup_eq_some_iff_mem hDistinct).mpr hValue
      rw [hOther, Option.some.injEq] at hSame
      rw [hSame]
      exact ih _ hValue

end Value

------------------------------------------------------------
-- Faithful Libraries
------------------------------------------------------------

/-
  A library that follows the format: what it prints of a plain
  table is read back as a table that says the same.
-/
structure Codec.IsFaithful [Codec] : Prop where
  parses :
    ∀ {members : List (String × Value)} {text : String},
      (Value.table members).IsPlain (levelLimit - 1) →
        Codec.print members = .ok text →
          ∃ others,
            Codec.parse text = some others ∧
              (Value.table members).Same (.table others)

end Toml

end PipelineScript
