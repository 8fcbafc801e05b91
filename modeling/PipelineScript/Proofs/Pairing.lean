import Mathlib.Data.List.Forall2

/-
  Lists whose items are related one by one.

  Key theorems include:
    * `Pairing.exists_left`
    * `Pairing.exists_right`
    * `Pairing.mapM_eq_some_iff`
    * `Pairing.map_filter_eq`
-/

namespace PipelineScript

namespace Pairing

variable {α β : Type} {R : α → β → Prop}
variable {left : List α} {right : List β}

/- Every item on the right has its partner on the left. -/
theorem exists_left
    (hPairs : List.Forall₂ R left right)
    {b : β}
    (hMem : b ∈ right) :
    ∃ a ∈ left, R a b := by
  induction hPairs with
  | nil => simp at hMem
  | cons hHead _ ih =>
      rcases List.mem_cons.mp hMem with rfl | hMem
      · exact ⟨_, List.mem_cons_self, hHead⟩
      · rcases ih hMem with ⟨a, hLeft, hRel⟩
        exact ⟨a, List.mem_cons_of_mem _ hLeft, hRel⟩

/- Every item on the left has its partner on the right. -/
theorem exists_right
    (hPairs : List.Forall₂ R left right)
    {a : α}
    (hMem : a ∈ left) :
    ∃ b ∈ right, R a b :=
  exists_left hPairs.flip hMem

/- What every item is made into is paired with the item. -/
theorem mapM_eq_some_iff {make? : α → Option β} :
    left.mapM make? = some right ↔
      List.Forall₂ (fun a b => make? a = some b) left right := by
  induction left generalizing right with
  | nil =>
      rw [List.mapM_nil, List.forall₂_nil_left_iff]
      exact Option.some_inj.trans eq_comm
  | cons a left ih =>
      rw [List.mapM_cons, List.forall₂_cons_left_iff]
      constructor
      · intro hMade
        rcases Option.bind_eq_some_iff.mp hMade with
          ⟨b, hFirst, hRest⟩
        rcases Option.bind_eq_some_iff.mp hRest with
          ⟨others, hOthers, hAll⟩
        exact ⟨b, others, hFirst, ih.mp hOthers,
          (Option.some.inj hAll).symm⟩
      · rintro ⟨b, others, hFirst, hOthers, rfl⟩
        rw [hFirst, ih.mpr hOthers]
        rfl

/- Partners that pass a test together yield the same values. -/
theorem map_filter_eq
    {γ : Type}
    (hPairs : List.Forall₂ R left right)
    {p : α → Bool}
    {q : β → Bool}
    (hSame : ∀ a b, R a b → p a = q b)
    {f : α → γ}
    {g : β → γ}
    (hValue : ∀ a b, R a b → f a = g b) :
    (left.filter p).map f = (right.filter q).map g := by
  induction hPairs with
  | nil => rfl
  | cons hHead _ ih =>
      rw [List.filter_cons, List.filter_cons,
        hSame _ _ hHead]
      split
      · rw [List.map_cons, List.map_cons, hValue _ _ hHead, ih]
      · exact ih

end Pairing

end PipelineScript
