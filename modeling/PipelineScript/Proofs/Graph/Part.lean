import PipelineScript.Proofs.Graph.Order

/-
  Orders of parts of a table.

  A part has some of the places of a table, in their order,
  and with every place all places that lead to it. What is
  outside a part has no say in when its places are set free,
  so the order of the part is that of the whole table with
  the places outside left out.

  Key definitions include:
    * `Adjacency.IsPart`

  Key theorems include:
    * `Adjacency.IsPart.release`
    * `Adjacency.IsPart.walk`
    * `Adjacency.IsPart.order_eq_ok`
-/

namespace PipelineScript

namespace Adjacency

/-
  One table is a part of another: `kept` tells which place of
  the part a place of the whole table is, if it is in the
  part at all. No edge leads into the part from outside.
-/
structure IsPart
    (kept : Nat → Option Nat)
    (whole part : Adjacency) : Prop where
  injective :
    ∀ {first second place},
      kept first = some place → kept second = some place →
        first = second
  places_eq :
    (List.range whole.size).filterMap kept =
      List.range part.size
  next_eq :
    ∀ {outer inner},
      kept outer = some inner →
        (whole.next outer).filterMap kept = part.next inner
  next_outside :
    ∀ {outer},
      kept outer = none →
        (whole.next outer).filterMap kept = []
  degree_eq :
    ∀ {outer inner},
      kept outer = some inner →
        whole.inDegree.getD outer 0 =
          part.inDegree.getD inner 0

/- The places of a part have the same degrees in both lists. -/
def SameDegrees
    (kept : Nat → Option Nat)
    (whole part : List Nat) : Prop :=
  ∀ outer inner,
    kept outer = some inner →
      whole.getD outer 0 = part.getD inner 0

namespace IsPart

variable {kept : Nat → Option Nat}
variable {whole part : Adjacency}
variable {degrees degrees' : List Nat}

------------------------------------------------------------
-- Degrees
------------------------------------------------------------

/- Changing the degree of a place outside is not noticed. -/
theorem sameDegrees_set_outside
    (hSame : SameDegrees kept degrees degrees')
    {target : Nat}
    (hTarget : kept target = none)
    (hPos : 0 < degrees.getD target 0)
    (degree : Nat) :
    SameDegrees kept (degrees.set target degree) degrees' := by
  intro outer inner hKept
  have hOther : outer ≠ target := by
    rintro rfl
    rw [hTarget] at hKept
    exact absurd hKept (by simp)
  rw [getD_set hPos, if_neg hOther]
  exact hSame outer inner hKept

/- Changing the degree of a place of the part changes both. -/
theorem sameDegrees_set
    (hPart : IsPart kept whole part)
    (hSame : SameDegrees kept degrees degrees')
    {outer inner : Nat}
    (hKept : kept outer = some inner)
    (hPos : 0 < degrees.getD outer 0)
    (degree : Nat) :
    SameDegrees kept (degrees.set outer degree)
      (degrees'.set inner degree) := by
  intro other other' hOther
  have hPos' : 0 < degrees'.getD inner 0 :=
    hSame outer inner hKept ▸ hPos
  rw [getD_set hPos, getD_set hPos']
  by_cases hEq : other = outer
  · subst hEq
    rw [hKept, Option.some.injEq] at hOther
    rw [if_pos rfl, if_pos hOther.symm]
  · have hEq' : other' ≠ inner := by
      rintro rfl
      exact hEq (hPart.injective hOther hKept)
    rw [if_neg hEq, if_neg hEq']
    exact hSame other other' hOther

------------------------------------------------------------
-- Steps
------------------------------------------------------------

/- Nothing is taken away from a place without edges. -/
theorem release_cons_of_zero
    {target : Nat}
    {targets : List Nat}
    (hZero : degrees.getD target 0 = 0) :
    Adjacency.release (target :: targets) degrees =
      Adjacency.release targets degrees := by
  rw [Adjacency.release]
  split
  · rfl
  · next hOne => omega
  · next hMore => omega

/- The same places of the part are set free in both tables. -/
theorem release
    (hPart : IsPart kept whole part)
    (hSame : SameDegrees kept degrees degrees')
    (targets : List Nat) :
    SameDegrees kept (release targets degrees).1
        (Adjacency.release (targets.filterMap kept)
          degrees').1 ∧
      (Adjacency.release targets degrees).2.filterMap kept =
        (Adjacency.release (targets.filterMap kept)
          degrees').2 := by
  induction targets generalizing degrees degrees' with
  | nil => exact ⟨hSame, rfl⟩
  | cons target targets ih =>
      by_cases hZero : degrees.getD target 0 = 0
      · rw [release_cons_of_zero hZero]
        cases hKept : kept target with
        | none =>
            rw [List.filterMap_cons_none hKept]
            exact ih hSame
        | some inner =>
            have hZero' : degrees'.getD inner 0 = 0 :=
              hSame target inner hKept ▸ hZero
            rw [List.filterMap_cons_some hKept,
              release_cons_of_zero hZero']
            exact ih hSame
      · have hPos := Nat.pos_of_ne_zero hZero
        rw [release_cons hPos]
        dsimp only
        cases hKept : kept target with
        | none =>
            rw [List.filterMap_cons_none hKept]
            have hNext :=
              ih (sameDegrees_set_outside hSame hKept hPos
                (degrees.getD target 0 - 1))
            refine ⟨hNext.1, ?_⟩
            split
            · rw [List.filterMap_cons_none hKept]
              exact hNext.2
            · exact hNext.2
        | some inner =>
            have hDegree := hSame target inner hKept
            have hNext :=
              ih (hPart.sameDegrees_set hSame hKept hPos
                (degrees.getD target 0 - 1))
            rw [List.filterMap_cons_some hKept,
              release_cons (hDegree ▸ hPos), ← hDegree]
            refine ⟨hNext.1, ?_⟩
            dsimp only
            split
            · rw [List.filterMap_cons_some hKept, hNext.2]
            · exact hNext.2

------------------------------------------------------------
-- Walks
------------------------------------------------------------

/-
  A walk on the whole table takes the places of the part as a
  walk on the part takes them. A place outside that is taken
  leaves the queue of the part as it is.
-/
theorem walk
    (hPart : IsPart kept whole part)
    (hSame : SameDegrees kept degrees degrees')
    (queue : List Nat) :
    (walk whole.targets queue degrees).1.filterMap kept =
      (Adjacency.walk part.targets (queue.filterMap kept)
        degrees').1 := by
  induction queue, degrees
    using Adjacency.walk.induct whole.targets
    generalizing degrees' with
  | case1 degrees =>
      rw [Adjacency.walk, List.filterMap_nil, Adjacency.walk]
  | case2 degrees place rest released =>
      rename_i ih
      have hReleased := hPart.release hSame (whole.next place)
      have hRest := ih hReleased.1
      rw [List.filterMap_append,
        show released.2.filterMap kept = _ from hReleased.2]
        at hRest
      rw [Adjacency.walk]
      cases hKept : kept place with
      | none =>
          rw [hPart.next_outside hKept] at hRest
          simp only [Adjacency.release, List.append_nil]
            at hRest
          rw [List.filterMap_cons_none hKept,
            List.filterMap_cons_none hKept]
          exact hRest
      | some inner =>
          rw [hPart.next_eq hKept] at hRest
          rw [List.filterMap_cons_some hKept,
            List.filterMap_cons_some hKept, Adjacency.walk]
          exact congrArg (inner :: ·) hRest

/- The places that are free at first are the same in both. -/
theorem filterMap_placesWhere
    (hPart : IsPart kept whole part) :
    (placesWhere (· == 0) whole.inDegree).filterMap kept =
      placesWhere (· == 0) part.inDegree := by
  have hTest :
      ∀ outer inner,
        kept outer = some inner →
          (whole.inDegree.getD outer 0 == 0) =
            (part.inDegree.getD inner 0 == 0) := by
    intro outer inner hKept
    rw [hPart.degree_eq hKept]
  have hFilter :
      ∀ places : List Nat,
        (places.filter fun place =>
            whole.inDegree.getD place 0 == 0).filterMap kept =
          (places.filterMap kept).filter fun place =>
            part.inDegree.getD place 0 == 0 := by
    intro places
    rw [List.filterMap_filter, List.filter_filterMap]
    apply List.filterMap_congr
    intro outer _
    cases hKept : kept outer with
    | none => simp
    | some inner =>
        rw [hTest outer inner hKept, Option.filter_some]
  exact (hFilter _).trans
    (congrArg (List.filter _) hPart.places_eq)

/-
  Where the whole table has an order, the part has the same
  one without the places outside.
-/
theorem order_eq_ok
    (hPart : IsPart kept whole part)
    {extra extra' : Nat → Nat}
    (hCounts : whole.Counts extra)
    (hCounts' : part.Counts extra')
    {places : List Nat}
    (hOrder : whole.order = .ok places) :
    part.order = .ok (places.filterMap kept) := by
  rcases (order_eq_ok_iff hCounts).mp hOrder with ⟨rfl, hPerm⟩
  apply (order_eq_ok_iff hCounts').mpr
  constructor
  · have hWalk :=
      hPart.walk (fun _ _ => hPart.degree_eq)
        (placesWhere (· == 0) whole.inDegree)
    rw [hPart.filterMap_placesWhere] at hWalk
    exact hWalk
  · rw [← hPart.places_eq]
    exact hPerm.filterMap kept

end IsPart

end Adjacency

end PipelineScript
