import PipelineScript.Proofs.Graph.Edges

/-
  What a walk over an adjacency table keeps true.

  While places are taken, the degree of every place is the
  number of edges that lead to it from places that remain,
  and a place is free exactly when that degree is zero.

  Key definitions include:
    * `Adjacency.ReleasesSafely`
    * `Adjacency.WalksSafely`
    * `Adjacency.Walking`

  Key theorems include:
    * `Adjacency.getD_release`
    * `Adjacency.mem_released_iff`
    * `Adjacency.Walking.take`
    * `Adjacency.Walking.walk`
    * `Adjacency.Walking.walksSafely`
-/

namespace PipelineScript

namespace Adjacency

------------------------------------------------------------
-- Taking Edges Away
------------------------------------------------------------

/- Whenever an edge to a place is taken away, one is left. -/
def ReleasesSafely : (targets degrees : List Nat) → Prop
  | [], _ => True
  | target :: targets, degrees =>
      0 < degrees.getD target 0 ∧
        ReleasesSafely targets
          (degrees.set target (degrees.getD target 0 - 1))

/- The degrees after the degree of one place was changed. -/
theorem getD_set
    {degrees : List Nat}
    {target : Nat}
    (hPos : 0 < degrees.getD target 0)
    (degree place : Nat) :
    (degrees.set target degree).getD place 0 =
      if place = target then degree else degrees.getD place 0 := by
  have hTarget : target < degrees.length := by
    by_contra hOut
    rw [List.getD_eq_default _ _ (Nat.le_of_not_lt hOut)] at hPos
    exact Nat.lt_irrefl 0 hPos
  by_cases hSame : place = target
  · subst hSame
    simp [hTarget]
  · have hOther : target ≠ place := fun h => hSame h.symm
    simp [List.getElem?_set_ne hOther, hSame]

/- One edge less, and a free place if it was the last. -/
theorem release_cons
    {target : Nat}
    {targets degrees : List Nat}
    (hPos : 0 < degrees.getD target 0) :
    release (target :: targets) degrees =
      let released :=
        release targets
          (degrees.set target (degrees.getD target 0 - 1))
      (released.1,
        if degrees.getD target 0 = 1 then
          target :: released.2
        else
          released.2) := by
  rw [release]
  split
  · next hZero => omega
  · next hOne => simp only [hOne, if_true]
  · next degree hMore =>
      have hNotOne : ¬ degree + 2 = 1 := by omega
      simp only [hMore, hNotOne, if_false]
      rfl

/- Enough edges are left after the first was taken away. -/
theorem count_le_getD_set
    {target : Nat}
    {targets degrees : List Nat}
    (hEnough :
      ∀ place,
        (target :: targets).count place ≤
          degrees.getD place 0) :
    0 < degrees.getD target 0 ∧
      ∀ place,
        targets.count place ≤
          (degrees.set target
            (degrees.getD target 0 - 1)).getD place 0 := by
  have hPos : 0 < degrees.getD target 0 := by
    have hTarget := hEnough target
    rw [List.count_cons_self] at hTarget
    omega
  refine ⟨hPos, ?_⟩
  intro place
  have hPlace := hEnough place
  rw [getD_set hPos]
  by_cases hSame : place = target
  · subst hSame
    rw [List.count_cons_self] at hPlace
    rw [if_pos rfl]
    omega
  · rw [List.count_cons_of_ne (fun h => hSame h.symm)] at hPlace
    rw [if_neg hSame]
    exact hPlace

/- No more edges are taken away than there are. -/
theorem releasesSafely_of_count_le
    {targets degrees : List Nat}
    (hEnough :
      ∀ place, targets.count place ≤ degrees.getD place 0) :
    ReleasesSafely targets degrees := by
  induction targets generalizing degrees with
  | nil => exact True.intro
  | cons target targets ih =>
      have hNext := count_le_getD_set hEnough
      exact ⟨hNext.1, ih hNext.2⟩

/- Releasing places keeps the number of degrees. -/
theorem length_release
    (targets degrees : List Nat) :
    (release targets degrees).1.length = degrees.length := by
  induction targets generalizing degrees with
  | nil => rfl
  | cons target targets ih =>
      unfold release
      split
      · exact ih degrees
      · simpa using ih (degrees.set target 0)
      · next degree _ =>
          simpa using ih (degrees.set target (degree + 1))

/- Every degree loses the edges that are taken away. -/
theorem getD_release
    {targets degrees : List Nat}
    (hEnough :
      ∀ place, targets.count place ≤ degrees.getD place 0)
    (place : Nat) :
    (release targets degrees).1.getD place 0 +
        targets.count place =
      degrees.getD place 0 := by
  induction targets generalizing degrees with
  | nil => simp [release]
  | cons target targets ih =>
      rcases count_le_getD_set hEnough with ⟨hPos, hRest⟩
      have hStep := ih hRest
      rw [getD_set hPos] at hStep
      rw [release_cons hPos]
      dsimp only
      by_cases hSame : place = target
      · subst hSame
        rw [if_pos rfl] at hStep
        rw [List.count_cons_self]
        omega
      · rw [if_neg hSame] at hStep
        rw [List.count_cons_of_ne (fun h => hSame h.symm)]
        exact hStep

/- The places set free are those that lose all their edges. -/
theorem mem_released_iff
    {targets degrees : List Nat}
    (hEnough :
      ∀ place, targets.count place ≤ degrees.getD place 0)
    (place : Nat) :
    place ∈ (release targets degrees).2 ↔
      place ∈ targets ∧
        degrees.getD place 0 = targets.count place := by
  induction targets generalizing degrees with
  | nil => simp [release]
  | cons target targets ih =>
      rcases count_le_getD_set hEnough with ⟨hPos, hRest⟩
      have hStep := ih hRest
      rw [release_cons hPos]
      rw [getD_set hPos] at hStep
      by_cases hSame : place = target
      · subst hSame
        rw [if_pos rfl] at hStep
        rw [List.count_cons_self]
        by_cases hOne : degrees.getD place 0 = 1
        · have hNone := hEnough place
          rw [List.count_cons_self] at hNone
          simp only [hOne, if_true, List.mem_cons, true_or,
            true_and, true_iff]
          omega
        · simp only [hOne, if_false, hStep, List.mem_cons,
            true_or, true_and]
          constructor
          · rintro ⟨-, hCount⟩
            omega
          · intro hCount
            have hMore : 0 < targets.count place := by omega
            exact ⟨List.count_pos_iff.mp hMore, by omega⟩
      · rw [if_neg hSame] at hStep
        rw [List.count_cons_of_ne (fun h => hSame h.symm)]
        simp only [List.mem_cons, hSame, false_or]
        rw [← hStep]
        split
        · simp only [List.mem_cons, hSame, false_or]
        · rfl

/- No place is set free twice. -/
theorem nodup_released
    {targets degrees : List Nat}
    (hEnough :
      ∀ place, targets.count place ≤ degrees.getD place 0) :
    (release targets degrees).2.Nodup := by
  induction targets generalizing degrees with
  | nil => simp [release]
  | cons target targets ih =>
      rcases count_le_getD_set hEnough with ⟨hPos, hRest⟩
      rw [release_cons hPos]
      split
      · next hOne =>
          -- Nothing is left to take away from the first.
          refine List.nodup_cons.mpr ⟨?_, ih hRest⟩
          intro hAgain
          have hFreed :=
            (mem_released_iff hRest target).mp hAgain
          rw [getD_set hPos, if_pos rfl] at hFreed
          have hMore := List.count_pos_iff.mpr hFreed.1
          omega
      · exact ih hRest

------------------------------------------------------------
-- Walks That Never Run Short
------------------------------------------------------------

/-
  A walk on which every place that is taken has its list of
  edges, and on which no degree falls below zero. Such a walk
  comes to an end.
-/
inductive WalksSafely (targets : List (List Nat)) :
    (queue degrees : List Nat) → Prop where
  | done (degrees : List Nat) : WalksSafely targets [] degrees
  | take
      {place : Nat}
      {rest degrees : List Nat}
      (hPlace : place < targets.length)
      (hReleases :
        ReleasesSafely (targets.getD place []) degrees)
      (hRest :
        WalksSafely targets
          (rest ++ (release (targets.getD place []) degrees).2)
          (release (targets.getD place []) degrees).1) :
      WalksSafely targets (place :: rest) degrees

------------------------------------------------------------
-- The Invariant
------------------------------------------------------------

/-
  A walk that has taken some places and has others in its
  queue.
-/
structure Walking
    (adjacency : Adjacency)
    (extra : Nat → Nat)
    (taken queue degrees : List Nat) : Prop where
  length_degrees : degrees.length = adjacency.size
  nodup : (taken ++ queue).Nodup
  balance :
    ∀ place < adjacency.size,
      degrees.getD place 0 =
        adjacency.arrivals (adjacency.remaining taken) place +
          extra place
  free_iff :
    ∀ place,
      place ∈ taken ++ queue ↔
        place < adjacency.size ∧ degrees.getD place 0 = 0
  ordered :
    ∀ {source target},
      adjacency.Leads source target → target ∈ taken →
        taken.idxOf source < taken.idxOf target

namespace Walking

variable {adjacency : Adjacency} {extra : Nat → Nat}
variable {taken queue degrees : List Nat}

/- The walk before its first step. -/
theorem start
    (hCounts : adjacency.Counts extra) :
    adjacency.Walking extra []
      (placesWhere (· == 0) adjacency.inDegree)
      adjacency.inDegree where
  length_degrees := rfl
  nodup := by
    simpa [placesWhere] using List.nodup_range.filter _
  balance := by
    intro place hPlace
    rw [hCounts.arrivals_all, hCounts.degree place hPlace]
  free_iff := by
    intro place
    simp [placesWhere, size]
  ordered := by
    intro _ _ _ hTaken
    simp at hTaken

/- What leads to a free place was taken. -/
theorem source_mem_of_free
    (hWalking : adjacency.Walking extra taken queue degrees)
    (hCounts : adjacency.Counts extra)
    {source target : Nat}
    (hLeads : adjacency.Leads source target)
    (hFree : target ∈ taken ++ queue) :
    source ∈ taken := by
  have hTarget := (hWalking.free_iff target).mp hFree
  have hBalance := hWalking.balance target hTarget.1
  by_contra hNew
  have hArrives :
      0 < adjacency.arrivals (adjacency.remaining taken)
        target :=
    pos_arrivals_iff.mpr
      ⟨source,
        mem_remaining.mpr ⟨hCounts.source_lt hLeads, hNew⟩,
        hLeads⟩
  omega

/- Nothing from nowhere leads to a free place. -/
theorem extra_of_free
    (hWalking : adjacency.Walking extra taken queue degrees)
    {place : Nat}
    (hFree : place ∈ taken ++ queue) :
    extra place = 0 := by
  have hPlace := (hWalking.free_iff place).mp hFree
  have hBalance := hWalking.balance place hPlace.1
  omega

/- The first place of the queue was not taken before. -/
theorem not_mem_of_head
    {place : Nat}
    {rest : List Nat}
    (hWalking :
      adjacency.Walking extra taken (place :: rest) degrees) :
    place ∉ taken := by
  intro hTaken
  exact List.disjoint_of_nodup_append hWalking.nodup hTaken
    List.mem_cons_self

/- The degrees allow for the edges of the next place. -/
theorem count_next_le
    {place : Nat}
    {rest : List Nat}
    (hWalking :
      adjacency.Walking extra taken (place :: rest) degrees)
    (hCounts : adjacency.Counts extra)
    (target : Nat) :
    (adjacency.next place).count target ≤
      degrees.getD target 0 := by
  have hPlace :=
    ((hWalking.free_iff place).mp (by simp)).1
  by_cases hLeads : target ∈ adjacency.next place
  · have hSplit :=
      arrivals_remaining hPlace hWalking.not_mem_of_head target
    have hBalance :=
      hWalking.balance target (hCounts.target_lt hLeads)
    omega
  · rw [List.count_eq_zero_of_not_mem hLeads]
    exact Nat.zero_le _

/- Taking the first place of the queue. -/
theorem take
    {place : Nat}
    {rest : List Nat}
    (hWalking :
      adjacency.Walking extra taken (place :: rest) degrees)
    (hCounts : adjacency.Counts extra) :
    adjacency.Walking extra (taken ++ [place])
      (rest ++ (release (adjacency.next place) degrees).2)
      (release (adjacency.next place) degrees).1 := by
  have hEnough := hWalking.count_next_le hCounts
  have hNew := hWalking.not_mem_of_head
  have hFreePlace : place ∈ taken ++ place :: rest := by simp
  have hPlace := ((hWalking.free_iff place).mp hFreePlace).1
  have hReleased := mem_released_iff hEnough
  have hDegree := getD_release hEnough
  -- A place set free now had a degree before.
  have hLate :
      ∀ other ∈ (release (adjacency.next place) degrees).2,
        other ∉ taken ++ place :: rest := by
    intro other hOther hEarly
    have hFreed := (hReleased other).mp hOther
    have hZero := ((hWalking.free_iff other).mp hEarly).2
    have hSome := List.count_pos_iff.mpr hFreed.1
    omega
  have hSame :
      taken ++ [place] ++
          (rest ++ (release (adjacency.next place) degrees).2) =
        (taken ++ place :: rest) ++
          (release (adjacency.next place) degrees).2 := by
    simp
  refine ⟨?_, ?_, ?_, ?_, ?_⟩
  · rw [length_release]
    exact hWalking.length_degrees
  · rw [hSame, List.nodup_append]
    refine ⟨hWalking.nodup, nodup_released hEnough, ?_⟩
    intro early hEarly late hLateMem hEq
    exact hLate late hLateMem (hEq ▸ hEarly)
  · intro target hTarget
    have hBalance := hWalking.balance target hTarget
    have hSplit := arrivals_remaining hPlace hNew target
    have hLess := hDegree target
    omega
  · intro other
    rw [hSame, List.mem_append, hWalking.free_iff other,
      hReleased other]
    have hLess := hDegree other
    constructor
    · rintro (⟨hOther, hZero⟩ | ⟨hNext, hAll⟩)
      · exact ⟨hOther, by omega⟩
      · exact ⟨hCounts.target_lt hNext, by omega⟩
    · rintro ⟨hOther, hZero⟩
      by_cases hBefore : degrees.getD other 0 = 0
      · exact Or.inl ⟨hOther, hBefore⟩
      · refine Or.inr ⟨?_, by omega⟩
        exact List.count_pos_iff.mp (by omega)
  · intro source target hLeads hTarget
    rw [List.mem_append, List.mem_singleton] at hTarget
    by_cases hEarly : target ∈ taken
    · have hBefore := hWalking.ordered hLeads hEarly
      have hSource : source ∈ taken :=
        List.idxOf_lt_length_iff.mp
          (hBefore.trans (List.idxOf_lt_length_of_mem hEarly))
      rw [List.idxOf_append_of_mem hSource,
        List.idxOf_append_of_mem hEarly]
      exact hBefore
    · have hEq : target = place := hTarget.resolve_left hEarly
      subst hEq
      have hSource :=
        hWalking.source_mem_of_free hCounts hLeads hFreePlace
      rw [List.idxOf_append_of_mem hSource,
        List.idxOf_append_of_notMem hEarly]
      have hIndex := List.idxOf_lt_length_of_mem hSource
      omega

/- Walking on until the queue is empty. -/
theorem walk
    (hWalking : adjacency.Walking extra taken queue degrees)
    (hCounts : adjacency.Counts extra) :
    adjacency.Walking extra
      (taken ++ (walk adjacency.targets queue degrees).1) []
      (walk adjacency.targets queue degrees).2 := by
  induction queue, degrees
    using Adjacency.walk.induct adjacency.targets
    generalizing taken with
  | case1 degrees =>
      rw [Adjacency.walk]
      simpa using hWalking
  | case2 degrees place rest released =>
      rename_i ih
      have hNext := ih (hWalking.take hCounts)
      rw [Adjacency.walk]
      simpa [released] using hNext

/- Walking on never runs short of edges. -/
theorem walksSafely
    (hWalking : adjacency.Walking extra taken queue degrees)
    (hCounts : adjacency.Counts extra) :
    WalksSafely adjacency.targets queue degrees := by
  induction queue, degrees
    using Adjacency.walk.induct adjacency.targets
    generalizing taken with
  | case1 degrees => exact .done degrees
  | case2 degrees place rest released =>
      rename_i ih
      have hPlace :=
        ((hWalking.free_iff place).mp (by simp)).1
      exact .take
        (hCounts.length_targets ▸ hPlace)
        (releasesSafely_of_count_le
          (hWalking.count_next_le hCounts))
        (ih (hWalking.take hCounts))

end Walking

end Adjacency

end PipelineScript
