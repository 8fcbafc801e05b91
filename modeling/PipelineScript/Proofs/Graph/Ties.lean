import PipelineScript.Proofs.Graph.LastEdges
import PipelineScript.Proofs.Graph.Order

/-
  How an order breaks ties.

  Places that wait for nothing come first, from low to high.
  All others come in the order of the last edges to them. No
  more than one list of all places is lined up so.

  Key definitions include:
    * `Adjacency.IsSettled`

  Key theorems include:
    * `Adjacency.isSettled_of_order`
    * `Adjacency.IsSettled.forward`
    * `Adjacency.IsSettled.eq`
    * `Adjacency.order_is_settled`
-/

namespace PipelineScript

/- What may not come behind another item comes before it. -/
theorem idxOf_lt_of_pairwise
    {α : Type}
    [DecidableEq α]
    {relates : α → α → Prop}
    {items : List α}
    (hOrdered : items.Pairwise relates)
    {first second : α}
    (hFirst : first ∈ items)
    (hSecond : second ∈ items)
    (hDiffer : first ≠ second)
    (hNot : ¬ relates second first) :
    items.idxOf first < items.idxOf second := by
  by_contra hLate
  have hOther : items.idxOf first ≠ items.idxOf second :=
    fun hSame => hDiffer ((List.idxOf_inj hFirst).mp hSame)
  have hLt : items.idxOf second < items.idxOf first := by
    omega
  have hRelates :=
    List.pairwise_iff_getElem.mp hOrdered _ _
      (List.idxOf_lt_length_of_mem hSecond)
      (List.idxOf_lt_length_of_mem hFirst) hLt
  rw [List.getElem_idxOf, List.getElem_idxOf] at hRelates
  exact hNot hRelates

namespace Adjacency

variable {adjacency : Adjacency}

------------------------------------------------------------
-- Orders Are Settled
------------------------------------------------------------

/-
  All places, each once: the free ones first, from low to
  high, and behind them the others, by their last edges.
-/
structure IsSettled
    (adjacency : Adjacency)
    (places : List Nat) : Prop where
  perm : places.Perm (List.range adjacency.size)
  free_sorted :
    ∀ {first second},
      adjacency.IsFree first → adjacency.IsFree second →
        first < second →
          places.idxOf first < places.idxOf second
  free_first :
    ∀ {first second},
      adjacency.IsFree first → second < adjacency.size →
        ¬ adjacency.IsFree second →
          places.idxOf first < places.idxOf second
  waiting_sorted :
    ∀ {first second edge later},
      adjacency.IsLastEdge places first edge →
        adjacency.IsLastEdge places second later →
          edge < later →
            places.idxOf first < places.idxOf second

variable {places : List Nat}

/- Places with edges to them are not free. -/
theorem IsLastEdge.not_isFree
    (hCounts : adjacency.Counts fun _ => 0)
    {target : Nat}
    {edge : Nat ×ₗ Nat}
    (hLast : adjacency.IsLastEdge places target edge) :
    target < adjacency.size ∧ ¬ adjacency.IsFree target := by
  rcases hLast.1 with ⟨source, index, hEdge, -⟩
  have hLeads := leads_of_getElem? hEdge
  have hTarget := hCounts.target_lt hLeads
  refine ⟨hTarget, ?_⟩
  rw [hCounts.isFree_iff hTarget]
  intro hNone
  exact hNone source hLeads

/- Places that are lined up pair by pair are settled. -/
theorem isSettled_of_pairwise
    (hCounts : adjacency.Counts fun _ => 0)
    (hPerm : places.Perm (List.range adjacency.size))
    (hOrdered : places.Pairwise (adjacency.Precedes places)) :
    adjacency.IsSettled places := by
  have hMem {place : Nat} (hPlace : place < adjacency.size) :
      place ∈ places :=
    hPerm.mem_iff.mpr (List.mem_range.mpr hPlace)
  have hFreeMem {place : Nat} (hFree : adjacency.IsFree place) :
      place ∈ places :=
    hMem (List.getElem?_eq_some_iff.mp hFree).1
  refine ⟨hPerm, ?_, ?_, ?_⟩
  · intro first second hFirst hSecond hLt
    refine idxOf_lt_of_pairwise hOrdered (hFreeMem hFirst)
      (hFreeMem hSecond) (Nat.ne_of_lt hLt) ?_
    rintro (⟨-, hBack⟩ | ⟨hEdge, -, -⟩)
    · exact Nat.lt_asymm hLt (hBack hFirst)
    · exact (hEdge.not_isFree hCounts).2 hSecond
  · intro first second hFirst hPlace hSecond
    refine idxOf_lt_of_pairwise hOrdered (hFreeMem hFirst)
      (hMem hPlace) (fun hSame => hSecond (hSame ▸ hFirst)) ?_
    rintro (⟨hFree, -⟩ | ⟨-, hEdge, -⟩)
    · exact hSecond hFree
    · exact (hEdge.not_isFree hCounts).2 hFirst
  · intro first second edge later hFirst hSecond hLt
    refine idxOf_lt_of_pairwise hOrdered
      (hMem (hFirst.not_isFree hCounts).1)
      (hMem (hSecond.not_isFree hCounts).1) ?_ ?_
    · rintro rfl
      exact hLt.ne (hFirst.unique hSecond)
    · rintro (⟨hFree, -⟩ | ⟨hEdge, hLater, hBack⟩)
      · exact (hSecond.not_isFree hCounts).2 hFree
      · rw [hEdge.unique hSecond, hLater.unique hFirst] at hBack
        exact hLt.asymm hBack

/- The order of a table is settled. -/
theorem isSettled_of_order
    (hCounts : adjacency.Counts fun _ => 0)
    (hOrder : adjacency.order = .ok places) :
    adjacency.IsSettled places := by
  rcases (order_eq_ok_iff hCounts).mp hOrder with ⟨rfl, hPerm⟩
  have hOrdered :=
    (Walking.start hCounts).pairwise_walk hCounts
      adjacency.pairwise_start
  exact isSettled_of_pairwise hCounts hPerm hOrdered

------------------------------------------------------------
-- Only One List Is Settled
------------------------------------------------------------

namespace IsSettled

variable {first second : List Nat}

/- All places stand in a settled list. -/
theorem mem
    (hSettled : adjacency.IsSettled places)
    {place : Nat}
    (hPlace : place < adjacency.size) :
    place ∈ places :=
  hSettled.perm.mem_iff.mpr (List.mem_range.mpr hPlace)

/- No place stands in a settled list twice. -/
theorem nodup (hSettled : adjacency.IsSettled places) :
    places.Nodup :=
  hSettled.perm.nodup_iff.mpr List.nodup_range

/-
  In a settled list last edges lead on: if the source of one
  came behind its target, so would the source of the last edge
  to that source, and there would be no end of sources.
-/
theorem idxOf_lt_of_isLastEdge
    (hSettled : adjacency.IsSettled places)
    (hCounts : adjacency.Counts fun _ => 0)
    (hAcyclic : adjacency.IsAcyclic)
    {target : Nat}
    {edge : Nat ×ₗ Nat}
    (hEdge : adjacency.IsLastEdge places target edge) :
    (ofLex edge).1 < places.idxOf target := by
  induction hLeft : places.length - places.idxOf target
    using Nat.strong_induction_on generalizing target edge with
  | _ left ih =>
      by_contra hBack
      rcases hEdge.1 with ⟨source, index, hListed, rfl⟩
      have hLeads := leads_of_getElem? hListed
      have hLate : places.idxOf target ≤ places.idxOf source :=
        Nat.le_of_not_lt hBack
      have hSource := hSettled.mem (hCounts.source_lt hLeads)
      have hDiffer :
          places.idxOf target ≠ places.idxOf source := by
        intro hSame
        have hLoop : source = target :=
          (List.idxOf_inj hSource).mp hSame.symm
        exact hAcyclic target (.single (hLoop ▸ hLeads))
      have hWaits := hEdge.not_isFree hCounts
      have hSourceWaits : ¬ adjacency.IsFree source := by
        intro hFree
        have hFirst :=
          hSettled.free_first hFree hWaits.1 hWaits.2
        omega
      rcases hCounts.exists_leads (hCounts.source_lt hLeads)
          hSourceWaits with
        ⟨before, hBefore⟩
      rcases exists_isLastEdge places hBefore with
        ⟨earlier, hEarlier⟩
      have hOrder :
          toLex (places.idxOf source, index) ≤ earlier := by
        by_contra hLt
        have hFirst :=
          hSettled.waiting_sorted hEarlier hEdge
            (lt_of_not_ge hLt)
        omega
      have hLength := List.idxOf_lt_length_of_mem hSource
      have hNext :=
        ih (places.length - places.idxOf source) (by omega)
          hEarlier rfl
      have hPlace := Prod.Lex.monotone_fst _ _ hOrder
      exact absurd hNext (Nat.not_lt.mpr hPlace)

/- In a settled list what leads to a place comes before it. -/
theorem forward
    (hSettled : adjacency.IsSettled places)
    (hCounts : adjacency.Counts fun _ => 0)
    (hAcyclic : adjacency.IsAcyclic)
    {source target : Nat}
    (hLeads : adjacency.Leads source target) :
    places.idxOf source < places.idxOf target := by
  rcases exists_edge_of_leads places hLeads with ⟨index, hEdge⟩
  rcases exists_isLastEdge places hLeads with ⟨last, hLast⟩
  have hPlace := Prod.Lex.monotone_fst _ _ (hLast.2 hEdge)
  exact Nat.lt_of_le_of_lt hPlace
    (hSettled.idxOf_lt_of_isLastEdge hCounts hAcyclic hLast)

/- Different places have different last edges. -/
theorem eq_of_isLastEdge
    (hSettled : adjacency.IsSettled places)
    (hCounts : adjacency.Counts fun _ => 0)
    {target other : Nat}
    {edge : Nat ×ₗ Nat}
    (hTarget : adjacency.IsLastEdge places target edge)
    (hOther : adjacency.IsLastEdge places other edge) :
    target = other := by
  rcases hTarget.1 with ⟨source, index, hEdge, rfl⟩
  rcases hOther.1 with ⟨source', index', hEdge', hSame⟩
  rw [toLex_inj, Prod.mk.injEq] at hSame
  have hSource :=
    hSettled.mem (hCounts.source_lt (leads_of_getElem? hEdge))
  have hEq := (List.idxOf_inj hSource).mp hSame.1
  subst hEq
  rw [← hSame.2, hEdge] at hEdge'
  exact Option.some_inj.mp hEdge'

/-
  Which of two places comes first is settled by their edges,
  if these come from the same sources in both lists.
-/
theorem lt_or_lt
    (hFirst : adjacency.IsSettled first)
    (hSecond : adjacency.IsSettled second)
    (hCounts : adjacency.Counts fun _ => 0)
    {place other : Nat}
    (hPlace : place < adjacency.size)
    (hOther : other < adjacency.size)
    (hDiffer : place ≠ other)
    (hPlaceEdges :
      adjacency.edgesTo first place =
        adjacency.edgesTo second place)
    (hOtherEdges :
      adjacency.edgesTo first other =
        adjacency.edgesTo second other) :
    first.idxOf other < first.idxOf place ∨
      second.idxOf place < second.idxOf other := by
  by_cases hFree : adjacency.IsFree place
  · by_cases hOtherFree : adjacency.IsFree other
    · rcases Nat.lt_or_gt_of_ne hDiffer with hLt | hLt
      · exact Or.inr (hSecond.free_sorted hFree hOtherFree hLt)
      · exact Or.inl (hFirst.free_sorted hOtherFree hFree hLt)
    · exact Or.inr (hSecond.free_first hFree hOther hOtherFree)
  · by_cases hOtherFree : adjacency.IsFree other
    · exact Or.inl (hFirst.free_first hOtherFree hPlace hFree)
    · rcases hCounts.exists_leads hPlace hFree with
        ⟨source, hLeads⟩
      rcases hCounts.exists_leads hOther hOtherFree with
        ⟨source', hLeads'⟩
      rcases exists_isLastEdge first hLeads with ⟨edge, hEdge⟩
      rcases exists_isLastEdge first hLeads' with
        ⟨edge', hEdge'⟩
      rcases lt_trichotomy edge edge' with hLt | rfl | hLt
      · rw [IsLastEdge, hPlaceEdges] at hEdge
        rw [IsLastEdge, hOtherEdges] at hEdge'
        exact Or.inr (hSecond.waiting_sorted hEdge hEdge' hLt)
      · exact absurd
          (hFirst.eq_of_isLastEdge hCounts hEdge hEdge') hDiffer
      · exact Or.inl (hFirst.waiting_sorted hEdge' hEdge hLt)

/- Lists that begin alike have the same edges to what is next. -/
theorem edgesTo_eq
    (hFirst : adjacency.IsSettled first)
    (hSecond : adjacency.IsSettled second)
    (hCounts : adjacency.Counts fun _ => 0)
    (hAcyclic : adjacency.IsAcyclic)
    {index : Nat}
    (hAlike : ∀ place < index, first[place]? = second[place]?)
    {target : Nat}
    (hTarget : first[index]? = some target) :
    adjacency.edgesTo first target =
      adjacency.edgesTo second target := by
  apply edgesTo_congr
  intro source hLeads
  rcases List.getElem?_eq_some_iff.mp hTarget with ⟨hLt, rfl⟩
  have hBefore := hFirst.forward hCounts hAcyclic hLeads
  rw [hFirst.nodup.idxOf_getElem] at hBefore
  have hSource := hFirst.mem (hCounts.source_lt hLeads)
  have hSame := hAlike _ hBefore
  rw [List.getElem?_idxOf hSource] at hSame
  rcases List.getElem?_eq_some_iff.mp hSame.symm with
    ⟨hIndex, hEq⟩
  have hPlace := hSecond.nodup.idxOf_getElem _ hIndex
  rw [hEq] at hPlace
  exact hPlace.symm

/-
  What comes next in one of two lists that begin alike is not
  among what they begin with.
-/
theorem le_idxOf
    (hFirst : adjacency.IsSettled first)
    {index : Nat}
    (hAlike : ∀ place < index, first[place]? = second[place]?)
    {target : Nat}
    (hTarget : first[index]? = some target)
    (hMem : target ∈ second) :
    index ≤ second.idxOf target := by
  by_contra hEarly
  have hSame := hAlike _ (Nat.lt_of_not_le hEarly)
  rw [List.getElem?_idxOf hMem] at hSame
  rcases List.getElem?_eq_some_iff.mp hSame with ⟨hLt, hEq⟩
  rcases List.getElem?_eq_some_iff.mp hTarget with ⟨hIndex, hEq'⟩
  have hPlace :=
    hFirst.nodup.getElem_inj_iff.mp (hEq.trans hEq'.symm)
  omega

/- There is only one settled list. -/
theorem eq
    (hFirst : adjacency.IsSettled first)
    (hSecond : adjacency.IsSettled second)
    (hCounts : adjacency.Counts fun _ => 0)
    (hAcyclic : adjacency.IsAcyclic) :
    first = second := by
  have hLength : first.length = second.length :=
    (hFirst.perm.trans hSecond.perm.symm).length_eq
  apply List.ext_getElem?
  intro index
  induction index using Nat.strong_induction_on with
  | _ index hAlike =>
      by_cases hLt : index < first.length
      · have hLt' : index < second.length := hLength ▸ hLt
        have hPlace := List.getElem?_eq_getElem hLt
        have hOther := List.getElem?_eq_getElem hLt'
        have hPlaceLt :=
          List.mem_range.mp
            (hFirst.perm.mem_iff.mp (List.getElem_mem hLt))
        have hOtherLt :=
          List.mem_range.mp
            (hSecond.perm.mem_iff.mp (List.getElem_mem hLt'))
        have hAlike' :
            ∀ place < index, second[place]? = first[place]? :=
          fun place hBefore => (hAlike place hBefore).symm
        rw [hPlace, hOther]
        by_contra hDiffer
        -- Neither of the two is behind in its own list, so the
        -- lists cannot disagree on which comes first.
        have hPlaceLate :=
          hFirst.le_idxOf hAlike hPlace (hSecond.mem hPlaceLt)
        have hOtherLate :=
          hSecond.le_idxOf hAlike' hOther (hFirst.mem hOtherLt)
        have hPlaceAt := hFirst.nodup.idxOf_getElem index hLt
        have hOtherAt := hSecond.nodup.idxOf_getElem index hLt'
        rcases hFirst.lt_or_lt hSecond hCounts hPlaceLt hOtherLt
            (fun hSame => hDiffer (congrArg some hSame))
            (hFirst.edgesTo_eq hSecond hCounts hAcyclic hAlike
              hPlace)
            (hSecond.edgesTo_eq hFirst hCounts hAcyclic hAlike'
              hOther).symm with
          hBack | hBack
        · omega
        · omega
      · rw [List.getElem?_eq_none (Nat.le_of_not_lt hLt),
          List.getElem?_eq_none (by omega)]

end IsSettled

/-
  Ties are broken by the edges alone. Where there are no
  cycles there is an order, and it is the one list of all
  places that is settled: free places come first, from low to
  high, and all others, which have last edges, by these.
-/
theorem order_is_settled
    (hCounts : adjacency.Counts fun _ => 0)
    (hAcyclic : adjacency.IsAcyclic) :
    ∃ places,
      adjacency.order = .ok places ∧
        (∀ other,
          adjacency.IsSettled other ↔ other = places) ∧
        ∀ place < adjacency.size,
          ¬ adjacency.IsFree place →
            ∃ edge, adjacency.IsLastEdge places place edge := by
  rcases (exists_order_iff hCounts).mpr
      ⟨fun _ _ => rfl, hAcyclic⟩ with
    ⟨places, hOrder⟩
  have hSettled := isSettled_of_order hCounts hOrder
  refine ⟨places, hOrder, ?_, ?_⟩
  · intro other
    constructor
    · intro hOther
      exact hOther.eq hSettled hCounts hAcyclic
    · rintro rfl
      exact hSettled
  · intro place hPlace hWaits
    rcases hCounts.exists_leads hPlace hWaits with
      ⟨source, hLeads⟩
    exact exists_isLastEdge places hLeads

/-
  Of two copies of an edge the last one counts: the place that
  it leads to comes behind the one between them.
-/
theorem order_of_copied_edge :
    let table := ofTargets [[1, 2, 1], [], []]
    table.Counts (fun _ => 0) ∧
      table.IsAcyclic ∧
      table.order = .ok [0, 2, 1] ∧
      (∀ other,
        table.IsSettled other ↔ other = [0, 2, 1]) ∧
      ∃ edge, table.IsLastEdge [0, 2, 1] 1 edge := by
  intro table
  have hInside :
      ∀ following ∈ [[1, 2, 1], [], []], ∀ target ∈ following,
        target < 3 := by
    decide
  have hCounts : table.Counts fun _ => 0 :=
    counts_ofTargets hInside []
  have hOrder : table.order = .ok [0, 2, 1] := by
    decide +kernel
  have hAcyclic : table.IsAcyclic :=
    ((exists_order_iff hCounts).mp ⟨_, hOrder⟩).2
  rcases order_is_settled hCounts hAcyclic with
    ⟨places, hPlaces, hOnly, hLast⟩
  have hSame : places = [0, 2, 1] :=
    Except.ok.inj (hPlaces.symm.trans hOrder)
  subst hSame
  exact ⟨hCounts, hAcyclic, hOrder, hOnly,
    hLast 1 (by decide) (by decide)⟩

end Adjacency

end PipelineScript
