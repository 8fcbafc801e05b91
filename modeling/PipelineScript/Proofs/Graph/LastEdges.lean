import PipelineScript.Proofs.Graph.Walk
import Mathlib.Data.Prod.Lex
import Mathlib.Data.Set.Finite.Lattice
import Mathlib.Data.Set.Finite.Lemmas

/-
  The last edges to places, and what a walk makes of them.

  Of all edges to a place the last one is that whose source
  comes last among the places taken, and of those from that
  source the one that is listed last. It is the edge that sets
  the place free, and so a walk lines up the places that had
  to wait in the order of their last edges.

  Key definitions include:
    * `Adjacency.IsFree`
    * `Adjacency.edgesTo`
    * `Adjacency.IsLastEdge`
    * `Adjacency.Precedes`

  Key theorems include:
    * `Adjacency.exists_isLastEdge`
    * `Adjacency.pairwise_released`
    * `Adjacency.Walking.pairwise_take`
    * `Adjacency.Walking.pairwise_walk`
-/

namespace PipelineScript

namespace Adjacency

variable {adjacency : Adjacency}

------------------------------------------------------------
-- Last Edges
------------------------------------------------------------

/- No edge leads to the place. -/
def IsFree
    (adjacency : Adjacency)
    (place : Nat) : Prop :=
  adjacency.inDegree[place]? = some 0

instance
    (adjacency : Adjacency)
    (place : Nat) :
    Decidable (adjacency.IsFree place) := by
  unfold IsFree
  infer_instance

/-
  The edges to a place, the same edge as often as it is
  listed. An edge is known by where its source stands among
  the given places, and by how many edges of the source are
  listed before it.
-/
def edgesTo
    (adjacency : Adjacency)
    (places : List Nat)
    (target : Nat) : Set (Nat ×ₗ Nat) :=
  {edge | ∃ source index,
    (adjacency.next source)[index]? = some target ∧
      edge = toLex (places.idxOf source, index)}

/- The edge to a place that comes behind all others. -/
def IsLastEdge
    (adjacency : Adjacency)
    (places : List Nat)
    (target : Nat)
    (edge : Nat ×ₗ Nat) : Prop :=
  IsGreatest (adjacency.edgesTo places target) edge

/- An edge of a place leads to where it says. -/
theorem leads_of_getElem?
    {source target index : Nat}
    (hEdge : (adjacency.next source)[index]? = some target) :
    adjacency.Leads source target :=
  List.mem_of_getElem? hEdge

/- Whatever leads to a place has an edge to it. -/
theorem exists_edge_of_leads
    (places : List Nat)
    {source target : Nat}
    (hLeads : adjacency.Leads source target) :
    ∃ index,
      toLex (places.idxOf source, index) ∈
        adjacency.edgesTo places target := by
  rcases List.mem_iff_getElem?.mp hLeads with ⟨index, hEdge⟩
  exact ⟨index, source, index, hEdge, rfl⟩

/- A free place has no edges, if edges are counted. -/
theorem Counts.isFree_iff
    (hCounts : adjacency.Counts fun _ => 0)
    {place : Nat}
    (hPlace : place < adjacency.size) :
    adjacency.IsFree place ↔
      ∀ source, ¬ adjacency.Leads source place := by
  have hDegree := hCounts.degree place hPlace
  rw [← hCounts.arrivals_all, Nat.add_zero,
    List.getD_eq_getElem _ _ hPlace] at hDegree
  rw [IsFree, List.getElem?_eq_getElem hPlace, Option.some_inj,
    hDegree]
  constructor
  · intro hNone source hLeads
    have hArrives :
        0 < adjacency.arrivals (adjacency.remaining []) place :=
      pos_arrivals_iff.mpr ⟨source,
        mem_remaining.mpr ⟨hCounts.source_lt hLeads, by simp⟩,
        hLeads⟩
    omega
  · intro hNone
    by_contra hSome
    rcases pos_arrivals_iff.mp (Nat.pos_of_ne_zero hSome) with
      ⟨source, -, hLeads⟩
    exact hNone source hLeads

/- Some edge leads to every place that is not free. -/
theorem Counts.exists_leads
    (hCounts : adjacency.Counts fun _ => 0)
    {place : Nat}
    (hPlace : place < adjacency.size)
    (hWaits : ¬ adjacency.IsFree place) :
    ∃ source, adjacency.Leads source place := by
  rw [hCounts.isFree_iff hPlace] at hWaits
  push Not at hWaits
  exact hWaits

/- A place with edges to it has a last one. -/
theorem exists_isLastEdge
    (places : List Nat)
    {source target : Nat}
    (hLeads : adjacency.Leads source target) :
    ∃ edge, adjacency.IsLastEdge places target edge := by
  -- Every edge is one of those listed for some of the places.
  have hListed :
      adjacency.edgesTo places target ⊆
        ⋃ source ∈ {place | place < adjacency.targets.length},
          (fun index => toLex (places.idxOf source, index)) ''
            {index | index < (adjacency.next source).length} := by
    rintro _ ⟨source, index, hEdge, rfl⟩
    rw [Set.mem_iUnion₂]
    refine ⟨source, ?_, index,
      (List.getElem?_eq_some_iff.mp hEdge).1, rfl⟩
    by_contra hOut
    have hNone : adjacency.next source = [] :=
      List.getD_eq_default _ _ (Nat.le_of_not_lt hOut)
    simp [hNone] at hEdge
  have hFinite : (adjacency.edgesTo places target).Finite :=
    (((Set.finite_lt_nat _).biUnion fun source _ =>
      (Set.finite_lt_nat _).image _)).subset hListed
  rcases exists_edge_of_leads places hLeads with ⟨index, hEdge⟩
  rcases Set.exists_max_image _ id hFinite ⟨_, hEdge⟩ with
    ⟨edge, hMem, hMax⟩
  exact ⟨edge, hMem, hMax⟩

/- Edges to a place are told apart by where sources stand. -/
theorem edgesTo_congr
    {first second : List Nat}
    {target : Nat}
    (hSame :
      ∀ source, adjacency.Leads source target →
        first.idxOf source = second.idxOf source) :
    adjacency.edgesTo first target =
      adjacency.edgesTo second target := by
  ext edge
  constructor
  · rintro ⟨source, index, hEdge, rfl⟩
    exact ⟨source, index, hEdge,
      by rw [hSame source (leads_of_getElem? hEdge)]⟩
  · rintro ⟨source, index, hEdge, rfl⟩
    exact ⟨source, index, hEdge,
      by rw [hSame source (leads_of_getElem? hEdge)]⟩

------------------------------------------------------------
-- Places Set Free Together
------------------------------------------------------------

/- Where an item stands for the last time. -/
def IsLastIndex
    (items : List Nat)
    (item index : Nat) : Prop :=
  IsGreatest {place | items[place]? = some item} index

/- An item in front of others moves them on by one. -/
theorem IsLastIndex.cons
    {items : List Nat}
    {item index : Nat}
    (hLast : IsLastIndex items item index)
    (first : Nat) :
    IsLastIndex (first :: items) item (index + 1) := by
  refine ⟨hLast.1, ?_⟩
  intro place hPlace
  cases place with
  | zero => exact Nat.zero_le _
  | succ place => exact Nat.succ_le_succ (hLast.2 hPlace)

/- An item that does not come again stands there at last. -/
theorem isLastIndex_zero
    {items : List Nat}
    {item : Nat}
    (hNew : item ∉ items) :
    IsLastIndex (item :: items) item 0 := by
  refine ⟨rfl, ?_⟩
  intro place hPlace
  cases place with
  | zero => exact Nat.le_refl _
  | succ place =>
      have hAgain : items[place]? = some item := hPlace
      exact absurd (List.mem_of_getElem? hAgain) hNew

/- An item of a list stands somewhere for the last time. -/
theorem exists_isLastIndex
    {items : List Nat}
    {item : Nat}
    (hMem : item ∈ items) :
    ∃ index, IsLastIndex items item index := by
  induction items with
  | nil => simp at hMem
  | cons first items ih =>
      by_cases hAgain : item ∈ items
      · rcases ih hAgain with ⟨index, hIndex⟩
        exact ⟨index + 1, hIndex.cons first⟩
      · rcases List.mem_cons.mp hMem with rfl | hLater
        · exact ⟨0, isLastIndex_zero hAgain⟩
        · exact absurd hLater hAgain

/-
  Both items stand in a list, and the first of them is gone
  for good before the second one is.
-/
def LastBefore
    (items : List Nat)
    (first second : Nat) : Prop :=
  ∃ index later,
    IsLastIndex items first index ∧
      IsLastIndex items second later ∧
        index < later

/- An item in front of a list changes nothing about that. -/
theorem LastBefore.cons
    {items : List Nat}
    {first second : Nat}
    (hBefore : LastBefore items first second)
    (item : Nat) :
    LastBefore (item :: items) first second := by
  rcases hBefore with ⟨index, later, hFirst, hSecond, hLt⟩
  exact ⟨index + 1, later + 1, hFirst.cons item,
    hSecond.cons item, Nat.succ_lt_succ hLt⟩

/-
  Places that are set free together come by the last edges to
  them, since a place is free when all its edges are gone.
-/
theorem pairwise_released
    {targets degrees : List Nat}
    (hEnough :
      ∀ place, targets.count place ≤ degrees.getD place 0) :
    (release targets degrees).2.Pairwise
      (LastBefore targets) := by
  induction targets generalizing degrees with
  | nil => simp [release]
  | cons target targets ih =>
      rcases count_le_getD_set hEnough with ⟨hPos, hRest⟩
      have hLater :=
        (ih hRest).imp fun hBefore => hBefore.cons target
      rw [release_cons hPos]
      split
      · next hOne =>
          -- Nothing is left to take away from the first, and so
          -- it is not listed again.
          have hNone : target ∉ targets := by
            intro hAgain
            have hCount := hEnough target
            have hMore := List.count_pos_iff.mpr hAgain
            rw [List.count_cons_self] at hCount
            omega
          refine List.pairwise_cons.mpr ⟨?_, hLater⟩
          intro other hOther
          have hMem :=
            ((mem_released_iff hRest other).mp hOther).1
          rcases exists_isLastIndex hMem with ⟨index, hIndex⟩
          exact ⟨0, index + 1, isLastIndex_zero hNone,
            hIndex.cons target, Nat.succ_pos index⟩
      · exact hLater

------------------------------------------------------------
-- Taking Places in Order
------------------------------------------------------------

/-
  A place comes before another: it is free and the other is
  not, or both are free and it is the lower one, or both wait
  and its last edge comes first.
-/
inductive Precedes
    (adjacency : Adjacency)
    (places : List Nat)
    (first second : Nat) : Prop where
  | free
      (hFirst : adjacency.IsFree first)
      (hLt : adjacency.IsFree second → first < second)
  | waiting
      {edge later : Nat ×ₗ Nat}
      (hFirst : adjacency.IsLastEdge places first edge)
      (hSecond : adjacency.IsLastEdge places second later)
      (hLt : edge < later)

namespace Walking

variable {taken rest degrees : List Nat} {place : Nat}

/- Last edges of free places stay what they are. -/
theorem precedes_take
    (hWalking :
      adjacency.Walking (fun _ => 0) taken (place :: rest)
        degrees)
    (hCounts : adjacency.Counts fun _ => 0)
    {first second : Nat}
    (hFirst : first ∈ taken ++ place :: rest)
    (hSecond : second ∈ taken ++ place :: rest)
    (hPrecedes : adjacency.Precedes taken first second) :
    adjacency.Precedes (taken ++ [place]) first second := by
  have hSame {target : Nat}
      (hTarget : target ∈ taken ++ place :: rest) :
      adjacency.edgesTo (taken ++ [place]) target =
        adjacency.edgesTo taken target :=
    edgesTo_congr fun source hLeads =>
      List.idxOf_append_of_mem
        (hWalking.source_mem_of_free hCounts hLeads hTarget)
  cases hPrecedes with
  | free hFree hLt => exact .free hFree hLt
  | waiting hEdge hLater hLt =>
      exact .waiting
        (by rw [IsLastEdge, hSame hFirst]; exact hEdge)
        (by rw [IsLastEdge, hSame hSecond]; exact hLater) hLt

/- The last edge to a place that the next one sets free. -/
theorem isLastEdge_of_released
    (hWalking :
      adjacency.Walking (fun _ => 0) taken (place :: rest)
        degrees)
    (hCounts : adjacency.Counts fun _ => 0)
    {target index : Nat}
    (hReleased :
      target ∈ (release (adjacency.next place) degrees).2)
    (hIndex :
      IsLastIndex (adjacency.next place) target index) :
    adjacency.IsLastEdge (taken ++ [place]) target
      (toLex (taken.length, index)) := by
  have hPlace :
      (taken ++ [place]).idxOf place = taken.length := by
    rw [List.idxOf_append_of_notMem hWalking.not_mem_of_head,
      List.idxOf_cons_self, Nat.add_zero]
  refine ⟨⟨place, index, hIndex.1, by rw [hPlace]⟩, ?_⟩
  rintro _ ⟨source, other, hEdge, rfl⟩
  rw [Prod.Lex.toLex_le_toLex]
  have hSource : source ∈ taken ++ [place] :=
    (hWalking.take hCounts).source_mem_of_free hCounts
      (leads_of_getElem? hEdge) (by simp [hReleased])
  rw [List.mem_append, List.mem_singleton] at hSource
  rcases hSource with hEarly | rfl
  · left
    rw [List.idxOf_append_of_mem hEarly]
    exact List.idxOf_lt_length_of_mem hEarly
  · exact Or.inr ⟨hPlace, hIndex.2 hEdge⟩

/- A place set free has edges, and so it had to wait. -/
theorem not_isFree_of_released
    (hWalking :
      adjacency.Walking (fun _ => 0) taken (place :: rest)
        degrees)
    (hCounts : adjacency.Counts fun _ => 0)
    {target : Nat}
    (hReleased :
      target ∈ (release (adjacency.next place) degrees).2) :
    ¬ adjacency.IsFree target := by
  have hLeads : adjacency.Leads place target :=
    ((mem_released_iff (hWalking.count_next_le hCounts)
      target).mp hReleased).1
  rw [hCounts.isFree_iff (hCounts.target_lt hLeads)]
  intro hNone
  exact hNone place hLeads

/- A place that is waited for comes before those set free. -/
theorem precedes_released
    (hWalking :
      adjacency.Walking (fun _ => 0) taken (place :: rest)
        degrees)
    (hCounts : adjacency.Counts fun _ => 0)
    {first second : Nat}
    (hFirst : first ∈ taken ++ place :: rest)
    (hWaits : ¬ adjacency.IsFree first)
    (hSecond :
      second ∈ (release (adjacency.next place) degrees).2) :
    adjacency.Precedes (taken ++ [place]) first second := by
  have hPlace := ((hWalking.free_iff first).mp hFirst).1
  rcases hCounts.exists_leads hPlace hWaits with
    ⟨source, hLeads⟩
  rcases exists_isLastEdge (taken ++ [place]) hLeads with
    ⟨edge, hEdge⟩
  rcases hEdge.1 with ⟨last, index, hLast, rfl⟩
  have hEarly : last ∈ taken :=
    hWalking.source_mem_of_free hCounts (leads_of_getElem? hLast)
      hFirst
  have hReleased :=
    (mem_released_iff (hWalking.count_next_le hCounts)
      second).mp hSecond
  rcases exists_isLastIndex hReleased.1 with ⟨later, hLater⟩
  refine .waiting hEdge
    (hWalking.isLastEdge_of_released hCounts hSecond hLater)
    (Prod.Lex.toLex_lt_toLex.mpr (Or.inl ?_))
  rw [List.idxOf_append_of_mem hEarly]
  exact List.idxOf_lt_length_of_mem hEarly

/-
  What was taken or set free stays in order when the first
  place of the queue is taken. The places it sets free come
  behind all others, since its edges do.
-/
theorem pairwise_take
    (hWalking :
      adjacency.Walking (fun _ => 0) taken (place :: rest)
        degrees)
    (hCounts : adjacency.Counts fun _ => 0)
    (hOrdered :
      (taken ++ place :: rest).Pairwise
        (adjacency.Precedes taken)) :
    (taken ++ [place] ++
        (rest ++
          (release (adjacency.next place) degrees).2)).Pairwise
      (adjacency.Precedes (taken ++ [place])) := by
  have hEnough := hWalking.count_next_le hCounts
  have hSame :
      taken ++ [place] ++
          (rest ++ (release (adjacency.next place) degrees).2) =
        (taken ++ place :: rest) ++
          (release (adjacency.next place) degrees).2 := by
    simp
  rw [hSame, List.pairwise_append]
  refine ⟨?_, ?_, ?_⟩
  · refine hOrdered.imp_of_mem ?_
    intro first second hFirst hSecond
    exact hWalking.precedes_take hCounts hFirst hSecond
  · refine (pairwise_released hEnough).imp_of_mem ?_
    rintro first second hFirst hSecond
      ⟨index, later, hIndex, hLater, hLt⟩
    exact .waiting
      (hWalking.isLastEdge_of_released hCounts hFirst hIndex)
      (hWalking.isLastEdge_of_released hCounts hSecond hLater)
      (Prod.Lex.toLex_lt_toLex.mpr (Or.inr ⟨rfl, hLt⟩))
  · intro first hFirst second hSecond
    by_cases hFree : adjacency.IsFree first
    · exact .free hFree fun hOther =>
        absurd hOther
          (hWalking.not_isFree_of_released hCounts hSecond)
    · exact hWalking.precedes_released hCounts hFirst hFree
        hSecond

/- Walking on keeps places in order to the end. -/
theorem pairwise_walk
    {queue : List Nat}
    (hWalking :
      adjacency.Walking (fun _ => 0) taken queue degrees)
    (hCounts : adjacency.Counts fun _ => 0)
    (hOrdered :
      (taken ++ queue).Pairwise (adjacency.Precedes taken)) :
    let places :=
      taken ++ (Adjacency.walk adjacency.targets queue degrees).1
    places.Pairwise (adjacency.Precedes places) := by
  induction queue, degrees
    using Adjacency.walk.induct adjacency.targets
    generalizing taken with
  | case1 degrees =>
      rw [Adjacency.walk]
      simpa using hOrdered
  | case2 degrees place rest released =>
      rename_i ih
      have hNext :=
        ih (hWalking.take hCounts)
          (hWalking.pairwise_take hCounts hOrdered)
      rw [Adjacency.walk]
      simpa [released] using hNext

end Walking

/- Before the first step, only free places are lined up. -/
theorem pairwise_start (adjacency : Adjacency) :
    (placesWhere (· == 0) adjacency.inDegree).Pairwise
      (adjacency.Precedes []) := by
  unfold placesWhere
  refine (List.pairwise_lt_range.filter _).imp_of_mem ?_
  intro first second hFirst _ hLt
  refine .free ?_ fun _ => hLt
  rw [List.mem_filter, List.mem_range, beq_iff_eq] at hFirst
  rw [List.getD_eq_getElem _ _ hFirst.1] at hFirst
  rw [IsFree, List.getElem?_eq_getElem hFirst.1, hFirst.2]

end Adjacency

end PipelineScript
