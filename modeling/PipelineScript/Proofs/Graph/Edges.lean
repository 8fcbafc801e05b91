import PipelineScript.Graph.Order
import Mathlib.Data.Fintype.EquivFin
import Mathlib.Data.List.GetD
import Mathlib.Data.List.Nodup
import Mathlib.Logic.Relation
import Mathlib.Order.WellFounded

/-
  The edges of an adjacency table, and what can be said of
  them without taking a single one away.

  Key definitions include:
    * `Adjacency.Leads`
    * `Adjacency.IsAcyclic`
    * `Adjacency.Counts`
    * `Adjacency.IsRoot`
    * `Adjacency.arrivals`

  Key theorems include:
    * `Adjacency.pos_arrivals_iff`
    * `Adjacency.arrivals_remaining`
    * `Adjacency.exists_root`
-/

namespace PipelineScript

namespace Adjacency

variable {adjacency : Adjacency} {extra : Nat → Nat}

------------------------------------------------------------
-- Edges and Cycles
------------------------------------------------------------

/- The places that follow a place, edge by edge. -/
def next
    (adjacency : Adjacency)
    (place : Nat) : List Nat :=
  adjacency.targets.getD place []

/- Some edge leads from the one place to the other. -/
def Leads
    (adjacency : Adjacency)
    (source target : Nat) : Prop :=
  target ∈ adjacency.next source

/- No way along the edges comes back to where it began. -/
def IsAcyclic (adjacency : Adjacency) : Prop :=
  ∀ place, ¬ Relation.TransGen adjacency.Leads place place

/-
  A table in which every edge ends at a place, and in which
  the degree of a place is the number of edges to it, the
  same edge as often as it is listed, and `extra` more.
-/
structure Counts
    (adjacency : Adjacency)
    (extra : Nat → Nat) : Prop where
  length_targets : adjacency.targets.length = adjacency.size
  target_lt :
    ∀ {source target},
      adjacency.Leads source target → target < adjacency.size
  degree :
    ∀ place < adjacency.size,
      adjacency.inDegree.getD place 0 =
        adjacency.targets.flatten.count place + extra place

/-
  A place that must wait for ever by itself: it lies on a
  cycle, or one of its edges comes from nowhere.
-/
def IsRoot
    (adjacency : Adjacency)
    (extra : Nat → Nat)
    (place : Nat) : Prop :=
  Relation.TransGen adjacency.Leads place place ∨
    (place < adjacency.size ∧ 0 < extra place)

/- A table of targets counts its edges, whatever is added. -/
theorem counts_ofTargets
    {targets : List (List Nat)}
    (hInside :
      ∀ following ∈ targets, ∀ target ∈ following,
        target < targets.length)
    (more : List Nat) :
    ((ofTargets targets).withExtra more).Counts
      fun place => more.getD place 0 where
  length_targets := by simp [ofTargets, withExtra, size]
  target_lt := by
    intro source target hLeads
    have hTarget : target ∈ targets.getD source [] := hLeads
    by_cases hSource : source < targets.length
    · rw [List.getD_eq_getElem _ _ hSource] at hTarget
      simpa [ofTargets, withExtra, size] using
        hInside _ (List.getElem_mem hSource) target hTarget
    · rw [List.getD_eq_default _ _ (Nat.le_of_not_lt hSource)]
        at hTarget
      simp at hTarget
  degree := by
    intro place hPlace
    have hLt : place < targets.length := by
      simpa [ofTargets, withExtra, size] using hPlace
    simp [ofTargets, withExtra, hLt]

/- Only places have edges. -/
theorem Counts.source_lt
    (hCounts : adjacency.Counts extra)
    {source target : Nat}
    (hLeads : adjacency.Leads source target) :
    source < adjacency.size := by
  rw [← hCounts.length_targets]
  by_contra hOut
  have hNone : adjacency.next source = [] :=
    List.getD_eq_default _ _ (Nat.le_of_not_lt hOut)
  simp [Leads, hNone] at hLeads

/- A root is a place. -/
theorem Counts.root_lt
    (hCounts : adjacency.Counts extra)
    {root : Nat}
    (hRoot : adjacency.IsRoot extra root) :
    root < adjacency.size := by
  rcases hRoot with hCycle | hExtra
  · rcases Relation.TransGen.head'_iff.mp hCycle with
      ⟨_, hLeads, _⟩
    exact hCounts.source_lt hLeads
  · exact hExtra.1

------------------------------------------------------------
-- Edges from Some of the Places
------------------------------------------------------------

/- How many edges lead from the given places to another. -/
def arrivals
    (adjacency : Adjacency)
    (sources : List Nat)
    (target : Nat) : Nat :=
  (sources.flatMap adjacency.next).count target

/- The places that are not among those already taken. -/
def remaining
    (adjacency : Adjacency)
    (taken : List Nat) : List Nat :=
  (List.range adjacency.size).filter (· ∉ taken)

/- A place remains until it is taken. -/
@[simp] theorem mem_remaining
    {taken : List Nat}
    {place : Nat} :
    place ∈ adjacency.remaining taken ↔
      place < adjacency.size ∧ place ∉ taken := by
  simp [remaining]

/- Some edge arrives if one of the sources leads there. -/
theorem pos_arrivals_iff
    {sources : List Nat}
    {target : Nat} :
    0 < adjacency.arrivals sources target ↔
      ∃ source ∈ sources, adjacency.Leads source target := by
  simp [arrivals, Leads, List.count_pos_iff]

/- The edges from a place can be counted apart. -/
theorem arrivals_remaining
    {taken : List Nat}
    {place : Nat}
    (hPlace : place < adjacency.size)
    (hNew : place ∉ taken)
    (target : Nat) :
    adjacency.arrivals (adjacency.remaining taken) target =
      (adjacency.next place).count target +
        adjacency.arrivals
          (adjacency.remaining (taken ++ [place])) target := by
  have hNodup : (adjacency.remaining taken).Nodup :=
    List.nodup_range.filter _
  have hErase :
      (adjacency.remaining taken).erase place =
        adjacency.remaining (taken ++ [place]) := by
    rw [hNodup.erase_eq_filter]
    simp only [remaining, List.filter_filter]
    apply List.filter_congr
    intro other _
    by_cases hSame : other = place <;> simp [hSame]
  have hPerm :
      (adjacency.remaining taken).Perm
        (place :: adjacency.remaining (taken ++ [place])) :=
    hErase ▸ List.perm_cons_erase
      (mem_remaining.mpr ⟨hPlace, hNew⟩)
  calc
    adjacency.arrivals (adjacency.remaining taken) target =
        adjacency.arrivals
          (place :: adjacency.remaining (taken ++ [place]))
          target :=
      (hPerm.flatMap_right adjacency.next).count_eq target
    _ = _ := by simp [arrivals]

/- Before a place is taken, every edge is still to arrive. -/
theorem Counts.arrivals_all
    (hCounts : adjacency.Counts extra)
    (target : Nat) :
    adjacency.arrivals (adjacency.remaining []) target =
      adjacency.targets.flatten.count target := by
  have hAll :
      (List.range adjacency.size).map adjacency.next =
        adjacency.targets := by
    rw [← hCounts.length_targets]
    apply List.ext_getElem
    · simp
    · intro index _ hIndex
      simp [next, hIndex]
  simp [arrivals, remaining, List.flatMap_def, hAll]

------------------------------------------------------------
-- Going Back Along Edges
------------------------------------------------------------

/-
  Where every place of a set that waits for nothing from
  outside has a place of the set in front of it, a root leads
  to every place of the set.
-/
theorem exists_root
    (inside : Nat → Prop)
    (hBound : ∀ place, inside place → place < adjacency.size)
    (hBack :
      ∀ place, inside place →
        0 < extra place ∨
          ∃ source, inside source ∧
            adjacency.Leads source place)
    {place : Nat}
    (hPlace : inside place) :
    ∃ root, adjacency.IsRoot extra root ∧
      Relation.ReflTransGen adjacency.Leads root place := by
  by_contra hNone
  -- The places of the set from which the given one is reached.
  let Back : Type :=
    { source // inside source ∧
      Relation.ReflTransGen adjacency.Leads source place }
  have hFinite : Finite Back :=
    Finite.of_injective
      (fun source : Back =>
        (⟨source.1, hBound _ source.2.1⟩ :
          Fin adjacency.size))
      fun first second hSame =>
        Subtype.ext (congrArg Fin.val hSame)
  let before (first second : Back) : Prop :=
    Relation.TransGen adjacency.Leads first.1 second.1
  have hTrans : IsTrans Back before :=
    ⟨fun _ _ _ hFirst hSecond => hFirst.trans hSecond⟩
  have hIrrefl : Std.Irrefl before :=
    ⟨fun source hCycle =>
      hNone ⟨source.1, Or.inl hCycle, source.2.2⟩⟩
  have hWellFounded : WellFounded before :=
    Finite.wellFounded_of_trans_of_irrefl before
  rcases hWellFounded.has_min Set.univ ⟨⟨place, hPlace, .refl⟩,
      trivial⟩ with
    ⟨least, -, hLeast⟩
  rcases hBack least.1 least.2.1 with hExtra | hSource
  · exact hNone ⟨least.1,
      Or.inr ⟨hBound _ least.2.1, hExtra⟩, least.2.2⟩
  · rcases hSource with ⟨source, hInside, hLeads⟩
    exact hLeast
      ⟨source, hInside, least.2.2.head hLeads⟩ trivial
      (.single hLeads)

end Adjacency

end PipelineScript
