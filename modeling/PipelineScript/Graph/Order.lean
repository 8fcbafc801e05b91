/-
  Orders in which every place of a graph comes behind the
  places it waits for.

  Places that wait for nothing come first, from low to high. A
  place that waits for others comes when the last of them was
  taken, behind all that were free before.

  Key definitions include:
    * `Adjacency`
    * `Adjacency.release`
    * `Adjacency.walk`
    * `Adjacency.order`
-/

namespace PipelineScript

/-
  For every place the places that follow it, edge by edge, and
  how many edges lead to it.
-/
structure Adjacency where
  targets : List (List Nat)
  inDegree : List Nat
deriving DecidableEq, Repr

namespace Adjacency

/- How many places there are. -/
def size (adjacency : Adjacency) : Nat :=
  adjacency.inDegree.length

/- The places that follow each place, with counted edges. -/
def ofTargets (targets : List (List Nat)) : Adjacency where
  targets := targets
  inDegree :=
    (List.range targets.length).map targets.flatten.count

/- More edges that lead to each place, from nowhere. -/
def withExtra
    (extra : List Nat)
    (adjacency : Adjacency) : Adjacency where
  targets := adjacency.targets
  inDegree :=
    adjacency.inDegree.zipIdx.map fun (degree, index) =>
      degree + extra.getD index 0

------------------------------------------------------------
-- Releasing Places
------------------------------------------------------------

/-
  Take away one edge to each of the given places. What is left
  of the degrees comes with the places that became free.
-/
def release :
    (targets degrees : List Nat) → List Nat × List Nat
  | [], degrees => (degrees, [])
  | target :: targets, degrees =>
      match degrees.getD target 0 with
      | 0 => release targets degrees
      | 1 =>
          let released := release targets (degrees.set target 0)
          (released.1, target :: released.2)
      | degree + 2 =>
          release targets (degrees.set target (degree + 1))

/- How many places are not free. -/
def waitingCount (degrees : List Nat) : Nat :=
  degrees.countP (0 < ·)

/- How many places wait once a degree was changed. -/
theorem waitingCount_set
    (degrees : List Nat)
    (target degree : Nat)
    (h : 0 < degrees.getD target 0) :
    waitingCount (degrees.set target degree)
        + (if 0 < degree then 0 else 1) =
      waitingCount degrees := by
  induction degrees generalizing target with
  | nil => simp at h
  | cons d degrees ih =>
      cases target with
      | zero =>
          have hd : 0 < d := by simpa using h
          by_cases hDegree : 0 < degree
          · simp [waitingCount, hd, hDegree]
          · simp [waitingCount, hd, hDegree]
      | succ target =>
          have hTail : 0 < degrees.getD target 0 := by
            simpa using h
          have := ih target hTail
          simp only [waitingCount, List.set_cons_succ,
            List.countP_cons] at this ⊢
          omega

/- The places that became free do not wait any more. -/
theorem waitingCount_release
    (targets degrees : List Nat) :
    waitingCount (release targets degrees).1
        + (release targets degrees).2.length =
      waitingCount degrees := by
  induction targets generalizing degrees with
  | nil => simp [release]
  | cons target targets ih =>
      unfold release
      split
      · exact ih degrees
      · next hOne =>
          have hSet :=
            waitingCount_set degrees target 0 (by omega)
          have := ih (degrees.set target 0)
          simp only [List.length_cons] at this hSet ⊢
          simp only [Nat.lt_irrefl, if_false] at hSet
          omega
      · next degree hMore =>
          have hSet :=
            waitingCount_set degrees target (degree + 1)
              (by omega)
          have := ih (degrees.set target (degree + 1))
          simp only [Nat.succ_pos, if_true] at hSet
          omega

------------------------------------------------------------
-- Walking
------------------------------------------------------------

/-
  Take the places of a queue one after the other and line up
  the places they set free. The walk ends with the places in
  the order they were taken, and with what is left of the
  degrees.
-/
def walk
    (targets : List (List Nat))
    (queue degrees : List Nat) : List Nat × List Nat :=
  match queue with
  | [] => ([], degrees)
  | place :: rest =>
      let released := release (targets.getD place []) degrees
      let walked :=
        walk targets (rest ++ released.2) released.1
      (place :: walked.1, walked.2)
termination_by queue.length + waitingCount degrees
decreasing_by
  have :=
    waitingCount_release (targets.getD place []) degrees
  simp only [List.length_append, List.length_cons]
  omega

/- The places whose degree has the given property. -/
def placesWhere
    (property : Nat → Bool)
    (degrees : List Nat) : List Nat :=
  (List.range degrees.length).filter fun place =>
    property (degrees.getD place 0)

/-
  All places in order, or else the places that wait for ever,
  from low to high.
-/
def order
    (adjacency : Adjacency) : Except (List Nat) (List Nat) :=
  let walked :=
    walk adjacency.targets
      (placesWhere (· == 0) adjacency.inDegree)
      adjacency.inDegree
  if walked.1.length = adjacency.size then
    .ok walked.1
  else
    .error (placesWhere (0 < ·) walked.2)

end Adjacency

end PipelineScript
