import PipelineScript.Proofs.Graph.Described

/-
  Parts of descriptions: some of the nodes, and the
  connections between them.

  A set of nodes can stand alone if every connection into it
  comes from it.

  Key definitions include:
    * `Table.filter`
    * `Description.restrict`
    * `Description.StandsAlone`

  Key theorems include:
    * `Description.keys_restrict`
    * `Description.sourcesOf_restrict`
    * `Description.targetsOf_restrict`
    * `Description.isLinked_restrict`
    * `Description.isAcyclic_restrict`
-/

namespace PipelineScript

------------------------------------------------------------
-- Parts of Tables
------------------------------------------------------------

namespace Table

variable {κ α : Type}

/- The entries that pass a test, in their order. -/
def filter
    (t : Table κ α)
    (test : κ × α → Bool) : Table κ α where
  entries := t.entries.filter test
  distinct :=
    t.distinct.sublist (List.filter_sublist.map Prod.fst)

/- A value is left under its key if its entry passes. -/
theorem get?_filter
    [DecidableEq κ]
    {t : Table κ α}
    {test : κ × α → Bool}
    {key : κ}
    {value : α} :
    (t.filter test).get? key = some value ↔
      t.get? key = some value ∧ test (key, value) := by
  rw [get?_eq_some_iff, get?_eq_some_iff, filter,
    List.mem_filter]

/- The keys that pass a test of keys alone. -/
theorem keys_filter
    (t : Table κ α)
    (test : κ → Bool) :
    (t.filter fun entry => test entry.1).keys =
      t.keys.filter test := by
  rw [keys, keys, Entries.keys, Entries.keys, List.filter_map]
  rfl

/- The values that pass a test of values alone. -/
theorem values_filter
    (t : Table κ α)
    (test : α → Bool) :
    (t.filter fun entry => test entry.2).values =
      t.values.filter test := by
  rw [values, values, List.filter_map]
  rfl

end Table

namespace Description

------------------------------------------------------------
-- Restricting
------------------------------------------------------------

/- The part with the nodes of a set, and what joins them. -/
def restrict
    (description : Description)
    (inside : NodeId → Bool) : Description where
  pipelineId := description.pipelineId
  nodes := description.nodes.filter fun entry => inside entry.1
  connections :=
    description.connections.filter fun entry =>
      inside entry.2.source && inside entry.2.target
  remarks := description.remarks

/- What leads into a set of nodes comes from the set. -/
def StandsAlone
    (description : Description)
    (inside : NodeId → Bool) : Prop :=
  ∀ connection ∈ description.connections.values,
    inside connection.target → inside connection.source

/- Where the connections from a node lead, one by one. -/
def targetsOf
    (description : Description)
    (id : NodeId) : List NodeId :=
  (description.connections.values.filter (·.source == id)).map
    Connection.target

variable {description : Description}
variable {inside : NodeId → Bool} {id : NodeId}

/- The keys of a part are those of the set, in their order. -/
theorem keys_restrict
    (description : Description)
    (inside : NodeId → Bool) :
    (description.restrict inside).nodes.keys =
      description.nodes.keys.filter inside :=
  Table.keys_filter description.nodes inside

/- A node of the set is described in the part as before. -/
theorem get?_restrict
    (hInside : inside id) :
    (description.restrict inside).nodes.get? id =
      description.nodes.get? id := by
  apply Option.ext
  intro record
  rw [restrict, Table.get?_filter]
  simp [hInside]

/- The connections of a part join nodes of the set. -/
theorem values_connections_restrict
    (description : Description)
    (inside : NodeId → Bool) :
    (description.restrict inside).connections.values =
      description.connections.values.filter fun connection =>
        inside connection.source && inside connection.target :=
  Table.values_filter description.connections fun connection =>
    inside connection.source && inside connection.target

/- A connection of a part is one of the whole. -/
theorem mem_connections_restrict_iff
    {connection : Connection} :
    connection ∈ (description.restrict inside).connections.values ↔
      connection ∈ description.connections.values ∧
        inside connection.source ∧ inside connection.target := by
  rw [values_connections_restrict, List.mem_filter,
    Bool.and_eq_true]

------------------------------------------------------------
-- Neighbours
------------------------------------------------------------

/- A node that is linked has its targets among the nodes. -/
theorem mem_keys_of_mem_targetsOf
    (hLinked : description.IsLinked)
    {target : NodeId}
    (hTarget : target ∈ description.targetsOf id) :
    target ∈ description.nodes.keys := by
  rcases List.mem_map.mp hTarget with
    ⟨connection, hConnection, rfl⟩
  exact (hLinked connection (List.mem_filter.mp hConnection).1).2

/- Nothing is lost of what leads to a node of the set. -/
theorem sourcesOf_restrict
    (hAlone : description.StandsAlone inside)
    (hInside : inside id) :
    (description.restrict inside).sourcesOf id =
      description.sourcesOf id := by
  rw [sourcesOf, sourcesOf, values_connections_restrict,
    List.filter_filter]
  congr 1
  apply List.filter_congr
  intro connection hConnection
  by_cases hTarget : connection.target = id
  · subst hTarget
    simp [hInside, hAlone connection hConnection hInside]
  · simp [hTarget]

/- Of the targets of a node those inside the set are left. -/
theorem targetsOf_restrict
    (hInside : inside id) :
    (description.restrict inside).targetsOf id =
      (description.targetsOf id).filter inside := by
  rw [targetsOf, targetsOf, values_connections_restrict,
    List.filter_filter, List.filter_map, List.filter_filter]
  congr 1
  apply List.filter_congr
  intro connection _
  by_cases hSource : connection.source = id
  · subst hSource
    simp [hInside]
  · have hTest : (connection.source == id) = false :=
      beq_eq_false_iff_ne.mpr hSource
    simp only [hTest, Bool.false_and, Bool.and_false]

/- From outside a set that stands alone nothing leads in. -/
theorem filter_targetsOf_of_outside
    (hAlone : description.StandsAlone inside)
    (hOutside : ¬ inside id) :
    (description.targetsOf id).filter inside = [] := by
  rw [List.filter_eq_nil_iff]
  intro target hTarget hInside
  rcases List.mem_map.mp hTarget with
    ⟨connection, hConnection, rfl⟩
  rw [List.mem_filter, beq_iff_eq] at hConnection
  have hSource :=
    hAlone connection hConnection.1 hInside
  rw [hConnection.2] at hSource
  exact hOutside hSource

------------------------------------------------------------
-- Links and Cycles
------------------------------------------------------------

/- Where every connection leads upwards, nothing comes back. -/
theorem isAcyclic_of_rank
    (rank : NodeId → Nat)
    (hRank :
      ∀ connection ∈ description.connections.values,
        rank connection.source < rank connection.target) :
    description.IsAcyclic := by
  intro id hCycle
  have hUp : Relation.TransGen (· < ·) (rank id) (rank id) := by
    refine Relation.TransGen.lift rank ?_ _ _ hCycle
    rintro first last ⟨connection, hConnection, rfl, rfl⟩
    exact hRank connection hConnection
  rw [Relation.transGen_eq_self] at hUp
  exact Nat.lt_irrefl _ hUp

/- Both ends of what is left of the connections are left. -/
theorem isLinked_restrict
    (hLinked : description.IsLinked) :
    (description.restrict inside).IsLinked := by
  intro connection hConnection
  rcases mem_connections_restrict_iff.mp hConnection with
    ⟨hMem, hSource, hTarget⟩
  rw [keys_restrict, List.mem_filter, List.mem_filter]
  exact ⟨⟨(hLinked connection hMem).1, hSource⟩,
    (hLinked connection hMem).2, hTarget⟩

/- A part has no cycles of its own. -/
theorem isAcyclic_restrict
    (hAcyclic : description.IsAcyclic) :
    (description.restrict inside).IsAcyclic := by
  intro id hCycle
  apply hAcyclic id
  refine Relation.TransGen.mono ?_ _ _ hCycle
  rintro first last ⟨connection, hConnection, hEnds⟩
  exact ⟨connection,
    (mem_connections_restrict_iff.mp hConnection).1, hEnds⟩

end Description

end PipelineScript
