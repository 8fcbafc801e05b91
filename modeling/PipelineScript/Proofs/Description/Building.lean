import PipelineScript.Description.Description
import Mathlib.Data.List.Basic

/-
  Descriptions that are built step by step.

  A connection whose key is made up gets the number of
  connections in its key. It comes behind all others exactly
  if that key is free, and else it takes the place of the one
  that has the key. The key is free as long as no step chooses
  a key of this kind for itself.

  Key definitions include:
    * `Description.countedKey`
    * `Description.KeepsConnections`
    * `Description.Step`
    * `Description.build`
    * `Description.HasRoom`

  Key theorems include:
    * `Description.keepsConnections_iff`
    * `Description.HasRoom.build`
    * `Description.connect_keeps_connections_iff`
-/

namespace PipelineScript

namespace Description

variable {description : Description} {source target : NodeId}

------------------------------------------------------------
-- Keys That Are Made Up
------------------------------------------------------------

/- The key that is made up for the connection of a number. -/
def countedKey (n : Nat) : ConnectionId :=
  ⟨"conn" ++ String.ofList (Number.natText n)⟩

/- Numbers that are written alike are the same. -/
theorem eq_of_natText_eq
    {m n : Nat}
    (hText : Number.natText m = Number.natText n) :
    m = n := by
  have hRead (k : Nat) :
      Nat.ofDigitChars 10 (Number.natText k) 0 = k :=
    Nat.ofDigitChars_toDigits (by decide) (by decide)
  rw [← hRead m, hText, hRead n]

/- Every number has a key of its own. -/
theorem eq_of_countedKey_eq
    {m n : Nat}
    (hKey : countedKey m = countedKey n) :
    m = n := by
  apply eq_of_natText_eq
  simpa [countedKey, String.ofList_inj] using hKey

------------------------------------------------------------
-- Connecting Nodes
------------------------------------------------------------

/-
  Connecting leaves every connection as it was, and puts one
  more behind them.
-/
def KeepsConnections
    (description : Description)
    (source target : NodeId) : Prop :=
  ∃ id,
    (description.connect source target).connections.entries =
      description.connections.entries
        ++ [(id, .between source target)]

/- A connection under a key that is taken replaces another. -/
theorem exists_connect_of_taken
    (source target : NodeId)
    (hTaken :
      description.nextConnectionId ∈
        description.connections.keys) :
    ∃ before lost after,
      description.connections.entries =
          before ++
            (description.nextConnectionId, lost) :: after ∧
        (description.connect source target).connections.entries =
          before ++
            (description.nextConnectionId,
              .between source target) :: after :=
  Entries.exists_put_of_mem _ hTaken

/- Connections are kept exactly if the made-up key is free. -/
theorem keepsConnections_iff :
    description.KeepsConnections source target ↔
      description.nextConnectionId ∉
        description.connections.keys := by
  constructor
  · rintro ⟨id, hKept⟩ hTaken
    rcases exists_connect_of_taken source target hTaken with
      ⟨before, lost, after, hOld, hNew⟩
    rw [hNew, hOld] at hKept
    have hLength := congrArg List.length hKept
    simp at hLength
  · intro hFree
    exact ⟨_, Entries.put_of_not_mem _ hFree⟩

------------------------------------------------------------
-- Building
------------------------------------------------------------

/- What can be done to a description to build it up. -/
inductive Step where
  | name (id : String)
  | describe (remark : String)
  | node (id : NodeId) (tag : String) (options : Options)
  | connection (id : ConnectionId) (connection : Connection)
  | connect (source target : NodeId)

/- The description with the step done. -/
def Step.apply
    (description : Description) : Step → Description
  | .name id => description.named id
  | .describe remark => description.describe remark
  | .node id tag options => description.putNode id tag options
  | .connection id added => description.putConnection id added
  | .connect source target => description.connect source target

/- The description with all steps done, one after the other. -/
def build
    (description : Description)
    (steps : List Step) : Description :=
  steps.foldl Step.apply description

------------------------------------------------------------
-- Room for Further Keys
------------------------------------------------------------

/- No key has a number higher than that of the connections. -/
def HasRoom (description : Description) : Prop :=
  ∀ n, description.connections.size < n →
    countedKey n ∉ description.connections.keys

/- The step does not choose a key like those that are made up. -/
def Step.LeavesRoom : Step → Prop
  | .connection id _ => ∀ n, id ≠ countedKey n
  | _ => True

/- Without connections there is room. -/
theorem hasRoom_empty : HasRoom empty := by
  simp [HasRoom, empty, Table.empty, Table.keys, Entries.keys]

/- Where there is room, the key that is made up is free. -/
theorem HasRoom.keepsConnections
    (hRoom : description.HasRoom)
    (source target : NodeId) :
    description.KeepsConnections source target :=
  keepsConnections_iff.mpr (hRoom _ (Nat.lt_succ_self _))

/- One more key leaves room unless its number is too high. -/
theorem HasRoom.putConnection
    (hRoom : description.HasRoom)
    {id : ConnectionId}
    (connection : Connection)
    (hId :
      ∀ n, id = countedKey n →
        n ≤ description.connections.size + 1) :
    (description.putConnection id connection).HasRoom := by
  intro n hSize
  have hSize :
      (description.connections.insert id connection).size < n :=
    hSize
  show countedKey n ∉
    (description.connections.insert id connection).keys
  rw [Table.size_insert] at hSize
  rw [Table.keys_insert]
  by_cases hKnown : id ∈ description.connections.keys
  · rw [if_pos hKnown] at hSize ⊢
    exact hRoom n hSize
  · rw [if_neg hKnown] at hSize ⊢
    rw [List.mem_append, List.mem_singleton, not_or]
    refine ⟨hRoom n (Nat.lt_of_succ_lt hSize), ?_⟩
    intro hKey
    exact absurd (hId n hKey.symm) (Nat.not_le_of_lt hSize)

/- A step that leaves keys with numbers alone leaves room. -/
theorem HasRoom.apply
    (hRoom : description.HasRoom)
    {step : Step}
    (hStep : step.LeavesRoom) :
    HasRoom (step.apply description) := by
  cases step with
  | name id => exact hRoom
  | describe remark => exact hRoom
  | node id tag options => exact hRoom
  | connection id connection =>
      apply hRoom.putConnection
      intro n hKey
      exact absurd hKey (hStep n)
  | connect source target =>
      apply hRoom.putConnection
      intro n hKey
      exact Nat.le_of_eq (eq_of_countedKey_eq hKey).symm

/- Steps that leave keys with numbers alone leave room. -/
theorem HasRoom.build
    (hRoom : description.HasRoom)
    {steps : List Step}
    (hSteps : ∀ step ∈ steps, step.LeavesRoom) :
    (description.build steps).HasRoom := by
  induction steps generalizing description with
  | nil => exact hRoom
  | cons step steps ih =>
      rw [List.forall_mem_cons] at hSteps
      exact ih (hRoom.apply hSteps.1) hSteps.2

------------------------------------------------------------
-- When Connections Are Kept
------------------------------------------------------------

/-
  Connecting two nodes keeps all connections exactly if no
  connection has the key that is made up. One that has it is
  lost, and the new one stands in its place. From a
  description with room, steps that leave keys with numbers to
  be made up never lead to this.
-/
theorem connect_keeps_connections_iff
    (description : Description)
    (source target : NodeId) :
    (description.KeepsConnections source target ↔
        description.nextConnectionId ∉
          description.connections.keys) ∧
      (description.nextConnectionId ∈
          description.connections.keys →
        ∃ before lost after,
          description.connections.entries =
              before ++
                (description.nextConnectionId, lost) :: after ∧
            (description.connect source
                target).connections.entries =
              before ++
                (description.nextConnectionId,
                  .between source target) :: after) ∧
      (description.HasRoom →
        ∀ steps : List Step,
          (∀ step ∈ steps, step.LeavesRoom) →
            (description.build steps).KeepsConnections source
              target) := by
  refine ⟨keepsConnections_iff, ?_, ?_⟩
  · intro hTaken
    exact exists_connect_of_taken source target hTaken
  · intro hRoom steps hSteps
    exact (hRoom.build hSteps).keepsConnections source target

/- A chosen key is taken, and another is not. -/
theorem connect_beside_chosen_keys :
    let taken :=
      empty.putConnection ⟨"conn2"⟩ (.between ⟨"a"⟩ ⟨"b"⟩)
    let steps : List Step :=
      [.connection ⟨"main"⟩ (.between ⟨"a"⟩ ⟨"b"⟩),
        .connect ⟨"b"⟩ ⟨"c"⟩]
    (taken.nextConnectionId ∈ taken.connections.keys ∧
        ∃ before lost after,
          taken.connections.entries =
              before ++ (taken.nextConnectionId, lost) :: after ∧
            (taken.connect ⟨"a"⟩ ⟨"c"⟩).connections.entries =
              before ++
                (taken.nextConnectionId,
                  .between ⟨"a"⟩ ⟨"c"⟩) :: after) ∧
      empty.HasRoom ∧ (∀ step ∈ steps, step.LeavesRoom) ∧
      (empty.build steps).KeepsConnections ⟨"a"⟩ ⟨"c"⟩ := by
  intro taken steps
  have hTaken :
      taken.nextConnectionId ∈ taken.connections.keys := by
    decide
  have hSteps : ∀ step ∈ steps, step.LeavesRoom := by
    rw [List.forall_mem_cons, List.forall_mem_singleton]
    refine ⟨?_, True.intro⟩
    intro n hKey
    have hLetters :=
      congrArg (fun id => id.text.toList.head?) hKey
    simp [countedKey] at hLetters
  exact ⟨⟨hTaken,
      (connect_keeps_connections_iff taken ⟨"a"⟩ ⟨"c"⟩).2.1
        hTaken⟩,
    hasRoom_empty, hSteps,
    (connect_keeps_connections_iff empty ⟨"a"⟩ ⟨"c"⟩).2.2
      hasRoom_empty steps hSteps⟩

/- The second connection takes the place of the first. -/
theorem connect_replaces_connection :
    let steps : List Step :=
      [.node ⟨"b"⟩ "Foo" .empty, .node ⟨"a"⟩ "Foo" .empty,
        .node ⟨"c"⟩ "Foo" .empty,
        .connection ⟨"conn2"⟩ (.between ⟨"a"⟩ ⟨"b"⟩)]
    let description := empty.build steps
    ¬ description.KeepsConnections ⟨"a"⟩ ⟨"c"⟩ ∧
      description.connections.entries =
        [(⟨"conn2"⟩, .between ⟨"a"⟩ ⟨"b"⟩)] ∧
      (description.connect ⟨"a"⟩ ⟨"c"⟩).connections.entries =
        [(⟨"conn2"⟩, .between ⟨"a"⟩ ⟨"c"⟩)] := by
  intro steps description
  refine ⟨?_, rfl, ?_⟩
  · rw [keepsConnections_iff, not_not]
    decide
  · decide

end Description

end PipelineScript
