import PipelineScript.Script.NameTable
import Mathlib.Data.List.Nodup

/-
  The two sides of a table of names: what the places have and
  whom the names belong to is one list of names that were
  given, in their order.

  Key definitions include:
    * `NameEntry`
    * `NameEntry.AreSound`
    * `NameTable.Lists`

  Key theorems include:
    * `NameTable.give_eq_error_iff`
    * `NameTable.give_of_error`
    * `NameTable.Lists.give`
    * `NameTable.Lists.get?_eq_some_iff`
    * `NameTable.Lists.owner?_eq_some_iff`
    * `NameTable.exists_assign_iff`
-/

namespace PipelineScript

------------------------------------------------------------
-- Lists of Names
------------------------------------------------------------

/- A name that was given to the node in some place. -/
structure NameEntry where
  place : Nat
  node : NodeId
  name : String
deriving DecidableEq, Repr

namespace NameEntry

/-
  Places and names belong to one another one by one, and no
  name is one that the script uses for itself.
-/
structure AreSound (given : List NameEntry) : Prop where
  places : (given.map place).Nodup
  names : (given.map name).Nodup
  unreserved : ∀ entry ∈ given, entry.name ∉ reservedNames

variable {given more : List NameEntry} {entry : NameEntry}

/- One more name keeps a list sound if it can be given. -/
theorem areSound_append_iff :
    AreSound (given ++ [entry]) ↔
      AreSound given ∧
        entry.name ∉ reservedNames ∧
        entry.place ∉ given.map place ∧
        entry.name ∉ given.map name := by
  constructor
  · rintro ⟨hPlaces, hNames, hReserved⟩
    rw [List.map_append, List.map_singleton,
      ← List.concat_eq_append, List.nodup_concat]
      at hPlaces hNames
    rw [List.forall_mem_append, List.forall_mem_singleton]
      at hReserved
    exact ⟨⟨hPlaces.2, hNames.2, hReserved.1⟩, hReserved.2,
      hPlaces.1, hNames.1⟩
  · rintro ⟨⟨hPlaces, hNames, hReserved⟩, hOwn, hPlace, hName⟩
    refine ⟨?_, ?_, ?_⟩
    · rw [List.map_append, List.map_singleton,
        ← List.concat_eq_append, List.nodup_concat]
      exact ⟨hPlace, hPlaces⟩
    · rw [List.map_append, List.map_singleton,
        ← List.concat_eq_append, List.nodup_concat]
      exact ⟨hName, hNames⟩
    · rw [List.forall_mem_append, List.forall_mem_singleton]
      exact ⟨hReserved, hOwn⟩

/- The first names of a sound list are sound. -/
theorem AreSound.of_append
    (hSound : AreSound (given ++ more)) :
    AreSound given where
  places := by
    have hPlaces := hSound.places
    rw [List.map_append] at hPlaces
    exact hPlaces.of_append_left
  names := by
    have hNames := hSound.names
    rw [List.map_append] at hNames
    exact hNames.of_append_left
  unreserved := fun entry hEntry =>
    hSound.unreserved entry (List.mem_append_left more hEntry)

end NameEntry

namespace NameTable

variable {table next : NameTable}
variable {place : Nat} {node : NodeId} {name : String}
variable {error : CompileError} {given : List NameEntry}

------------------------------------------------------------
-- Giving Names
------------------------------------------------------------

/-
  Why a name is refused: the script needs it for itself, the
  place has a name, or some node has this one. The first of
  these that holds is what the error tells.
-/
inductive Refuses
    (table : NameTable)
    (asked : NameEntry) : CompileError → Prop where
  | reserved
      (hReserved : asked.name ∈ reservedNames) :
      Refuses table asked
        (.validation
          (.reservedIdentifier asked.node asked.name))
  | named {existing : String}
      (hFree : asked.name ∉ reservedNames)
      (hPlace : table.get? asked.place = some existing) :
      Refuses table asked
        (.validation (.alreadyNamed asked.node existing))
  | taken {owner : NodeId}
      (hFree : asked.name ∉ reservedNames)
      (hPlace : table.get? asked.place = none)
      (hOwner : table.owner? asked.name = some owner) :
      Refuses table asked
        (.validation
          (.identifierClash owner asked.node asked.name))

/-
  A name that is given goes to both sides of the table, and one
  that is refused, for a reason, to none of them.
-/
theorem give_cases
    (table : NameTable)
    (asked : NameEntry) :
    (table.give asked.place asked.node asked.name =
        (⟨table.byPlace.insert asked.place asked.name,
            table.owners.insert asked.name asked.node⟩,
          .ok ()) ∧
        asked.name ∉ reservedNames ∧
        table.get? asked.place = none ∧
        table.owner? asked.name = none) ∨
      ∃ error,
        table.give asked.place asked.node asked.name =
            (table, .error error) ∧
          table.Refuses asked error := by
  unfold give
  by_cases hReserved : asked.name ∈ reservedNames
  · rw [if_pos (List.contains_iff_mem.mpr hReserved)]
    exact Or.inr ⟨_, rfl, .reserved hReserved⟩
  rw [if_neg (mt List.contains_iff_mem.mp hReserved)]
  cases hPlace : table.get? asked.place with
  | some existing =>
      exact Or.inr ⟨_, rfl, .named hReserved hPlace⟩
  | none =>
      cases hOwner : table.owner? asked.name with
      | some owner =>
          exact Or.inr ⟨_, rfl, .taken hReserved hPlace hOwner⟩
      | none => exact Or.inl ⟨rfl, hReserved, rfl, rfl⟩

/- The reasons exclude each other, and so do their errors. -/
theorem Refuses.unique
    {asked : NameEntry}
    {other : CompileError}
    (hRefuses : table.Refuses asked error)
    (hOther : table.Refuses asked other) :
    error = other := by
  cases hRefuses <;> cases hOther <;> simp_all

/- A name is refused for a reason, which is in the error. -/
theorem give_eq_error_iff
    {asked : NameEntry} :
    (table.give asked.place asked.node asked.name).2 =
        .error error ↔
      table.Refuses asked error := by
  rcases table.give_cases asked with
    ⟨hGive, hFree, hPlace, hOwner⟩ | ⟨other, hGive, hOther⟩
  · rw [hGive]
    constructor
    · intro hError
      cases hError
    · intro hRefuses
      cases hRefuses <;> simp_all
  · rw [hGive, Except.error.injEq]
    constructor
    · rintro rfl
      exact hOther
    · exact hOther.unique

/- A name that is refused leaves the table as it is. -/
theorem give_of_error
    {asked : NameEntry}
    (hError :
      (table.give asked.place asked.node asked.name).2 =
        .error error) :
    table.give asked.place asked.node asked.name =
      (table, .error error) := by
  rcases table.give_cases asked with
    ⟨hGive, -⟩ | ⟨other, hGive, -⟩
  · rw [hGive] at hError
    cases hError
  · rw [hGive] at hError ⊢
    rw [Except.error.inj hError]

/- A name is assigned if it can be given. -/
theorem assign_eq_ok_iff :
    table.assign place node name = .ok next ↔
      table.give place node name = (next, .ok ()) := by
  unfold assign
  rcases table.give place node name with ⟨given, _ | _⟩
  · simp
  · simp

/- Otherwise the error is that of the name. -/
theorem assign_eq_error_iff :
    table.assign place node name = .error error ↔
      table.Refuses ⟨place, node, name⟩ error := by
  rw [← give_eq_error_iff, assign]
  rcases table.give place node name with ⟨given, _ | _⟩
  · simp
  · simp

/- A name that is assigned is the name of its place. -/
theorem get?_of_assign
    (hAssign : table.assign place node name = .ok next)
    (other : Nat) :
    next.get? other =
      if other = place then some name else table.get? other := by
  rw [assign_eq_ok_iff] at hAssign
  rcases table.give_cases ⟨place, node, name⟩ with
    ⟨hGive, -⟩ | ⟨error, hGive, -⟩
  · rw [hGive, Prod.mk.injEq] at hAssign
    rcases hAssign with ⟨rfl, -⟩
    exact table.byPlace.get?_insert place other name
  · rw [hGive, Prod.mk.injEq] at hAssign
    cases hAssign.2

------------------------------------------------------------
-- Tables as Lists
------------------------------------------------------------

/-
  Both sides of a table say the same as one list of names that
  were given, none of which is reserved.
-/
structure Lists
    (table : NameTable)
    (given : List NameEntry) : Prop where
  byPlace :
    table.byPlace.entries =
      given.map fun entry => (entry.place, entry.name)
  owners :
    table.owners.entries =
      given.map fun entry => (entry.name, entry.node)
  unreserved : ∀ entry ∈ given, entry.name ∉ reservedNames

/- The table without names says nothing. -/
theorem lists_empty : empty.Lists [] where
  byPlace := rfl
  owners := rfl
  unreserved := by simp

namespace Lists

/- No place was given two names, and no name to two places. -/
theorem areSound (hLists : table.Lists given) :
    NameEntry.AreSound given where
  places := by
    have hKeys := table.byPlace.distinct
    rw [hLists.byPlace, Entries.keys, List.map_map] at hKeys
    exact hKeys
  names := by
    have hKeys := table.owners.distinct
    rw [hLists.owners, Entries.keys, List.map_map] at hKeys
    exact hKeys
  unreserved := hLists.unreserved

/- What a table tells of a place is what it was given. -/
theorem get?_eq_some_iff (hLists : table.Lists given) :
    table.get? place = some name ↔
      ∃ entry ∈ given,
        entry.place = place ∧ entry.name = name := by
  rw [get?, Table.get?_eq_some_iff, hLists.byPlace]
  simp

/- What it tells of a name is to whom the name was given. -/
theorem owner?_eq_some_iff (hLists : table.Lists given) :
    table.owner? name = some node ↔
      ∃ entry ∈ given,
        entry.name = name ∧ entry.node = node := by
  rw [owner?, Table.get?_eq_some_iff, hLists.owners]
  simp

/- A place has no name if it was given none. -/
theorem get?_eq_none_iff (hLists : table.Lists given) :
    table.get? place = none ↔
      place ∉ given.map NameEntry.place := by
  rw [get?, Table.get?_eq_none_iff, Table.keys, Entries.keys,
    hLists.byPlace, List.map_map]
  rfl

/- A name has no owner if it was not given. -/
theorem owner?_eq_none_iff (hLists : table.Lists given) :
    table.owner? name = none ↔
      name ∉ given.map NameEntry.name := by
  rw [owner?, Table.get?_eq_none_iff, Table.keys,
    Entries.keys, hLists.owners, List.map_map]
  rfl

/- A place has the name that it was given. -/
theorem get?_eq
    (hLists : table.Lists given)
    {entry : NameEntry}
    (hEntry : entry ∈ given) :
    table.get? entry.place = some entry.name :=
  hLists.get?_eq_some_iff.mpr ⟨entry, hEntry, rfl, rfl⟩

/- There are as many names as were given. -/
theorem size_eq (hLists : table.Lists given) :
    table.size = given.length := by
  rw [size, Table.size, hLists.byPlace, List.length_map]

/- One more name is put behind those that were given. -/
theorem give
    (hLists : table.Lists given)
    (hGive : table.give place node name = (next, .ok ())) :
    next.Lists (given ++ [⟨place, node, name⟩]) := by
  rcases table.give_cases ⟨place, node, name⟩ with
    ⟨hNext, hFree, hPlace, hOwner⟩ | ⟨error, hError, -⟩
  · rw [hNext, Prod.mk.injEq] at hGive
    rcases hGive with ⟨rfl, -⟩
    rw [hLists.get?_eq_none_iff] at hPlace
    rw [hLists.owner?_eq_none_iff] at hOwner
    refine ⟨?_, ?_, ?_⟩
    · change Entries.put _ _ table.byPlace.entries = _
      rw [Entries.put_of_not_mem, hLists.byPlace,
        List.map_append]
      · rfl
      · rw [hLists.byPlace, Entries.keys, List.map_map]
        exact hPlace
    · change Entries.put _ _ table.owners.entries = _
      rw [Entries.put_of_not_mem, hLists.owners,
        List.map_append]
      · rfl
      · rw [hLists.owners, Entries.keys, List.map_map]
        exact hOwner
    · rw [List.forall_mem_append, List.forall_mem_singleton]
      exact ⟨hLists.unreserved, hFree⟩
  · rw [hError] at hGive
    cases hGive

/- A name is given if it is new, and so is its place. -/
theorem exists_assign_iff (hLists : table.Lists given) :
    (∃ next, table.assign place node name = .ok next) ↔
      NameEntry.AreSound (given ++ [⟨place, node, name⟩]) := by
  rw [NameEntry.areSound_append_iff]
  simp only [← hLists.get?_eq_none_iff,
    ← hLists.owner?_eq_none_iff, hLists.areSound, true_and,
    assign_eq_ok_iff]
  rcases table.give_cases ⟨place, node, name⟩ with
    ⟨hGive, hFree⟩ | ⟨error, hGive, hRefuses⟩
  · exact ⟨fun _ => hFree, fun _ => ⟨_, hGive⟩⟩
  · constructor
    · rintro ⟨next, hNext⟩
      rw [hGive] at hNext
      cases hNext
    · rintro ⟨hFree, hPlace, hOwner⟩
      cases hRefuses <;> simp_all

/- Then it stands behind those that were given. -/
theorem assign
    (hLists : table.Lists given)
    (hAssign : table.assign place node name = .ok next) :
    next.Lists (given ++ [⟨place, node, name⟩]) :=
  hLists.give (assign_eq_ok_iff.mp hAssign)

end Lists

end NameTable

end PipelineScript
