import PipelineScript.Proofs.Script.NameTable

/-
  Tables of names over any history of calls.

  A call asks for a name for the node in a place, and is
  granted or refused. A refused call leaves no trace, so that
  all that is ever seen of a table is what was granted. A name
  that was granted stays, and belongs to one place only.

  Key definitions include:
    * `NameTable.call`
    * `NameTable.run`
    * `NameTable.granted`

  Key theorems include:
    * `NameTable.exists_call_eq_error_iff`
    * `NameTable.lists_run`
    * `NameTable.run_of_refused`
    * `NameTable.run_gives_names_once`
-/

namespace PipelineScript

namespace NameTable

------------------------------------------------------------
-- Calls
------------------------------------------------------------

/- The table after a call, and how the call ended. -/
def call
    (table : NameTable)
    (asked : NameEntry) :
    NameTable × Except CompileError Unit :=
  table.give asked.place asked.node asked.name

/- The table after some calls, and how each of them ended. -/
def run
    (table : NameTable) :
    List NameEntry → NameTable × List (Except CompileError Unit)
  | [] => (table, [])
  | asked :: rest =>
      let called := table.call asked
      let ended := called.1.run rest
      (ended.1, called.2 :: ended.2)

/- What is granted of what some calls ask for, in order. -/
def granted
    (table : NameTable) :
    List NameEntry → List NameEntry
  | [] => []
  | asked :: rest =>
      match table.call asked with
      | (next, .ok ()) => asked :: next.granted rest
      | (same, .error _) => same.granted rest

variable {table : NameTable} {given : List NameEntry}
variable {asked : NameEntry} {error : CompileError}

/- A name has an owner if it is the name of some place. -/
theorem exists_owner?_iff
    (hLists : table.Lists given)
    {name : String} :
    (∃ owner, table.owner? name = some owner) ↔
      ∃ place, table.get? place = some name := by
  simp [hLists.owner?_eq_some_iff, hLists.get?_eq_some_iff]

/-
  A call is refused if the name is reserved, if the place has
  a name, or if some place has this one.
-/
theorem exists_call_eq_error_iff (hLists : table.Lists given) :
    (∃ error, (table.call asked).2 = .error error) ↔
      asked.name ∈ reservedNames ∨
        (∃ name, table.get? asked.place = some name) ∨
        ∃ place, table.get? place = some asked.name := by
  simp only [call, give_eq_error_iff,
    ← exists_owner?_iff hLists]
  constructor
  · rintro ⟨_, hReserved | ⟨-, hPlace⟩ | ⟨-, -, hOwner⟩⟩
    · exact Or.inl hReserved
    · exact Or.inr (Or.inl ⟨_, hPlace⟩)
    · exact Or.inr (Or.inr ⟨_, hOwner⟩)
  · intro hBad
    by_cases hReserved : asked.name ∈ reservedNames
    · exact ⟨_, .reserved hReserved⟩
    have hTaken := hBad.resolve_left hReserved
    cases hPlace : table.get? asked.place with
    | some existing => exact ⟨_, .named hReserved hPlace⟩
    | none =>
        rcases hTaken with ⟨name, hName⟩ | ⟨owner, hOwner⟩
        · rw [hPlace] at hName
          cases hName
        · exact ⟨_, .taken hReserved hPlace hOwner⟩

------------------------------------------------------------
-- Histories
------------------------------------------------------------

/- Calls are made one list after the other. -/
theorem run_append
    (table : NameTable)
    (first second : List NameEntry) :
    table.run (first ++ second) =
      (((table.run first).1.run second).1,
        (table.run first).2
          ++ ((table.run first).1.run second).2) := by
  induction first generalizing table with
  | nil => rfl
  | cons asked first ih =>
      rw [List.cons_append, run, run, ih]
      rfl

/- Every call ends in some way. -/
theorem length_run
    (table : NameTable)
    (calls : List NameEntry) :
    (table.run calls).2.length = calls.length := by
  induction calls generalizing table with
  | nil => rfl
  | cons asked calls ih =>
      rw [run, List.length_cons, List.length_cons, ih]

/- As many calls succeed as are granted. -/
theorem length_granted
    (table : NameTable)
    (calls : List NameEntry) :
    (table.granted calls).length =
      (table.run calls).2.countP Except.isOk := by
  induction calls generalizing table with
  | nil => rfl
  | cons asked calls ih =>
      rw [run, granted, List.countP_cons]
      rcases hCall : table.call asked with ⟨next, error | _⟩
      · rw [ih]
        rfl
      · rw [List.length_cons, ih]
        rfl

/-
  A table lists what it had and, behind it, what was granted.
  A refused call leaves both sides of it as they are.
-/
theorem lists_run
    (hLists : table.Lists given)
    (calls : List NameEntry) :
    (table.run calls).1.Lists
      (given ++ table.granted calls) := by
  induction calls generalizing table given with
  | nil =>
      rw [granted, List.append_nil]
      exact hLists
  | cons asked calls ih =>
      rw [run, granted]
      rcases hCall : table.call asked with ⟨next, error | _⟩
      · have hSame : table.call asked = (table, .error error) :=
          give_of_error (congrArg Prod.snd hCall)
        rw [hCall, Prod.mk.injEq] at hSame
        rw [hSame.1]
        exact ih hLists
      · have hNext := ih (hLists.give hCall)
        rw [List.append_assoc] at hNext
        exact hNext

/- A name that was given stays, whatever is asked for. -/
theorem get?_run
    (hLists : table.Lists given)
    {place : Nat}
    {name : String}
    (hName : table.get? place = some name)
    (calls : List NameEntry) :
    (table.run calls).1.get? place = some name := by
  rcases hLists.get?_eq_some_iff.mp hName with
    ⟨entry, hEntry, rfl, rfl⟩
  exact (lists_run hLists calls).get?_eq
    (List.mem_append_left _ hEntry)

/-
  A history with a call that is refused comes to the same as
  the history without it, and all other calls end alike.
-/
theorem run_of_refused
    {before after : List NameEntry}
    (hError :
      ((table.run before).1.call asked).2 = .error error) :
    table.run (before ++ after) =
      ((table.run (before ++ asked :: after)).1,
        (table.run (before ++ asked :: after)).2.eraseIdx
          before.length) := by
  have hCall :
      (table.run before).1.call asked =
        ((table.run before).1, .error error) :=
    give_of_error hError
  rw [run_append, run_append, run, hCall]
  simp [List.eraseIdx_append_of_length_le, length_run]

/-
  Whatever is asked for, a call is refused exactly if the name
  is reserved, the place has one, or some place has this one,
  and the first of these is its error. A refused call might as
  well not have been made. A name that was given stays, belongs
  to one place, is not reserved, and was granted to this place
  and its owner. There are as many names as calls that
  succeeded.
-/
theorem run_gives_names_once (calls : List NameEntry) :
    let table := (empty.run calls).1
    (∀ asked,
      ((∃ error, (table.call asked).2 = .error error) ↔
          asked.name ∈ reservedNames ∨
            (∃ name, table.get? asked.place = some name) ∨
            ∃ place, table.get? place = some asked.name) ∧
        ∀ error,
          (table.call asked).2 = .error error ↔
            table.Refuses asked error) ∧
      (∀ before asked after error,
        calls = before ++ asked :: after →
          ((empty.run before).1.call asked).2 = .error error →
            empty.run (before ++ after) =
              (table,
                (empty.run calls).2.eraseIdx before.length)) ∧
      (∀ more place name,
        table.get? place = some name →
          (empty.run (calls ++ more)).1.get? place =
            some name) ∧
      (∀ first second name,
        table.get? first = some name →
          table.get? second = some name → first = second) ∧
      (∀ place name,
        table.get? place = some name →
          name ∉ reservedNames) ∧
      (∀ place name,
        table.get? place = some name ↔
          ∃ given ∈ empty.granted calls,
            given.place = place ∧ given.name = name) ∧
      (∀ name owner,
        table.owner? name = some owner ↔
          ∃ given ∈ empty.granted calls,
            given.name = name ∧ given.node = owner) ∧
      table.size = (empty.run calls).2.countP Except.isOk := by
  intro table
  have hLists : table.Lists (empty.granted calls) :=
    lists_run lists_empty calls
  refine ⟨?_, ?_, ?_, ?_, ?_, ?_, ?_, ?_⟩
  · intro asked
    exact ⟨exists_call_eq_error_iff hLists,
      fun _ => give_eq_error_iff⟩
  · rintro before asked after error rfl hError
    exact run_of_refused hError
  · intro more place name hName
    rw [run_append]
    exact get?_run hLists hName more
  · intro first second name hFirst hSecond
    rcases hLists.get?_eq_some_iff.mp hFirst with
      ⟨one, hOne, rfl, hName⟩
    rcases hLists.get?_eq_some_iff.mp hSecond with
      ⟨two, hTwo, rfl, rfl⟩
    rw [List.inj_on_of_nodup_map hLists.areSound.names hOne
      hTwo hName]
  · intro place name hName
    rcases hLists.get?_eq_some_iff.mp hName with
      ⟨entry, hEntry, -, rfl⟩
    exact hLists.unreserved entry hEntry
  · intro place name
    exact hLists.get?_eq_some_iff
  · intro name owner
    exact hLists.owner?_eq_some_iff
  · rw [hLists.size_eq, length_granted]

/-
  A history with calls of every kind: one that is granted, one
  for a place that has a name, one for a reserved name, one for
  a name that is taken, and one that is granted behind them.
-/
theorem run_of_refused_calls :
    let first : NameEntry := ⟨0, ⟨"a-b"⟩, "foo_a_b"⟩
    let again : NameEntry := ⟨0, ⟨"a-b"⟩, "other"⟩
    let reserved : NameEntry := ⟨1, ⟨"model"⟩, "temp_model"⟩
    let taken : NameEntry := ⟨1, ⟨"a_b"⟩, "foo_a_b"⟩
    let last : NameEntry := ⟨1, ⟨"c"⟩, "foo_c"⟩
    let calls := [first, again, reserved, taken, last]
    let table : NameTable :=
      ⟨.ofList [(0, "foo_a_b"), (1, "foo_c")],
        .ofList [("foo_a_b", ⟨"a-b"⟩), ("foo_c", ⟨"c"⟩)]⟩
    empty.run calls =
        (table,
          [.ok (),
            .error (.validation
              (.alreadyNamed ⟨"a-b"⟩ "foo_a_b")),
            .error (.validation
              (.reservedIdentifier ⟨"model"⟩ "temp_model")),
            .error (.validation
              (.identifierClash ⟨"a-b"⟩ ⟨"a_b"⟩ "foo_a_b")),
            .ok ()]) ∧
      empty.run [first, again, reserved, last] =
        (table, (empty.run calls).2.eraseIdx 3) ∧
      (empty.run (calls ++ [taken])).1.get? 0 =
        some "foo_a_b" ∧
      table.size = 2 := by
  intro first again reserved taken last calls table
  have hRun : (empty.run calls).1 = table := by decide
  rcases run_gives_names_once calls with
    ⟨-, hRefused, hStays, -, -, -, -, hSize⟩
  rw [hRun] at hRefused hStays hSize
  refine ⟨by rfl, ?_, ?_, ?_⟩
  · exact hRefused [first, again, reserved] taken [last]
      (.validation (.identifierClash ⟨"a-b"⟩ ⟨"a_b"⟩ "foo_a_b"))
      rfl rfl
  · exact hStays [taken] 0 "foo_a_b" rfl
  · rw [hSize]
    rfl

end NameTable

end PipelineScript
