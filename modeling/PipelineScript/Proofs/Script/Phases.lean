import PipelineScript.Proofs.Graph.Tables
import PipelineScript.Proofs.Script.Reporting

/-
  The phases that an assembler goes through.

  An assembler makes one script. The phases that it reports
  lead to the last one, or to the one in which something fails
  and from there to the end. After that nothing changes, and
  no call does more than to say so.

  Key definitions include:
    * `Phase.course`
    * `Phase.courseUntil`
    * `Event.changes`
    * `Registry.LeadsThrough`
    * `Description.FailsIn`
    * `Assembler.assembleAll`

  Key theorems include:
    * `Assembly.exists_course`
    * `Assembler.assemble_of_spent`
    * `Assembler.assembleAll_of_spent`
    * `Assembler.assembleAll_goes_one_course`
-/

namespace PipelineScript

------------------------------------------------------------
-- Courses
------------------------------------------------------------

namespace Phase

/- The phases in which a script is made. -/
def course : List Phase :=
  [.initialized, .graphBuilt, .sorted, .generating, .assembled]

/- The phases up to the one in which something fails. -/
def courseUntil (phase : Phase) : List Phase :=
  course.takeWhile (· != phase) ++ [phase, .failed]

/- The changes from one phase to the next. -/
def changesAlong (phases : List Phase) : List (Phase × Phase) :=
  phases.zip phases.tail

/- What fails in a phase leads on from it at last. -/
theorem getLast?_changesAlong_courseUntil (phase : Phase) :
    (changesAlong (courseUntil phase)).getLast? =
      some (phase, .failed) := by
  cases phase <;> rfl

/- The changes tell the phase in which something fails. -/
theorem changesAlong_courseUntil_inj
    {first second : Phase} :
    changesAlong (courseUntil first) =
        changesAlong (courseUntil second) ↔
      first = second := by
  constructor
  · intro hSame
    have hLast := congrArg List.getLast? hSame
    rw [getLast?_changesAlong_courseUntil,
      getLast?_changesAlong_courseUntil] at hLast
    exact (Prod.mk.inj (Option.some.inj hLast)).1
  · rintro rfl
    rfl

/- Where a script is made, nothing fails. -/
theorem changesAlong_course_ne (phase : Phase) :
    changesAlong course ≠
      changesAlong (courseUntil phase) := by
  intro hSame
  have hLast := congrArg List.getLast? hSame
  rw [getLast?_changesAlong_courseUntil] at hLast
  exact absurd (Prod.mk.inj (Option.some.inj hLast)).2
    (by decide)

end Phase

namespace Event

/- The phases that an event leads from and to. -/
def change? : Event → Option (Phase × Phase)
  | .phaseChanged before next => some (before, next)
  | _ => none

/- The changes of the phase among some events. -/
def changes (events : List Event) : List (Phase × Phase) :=
  events.filterMap change?

/- Changes are reported one list after the other. -/
theorem changes_append (first second : List Event) :
    changes (first ++ second) =
      changes first ++ changes second :=
  List.filterMap_append

/- Checking settings is done in the first phase. -/
theorem changes_check (settings : Settings) :
    changes settings.check.events = [] := by
  unfold Settings.check
  cases settings.problem? with
  | some problem => rfl
  | none => cases settings.lacksTorch <;> rfl

end Event

namespace Registry

/- Some generator reports the event when it is called. -/
def Tells (registry : Registry) (event : Event) : Prop :=
  ∃ request, event ∈ (registry.generate request).events

/-
  The events report these changes of the phase, apart from
  what generators report in one place among them.
-/
def LeadsThrough
    (registry : Registry)
    (events : List Event)
    (changes : List (Phase × Phase)) : Prop :=
  ∃ before told behind,
    events = before ++ told ++ behind ∧
      (∀ event ∈ told, registry.Tells event) ∧
      Event.changes (before ++ behind) = changes

variable {registry : Registry}

/- Without generators, what is reported is all there is. -/
theorem leadsThrough_changes
    (registry : Registry)
    (events : List Event) :
    registry.LeadsThrough events (Event.changes events) :=
  ⟨events, [], [], by simp, by simp, by simp⟩

/- Generators that report no change do not add to them. -/
theorem LeadsThrough.changes_eq
    {events : List Event}
    {changes : List (Phase × Phase)}
    (hLeads : registry.LeadsThrough events changes)
    (hQuiet :
      ∀ event, registry.Tells event → event.change? = none) :
    Event.changes events = changes := by
  rcases hLeads with ⟨before, told, behind, rfl, hTold, rfl⟩
  have hNone : Event.changes told = [] :=
    List.filterMap_eq_nil_iff.mpr fun event hEvent =>
      hQuiet event (hTold event hEvent)
  simp only [Event.changes_append, hNone, List.append_nil]

/- The built-in generators report no change of the phase. -/
theorem change?_eq_none_of_tells_standard
    {event : Event}
    (hTells : standard.Tells event) :
    event.change? = none := by
  rcases hTells with ⟨request, hEvent⟩
  have hNode : event.isOfNode :=
    reports_generate_standard request event hEvent
  cases event with
  | phaseChanged before next => cases hNode
  | _ => rfl

end Registry

------------------------------------------------------------
-- Failures
------------------------------------------------------------

/-
  Why a description fails in a phase. What is wrong with the
  settings comes first, then an end that is no node, then a
  cycle. Everything else is found in the last phase.
-/
inductive Description.FailsIn
    (settings : Settings)
    (description : Description) :
    Phase → CompileError → Prop where
  | settings {problem : SettingsProblem}
      (hCheck : settings.check.outcome = .error problem) :
      FailsIn settings description .initialized
        (.validation (.settings problem))
  | dangling
      {id : ConnectionId} {endpoint : Endpoint} {key : NodeId}
      (hCheck : settings.check.outcome = .ok ())
      (hDangles : description.Dangles id endpoint key) :
      FailsIn settings description .initialized
        (.validation (.danglingConnection id endpoint key))
  | cycle {waiting : List String}
      (hCheck : settings.check.outcome = .ok ())
      (hLinked : description.IsLinked)
      (hCyclic : ¬ description.IsAcyclic) :
      FailsIn settings description .graphBuilt
        (.cyclicGraph waiting)
  | later {error : CompileError}
      (hCheck : settings.check.outcome = .ok ())
      (hLinked : description.IsLinked)
      (hAcyclic : description.IsAcyclic) :
      FailsIn settings description .generating error

variable {settings : Settings} {registry : Registry}
variable {description : Description} {error : CompileError}

/- An end that is no node leaves a description unlinked. -/
theorem Description.Dangles.not_isLinked
    {id : ConnectionId} {endpoint : Endpoint} {key : NodeId}
    (hDangles : description.Dangles id endpoint key) :
    ¬ description.IsLinked := by
  intro hLinked
  rcases Graph.exists_ofDescription_iff_isLinked.mpr
      hLinked with
    ⟨graph, hGraph⟩
  rw [Graph.ofDescription_eq_error_iff.mpr
    ⟨id, endpoint, key, hDangles, rfl⟩] at hGraph
  cases hGraph

/- Ordering is no phase to fail in. -/
theorem Description.FailsIn.phase_mem
    {phase : Phase}
    (hFails : description.FailsIn settings phase error) :
    phase ∈ [Phase.initialized, .graphBuilt, .generating] := by
  cases hFails <;> simp

/- A description fails in one phase only. -/
theorem Description.FailsIn.phase_eq
    {first second : Phase} {other : CompileError}
    (hFirst : description.FailsIn settings first error)
    (hSecond : description.FailsIn settings second other) :
    first = second := by
  cases hFirst with
  | settings hError => cases hSecond <;> simp_all
  | dangling hCheck hDangles =>
      have hUnlinked := hDangles.not_isLinked
      cases hSecond <;> simp_all
  | cycle hCheck hLinked hCyclic =>
      cases hSecond with
      | dangling _ hDangles =>
          exact absurd hLinked hDangles.not_isLinked
      | _ => simp_all
  | later hCheck hLinked hAcyclic =>
      cases hSecond with
      | dangling _ hDangles =>
          exact absurd hLinked hDangles.not_isLinked
      | _ => simp_all

------------------------------------------------------------
-- One Run
------------------------------------------------------------

namespace Assembly

/- What is reported before the first block leads up to it. -/
theorem changes_opening (settings : Settings) :
    Event.changes (opening settings) =
      [(.initialized, .graphBuilt), (.graphBuilt, .sorted),
        (.sorted, .generating)] := by
  rw [opening, Event.changes_append, Event.changes_check]
  rfl

/- Up to the blocks, all that is reported is the run's own. -/
theorem leadsThrough_of_check
    {behind : List Event}
    {changes : List (Phase × Phase)}
    (hChanges : Event.changes behind = changes) :
    registry.LeadsThrough (settings.check.events ++ behind)
      changes := by
  have hOwn :=
    registry.leadsThrough_changes
      (settings.check.events ++ behind)
  rwa [Event.changes_append, Event.changes_check,
    List.nil_append, hChanges] at hOwn

/- What is reported of blocks, their generators report. -/
theorem leadsThrough_of_generate
    {graph : Graph} {places : List Nat}
    {behind : List Event}
    {changes : List (Phase × Phase)}
    (hChanges :
      Event.changes (opening settings ++ behind) = changes) :
    registry.LeadsThrough
      (opening settings
        ++ (generate settings registry graph places).events
        ++ behind)
      changes :=
  ⟨_, _, _, rfl,
    reports_generate (fun request _ hEvent => ⟨request, hEvent⟩)
      settings graph places,
    hChanges⟩

/-
  A run goes the whole course if it makes a script, and
  otherwise up to the phase that it fails in. It stays where
  its last step led.
-/
theorem exists_course
    (settings : Settings)
    (registry : Registry)
    (description : Description) :
    let ended :=
      conduct settings registry description .initialized
    (∃ script, ended.2.outcome = .ok script) ∧
        ended.1 = .assembled ∧
        registry.LeadsThrough ended.2.events
          (Phase.changesAlong Phase.course) ∨
      ∃ phase error,
        ended.2.outcome = .error error ∧
          ended.1 = .failed ∧
          description.FailsIn settings phase error ∧
          registry.LeadsThrough ended.2.events
            (Phase.changesAlong (Phase.courseUntil phase)) := by
  have hOpening := changes_opening settings
  intro ended
  cases hCheck : settings.check.outcome with
  | error problem =>
      have hEnded : ended = _ :=
        conduct_of_check_error hCheck registry description
      rw [hEnded]
      exact Or.inr ⟨.initialized, _, rfl, rfl, .settings hCheck,
        leadsThrough_of_check rfl⟩
  | ok _ =>
  cases hGraph : Graph.ofDescription description with
  | error error =>
      rcases Graph.ofDescription_eq_error_iff.mp hGraph with
        ⟨id, endpoint, key, hDangles, rfl⟩
      have hEnded : ended = _ :=
        conduct_of_ofDescription_error hCheck hGraph registry
      rw [hEnded]
      exact Or.inr ⟨.initialized, _, rfl, rfl,
        .dangling hCheck hDangles, leadsThrough_of_check rfl⟩
  | ok graph =>
  have hLinked : description.IsLinked :=
    Graph.exists_ofDescription_iff_isLinked.mp ⟨graph, hGraph⟩
  have hAcyclicIff := Graph.exists_order_iff_isAcyclic hGraph
  cases hOrder : graph.order with
  | error error =>
      have hCyclic : ¬ description.IsAcyclic := by
        rw [← hAcyclicIff, hOrder]
        simp
      rcases Graph.order_eq_error_iff.mp hOrder with
        ⟨waiting, -, rfl⟩
      have hEnded : ended = _ :=
        conduct_of_order_error hCheck hGraph hOrder registry
      rw [hEnded]
      exact Or.inr ⟨.graphBuilt, _, rfl, rfl,
        .cycle hCheck hLinked hCyclic,
        leadsThrough_of_check rfl⟩
  | ok places =>
  have hAcyclic : description.IsAcyclic :=
    hAcyclicIff.mp ⟨places, hOrder⟩
  cases hGenerate :
      (generate settings registry graph places).outcome with
  | error error =>
      have hEnded : ended = _ :=
        conduct_of_generate_error hCheck hGraph hOrder hGenerate
      rw [hEnded]
      refine Or.inr ⟨.generating, error, rfl, rfl,
        .later hCheck hLinked hAcyclic,
        leadsThrough_of_generate ?_⟩
      rw [Event.changes_append, hOpening]
      rfl
  | ok progress =>
      have hEnded : ended = _ :=
        conduct_of_generate hCheck hGraph hOrder hGenerate
      rw [hEnded]
      refine Or.inl ⟨⟨_, rfl⟩, rfl, leadsThrough_of_generate ?_⟩
      rw [Event.changes_append, hOpening]
      rfl

end Assembly

namespace Assembler

variable {assembler : Assembler}

------------------------------------------------------------
-- Many Calls
------------------------------------------------------------

/- The assembler after some calls, and what each came to. -/
def assembleAll
    (assembler : Assembler) :
    List Description →
      Assembler × List (Traced Event CompileError Script)
  | [] => (assembler, [])
  | description :: rest =>
      let called := assembler.assemble description
      let ended := called.1.assembleAll rest
      (ended.1, called.2 :: ended.2)

/- An assembler that was used stays as it is, and says so. -/
theorem assemble_of_spent
    (hSpent : assembler.phase ≠ .initialized)
    (description : Description) :
    assembler.assemble description =
      (assembler,
        .fail (.validation (.assemblerSpent assembler.phase))) :=
  if_neg hSpent

/- However often it is called, it stays as it is. -/
theorem assembleAll_of_spent
    (hSpent : assembler.phase ≠ .initialized)
    (descriptions : List Description) :
    assembler.assembleAll descriptions =
      (assembler,
        descriptions.map fun _ =>
          .fail
            (.validation (.assemblerSpent assembler.phase))) := by
  induction descriptions with
  | nil => rfl
  | cons description descriptions ih =>
      rw [assembleAll, assemble_of_spent hSpent, ih]
      rfl

/- An assembler stays in the phase that its work ends in. -/
theorem phase_assemble_new
    (settings : Settings)
    (registry : Registry)
    (description : Description) :
    ((new settings registry).assemble description).1.phase =
      (Assembly.conduct settings registry description
        .initialized).1 :=
  rfl

/- A run ends in a phase that nothing follows. -/
theorem isTerminal_assemble_new
    (settings : Settings)
    (registry : Registry)
    (description : Description) :
    ((new settings registry).assemble
      description).1.phase.isTerminal := by
  rw [phase_assemble_new]
  rcases Assembly.exists_course settings registry description with
    ⟨-, hPhase, -⟩ | ⟨_, _, -, hPhase, -⟩
  · rw [hPhase]
    rfl
  · rw [hPhase]
    rfl

/- The first call is a run, and uses the assembler up. -/
theorem assembleAll_new
    (settings : Settings)
    (registry : Registry)
    (first : Description)
    (rest : List Description) :
    let called := (new settings registry).assemble first
    (new settings registry).assembleAll (first :: rest) =
      (called.1,
        called.2
          :: rest.map fun _ =>
            .fail
              (.validation
                (.assemblerSpent called.1.phase))) := by
  intro called
  have hTerminal : called.1.phase.isTerminal :=
    isTerminal_assemble_new settings registry first
  have hSpent : called.1.phase ≠ .initialized := by
    intro hNew
    rw [hNew] at hTerminal
    exact absurd hTerminal (by decide)
  rw [assembleAll, assembleAll_of_spent hSpent]

/- All that is ever reported, the first run reports. -/
theorem events_assembleAll_new
    (settings : Settings)
    (registry : Registry)
    (first : Description)
    (rest : List Description) :
    ((new settings registry).assembleAll
        (first :: rest)).2.flatMap Traced.events =
      (Assembly.assemble settings registry first).events := by
  have hLater :
      ∀ problem : CompileError,
        (rest.map fun _ =>
            (.fail problem :
              Traced Event CompileError Script)).flatMap
          Traced.events = [] := by
    intro problem
    simp [Traced.fail]
  rw [assembleAll_new, List.flatMap_cons, hLater,
    List.append_nil]
  rfl

/-
  However an assembler is used, the phases that it reports are
  those of its first run: the whole course if this makes a
  script, and otherwise the course up to the phase that it
  fails in, which is one of three. Only what generators report
  stands among them. The phase that is reported last is the
  one that the assembler stays in, and every further call
  says so, and nothing else.
-/
theorem assembleAll_goes_one_course
    (settings : Settings)
    (registry : Registry)
    (first : Description)
    (rest : List Description) :
    let called := (new settings registry).assemble first
    let ended :=
      (new settings registry).assembleAll (first :: rest)
    let events := ended.2.flatMap Traced.events
    ∃ changes,
      registry.LeadsThrough events changes ∧
        ((∀ event, registry.Tells event →
            event.change? = none) →
          Event.changes events = changes) ∧
        ((∃ script, called.2.outcome = .ok script) ↔
          changes = Phase.changesAlong Phase.course) ∧
        ((∃ error, called.2.outcome = .error error) ↔
          ∃ phase ∈
              [Phase.initialized, .graphBuilt, .generating],
            changes =
              Phase.changesAlong (Phase.courseUntil phase)) ∧
        (∀ error, called.2.outcome = .error error →
          ∀ phase,
            changes =
                Phase.changesAlong (Phase.courseUntil phase) ↔
              first.FailsIn settings phase error) ∧
        changes.getLast?.map Prod.snd = some ended.1.phase ∧
        ended.1.phase.isTerminal ∧
        ended.1 = called.1 ∧
        ended.2 =
          called.2
            :: rest.map fun _ =>
              .fail
                (.validation
                  (.assemblerSpent ended.1.phase)) := by
  intro called ended events
  have hEnded : ended = (called.1, called.2 :: _) :=
    assembleAll_new settings registry first rest
  have hEvents : events = called.2.events :=
    events_assembleAll_new settings registry first rest
  have hTerminal : called.1.phase.isTerminal :=
    isTerminal_assemble_new settings registry first
  have hCalled : called.1.phase = _ :=
    phase_assemble_new settings registry first
  rw [hEnded, hEvents]
  rcases Assembly.exists_course settings registry first with
    ⟨⟨script, hScript⟩, hPhase, hLeads⟩ |
      ⟨phase, error, hError, hPhase, hFails, hLeads⟩
  · have hOk : called.2.outcome = .ok script := hScript
    refine ⟨_, hLeads, hLeads.changes_eq, ?_, ?_, ?_, ?_,
      hTerminal, rfl, rfl⟩
    · simp [hOk]
    · simp [hOk, Phase.changesAlong_course_ne]
    · simp [hOk]
    · rw [hCalled, hPhase]
      rfl
  · have hFailed : called.2.outcome = .error error := hError
    refine ⟨_, hLeads, hLeads.changes_eq, ?_, ?_, ?_, ?_,
      hTerminal, rfl, rfl⟩
    · simp [hFailed, (Phase.changesAlong_course_ne phase).symm]
    · simp only [hFailed, Except.error.injEq, exists_eq',
        true_iff]
      exact ⟨phase, hFails.phase_mem, rfl⟩
    · intro other hOther
      rw [hFailed, Except.error.injEq] at hOther
      subst hOther
      intro second
      rw [Phase.changesAlong_courseUntil_inj]
      constructor
      · rintro rfl
        exact hFails
      · exact hFails.phase_eq
    · rw [hCalled, hPhase,
        Phase.getLast?_changesAlong_courseUntil]
      rfl

/- A node that leads to itself, and a call behind it. -/
theorem assembleAll_of_circle :
    let circle :=
      (Description.empty.putNode ⟨"a"⟩ "Batch" .empty
        ).putConnection ⟨"k"⟩ (.between ⟨"a"⟩ ⟨"a"⟩)
    let called := (new .standard .standard).assemble circle
    let ended :=
      (new .standard .standard).assembleAll [circle, .empty]
    called.2.outcome = .error (.cyclicGraph ["a"]) ∧
      circle.FailsIn .standard .graphBuilt
        (.cyclicGraph ["a"]) ∧
      Event.changes (ended.2.flatMap Traced.events) =
        [(.initialized, .graphBuilt),
          (.graphBuilt, .failed)] ∧
      ended.1.phase = .failed ∧
      ended.2 =
        [called.2,
          .fail (.validation (.assemblerSpent .failed))] := by
  intro circle called ended
  have hFails :
      circle.FailsIn .standard .graphBuilt
        (.cyclicGraph ["a"]) := by
    refine .cycle rfl ?_ fun hAcyclic => ?_
    · rw [Description.IsLinked]
      decide
    · exact hAcyclic ⟨"a"⟩
        (.single ⟨.between ⟨"a"⟩ ⟨"a"⟩, by decide, rfl, rfl⟩)
  have hError :
      called.2.outcome = .error (.cyclicGraph ["a"]) := by
    have hGraph :
        Graph.ofDescription circle =
          .ok ⟨Graph.nodesOf circle, [⟨⟨"k"⟩, 0, 0⟩]⟩ := rfl
    have hOrder :
        Graph.order ⟨Graph.nodesOf circle, [⟨⟨"k"⟩, 0, 0⟩]⟩ =
          .error (.cyclicGraph ["a"]) := by
      decide +kernel
    exact Assembly.assemble_eq_error_of_order rfl hGraph hOrder
  rcases assembleAll_goes_one_course .standard .standard circle
      [.empty] with
    ⟨changes, -, hQuiet, -, -, hCourse, hLast, -, -, hMade⟩
  rw [(hCourse _ hError .graphBuilt).mpr hFails] at hQuiet hLast
  have hPhase : ended.1.phase = .failed :=
    (Option.some.inj hLast).symm
  refine ⟨hError, hFails, ?_, hPhase, ?_⟩
  · exact hQuiet fun event =>
      Registry.change?_eq_none_of_tells_standard
  · exact hMade.trans (by rw [hPhase]; rfl)

end Assembler

end PipelineScript
