import PipelineScript.Json.Standard
import PipelineScript.Proofs.Command.Complaints
import PipelineScript.Proofs.Command.Loading
import PipelineScript.Toml.Standard

/-
  How the program ends, whatever files there are.

  A command fails at the first of its stages that something is
  lacking at: its settings, its description, what the compiler
  makes of them, and the file that is written. It ends as this
  says, and no file is changed unless all goes well.

  Key definitions include:
    * `Command.textOf`
    * `Command.Makes`
    * `Command.FailsFor`
    * `Command.EndsWhole`

  Key theorems include:
    * `Command.makes_or_failsFor`
    * `Command.endIn_of_write`
    * `Command.endIn_of_failsFor`
    * `Command.endsWhole`
-/

namespace PipelineScript

namespace Command

variable {tree after : FileTree} {command : Command}

------------------------------------------------------------
-- What a Command Is For
------------------------------------------------------------

/- The file with the settings of a command. -/
def settingsFile? : Command → Option String
  | .compile _ settings _ _ => settings
  | .validate _ => none
  | .packages _ settings => settings

/- The file with the description that a command is given. -/
def file : Command → String
  | .compile file _ _ _ => file
  | .validate file => file
  | .packages file _ => file

/- The file that a command puts its text into. -/
def output? : Command → Option String
  | .compile _ _ output _ => output
  | .validate _ => none
  | .packages _ _ => none

/- The command that prints its text instead. -/
def printing : Command → Command
  | .compile file settings _ isStrict =>
      .compile file settings none isStrict
  | .validate file => .validate file
  | .packages file settings => .packages file settings

/- What prints its text has no file to put it into. -/
theorem output?_printing (command : Command) :
    command.printing.output? = none := by
  cases command with
  | compile => rfl
  | validate => rfl
  | packages => rfl

/- What a command makes of a description. -/
def textOf
    (command : Command)
    (settings : Settings)
    (description : Description) : Except CompileError String :=
  match command with
  | .compile _ _ _ isStrict =>
      ((Compiler.ofSettings
        { settings with
          strictModels :=
            settings.strictModels || isStrict }).compile
              description).outcome.map Script.text
  | .validate _ =>
      ((Compiler.ofSettings settings).validate description).map
        fun ids => Text.unlines (numbered ids)
  | .packages _ _ =>
      ((Compiler.ofSettings settings).compile
        description).outcome.map
          fun script => Text.unlines script.packages

/- How an error of the compiler is a failure of a command. -/
def refusedFor
    (command : Command)
    (error : CompileError) : Failure :=
  match command with
  | .validate _ => .compile error
  | .compile file _ _ _ =>
      .within ("Failed to compile " ++ file) (.compile error)
  | .packages file _ =>
      .within ("Failed to compile " ++ file) (.compile error)

------------------------------------------------------------
-- Steps of Commands
------------------------------------------------------------

/- A script is put into a file, and nothing is printed. -/
theorem finish_deliver_of_ok
    {script : Script}
    {path : String}
    (hWrite : tree.write path script.text = .ok after) :
    (deliver script (some path)).finish tree = (.ok "", after) :=
  (FileTask.finish_bind_of_ok
    (FileTask.finish_writeText_of_ok hWrite _) _).trans rfl

/- It is a failure if the file cannot be written. -/
theorem finish_deliver_of_error
    {script : Script}
    {path : String}
    {fault : FileFault}
    (hWrite : tree.write path script.text = .error fault) :
    (deliver script (some path)).finish tree =
      (.error
          (.within ("Failed to write script to " ++ path)
            (.file fault)),
        tree) :=
  FileTask.finish_bind_of_error
    (FileTask.finish_writeText_of_error hWrite _) _

section Libraries

variable [Json.Codec]

/- A description that compiles becomes its script. -/
theorem finish_scriptOf_of_ok
    {settings : Settings}
    {file : String}
    {description : Description}
    {script : Script}
    (hDescription : GivesDescription tree file description)
    (hScript :
      ((Compiler.ofSettings settings).compile
        description).outcome = .ok script) :
    (scriptOf settings file).finish tree =
      (.ok script, tree) :=
  (FileTask.finish_bind_of_ok
    (finish_load_of_gives hDescription) _).trans
    (FileTask.finish_done
      (Traced.outcome_mapError_of_ok _ hScript))

/- What the compiler refuses is a failure in a context. -/
theorem finish_scriptOf_of_error
    {settings : Settings}
    {file : String}
    {description : Description}
    {error : CompileError}
    (hDescription : GivesDescription tree file description)
    (hScript :
      ((Compiler.ofSettings settings).compile
        description).outcome = .error error) :
    (scriptOf settings file).finish tree =
      (.error
          (.within ("Failed to compile " ++ file)
            (.compile error)),
        tree) :=
  (FileTask.finish_bind_of_ok
    (finish_load_of_gives hDescription) _).trans
    (FileTask.finish_done
      (Traced.outcome_mapError_eq_error.mpr
        ⟨error, hScript, rfl⟩))

/- The nodes of a description are put in order, or refused. -/
theorem finish_orderOf_of_gives
    {file : String}
    {description : Description}
    (hDescription : GivesDescription tree file description) :
    (orderOf file).finish tree =
      (.ok
          ((Compiler.ofSettings .standard).validate description),
        tree) :=
  (FileTask.finish_bind_of_ok
    (finish_load_of_gives hDescription) _).trans rfl

------------------------------------------------------------
-- What a Command Comes To
------------------------------------------------------------

variable [Toml.Codec]

/- The files give a command what it needs to make a text. -/
def Makes
    (tree : FileTree)
    (command : Command)
    (text : String) : Prop :=
  ∃ settings description,
    GivesSettings tree command.settingsFile? settings ∧
      GivesDescription tree command.file description ∧
      command.textOf settings description = .ok text

/-
  What a command fails for: settings that are lacking, then a
  description, then an error of the compiler, and in the end a
  file that cannot be written.
-/
inductive FailsFor
    (tree : FileTree)
    (command : Command) : Failure → Prop where
  | settings {failure : Failure}
      (hLacks :
        LacksSettings tree command.settingsFile? failure) :
      FailsFor tree command failure
  | description {settings : Settings} {failure : Failure}
      (hSettings :
        GivesSettings tree command.settingsFile? settings)
      (hLacks : LacksDescription tree command.file failure) :
      FailsFor tree command failure
  | refused {settings : Settings} {description : Description}
      {error : CompileError}
      (hSettings :
        GivesSettings tree command.settingsFile? settings)
      (hDescription :
        GivesDescription tree command.file description)
      (hText :
        command.textOf settings description = .error error) :
      FailsFor tree command (command.refusedFor error)
  | unwritten {text path : String} {fault : FileFault}
      (hMakes : Makes tree command text)
      (hOutput : command.output? = some path)
      (hWrite : tree.write path text = .error fault) :
      FailsFor tree command
        (.within ("Failed to write script to " ++ path)
          (.file fault))

/- A command makes a text and puts it away, or fails. -/
theorem makes_or_failsFor
    (tree : FileTree)
    (command : Command) :
    (∃ text, Makes tree command text ∧
      ∀ path, command.output? = some path →
        ∃ after, tree.write path text = .ok after) ∨
      ∃ failure, FailsFor tree command failure := by
  rcases gives_or_lacksSettings tree command.settingsFile? with
    ⟨settings, hSettings⟩ | ⟨failure, hLacks⟩
  · rcases gives_or_lacksDescription tree command.file with
      ⟨description, hDescription⟩ | ⟨failure, hLacks⟩
    · cases hText : command.textOf settings description with
      | error error =>
          exact Or.inr
            ⟨_, .refused hSettings hDescription hText⟩
      | ok text =>
          have hMakes : Makes tree command text :=
            ⟨settings, description, hSettings, hDescription,
              hText⟩
          by_cases hWrites :
              ∀ path, command.output? = some path →
                ∃ after, tree.write path text = .ok after
          · exact Or.inl ⟨text, hMakes, hWrites⟩
          · push Not at hWrites
            rcases hWrites with ⟨path, hOutput, hWrite⟩
            cases hFault : tree.write path text with
            | ok after => exact absurd hFault (hWrite after)
            | error fault =>
                exact Or.inr
                  ⟨_, .unwritten hMakes hOutput hFault⟩
    · exact Or.inr ⟨failure, .description hSettings hLacks⟩
  · exact Or.inr ⟨failure, .settings hLacks⟩

------------------------------------------------------------
-- Ends of Commands
------------------------------------------------------------

/- A command ends as its task does. -/
theorem endIn_of_finish
    {result : Except Failure (Except CompileError String)}
    (hTask : command.task.finish tree = (result, after)) :
    command.endIn tree = (outcome result, after) := by
  rw [FileTask.finish, Prod.mk.injEq] at hTask
  rw [← hTask.1, ← hTask.2]
  rfl

/- A script that was made is delivered, and that is all. -/
theorem exists_deliver_of_makes
    {file text : String}
    {settingsFile output : Option String}
    {isStrict : Bool}
    (hMakes :
      Makes tree (.compile file settingsFile output isStrict)
        text) :
    ∃ script : Script,
      script.text = text ∧
        (task
            (.compile file settingsFile output isStrict)).finish
              tree =
          (do
            let printed ← deliver script output
            return .ok printed : FileTask _).finish tree := by
  rcases hMakes with
    ⟨settings, description, hSettings, hDescription, hText⟩
  rcases map_eq_ok.mp hText with ⟨script, hScript, hSame⟩
  simp only [settingsFile?, Command.file] at hSettings hDescription
  refine ⟨script, hSame, ?_⟩
  rw [task, FileTask.finish_bind_of_ok
    (finish_settingsOf_of_gives hSettings),
    FileTask.finish_bind_of_ok
      (finish_scriptOf_of_ok hDescription hScript)]

/- What has no file to go to is printed. -/
theorem endIn_of_makes
    {text : String}
    (hMakes : Makes tree command text)
    (hOutput : command.output? = none) :
    command.endIn tree = (⟨0, text, ""⟩, tree) := by
  have hTask :
      command.task.finish tree = (.ok (.ok text), tree) := by
    cases command with
    | compile file settingsFile output isStrict =>
        rcases exists_deliver_of_makes hMakes with
          ⟨script, rfl, hDeliver⟩
        simp only [output?] at hOutput
        rw [hDeliver, hOutput]
        rfl
    | validate file =>
        rcases hMakes with
          ⟨settings, description, hSettings, hDescription, hText⟩
        cases hSettings
        simp only [Command.file] at hDescription
        rw [task, FileTask.finish_bind_of_ok
          (finish_orderOf_of_gives hDescription)]
        exact FileTask.finish_done (congrArg Except.ok hText)
    | packages file settingsFile =>
        rcases hMakes with
          ⟨settings, description, hSettings, hDescription, hText⟩
        rcases map_eq_ok.mp hText with ⟨script, hScript, rfl⟩
        simp only [settingsFile?, Command.file]
          at hSettings hDescription
        rw [task, FileTask.finish_bind_of_ok
          (finish_settingsOf_of_gives hSettings),
          FileTask.finish_bind_of_ok
            (finish_scriptOf_of_ok hDescription hScript)]
        rfl
  exact endIn_of_finish hTask

/- What has a file to go to is put into it. -/
theorem endIn_of_write
    {text path : String}
    (hMakes : Makes tree command text)
    (hOutput : command.output? = some path)
    (hWrite : tree.write path text = .ok after) :
    command.endIn tree = (⟨0, "", ""⟩, after) := by
  have hTask :
      command.task.finish tree = (.ok (.ok ""), after) := by
    cases command with
    | compile file settingsFile output isStrict =>
        rcases exists_deliver_of_makes hMakes with
          ⟨script, rfl, hDeliver⟩
        simp only [output?] at hOutput
        rw [hDeliver, hOutput, FileTask.finish_bind_of_ok
          (finish_deliver_of_ok hWrite)]
        rfl
    | validate file => cases hOutput
    | packages file settingsFile => cases hOutput
  exact endIn_of_finish hTask

/- A file that cannot be written is a failure like another. -/
theorem finish_task_of_unwritten
    {text path : String}
    {fault : FileFault}
    (hMakes : Makes tree command text)
    (hOutput : command.output? = some path)
    (hWrite : tree.write path text = .error fault) :
    command.task.finish tree =
      (.error
          (.within ("Failed to write script to " ++ path)
            (.file fault)),
        tree) := by
  cases command with
  | compile file settingsFile output isStrict =>
      rcases exists_deliver_of_makes hMakes with
        ⟨script, rfl, hDeliver⟩
      simp only [output?] at hOutput
      rw [hDeliver, hOutput, FileTask.finish_bind_of_error
        (finish_deliver_of_error hWrite)]
  | validate file => cases hOutput
  | packages file settingsFile => cases hOutput

/- Without settings there is nothing that a command does. -/
theorem finish_task_of_lacksSettings
    {failure : Failure}
    (hLacks : LacksSettings tree command.settingsFile? failure) :
    command.task.finish tree = (.error failure, tree) := by
  cases command with
  | compile file settingsFile output isStrict =>
      simp only [settingsFile?] at hLacks
      rw [task, FileTask.finish_bind_of_error
        (finish_settingsOf_of_lacks hLacks)]
  | validate file => cases hLacks
  | packages file settingsFile =>
      simp only [settingsFile?] at hLacks
      rw [task, FileTask.finish_bind_of_error
        (finish_settingsOf_of_lacks hLacks)]

/- Nor is there without a description. -/
theorem finish_task_of_lacksDescription
    {settings : Settings}
    {failure : Failure}
    (hSettings :
      GivesSettings tree command.settingsFile? settings)
    (hLacks : LacksDescription tree command.file failure) :
    command.task.finish tree = (.error failure, tree) := by
  have hScript (settings : Settings) :
      (scriptOf settings command.file).finish tree =
        (.error failure, tree) :=
    FileTask.finish_bind_of_error (finish_load_of_lacks hLacks) _
  have hOrder :
      (orderOf command.file).finish tree =
        (.error failure, tree) :=
    FileTask.finish_bind_of_error (finish_load_of_lacks hLacks) _
  cases command with
  | compile file settingsFile output isStrict =>
      simp only [settingsFile?, Command.file] at hSettings hScript
      rw [task, FileTask.finish_bind_of_ok
        (finish_settingsOf_of_gives hSettings),
        FileTask.finish_bind_of_error (hScript _)]
  | validate file =>
      simp only [Command.file] at hOrder
      rw [task, FileTask.finish_bind_of_error hOrder]
  | packages file settingsFile =>
      simp only [settingsFile?, Command.file] at hSettings hScript
      rw [task, FileTask.finish_bind_of_ok
        (finish_settingsOf_of_gives hSettings),
        FileTask.finish_bind_of_error (hScript _)]

/- An error of the compiler is told behind its kind. -/
theorem endIn_of_refused
    {settings : Settings}
    {description : Description}
    {error : CompileError}
    (hSettings :
      GivesSettings tree command.settingsFile? settings)
    (hDescription :
      GivesDescription tree command.file description)
    (hText :
      command.textOf settings description = .error error) :
    command.endIn tree =
      (⟨1, "", complaint (command.refusedFor error) ++ "\n"⟩,
        tree) := by
  cases command with
  | compile file settingsFile output isStrict =>
      have hScript := map_eq_error.mp hText
      simp only [settingsFile?, Command.file]
        at hSettings hDescription
      have hTask :
          (task (.compile file settingsFile output isStrict)).finish
              tree =
            (.error
                (.within ("Failed to compile " ++ file)
                  (.compile error)),
              tree) := by
        rw [task, FileTask.finish_bind_of_ok
          (finish_settingsOf_of_gives hSettings),
          FileTask.finish_bind_of_error
            (finish_scriptOf_of_error hDescription hScript)]
      exact endIn_of_finish hTask
  | validate file =>
      cases hSettings
      simp only [Command.file] at hDescription
      have hTask :
          (task (.validate file)).finish tree =
            (.ok (.error error), tree) := by
        rw [task, FileTask.finish_bind_of_ok
          (finish_orderOf_of_gives hDescription)]
        exact FileTask.finish_done (congrArg Except.ok hText)
      exact endIn_of_finish hTask
  | packages file settingsFile =>
      have hScript := map_eq_error.mp hText
      simp only [settingsFile?, Command.file]
        at hSettings hDescription
      have hTask :
          (task (.packages file settingsFile)).finish tree =
            (.error
                (.within ("Failed to compile " ++ file)
                  (.compile error)),
              tree) := by
        rw [task, FileTask.finish_bind_of_ok
          (finish_settingsOf_of_gives hSettings),
          FileTask.finish_bind_of_error
            (finish_scriptOf_of_error hDescription hScript)]
      exact endIn_of_finish hTask

/- A command that fails tells why, and changes no file. -/
theorem endIn_of_failsFor
    {failure : Failure}
    (hFails : FailsFor tree command failure) :
    command.endIn tree =
      (⟨1, "", complaint failure ++ "\n"⟩, tree) := by
  cases hFails with
  | settings hLacks =>
      exact endIn_of_finish (finish_task_of_lacksSettings hLacks)
  | description hSettings hLacks =>
      exact endIn_of_finish
        (finish_task_of_lacksDescription hSettings hLacks)
  | refused hSettings hDescription hText =>
      exact endIn_of_refused hSettings hDescription hText
  | unwritten hMakes hOutput hWrite =>
      exact endIn_of_finish
        (finish_task_of_unwritten hMakes hOutput hWrite)

/-
  A command does all of its work, or none of it. It succeeds if
  the files give it what it needs and its text can be put away,
  and only then. A text that goes to a file is the one that is
  printed without the file. A command that fails prints nothing
  and leaves all files as they are. What it tells is the error
  of the compiler, if that is what it fails for in any contexts,
  and otherwise the failure with all contexts around it.
-/
structure EndsWhole
    (tree : FileTree)
    (command : Command) : Prop where
  succeeds_iff :
    (command.endIn tree).1.status = 0 ↔
      ∃ text,
        Makes tree command text ∧
          ∀ path, command.output? = some path →
            ∃ after, tree.write path text = .ok after
  prints :
    ∀ text, Makes tree command text →
      command.output? = none →
        command.endIn tree = (⟨0, text, ""⟩, tree)
  writes :
    ∀ path, command.output? = some path →
      (command.endIn tree).1.status = 0 →
        ∃ text after,
          command.printing.endIn tree = (⟨0, text, ""⟩, tree) ∧
            command.endIn tree = (⟨0, "", ""⟩, after) ∧
            tree.write path text = .ok after ∧
            after.read path = .ok text
  fails_iff :
    (command.endIn tree).1.status ≠ 0 ↔
      ∃ failure, FailsFor tree command failure
  leaves :
    (command.endIn tree).1.status ≠ 0 →
      (command.endIn tree).1.status = 1 ∧
        (command.endIn tree).1.printed = "" ∧
        (command.endIn tree).2 = tree
  refuses :
    ∀ (error : CompileError) (contexts : List String),
      FailsFor tree command
          ((Failure.compile error).withinAll contexts) →
        (command.endIn tree).1.complaints =
          "error[" ++ error.kind.name ++ "]: " ++ error.message
            ++ "\n"
  complains :
    ∀ (root : Failure) (contexts : List String),
      root.isBare → (∀ error, root ≠ .compile error) →
        FailsFor tree command (root.withinAll contexts) →
          (command.endIn tree).1.complaints =
            "error: "
              ++ ": ".intercalate
                (contexts.reverse ++ [root.display])
              ++ "\n"
  refuses_iff :
    (∃ error : CompileError,
      (command.endIn tree).1.complaints =
        "error[" ++ error.kind.name ++ "]: " ++ error.message
          ++ "\n") ↔
      ∃ error contexts,
        FailsFor tree command
          ((Failure.compile error).withinAll contexts)

/- Printing instead of writing makes the same text. -/
theorem makes_printing_iff {text : String} :
    Makes tree command.printing text ↔
      Makes tree command text := by
  cases command with
  | compile => exact Iff.rfl
  | validate => exact Iff.rfl
  | packages => exact Iff.rfl

/- A command that makes a text and puts it away succeeds. -/
theorem status_of_makes
    {text : String}
    (hMakes : Makes tree command text)
    (hWrites :
      ∀ path, command.output? = some path →
        ∃ after, tree.write path text = .ok after) :
    (command.endIn tree).1.status = 0 := by
  cases hOutput : command.output? with
  | none => rw [endIn_of_makes hMakes hOutput]
  | some path =>
      rcases hWrites path hOutput with ⟨after, hWrite⟩
      rw [endIn_of_write hMakes hOutput hWrite]

/- A command that fails for something does not succeed. -/
theorem status_of_failsFor
    {failure : Failure}
    (hFails : FailsFor tree command failure) :
    (command.endIn tree).1.status ≠ 0 := by
  rw [endIn_of_failsFor hFails]
  exact Nat.one_ne_zero

/- Only an error of the compiler is told like one. -/
theorem exists_failsFor_of_complaints
    {error : CompileError}
    (hTold :
      (command.endIn tree).1.complaints =
        refusal error ++ "\n") :
    ∃ error contexts,
      FailsFor tree command
        ((Failure.compile error).withinAll contexts) := by
  rcases makes_or_failsFor tree command with
    ⟨text, hMakes, hWrites⟩ | ⟨failure, hFails⟩
  · -- Nothing is told where all goes well.
    have hNone : (command.endIn tree).1.complaints = "" := by
      cases hOutput : command.output? with
      | none => rw [endIn_of_makes hMakes hOutput]
      | some path =>
          rcases hWrites path hOutput with ⟨after, hWrite⟩
          rw [endIn_of_write hMakes hOutput hWrite]
    rw [hNone] at hTold
    exact absurd hTold.symm (by simp [String.append_eq_empty_iff])
  · rcases failure.exists_withinAll with
      ⟨root, contexts, hBare, rfl⟩
    by_cases hRoot : ∃ inner, root = .compile inner
    · rcases hRoot with ⟨inner, rfl⟩
      exact ⟨inner, contexts, hFails⟩
    · have hOther : ∀ inner, root ≠ .compile inner :=
        fun inner hSame => hRoot ⟨inner, hSame⟩
      rw [endIn_of_failsFor hFails,
        complaint_of_other hBare hOther, String.append_assoc]
        at hTold
      exact absurd hTold.symm (refusal_append_ne error "\n" _)

/- All commands end whole, whatever files there are. -/
theorem endsWhole
    (tree : FileTree)
    (command : Command) :
    command.EndsWhole tree where
  succeeds_iff := by
    constructor
    · intro hStatus
      rcases makes_or_failsFor tree command with
        hMakes | ⟨failure, hFails⟩
      · exact hMakes
      · exact absurd hStatus (status_of_failsFor hFails)
    · rintro ⟨text, hMakes, hWrites⟩
      exact status_of_makes hMakes hWrites
  prints := fun text hMakes hOutput =>
    endIn_of_makes hMakes hOutput
  writes := by
    intro path hOutput hStatus
    rcases makes_or_failsFor tree command with
      ⟨text, hMakes, hWrites⟩ | ⟨failure, hFails⟩
    · rcases hWrites path hOutput with ⟨after, hWrite⟩
      exact ⟨text, after,
        endIn_of_makes (makes_printing_iff.mpr hMakes)
          (output?_printing command),
        endIn_of_write hMakes hOutput hWrite, hWrite,
        FileTree.read_of_write hWrite⟩
    · exact absurd hStatus (status_of_failsFor hFails)
  fails_iff := by
    constructor
    · intro hStatus
      rcases makes_or_failsFor tree command with
        ⟨text, hMakes, hWrites⟩ | hFails
      · exact absurd (status_of_makes hMakes hWrites) hStatus
      · exact hFails
    · rintro ⟨failure, hFails⟩
      exact status_of_failsFor hFails
  leaves := by
    intro hStatus
    rcases makes_or_failsFor tree command with
      ⟨text, hMakes, hWrites⟩ | ⟨failure, hFails⟩
    · exact absurd (status_of_makes hMakes hWrites) hStatus
    · rw [endIn_of_failsFor hFails]
      exact ⟨rfl, rfl, rfl⟩
  refuses := by
    intro error contexts hFails
    rw [endIn_of_failsFor hFails, complaint_of_compile]
    rfl
  complains := by
    intro root contexts hBare hOther hFails
    rw [endIn_of_failsFor hFails, complaint_of_other hBare hOther]
  refuses_iff := by
    constructor
    · rintro ⟨error, hTold⟩
      exact exists_failsFor_of_complaints hTold
    · rintro ⟨error, contexts, hFails⟩
      rw [endIn_of_failsFor hFails, complaint_of_compile]
      exact ⟨error, rfl⟩

end Libraries

/- A text that the library refuses is told in its words. -/
example :
    ((validate "a.json").endIn
        (FileTree.empty.put ["a.json"] (.text "\x7b"))).1 =
      ⟨1, "",
        "error: Failed to parse pipeline description a.json: "
          ++ "Serialization error: the text ends too early\n"⟩ := by
  decide +kernel

end Command

end PipelineScript
