import PipelineScript.Command.Command
import PipelineScript.Proofs.Outcome

/-
  What a command loads before it does its work.

  The rules say when the files of a tree give settings and a
  description, and what is lacking if they do not. Loading them
  comes to what the rules say, and leaves the tree as it is.

  Key definitions include:
    * `FileTask.finish`
    * `Command.GivesSettings`
    * `Command.LacksSettings`
    * `Command.GivesDescription`
    * `Command.LacksDescription`

  Key theorems include:
    * `FileTask.finish_bind_of_ok`
    * `Command.gives_or_lacksSettings`
    * `Command.finish_settingsOf_of_gives`
    * `Command.finish_load_of_gives`
-/

namespace PipelineScript

------------------------------------------------------------
-- Tasks without Events
------------------------------------------------------------

namespace FileTask

variable {α β : Type} {tree after : FileTree}

/- What a task comes to, and the tree behind it. -/
def finish
    (task : FileTask α)
    (tree : FileTree) : Except Failure α × FileTree :=
  ((task.run tree).1.outcome, (task.run tree).2)

/- A task that comes to a value goes on with it. -/
theorem finish_bind_of_ok
    {task : FileTask α}
    {value : α}
    (hTask : task.finish tree = (.ok value, after))
    (next : α → FileTask β) :
    (task >>= next).finish tree = (next value).finish after := by
  change (task.bind next).finish tree = _
  rw [finish, Prod.mk.injEq] at hTask
  rw [finish, run_bind, hTask.1, hTask.2]
  rfl

/- A task that fails does not go on. -/
theorem finish_bind_of_error
    {task : FileTask α}
    {failure : Failure}
    (hTask : task.finish tree = (.error failure, after))
    (next : α → FileTask β) :
    (task >>= next).finish tree = (.error failure, after) := by
  change (task.bind next).finish tree = _
  rw [finish, Prod.mk.injEq] at hTask
  rw [finish, run_bind, hTask.1, hTask.2]

/- What is done at once leaves the tree as it is. -/
theorem finish_done
    {result : Traced Event Failure α}
    {outcome : Except Failure α}
    (hResult : result.outcome = outcome) :
    (done result).finish tree = (outcome, tree) := by
  rw [finish, run, hResult]

/- A text that can be read is read. -/
theorem finish_readText_of_ok
    {path text : String}
    (hRead : tree.read path = .ok text)
    (failure : FileFault → Failure) :
    (readText path failure).finish tree = (.ok text, tree) := by
  rw [readText, finish, run, hRead]
  rfl

/- A fault in reading is made a failure. -/
theorem finish_readText_of_error
    {path : String}
    {fault : FileFault}
    (hRead : tree.read path = .error fault)
    (failure : FileFault → Failure) :
    (readText path failure).finish tree =
      (.error (failure fault), tree) := by
  rw [readText, finish, run, hRead]
  rfl

/- A text that can be written is written. -/
theorem finish_writeText_of_ok
    {path text : String}
    (hWrite : tree.write path text = .ok after)
    (failure : FileFault → Failure) :
    (writeText path text failure).finish tree =
      (.ok (), after) := by
  rw [writeText, finish, run, hWrite]
  rfl

/- A fault in writing is made a failure. -/
theorem finish_writeText_of_error
    {path text : String}
    {fault : FileFault}
    (hWrite : tree.write path text = .error fault)
    (failure : FileFault → Failure) :
    (writeText path text failure).finish tree =
      (.error (failure fault), tree) := by
  rw [writeText, finish, run, hWrite]
  rfl

end FileTask

namespace Command

variable [Json.Codec] {tree after : FileTree}

------------------------------------------------------------
-- Loading Settings
------------------------------------------------------------

section SettingsFiles

variable [Toml.Codec]

/- The settings that a command works with. -/
inductive GivesSettings (tree : FileTree) :
    Option String → Settings → Prop where
  | standard : GivesSettings tree none .standard
  | loaded {path text : String} {settings : Settings}
      (hRead : tree.read path = .ok text)
      (hText :
        (Settings.ofText path text).outcome = .ok settings)
      (hCheck : settings.check.outcome = .ok ()) :
      GivesSettings tree (some path) settings

/-
  Why there are no settings to work with. A text that is not
  decoded is refused in the words of the library.
-/
inductive LacksSettings (tree : FileTree) :
    Option String → Failure → Prop where
  | unreadable {path : String} {fault : FileFault}
      (hRead : tree.read path = .error fault) :
      LacksSettings tree (some path)
        (.settings (.unreadable path fault))
  | notToml {path text : String}
      (hRead : tree.read path = .ok text)
      (hPath : Path.isToml path)
      (hText : Settings.decodeToml? text = none) :
      LacksSettings tree (some path)
        (.settings
          (.unparsable path
            (Toml.Codec.refusal Settings.recordName text)))
  | notJson {path text : String} {fault : Json.Fault}
      (hRead : tree.read path = .ok text)
      (hPath : ¬ Path.isToml path)
      (hText :
        (Settings.decodeJson text).outcome = .error fault) :
      LacksSettings tree (some path)
        (.settings
          (.unparsable path
            (Json.Codec.refusal Settings.recordName text
              fault)))
  | refused {path text : String} {settings : Settings}
      {problem : SettingsProblem}
      (hRead : tree.read path = .ok text)
      (hText :
        (Settings.ofText path text).outcome = .ok settings)
      (hCheck : settings.check.outcome = .error problem) :
      LacksSettings tree (some path) (.settings problem)

/- A text that gives no settings is refused by its library. -/
theorem lacksSettings_of_ofText
    {path text : String}
    {problem : SettingsProblem}
    (hRead : tree.read path = .ok text)
    (hText :
      (Settings.ofText path text).outcome = .error problem) :
    LacksSettings tree (some path) (.settings problem) := by
  unfold Settings.ofText at hText
  split at hText
  · next hPath =>
      split at hText
      · cases hText
      · next hNone =>
          rw [← Except.error.inj hText]
          exact .notToml hRead hPath hNone
  · next hPath =>
      rcases Traced.outcome_mapError_eq_error.mp hText with
        ⟨fault, hFault, rfl⟩
      exact .notJson hRead hPath hFault

/- A text that is not decoded as TOML gives no settings. -/
theorem outcome_ofText_of_toml
    {path text : String}
    (hPath : Path.isToml path)
    (hText : Settings.decodeToml? text = none) :
    (Settings.ofText path text).outcome =
      .error
        (.unparsable path
          (Toml.Codec.refusal Settings.recordName text)) := by
  rw [Settings.ofText, if_pos hPath, hText]
  rfl

/- Nor does one that is not decoded as JSON. -/
theorem outcome_ofText_of_json
    {path text : String}
    {fault : Json.Fault}
    (hPath : ¬ Path.isToml path)
    (hText :
      (Settings.decodeJson text).outcome = .error fault) :
    (Settings.ofText path text).outcome =
      .error
        (.unparsable path
          (Json.Codec.refusal Settings.recordName text
            fault)) := by
  rw [Settings.ofText, if_neg hPath]
  exact Traced.outcome_mapError_eq_error.mpr
    ⟨fault, hText, rfl⟩

/- Settings are given, or else something is lacking. -/
theorem gives_or_lacksSettings
    (tree : FileTree)
    (path? : Option String) :
    (∃ settings, GivesSettings tree path? settings) ∨
      ∃ failure, LacksSettings tree path? failure := by
  cases path? with
  | none => exact Or.inl ⟨_, .standard⟩
  | some path =>
      cases hRead : tree.read path with
      | error fault => exact Or.inr ⟨_, .unreadable hRead⟩
      | ok text =>
          cases hText : (Settings.ofText path text).outcome with
          | error problem =>
              exact Or.inr
                ⟨_, lacksSettings_of_ofText hRead hText⟩
          | ok settings =>
              cases hCheck : settings.check.outcome with
              | error problem =>
                  exact Or.inr ⟨_, .refused hRead hText hCheck⟩
              | ok _ =>
                  exact Or.inl ⟨_, .loaded hRead hText hCheck⟩

/- The settings that are given are loaded. -/
theorem finish_settingsOf_of_gives
    {path? : Option String}
    {settings : Settings}
    (hGives : GivesSettings tree path? settings) :
    (settingsOf path?).finish tree = (.ok settings, tree) := by
  cases hGives with
  | standard => rfl
  | @loaded path text _ hRead hText hCheck =>
      have hLoaded :
          (Settings.checkedOfText path text).outcome =
            .ok settings := by
        rw [Settings.checkedOfText,
          Traced.outcome_bind_of_ok hText,
          Traced.outcome_bind_of_ok hCheck]
        rfl
      exact (FileTask.finish_bind_of_ok
        (FileTask.finish_readText_of_ok hRead _) _).trans
        (FileTask.finish_done
          (Traced.outcome_mapError_of_ok _ hLoaded))

/- What the settings lack is what loading them fails for. -/
theorem finish_settingsOf_of_lacks
    {path? : Option String}
    {failure : Failure}
    (hLacks : LacksSettings tree path? failure) :
    (settingsOf path?).finish tree = (.error failure, tree) := by
  have hProblem {path text : String} {problem : SettingsProblem}
      (hRead : tree.read path = .ok text)
      (hText :
        (Settings.checkedOfText path text).outcome =
          .error problem) :
      (settingsOf (some path)).finish tree =
        (.error (.settings problem), tree) :=
    (FileTask.finish_bind_of_ok
      (FileTask.finish_readText_of_ok hRead _) _).trans
      (FileTask.finish_done
        (Traced.outcome_mapError_eq_error.mpr
          ⟨problem, hText, rfl⟩))
  cases hLacks with
  | unreadable hRead =>
      exact FileTask.finish_bind_of_error
        (FileTask.finish_readText_of_error hRead _) _
  | notToml hRead hPath hText =>
      apply hProblem hRead
      rw [Settings.checkedOfText,
        Traced.outcome_bind_of_error _
          (outcome_ofText_of_toml hPath hText)]
  | notJson hRead hPath hText =>
      apply hProblem hRead
      rw [Settings.checkedOfText,
        Traced.outcome_bind_of_error _
          (outcome_ofText_of_json hPath hText)]
  | refused hRead hText hCheck =>
      apply hProblem hRead
      rw [Settings.checkedOfText,
        Traced.outcome_bind_of_ok hText,
        Traced.outcome_bind_of_error _ hCheck]

end SettingsFiles

------------------------------------------------------------
-- Loading Descriptions
------------------------------------------------------------

/- The description in a file. -/
def GivesDescription
    (tree : FileTree)
    (file : String)
    (description : Description) : Prop :=
  ∃ text,
    tree.read file = .ok text ∧
      (Description.decode text).outcome = .ok description

/-
  Why there is no description in a file. A text that is not
  decoded is refused in the words of the library.
-/
inductive LacksDescription (tree : FileTree) (file : String) :
    Failure → Prop where
  | unreadable {fault : FileFault}
      (hRead : tree.read file = .error fault) :
      LacksDescription tree file
        (.within ("Failed to read pipeline description " ++ file)
          (.file fault))
  | undecodable {text : String} {fault : Json.Fault}
      (hRead : tree.read file = .ok text)
      (hText :
        (Description.decode text).outcome = .error fault) :
      LacksDescription tree file
        (.within ("Failed to parse pipeline description " ++ file)
          (.decoding
            (Json.Codec.refusal Description.record.name text
              fault)))

/- A description is given, or else something is lacking. -/
theorem gives_or_lacksDescription
    (tree : FileTree)
    (file : String) :
    (∃ description, GivesDescription tree file description) ∨
      ∃ failure, LacksDescription tree file failure := by
  cases hRead : tree.read file with
  | error fault => exact Or.inr ⟨_, .unreadable hRead⟩
  | ok text =>
      cases hText : (Description.decode text).outcome with
      | error fault =>
          exact Or.inr ⟨_, .undecodable hRead hText⟩
      | ok description =>
          exact Or.inl ⟨description, text, hRead, hText⟩

/- The description that is given is loaded. -/
theorem finish_load_of_gives
    {file : String}
    {description : Description}
    (hGives : GivesDescription tree file description) :
    (Description.load file).finish tree =
      (.ok description, tree) := by
  rcases hGives with ⟨text, hRead, hText⟩
  exact (FileTask.finish_bind_of_ok
    (FileTask.finish_readText_of_ok hRead _) _).trans
    (FileTask.finish_done
      (Traced.outcome_mapError_of_ok _ hText))

/- What it lacks is what loading it fails for. -/
theorem finish_load_of_lacks
    {file : String}
    {failure : Failure}
    (hLacks : LacksDescription tree file failure) :
    (Description.load file).finish tree =
      (.error failure, tree) := by
  cases hLacks with
  | unreadable hRead =>
      exact FileTask.finish_bind_of_error
        (FileTask.finish_readText_of_error hRead _) _
  | undecodable hRead hText =>
      exact (FileTask.finish_bind_of_ok
        (FileTask.finish_readText_of_ok hRead _) _).trans
        (FileTask.finish_done
          (Traced.outcome_mapError_eq_error.mpr
            ⟨_, hText, rfl⟩))

end Command

end PipelineScript
