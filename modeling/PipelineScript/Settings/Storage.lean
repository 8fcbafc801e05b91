import PipelineScript.Files.FileTask
import PipelineScript.Settings.TomlForm

/-
  Settings in files, which are TOML or JSON by their name.

  Key definitions include:
    * `Settings.ofText`
    * `Settings.load`
    * `Settings.loadOrStandard`
    * `Settings.save`
-/

namespace PipelineScript

namespace Settings

variable [Json.Codec] [Toml.Codec]

------------------------------------------------------------
-- Loading
------------------------------------------------------------

/- The settings in the text of the file at a path. -/
def ofText
    (path text : String) :
    Traced Event SettingsProblem Settings :=
  if Path.isToml path then
    match decodeToml? text with
    | some settings => .done settings
    | none =>
        .fail (.unparsable path
          (Toml.Codec.refusal recordName text))
  else
    (decodeJson text).mapError fun fault =>
      .unparsable path
        (Json.Codec.refusal recordName text fault)

/- The settings of a text, if they pass the check. -/
def checkedOfText
    (path text : String) :
    Traced Event SettingsProblem Settings := do
  let settings ← ofText path text
  settings.check
  Traced.emit (.settingsLoaded path)
  return settings

/- The settings in the file at a path. -/
def load (path : String) : FileTask Settings := do
  let text ←
    FileTask.readText path fun fault =>
      .settings (.unreadable path fault)
  .done ((checkedOfText path text).mapError .settings)

/- The standard settings in place of a failure. -/
def orStandard
    (loaded : Traced Event Failure Settings) :
    Traced Event Failure Settings :=
  match loaded.outcome with
  | .ok _ => loaded
  | .error failure =>
      ⟨loaded.events ++ [.settingsDefaulted failure],
        .ok standard⟩

/- The settings in the file at a path, or the standard ones. -/
def loadOrStandard (path : String) : FileTask Settings :=
  .read path fun answer =>
    .done
      (orStandard
        (match answer with
        | .ok text => (checkedOfText path text).mapError .settings
        | .error fault => .fail (.settings (.unreadable path fault))))

------------------------------------------------------------
-- Saving
------------------------------------------------------------

/- The settings as the text of the file at a path. -/
def textFor
    (settings : Settings)
    (path : String) : Except SettingsProblem String :=
  (if Path.isToml path then
    Toml.Codec.print settings.toToml
  else
    Json.Codec.print settings.toJson).mapError .unprintable

/- Put the settings into the file at a path. -/
def save (settings : Settings) (path : String) : FileTask Unit := do
  if Path.parent path != "" then
    FileTask.ensureDirectories (Path.parent path) fun fault =>
      .settings (.noDirectory fault)
  let text ←
    FileTask.done
      ((Traced.ofExcept (settings.textFor path)).mapError
        .settings)
  FileTask.writeText path text fun fault =>
    .settings (.unwritable path fault)

end Settings

end PipelineScript
