import PipelineScript.Event
import PipelineScript.Import.Requirements
import PipelineScript.Script.Generator
import PipelineScript.Text.Name

/-
  Settings for the making of scripts.

  Key definitions include:
    * `Settings`
    * `Settings.standard`
    * `Settings.problem?`
    * `Settings.check`
    * `Settings.toJson`
    * `Settings.record`
-/

namespace PipelineScript

/-
  How scripts are laid out, how strictly names are checked,
  and which imports are required.
-/
structure Settings where
  indent : String
  entrypoint : String
  deviceSetup : Bool
  strictModels : Bool
  imports : Requirements
deriving DecidableEq, Repr

namespace Settings

/- The settings of a program that is told nothing. -/
def standard : Settings where
  indent := "    "
  entrypoint := "main"
  deviceSetup := true
  strictModels := false
  imports := .standard

/- What all generators are told. -/
def layout (settings : Settings) : GeneratorOptions where
  indent := settings.indent
  isStrict := settings.strictModels
  bindsDevice := settings.deviceSetup

/- Both settings say the same. -/
def isSame (settings other : Settings) : Bool :=
  settings.indent == other.indent
    && settings.entrypoint == other.entrypoint
    && settings.deviceSetup == other.deviceSetup
    && settings.strictModels == other.strictModels
    && settings.imports.isSame other.imports

------------------------------------------------------------
-- Checking
------------------------------------------------------------

/- A text of at least one space or tab, and nothing else. -/
def isIndent (indent : String) : Bool :=
  !indent.isEmpty
    && indent.toList.all fun c => c == ' ' || c == '\t'

/- What is wrong with settings, if anything is. -/
def problem? (settings : Settings) : Option SettingsProblem :=
  if !isIndent settings.indent then
    some (.badIndent settings.indent)
  else if !Text.isIdentifier settings.entrypoint then
    some (.badEntrypoint settings.entrypoint)
  else
    none

/- The script chooses a device and may lack what it needs. -/
def lacksTorch (settings : Settings) : Bool :=
  settings.deviceSetup
    && !settings.imports.defaults.any (·.path == "torch")

/- Refuse settings that cannot make a script. -/
def check
    (settings : Settings) :
    Traced Event SettingsProblem Unit :=
  match settings.problem? with
  | some problem => .fail problem
  | none =>
      if settings.lacksTorch then
        .emit .torchNotImported
      else
        .done ()

------------------------------------------------------------
-- Documents
------------------------------------------------------------

/- The settings as JSON. -/
def toJson (settings : Settings) : Json.Value :=
  .object
    [("indent", .text settings.indent),
      ("entrypoint", .text settings.entrypoint),
      ("device_setup", .boolean settings.deviceSetup),
      ("strict_models", .boolean settings.strictModels),
      ("imports", settings.imports.toJson)]

/- What was read of settings. -/
structure Draft where
  indent : Option String
  entrypoint : Option String
  deviceSetup : Option Bool
  strictModels : Option Bool
  imports : Option Requirements

/- The settings of a draft. What is missing is standard. -/
def ofDraft (draft : Draft) : Settings where
  indent := draft.indent.getD standard.indent
  entrypoint := draft.entrypoint.getD standard.entrypoint
  deviceSetup := draft.deviceSetup.getD standard.deviceSetup
  strictModels := draft.strictModels.getD standard.strictModels
  imports := draft.imports.getD standard.imports

/- The name of the record that settings are. -/
def recordName : String :=
  "CompilerConfig"

/- How settings are read. -/
def record {ω : Type} : Json.Record ω Draft Settings where
  name := recordName
  fields :=
    [.place "indent" [] Draft.indent
        (fun indent draft => { draft with indent := some indent })
        (fun _ => Json.Reader.text),
      .place "entrypoint" [] Draft.entrypoint
        (fun name draft => { draft with entrypoint := some name })
        (fun _ => Json.Reader.text),
      .place "device_setup" [] Draft.deviceSetup
        (fun flag draft => { draft with deviceSetup := some flag })
        (fun _ => Json.Reader.boolean),
      .place "strict_models" [] Draft.strictModels
        (fun flag draft =>
          { draft with strictModels := some flag })
        (fun _ => Json.Reader.boolean),
      .place "imports" [] Draft.imports
        (fun imports draft =>
          { draft with imports := some imports })
        Requirements.record.reader]
  empty := ⟨none, none, none, none, none⟩
  complete := fun draft => .ok (ofDraft draft)

/- The settings in a text. -/
def decodeJson
    [Json.Codec]
    (text : String) : Traced Event Json.Fault Settings :=
  Json.decode record.reader text

end Settings

end PipelineScript
