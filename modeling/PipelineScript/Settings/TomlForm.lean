import PipelineScript.Settings.Settings
import PipelineScript.Toml.Codec
import PipelineScript.Toml.Decoder

/-
  Settings as TOML documents.

  Key definitions include:
    * `Settings.ofToml?`
    * `Settings.decodeToml?`
    * `Directive.toToml`
    * `Requirements.toToml`
    * `Settings.toToml`
-/

namespace PipelineScript

------------------------------------------------------------
-- Reading
------------------------------------------------------------

namespace Directive

/- How the parts of a request are read. -/
def tomlFields : List (Toml.Field Draft) :=
  [.place ["module"]
      (fun path draft => { draft with path := some path })
      Toml.Value.text?,
    .place ["alias", "as_name"]
      (fun otherName draft =>
        { draft with otherName := some otherName })
      (fun value => value.text?.map some),
    .place ["specifier"]
      (fun member draft => { draft with member := some member })
      (fun value => value.text?.map some)]

/- The request in a value. -/
def ofToml? (value : Toml.Value) : Option Directive :=
  (Toml.fill? tomlFields ⟨none, none, none⟩ value).bind ofDraft?

end Directive

namespace Requirements

/- The requests under the tags of a table. -/
def tagsOfToml? :
    Toml.Value → Option (Table String (List Directive))
  | .table members =>
      (members.mapM fun member =>
        (Toml.list? Directive.ofToml? member.2).map
          fun directives => (member.1, directives)).map .ofList
  | _ => none

/- How the parts of requirements are read. -/
def tomlFields : List (Toml.Field Draft) :=
  [.place ["defaults"]
      (fun defaults draft =>
        { draft with defaults := some defaults })
      (Toml.list? Directive.ofToml?),
    .place ["node_types"]
      (fun forTags draft =>
        { draft with forTags := some forTags })
      tagsOfToml?]

/- The requirements in a value. -/
def ofToml? (value : Toml.Value) : Option Requirements :=
  (Toml.fill? tomlFields ⟨none, none⟩ value).map ofDraft

end Requirements

namespace Settings

/- How the parts of settings are read. -/
def tomlFields : List (Toml.Field Draft) :=
  [.place ["indent"]
      (fun indent draft => { draft with indent := some indent })
      Toml.Value.text?,
    .place ["entrypoint"]
      (fun name draft => { draft with entrypoint := some name })
      Toml.Value.text?,
    .place ["device_setup"]
      (fun flag draft => { draft with deviceSetup := some flag })
      Toml.Value.boolean?,
    .place ["strict_models"]
      (fun flag draft => { draft with strictModels := some flag })
      Toml.Value.boolean?,
    .place ["imports"]
      (fun imports draft => { draft with imports := some imports })
      Requirements.ofToml?]

/- The settings in the members of a table. -/
def ofToml?
    (members : List (String × Toml.Value)) : Option Settings :=
  (Toml.fillMembers? tomlFields members
    ⟨none, none, none, none, none⟩).map ofDraft

/- The settings in a text. -/
def decodeToml? [Toml.Codec] (text : String) : Option Settings :=
  (Toml.Codec.parse text).bind ofToml?

end Settings

------------------------------------------------------------
-- Writing
------------------------------------------------------------

/- A part of a request under a key, if it has the part. -/
def Directive.partToToml
    (key : String) : Option String → List (String × Toml.Value)
  | none => []
  | some part => [(key, .text part)]

/- The request as a value. -/
def Directive.toToml (directive : Directive) : Toml.Value :=
  .table
    (("module", .text directive.path)
      :: (partToToml "alias" directive.otherName
        ++ partToToml "specifier" directive.member))

/- The requests as a value. -/
def Directive.listToToml
    (directives : List Directive) : Toml.Value :=
  .array (directives.map Directive.toToml)

/- The requirements as a value. -/
def Requirements.toToml
    (requirements : Requirements) : Toml.Value :=
  .table
    [("defaults", Directive.listToToml requirements.defaults),
      ("node_types",
        .table (requirements.forTags.entries.map fun entry =>
          (entry.1, Directive.listToToml entry.2)))]

/- The settings as the members of a table. -/
def Settings.toToml
    (settings : Settings) : List (String × Toml.Value) :=
  [("indent", .text settings.indent),
    ("entrypoint", .text settings.entrypoint),
    ("device_setup", .boolean settings.deviceSetup),
    ("strict_models", .boolean settings.strictModels),
    ("imports", settings.imports.toToml)]

end PipelineScript
