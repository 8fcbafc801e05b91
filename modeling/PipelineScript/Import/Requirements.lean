import PipelineScript.Import.ImportBlock

/-
  Imports that are required beyond what nodes ask for: for
  every script, and for nodes with some tag.

  Key definitions include:
    * `Requirements`
    * `Requirements.standard`
    * `Requirements.forTag`
    * `Requirements.packages`
    * `Requirements.record`
-/

namespace PipelineScript

/- Imports for every script, and more of them for some tags. -/
structure Requirements where
  defaults : List Directive
  forTags : Table String (List Directive)
deriving DecidableEq, Repr

namespace Requirements

------------------------------------------------------------
-- Making
------------------------------------------------------------

/- Nothing is required. -/
def empty : Requirements where
  defaults := []
  forTags := .empty

/- What every script requires unless told otherwise. -/
def standardDefaults : List Directive :=
  [.whole "torch"]

/- What some tags require unless told otherwise. -/
def standardForTags : Table String (List Directive) :=
  .ofList
    [("KMeans", [.aliased "sklearn.cluster" "cluster"]),
      ("LinearRegression",
        [.aliased "sklearn.linear_model" "linear_model"])]

/- What is required unless told otherwise. -/
def standard : Requirements where
  defaults := standardDefaults
  forTags := standardForTags

/- One more import for every script. -/
def addDefault
    (directive : Directive)
    (requirements : Requirements) : Requirements :=
  { requirements with
    defaults := requirements.defaults ++ [directive] }

/- The imports for a tag. -/
def forTag
    (requirements : Requirements)
    (tag : String) : List Directive :=
  (requirements.forTags.get? tag).getD []

/- One more import for a tag. -/
def addForTag
    (tag : String)
    (directive : Directive)
    (requirements : Requirements) : Requirements :=
  { requirements with
    forTags :=
      requirements.forTags.insert tag
        (requirements.forTag tag ++ [directive]) }

------------------------------------------------------------
-- Looking
------------------------------------------------------------

/- The packages of all imports that have one, in order. -/
def packages (requirements : Requirements) : List String :=
  ImportBlock.distinct
    (((requirements.defaults
        ++ requirements.forTags.values.flatten).map
          Directive.package).filter (!·.isEmpty))

/-
  Both require the same imports for every script in the same
  order, and the same for every tag.
-/
def isSame (requirements other : Requirements) : Bool :=
  requirements.defaults == other.defaults
    && requirements.forTags.sameEntries other.forTags

------------------------------------------------------------
-- Documents
------------------------------------------------------------

/- The requirements as JSON. -/
def toJson (requirements : Requirements) : Json.Value :=
  .object
    [("defaults",
        .array (requirements.defaults.map Directive.toJson)),
      ("node_types",
        .object
          (requirements.forTags.entries.map
            fun (tag, directives) =>
              (tag, .array (directives.map Directive.toJson))))]

/- What was read of requirements. -/
structure Draft where
  defaults : Option (List Directive)
  forTags : Option (Table String (List Directive))

/- The requirements of a draft. What is missing is standard. -/
def ofDraft (draft : Draft) : Requirements where
  defaults := draft.defaults.getD standardDefaults
  forTags := draft.forTags.getD standardForTags

/- How requirements are read. -/
def record {ω : Type} : Json.Record ω Draft Requirements where
  name := "ImportRequirements"
  fields :=
    [.place "defaults" [] Draft.defaults
        (fun defaults draft =>
          { draft with defaults := some defaults })
        (Json.Reader.list Directive.record.reader),
      .place "node_types" [] Draft.forTags
        (fun forTags draft =>
          { draft with forTags := some forTags })
        (Json.Reader.table id
          (Json.Reader.list Directive.record.reader))]
  empty := ⟨none, none⟩
  complete := fun draft => .ok (ofDraft draft)

end Requirements

end PipelineScript
