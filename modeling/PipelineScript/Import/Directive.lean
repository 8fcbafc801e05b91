import PipelineScript.Json.Record
import PipelineScript.Text.Blank

/-
  Requests to bring a module, or a member of one, into a
  script.

  Key definitions include:
    * `Directive`
    * `Directive.normalized`
    * `Directive.render`
    * `Directive.package`
    * `Directive.record`
-/

namespace PipelineScript

/-
  A request for a module or one of its members, perhaps under
  a name of its own.
-/
structure Directive where
  path : String
  otherName : Option String
  member : Option String
deriving DecidableEq, Repr

namespace Directive

------------------------------------------------------------
-- Making
------------------------------------------------------------

/- A module under its own name. -/
def whole (path : String) : Directive where
  path := path
  otherName := none
  member := none

/- A module under another name. -/
def aliased (path otherName : String) : Directive where
  path := path
  otherName := some otherName
  member := none

/- A member of a module. -/
def memberOf (path member : String) : Directive where
  path := path
  otherName := none
  member := some member

------------------------------------------------------------
-- Normal Form
------------------------------------------------------------

/- A separator of a path becomes a point. -/
def dotted (c : Char) : Char :=
  if c == '/' || c == '\\' then '.' else c

/- A path without blanks around it, with points inside. -/
def normalizedPath (path : String) : String :=
  String.ofList ((Text.trimChars path.toList).map dotted)

/- A name, unless there is nothing to be seen of it. -/
def visible? (name : Option String) : Option String :=
  name.filter (!Text.isBlankText ·)

/- The request as it is kept. -/
def normalized (directive : Directive) : Directive where
  path := normalizedPath directive.path
  otherName := visible? directive.otherName
  member := visible? directive.member

------------------------------------------------------------
-- Meaning
------------------------------------------------------------

/- The part of a path in front of its first point. -/
def firstPart (path : String) : String :=
  String.ofList (path.toList.takeWhile (· != '.'))

/- The package that a module belongs to. -/
def package (directive : Directive) : String :=
  firstPart directive.path

/- The statement that fulfils the request. -/
def render (directive : Directive) : String :=
  match directive.otherName, directive.member with
  | some otherName, some member =>
      "from " ++ directive.path ++ " import " ++ member
        ++ " as " ++ otherName
  | some otherName, none =>
      "import " ++ directive.path ++ " as " ++ otherName
  | none, some member =>
      "from " ++ directive.path ++ " import " ++ member
  | none, none => "import " ++ directive.path

------------------------------------------------------------
-- Documents
------------------------------------------------------------

/- The request as JSON, without the parts it has not. -/
def toJson (directive : Directive) : Json.Value :=
  .object
    ([("module", .text directive.path)]
      ++ (match directive.otherName with
          | some otherName => [("alias", .text otherName)]
          | none => [])
      ++ (match directive.member with
          | some member => [("specifier", .text member)]
          | none => []))

/- What was read of a request. -/
structure Draft where
  path : Option String
  otherName : Option (Option String)
  member : Option (Option String)

/- The request of a draft, if there is a module. -/
def ofDraft? (draft : Draft) : Option Directive :=
  draft.path.map fun path =>
    { path := path
      otherName := draft.otherName.getD none
      member := draft.member.getD none }

/- How a request is read. -/
def record {ω : Type} : Json.Record ω Draft Directive where
  name := "ImportDirective"
  fields :=
    [.place "module" [] Draft.path
        (fun path draft => { draft with path := some path })
        (fun _ => Json.Reader.text),
      .place "alias" ["as_name"] Draft.otherName
        (fun otherName draft =>
          { draft with otherName := some otherName })
        (fun _ => Json.Reader.text.option),
      .place "specifier" [] Draft.member
        (fun member draft =>
          { draft with member := some member })
        (fun _ => Json.Reader.text.option)]
  empty := ⟨none, none, none⟩
  complete := fun draft =>
    match ofDraft? draft with
    | none => .error "module"
    | some directive => .ok directive

end Directive

end PipelineScript
