import PipelineScript.Json.Fault

/-
  JSON texts as a parser hands them on.

  Who reads a text learns of a fault only when he comes to it.
  So a document is a value as far as the text shows one, with
  every fault at its own place. Nothing stands behind a fault
  that cannot be passed over.

  Key definitions include:
    * `Json.Document`
    * `Json.Document.ofValue`
    * `Json.Document.passingFault?`
    * `Json.Document.mismatch`
-/

namespace PipelineScript

namespace Json

/-
  What a text shows. A container has a fault in the place of
  its closing bracket if it is not closed. What is flawed has
  no value: it begins as a word, a number or a text, or it does
  not begin at all. It may still be passed over unless there is
  a fault in that too.
-/
inductive Document where
  | null
  | boolean (value : Bool)
  | number (value : Number)
  | text (value : String)
  | array (items : List Document) (ending : Option Fault)
  | object
      (members : List (Except Fault String × Document))
      (ending : Option Fault)
  | flawed
      (isBare : Bool)
      (cause : Fault)
      (passing : Option Fault)

namespace Document

instance : Inhabited Document :=
  ⟨.null⟩

------------------------------------------------------------
-- Documents of Values
------------------------------------------------------------

mutual

/- The document that shows a value and nothing else. -/
def ofValue : Value → Document
  | .null => .null
  | .boolean value => .boolean value
  | .number value => .number value
  | .text value => .text value
  | .array items => .array (ofItems items) none
  | .object members => .object (ofMembers members) none

/- The documents of items. -/
def ofItems : List Value → List Document
  | [] => []
  | item :: rest => ofValue item :: ofItems rest

/- The documents of members, with their keys. -/
def ofMembers :
    List (String × Value) →
      List (Except Fault String × Document)
  | [] => []
  | (key, value) :: rest =>
      (.ok key, ofValue value) :: ofMembers rest

end

/- Items are shown one by one. -/
theorem ofItems_eq_map (items : List Value) :
    ofItems items = items.map ofValue := by
  induction items with
  | nil => rfl
  | cons item items ih => rw [ofItems, ih, List.map_cons]

/- So are members. -/
theorem ofMembers_eq_map (members : List (String × Value)) :
    ofMembers members =
      members.map fun member =>
        (.ok member.1, ofValue member.2) := by
  induction members with
  | nil => rfl
  | cons member members ih =>
      rw [ofMembers, ih, List.map_cons]

------------------------------------------------------------
-- Faults
------------------------------------------------------------

mutual

/- The fault of passing over a document, if there is one. -/
def passingFault? : Document → Option Fault
  | .array items ending => itemsFault? ending items
  | .object members ending => membersFault? ending members
  | .flawed _ _ passing => passing
  | _ => none

/- The fault of passing over items and what ends them. -/
def itemsFault?
    (ending : Option Fault) : List Document → Option Fault
  | [] => ending
  | item :: rest =>
      (passingFault? item).or (itemsFault? ending rest)

/- The fault of passing over members. Their keys may be odd. -/
def membersFault?
    (ending : Option Fault) :
    List (Except Fault String × Document) → Option Fault
  | [] => ending
  | (_, value) :: rest =>
      (passingFault? value).or (membersFault? ending rest)

end

/- The fault of a document where another kind is expected. -/
def mismatch (expected : String) (document : Document) : Fault :=
  let wrong (found : Found) : Fault :=
    .mismatch (.wrongKind found expected)
  match document with
  | .null => wrong .null
  | .boolean value => wrong (.boolean value)
  | .number value => wrong (.number value)
  | .text value => wrong (.text value)
  | .array _ _ => wrong .sequence
  | .object _ _ => wrong .map
  | .flawed _ cause _ => cause

end Document

end Json

end PipelineScript
