import PipelineScript.Event

/-
  The options of a node.

  An option that is missing or `null` has its default. One of
  the wrong kind is reported and has its default too, so no
  option ever makes a pipeline fail.

  Key definitions include:
    * `Options`
    * `Options.ofValue`
    * `Options.get?`
    * `Options.textOr`
    * `Options.integerOr`
    * `Options.isTruthy`
-/

namespace PipelineScript

/- Option values under their names, in order. -/
structure Options where
  members : List (String × Json.Value)
deriving Repr

namespace Options

------------------------------------------------------------
-- Making and Changing
------------------------------------------------------------

/- No options. -/
def empty : Options where
  members := []

/- The events of taking a value for options. -/
def remarks : Json.Value → List Event
  | .object _ | .null => []
  | other => [.optionsIgnored other]

/- The options in a value. What is not an object has none. -/
def ofValue : Json.Value → Options
  | .object members => ⟨members⟩
  | _ => .empty

/- The options with a value under a name. -/
def set
    (key : String)
    (value : Json.Value)
    (options : Options) : Options where
  members := Entries.put key value options.members

/- The options as a value. -/
def toJson (options : Options) : Json.Value :=
  .object options.members

/- There are no options. -/
def isEmpty (options : Options) : Bool :=
  options.members.isEmpty

/- The names of the options. -/
def keys (options : Options) : List String :=
  options.members.map Prod.fst

------------------------------------------------------------
-- Reading
------------------------------------------------------------

variable {ε : Type}

/- The value under a name, unless it is missing or `null`. -/
def get?
    (key : String)
    (options : Options) : Option Json.Value :=
  (options.members.lookup key).filter (!·.isNull)

/-
  The value under a name as far as it can be used. Another
  value is reported, and the default stands for it.
-/
def getOr
    {α : Type}
    (key : String)
    (expected : OptionKind)
    (default : α)
    (use? : Json.Value → Option α)
    (options : Options) : Traced Event ε α :=
  match options.get? key with
  | none => .done default
  | some found =>
      match use? found with
      | some value => .done value
      | none =>
          ⟨[.optionMismatch key expected found], .ok default⟩

/- A text. -/
def textOr
    (key default : String)
    (options : Options) : Traced Event ε String :=
  options.getOr key .text default fun
    | .text value => some value
    | _ => none

/- A truth value. -/
def booleanOr
    (key : String)
    (default : Bool)
    (options : Options) : Traced Event ε Bool :=
  options.getOr key .boolean default fun
    | .boolean value => some value
    | _ => none

/- A whole number that fits in 64 bits, however written. -/
def integerOr
    (key : String)
    (default : Int)
    (options : Options) : Traced Event ε Int :=
  options.getOr key .integer default fun
    | .number value => value.toInteger?
    | _ => none

/- A number in binary. -/
def binaryOr
    (key : String)
    (default : Binary64)
    (options : Options) : Traced Event ε Binary64 :=
  options.getOr key .number default fun
    | .number value => some value.toBinary
    | _ => none

/- A number in its written kind. -/
def numberOr
    (key : String)
    (default : Number)
    (options : Options) : Traced Event ε Number :=
  options.getOr key .number default fun
    | .number value => some value
    | _ => none

/- A number, if it is there and greater than zero. -/
def positive?
    (key : String)
    (options : Options) : Traced Event ε (Option Number) :=
  options.getOr key .number none fun
    | .number value =>
        some (if value.isPositive then some value else none)
    | _ => none

/- The options inside an option. -/
def sectionAt
    (key : String)
    (options : Options) : Traced Event ε Options :=
  options.getOr key .mapping .empty fun
    | .object members => some ⟨members⟩
    | _ => none

/-
  An option that counts as switched on: true, a number other
  than zero, or a text, list or mapping that is not empty.
-/
def isTruthy
    (key : String)
    (options : Options) : Bool :=
  match options.get? key with
  | none | some .null => false
  | some (.boolean value) => value
  | some (.number value) => !value.isZero
  | some (.text value) => !value.isEmpty
  | some (.array items) => !items.isEmpty
  | some (.object members) => !members.isEmpty

end Options

end PipelineScript
