import PipelineScript.Command.Command

/-
  Commands as they are written on a command line.

  The arguments are taken one by one. An option with a value
  has it in the same argument or in the next one, and no
  option is given twice. Two hyphens say that only names are
  left.

  Key definitions include:
    * `Verb`
    * `Switch`
    * `Arguments`
    * `Arguments.take`
    * `Arguments.command?`
    * `Command.parse`
-/

namespace PipelineScript

------------------------------------------------------------
-- Words
------------------------------------------------------------

/- What a command begins with. -/
inductive Verb where
  | compile
  | validate
  | packages
deriving DecidableEq, Repr

/- What can be said beside the file. -/
inductive Switch where
  | output
  | settings
  | strict
  | help
deriving DecidableEq, Repr

namespace Verb

/- The verb that a word is. -/
def ofWord? (word : String) : Option Verb :=
  if word == "compile" then
    some .compile
  else if word == "validate" then
    some .validate
  else if word == "packages" then
    some .packages
  else
    none

/- What can be said with a verb. -/
def allows : Verb → Switch → Bool
  | _, .help => true
  | .compile, _ => true
  | .packages, .settings => true
  | _, _ => false

end Verb

namespace Switch

/- The option behind two hyphens. -/
def ofWord? (word : List Char) : Option Switch :=
  if word == "output".toList then
    some .output
  else if word == "config".toList then
    some .settings
  else if word == "strict".toList then
    some .strict
  else if word == "help".toList then
    some .help
  else
    none

/- The option behind one hyphen. -/
def ofLetter? (letter : Char) : Option Switch :=
  if letter == 'o' then
    some .output
  else if letter == 'c' then
    some .settings
  else if letter == 'h' then
    some .help
  else
    none

/- The option needs the name of a file. -/
def takesValue : Switch → Bool
  | .output | .settings => true
  | .strict | .help => false

end Switch

------------------------------------------------------------
-- Arguments
------------------------------------------------------------

/- Why arguments are no command. -/
inductive Stop where
  | helpAsked
  | refused
deriving DecidableEq, Repr

/-
  What the arguments so far have said, and whether the next
  one is a value or can only be a name.
-/
structure Arguments where
  file : Option String
  settings : Option String
  output : Option String
  isStrict : Bool
  awaiting : Option Switch
  onlyNames : Bool
deriving DecidableEq, Repr

namespace Arguments

/- Nothing was said. -/
def empty : Arguments where
  file := none
  settings := none
  output := none
  isStrict := false
  awaiting := none
  onlyNames := false

/- A name for a place that has none. Names are not empty. -/
def named
    (place : Option String)
    (name : String) : Except Stop (Option String) :=
  if place.isSome || name.isEmpty then
    .error .refused
  else
    .ok (some name)

/- The file. -/
def takeFile
    (arguments : Arguments)
    (name : String) : Except Stop Arguments := do
  return { arguments with file := ← named arguments.file name }

/- An option with its value. -/
def takeValue
    (arguments : Arguments)
    (name : String) : Switch → Except Stop Arguments
  | .output => do
      return { arguments with
        output := ← named arguments.output name }
  | .settings => do
      return { arguments with
        settings := ← named arguments.settings name }
  | .strict | .help => .error .refused

/- An option without a value. -/
def takeFlag
    (arguments : Arguments) : Switch → Except Stop Arguments
  | .strict =>
      if arguments.isStrict then
        .error .refused
      else
        .ok { arguments with isStrict := true }
  | .help => .error .helpAsked
  | .output | .settings => .error .refused

/- A word behind two hyphens, perhaps with its value. -/
def takeWord
    (verb : Verb)
    (arguments : Arguments)
    (word : List Char) : Except Stop Arguments :=
  match
    (Switch.ofWord? (word.takeWhile (· != '='))).filter verb.allows,
    word.dropWhile (· != '=') with
  | none, _ => .error .refused
  | some switch, [] =>
      if switch.takesValue then
        .ok { arguments with awaiting := some switch }
      else
        arguments.takeFlag switch
  | some switch, _ :: value =>
      arguments.takeValue (String.ofList value) switch

/-
  Letters behind one hyphen. What follows the letter of an
  option with a value is the value.
-/
def takeLetters
    (verb : Verb) :
    Arguments → List Char → Except Stop Arguments
  | arguments, [] => .ok arguments
  | arguments, letter :: rest =>
      match (Switch.ofLetter? letter).filter verb.allows with
      | none => .error .refused
      | some switch =>
          if switch.takesValue then
            match rest with
            | [] => .ok { arguments with awaiting := some switch }
            | '=' :: value =>
                arguments.takeValue (String.ofList value) switch
            | value =>
                arguments.takeValue (String.ofList value) switch
          else do
            takeLetters verb (← arguments.takeFlag switch) rest

/- The argument does not look like an option. -/
def isName (argument : String) : Bool :=
  argument == "-" || argument.toList.head? != some '-'

/- The next argument. -/
def take
    (verb : Verb)
    (arguments : Arguments)
    (argument : String) : Except Stop Arguments :=
  if arguments.onlyNames then
    arguments.takeFile argument
  else
    match arguments.awaiting with
    | some switch =>
        if isName argument then
          { arguments with awaiting := none }.takeValue
            argument switch
        else
          .error .refused
    | none =>
        if argument == "--" then
          .ok { arguments with onlyNames := true }
        else if isName argument then
          arguments.takeFile argument
        else
          match argument.toList.drop 1 with
          | '-' :: word => takeWord verb arguments word
          | letters => takeLetters verb arguments letters

/- The command that the arguments have said. -/
def command?
    (verb : Verb)
    (arguments : Arguments) : Option Command :=
  match arguments.awaiting, arguments.file with
  | none, some file =>
      match verb with
      | .compile =>
          some
            (.compile file arguments.settings arguments.output
              arguments.isStrict)
      | .validate => some (.validate file)
      | .packages => some (.packages file arguments.settings)
  | _, _ => none

/- The command of a verb and what follows it. -/
def read
    (verb : Verb)
    (following : List String) : Except Stop Command := do
  let arguments ← following.foldlM (take verb) empty
  match arguments.command? verb with
  | some command => return command
  | none => .error .refused

end Arguments

------------------------------------------------------------
-- Command Lines
------------------------------------------------------------

namespace Command

/- The word that asks for help. -/
def helpWord : String :=
  "help"

/- Help is asked for by an option in front of all verbs. -/
def isHelpSwitch (argument : String) : Bool :=
  argument == "--help" || "-h".toList.isPrefixOf argument.toList

/- Help is asked for in general or about one verb. -/
def isHelpTopic : List String → Bool
  | [] => true
  | [topic] =>
      topic == helpWord || (Verb.ofWord? topic).isSome
  | _ => false

/- The command on a command line. -/
def parse (arguments : List String) : Except Stop Command :=
  match arguments with
  | [] => .error .refused
  | first :: following =>
      if isHelpSwitch first then
        .error .helpAsked
      else if first == helpWord then
        .error (if isHelpTopic following then .helpAsked else .refused)
      else
        match Verb.ofWord? first with
        | some verb => Arguments.read verb following
        | none => .error .refused

/- How the program is called. -/
def usage : String :=
  Text.unlines
    ["Usage:",
      "  compile FILE [-o OUT] [-c CFG] [--strict]",
      "  validate FILE",
      "  packages FILE [-c CFG]"]

/- How the program ends when there is no command to run. -/
def outcomeOfStop : Stop → Outcome
  | .helpAsked => ⟨0, usage, ""⟩
  | .refused => ⟨2, "", usage⟩

end Command

end PipelineScript
