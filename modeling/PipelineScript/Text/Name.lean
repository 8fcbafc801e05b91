/-
  Names that a script can bind: a letter or underscore, then
  letters, digits and underscores, all of them ASCII, and not
  one of the words the language keeps for itself.

  Key definitions include:
    * `Text.isNameStart`
    * `Text.isNamePart`
    * `Text.isName`
    * `Text.keywords`
    * `Text.isIdentifier`
-/

namespace PipelineScript

namespace Text

/- A character that can begin a name. -/
def isNameStart (c : Char) : Bool :=
  c.isAlpha || c == '_'

/- A character that can stand inside a name. -/
def isNamePart (c : Char) : Bool :=
  c.isAlphanum || c == '_'

/- The text has the shape of a name. -/
def isName (text : String) : Bool :=
  match text.toList with
  | [] => false
  | c :: rest => isNameStart c && rest.all isNamePart

/- Words that have the shape of a name and are none. -/
def keywords : List String :=
  ["False", "None", "True", "and", "as", "assert", "async",
    "await", "break", "class", "continue", "def", "del", "elif",
    "else", "except", "finally", "for", "from", "global", "if",
    "import", "in", "is", "lambda", "nonlocal", "not", "or",
    "pass", "raise", "return", "try", "while", "with", "yield"]

/- The text can be bound as a name. -/
def isIdentifier (text : String) : Bool :=
  isName text && !keywords.contains text

end Text

end PipelineScript
