/-
  Indented lines of a script.

  Key definitions include:
    * `Code.Item`
    * `Code.Writer`
    * `Code.Writer.block`
    * `Code.Writer.put`
    * `Code.render`
-/

namespace PipelineScript

namespace Code

/- A line, an empty line, or a header with what it governs. -/
inductive Item where
  | line (text : String)
  | blank
  | block (header : String) (body : List Item)
deriving Repr, Inhabited

/- Lines that were written, and where the next one begins. -/
structure Writer where
  unit : String
  level : Nat
  lines : List String
deriving Repr, DecidableEq

namespace Writer

/- Nothing written, at the outermost level. -/
def start (unit : String) : Writer where
  unit := unit
  level := 0
  lines := []

/- A text behind the indent of a level. -/
def indented
    (unit : String)
    (level : Nat)
    (text : String) : String :=
  String.join (List.replicate level unit) ++ text

/- Write a line. An empty one is not indented. -/
def line
    (writer : Writer)
    (text : String) : Writer where
  unit := writer.unit
  level := writer.level
  lines :=
    writer.lines ++
      [if text.isEmpty then
        ""
      else
        indented writer.unit writer.level text]

/- Write an empty line. -/
def blank (writer : Writer) : Writer where
  unit := writer.unit
  level := writer.level
  lines := writer.lines ++ [""]

/- The next line begins one level deeper. -/
def deeper (writer : Writer) : Writer where
  unit := writer.unit
  level := writer.level + 1
  lines := writer.lines

/- The next line begins one level further out. -/
def back (writer : Writer) : Writer where
  unit := writer.unit
  level := writer.level - 1
  lines := writer.lines

/- Write a header, and what a body writes one level deeper. -/
def block
    (writer : Writer)
    (header : String)
    (body : Writer → Writer) : Writer :=
  (body (writer.line header).deeper).back

mutual

/- Write an item. -/
def put
    (writer : Writer) : Item → Writer
  | .line text => writer.line text
  | .blank => writer.blank
  | .block header body =>
      writer.block header fun inner => putAll inner body

/- Write items one after the other. -/
def putAll
    (writer : Writer) : List Item → Writer
  | [] => writer
  | item :: rest => putAll (put writer item) rest

end

end Writer

/- Items as lines, with the given unit of indentation. -/
def render
    (unit : String)
    (items : List Item) : List String :=
  ((Writer.start unit).putAll items).lines

end Code

end PipelineScript
