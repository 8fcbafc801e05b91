/-
  Paths of files: names with slashes between them.

  Key definitions include:
    * `Path.pieces`
    * `Path.parent`
    * `Path.fileName?`
    * `Path.extension?`
    * `Path.isToml`
-/

namespace PipelineScript

namespace Path

------------------------------------------------------------
-- Pieces
------------------------------------------------------------

/- What stands between the slashes. There is always a piece. -/
def splitSlashes : List Char → List (List Char)
  | [] => [[]]
  | c :: rest =>
      if c == '/' then
        [] :: splitSlashes rest
      else
        match splitSlashes rest with
        | [] => [[c]]
        | piece :: others => (c :: piece) :: others

/- The pieces of a path. -/
def pieces (path : String) : List String :=
  (splitSlashes path.toList).map String.ofList

/- A piece that leads from a directory to itself. -/
def isIdle (piece : String) : Bool :=
  piece == "" || piece == "."

/- The pieces without idle ones at the end. -/
def dropIdleEnd (pieces : List String) : List String :=
  (pieces.reverse.dropWhile isIdle).reverse

/-
  The path of the directory around a file. It is empty for a
  bare name.
-/
def parent (path : String) : String :=
  let around :=
    dropIdleEnd (dropIdleEnd (pieces path)).dropLast
  if around.isEmpty && path.startsWith "/" then
    "/"
  else
    "/".intercalate around

------------------------------------------------------------
-- Names
------------------------------------------------------------

/- The name at the end of a path, if it is a proper name. -/
def fileName? (path : String) : Option String :=
  ((dropIdleEnd (pieces path)).getLast?).filter (· != "..")

/- What stands behind the last point, unless it comes first. -/
def extensionOf? (name : List Char) : Option (List Char) :=
  let backwards := name.reverse
  let stem := (backwards.dropWhile (· != '.')).tail
  if stem.isEmpty then
    none
  else
    some (backwards.takeWhile (· != '.')).reverse

/- The extension of the name at the end of a path. -/
def extension? (path : String) : Option String :=
  (fileName? path).bind fun name =>
    (extensionOf? name.toList).map String.ofList

/- The extension says TOML, in capital or small letters. -/
def isToml (path : String) : Bool :=
  ((extension? path).map (·.map Char.toLower)) == some "toml"

end Path

end PipelineScript
