import PipelineScript.Json.Codec
import PipelineScript.Json.Scan

/-
  A parser of JSON texts, which finds what a text shows.

  A value is found with what follows it, or with the fault for
  which nothing that follows it can be told.

  Key definitions include:
    * `Json.Parser.Found`
    * `Json.Parser.parts`
    * `Json.Parser.value`
    * `Json.parse`
-/

namespace PipelineScript

namespace Json

namespace Parser

------------------------------------------------------------
-- What Is Found
------------------------------------------------------------

/- What is found at the front of a text, and what follows. -/
structure Found (α : Type) where
  content : α
  after : Except Fault (List Char)

namespace Found

variable {α β : Type}

/- The fault for which nothing more can be told, if any. -/
def fault? (found : Found α) : Option Fault :=
  match found.after with
  | .ok _ => none
  | .error cause => some cause

/- What is found goes through a function. -/
def map (f : α → β) (found : Found α) : Found β where
  content := f found.content
  after := found.after

/- What ends in a fault that cannot be passed over. -/
def stopped (content : α) (cause : Fault) : Found α where
  content := content
  after := .error cause

end Found

/- No value begins here. -/
def nothing (cause : Fault) : Found Document :=
  .stopped (.flawed false cause (some cause)) cause

------------------------------------------------------------
-- Scalars
------------------------------------------------------------

/- A word that stands for a value, behind its first letter. -/
def constant
    (letters : String)
    (document : Document)
    (cs : List Char) : Found Document :=
  match word letters.toList cs with
  | .ok rest => ⟨document, .ok rest⟩
  | .error cause =>
      .stopped (.flawed true cause (some cause)) cause

/- A number. One that has no value may still be passed over. -/
def number (cs : List Char) : Found Document :=
  match readNumber cs, skipNumber cs with
  | .ok (value, rest), _ => ⟨.number value, .ok rest⟩
  | .error cause, .ok rest => ⟨.flawed true cause none, .ok rest⟩
  | .error cause, .error passing =>
      .stopped (.flawed true cause (some passing)) passing

/- A text behind its opening quote, or why it has no value. -/
def textOf (cs : List Char) : Found (Except Fault String) :=
  match readText cs, skipText cs with
  | .ok (value, rest), _ =>
      ⟨.ok (String.ofList value), .ok rest⟩
  | .error cause, passing => ⟨.error cause, passing⟩

/- A text as a value. -/
def text (cs : List Char) : Found Document :=
  let found := textOf cs
  match found.content with
  | .ok value => ⟨.text value, found.after⟩
  | .error cause =>
      ⟨.flawed false cause found.fault?, found.after⟩

------------------------------------------------------------
-- Containers
------------------------------------------------------------

/-
  A part of a container, and the parts behind it, each after a
  comma, up to the closing character.
-/
def partsFrom
    {α : Type}
    (close : Char)
    (part : List Char → Found α) :
    (fuel : Nat) → List Char → Found (List α)
  | 0, _ => .stopped [] .malformed
  | fuel + 1, cs =>
      let first := part cs
      match first.after with
      | .error cause => .stopped [first.content] cause
      | .ok rest =>
          match skipBlank rest with
          | [] => .stopped [first.content] .endOfInput
          | c :: after =>
              if c == close then
                ⟨[first.content], .ok after⟩
              else if c == ',' then
                (partsFrom close part fuel after).map
                  (first.content :: ·)
              else
                .stopped [first.content] .malformed

/-
  The parts behind an opening character. There are no more of
  them than there are characters.
-/
def parts
    {α : Type}
    (close : Char)
    (part : List Char → Found α)
    (cs : List Char) : Found (List α) :=
  match skipBlank cs with
  | [] => partsFrom close part (cs.length + 1) cs
  | c :: rest =>
      if c == close then
        ⟨[], .ok rest⟩
      else
        partsFrom close part (cs.length + 1) cs

/- What stands behind the colon after a key. -/
def afterColon
    (inner : List Char → Found Document)
    (cs : List Char) : Found Document :=
  match skipBlank cs with
  | [] => nothing .endOfInput
  | c :: rest =>
      if c == ':' then inner rest else nothing .malformed

/- A key and its value. -/
def member
    (inner : List Char → Found Document)
    (cs : List Char) : Found (Except Fault String × Document) :=
  match skipBlank cs with
  | [] => (nothing .endOfInput).map (.error .endOfInput, ·)
  | c :: rest =>
      if c == '"' then
        let key := textOf rest
        match key.after with
        | .error cause => (nothing cause).map (key.content, ·)
        | .ok behind => (afterColon inner behind).map (key.content, ·)
      else
        (nothing .malformed).map (.error .malformed, ·)

/- A value with fewer levels than the given ones. -/
def value : (levels : Nat) → List Char → Found Document
  | 0, _ => nothing .malformed
  | levels + 1, cs =>
      match skipBlank cs with
      | [] => nothing .endOfInput
      | c :: rest =>
          if c == 'n' then
            constant "ull" .null rest
          else if c == 't' then
            constant "rue" (.boolean true) rest
          else if c == 'f' then
            constant "alse" (.boolean false) rest
          else if c == '-' || c.isDigit then
            number (c :: rest)
          else if c == '"' then
            text rest
          else if c == '[' then
            let found := parts ']' (value levels) rest
            ⟨.array found.content found.fault?, found.after⟩
          else if c == '\x7b' then
            let found := parts '\x7d' (member (value levels)) rest
            ⟨.object found.content found.fault?, found.after⟩
          else
            nothing .malformed

end Parser

------------------------------------------------------------
-- Whole Texts
------------------------------------------------------------

/-
  What a whole text shows. It has no more levels than it has
  characters. Nothing but blanks may follow the value.
-/
def parse (text : String) : Source :=
  let cs := text.toList
  let found := Parser.value (cs.length + 1) cs
  { document := found.content
    ending :=
      match found.after with
      | .error cause => some cause
      | .ok rest =>
          if (skipBlank rest).isEmpty then
            none
          else
            some .malformed }

end Json

end PipelineScript
