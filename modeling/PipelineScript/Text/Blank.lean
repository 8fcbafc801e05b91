/-
  Blank characters, and the text that is left when they are
  taken off both ends.

  Key definitions include:
    * `Text.isBlank`
    * `Text.isBlankText`
    * `Text.trimChars`
-/

namespace PipelineScript

namespace Text

------------------------------------------------------------
-- Blank Characters
------------------------------------------------------------

/-
  A character that only makes room: the spaces of all widths
  that join or part words, the line and page breaks, and the
  line and paragraph separators.
-/
def isBlank (c : Char) : Bool :=
  let code := c.toNat
  (9 ≤ code && code ≤ 13)
    || code == 0x20
    || code == 0x85
    || code == 0xA0
    || code == 0x1680
    || (0x2000 ≤ code && code ≤ 0x200A)
    || code == 0x2028
    || code == 0x2029
    || code == 0x202F
    || code == 0x205F
    || code == 0x3000

/- A text without any character that can be seen. -/
def isBlankText (text : String) : Bool :=
  text.toList.all isBlank

------------------------------------------------------------
-- Trimming
------------------------------------------------------------

/- The characters without the blank ones at both ends. -/
def trimChars (cs : List Char) : List Char :=
  ((cs.dropWhile isBlank).reverse.dropWhile isBlank).reverse

end Text

end PipelineScript
