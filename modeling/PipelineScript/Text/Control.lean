/-
  Control characters and the hexadecimal digits they are
  written with.

  Key definitions include:
    * `Text.isControl`
    * `Text.hexDigits`
    * `Text.hexPair`
-/

namespace PipelineScript

namespace Text

/-
  A control character: the first 32 code points, the delete
  character, and the 32 code points after it.
-/
def isControl (c : Char) : Bool :=
  c.toNat < 0x20 || (0x7F ≤ c.toNat && c.toNat ≤ 0x9F)

/- A number in hexadecimal, with small letters. -/
def hexDigits (n : Nat) : List Char :=
  Nat.toDigits 16 n

/- The digits with zeros in front, up to the given width. -/
def padLeft
    (width : Nat)
    (digits : List Char) : List Char :=
  List.replicate (width - digits.length) '0' ++ digits

/- A number below 256 as two hexadecimal digits. -/
def hexPair (n : Nat) : List Char :=
  padLeft 2 (hexDigits n)

end Text

end PipelineScript
