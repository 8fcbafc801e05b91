import PipelineScript.Json.Scan

/-
  Texts that were written between quotes are read back.

  Every character is written so that it is read back by
  itself, whatever stands behind it.

  Key theorems include:
    * `Json.readEscape_code`
    * `Json.readText_escapedChar`
    * `Json.readText_flatMap`
-/

namespace PipelineScript

namespace Json

variable {cs tail rest : List Char} {c d : Char}

/- A character in front of a text that is read. -/
def inFront
    (c : Char)
    (read : Except Fault (List Char × List Char)) :
    Except Fault (List Char × List Char) :=
  match read with
  | .ok (text, after) => .ok (c :: text, after)
  | .error fault => .error fault

------------------------------------------------------------
-- One Character
------------------------------------------------------------

/- An escape stands for the character it is read as. -/
theorem readText_escape
    (hEscape : readEscape cs = .ok (d, tail)) :
    readText ('\\' :: cs) = inFront d (readText tail) := by
  rw [readText]
  split
  · next hQuote => exact absurd hQuote (by decide)
  · split
    · split
      · next fault hFault =>
          rw [hEscape] at hFault
          simp at hFault
      · next other after hOther =>
          rw [hEscape, Except.ok.injEq, Prod.mk.injEq] at hOther
          rcases hOther with ⟨rfl, rfl⟩
          dsimp only
          cases readText tail <;> rfl
    · next hSlash => exact absurd (beq_self_eq_true _) hSlash

/- Any other character stands for itself. -/
theorem readText_plain
    (hQuote : c ≠ '"')
    (hSlash : c ≠ '\\')
    (hPlain : 0x20 ≤ c.toNat) :
    readText (c :: cs) = inFront c (readText cs) := by
  rw [readText]
  simp only [beq_iff_eq, hQuote, hSlash, if_false,
    Nat.not_lt.mpr hPlain]
  cases readText cs <;> rfl

/- The two digits of a number below 256. -/
theorem hexPair_of_lt :
    ∀ n < 256,
      ∃ a b, Text.hexPair n = [a, b] ∧
        Number.hexValue? a = some (n / 16) ∧
        Number.hexValue? b = some (n % 16) := by
  intro n hLess
  have hAll :
      ∀ n < 256,
        Number.hexValue? ((Text.hexPair n).getD 0 ' ') =
            some (n / 16) ∧
          Number.hexValue? ((Text.hexPair n).getD 1 ' ') =
            some (n % 16) ∧
          Text.hexPair n =
            [(Text.hexPair n).getD 0 ' ',
              (Text.hexPair n).getD 1 ' '] := by
    decide +kernel
  rcases hAll n hLess with ⟨hFirst, hSecond, hPair⟩
  exact ⟨_, _, hPair, hFirst, hSecond⟩

/- A control character is read back from its code. -/
theorem readEscape_code
    (hControl : c.toNat < 0x20) :
    readEscape
        ('u' :: '0' :: '0' :: (Text.hexPair c.toNat ++ rest)) =
      .ok (c, rest) := by
  rcases hexPair_of_lt c.toNat (by omega) with
    ⟨a, b, hPair, hFirst, hSecond⟩
  have hZero : Number.hexValue? '0' = some 0 := by decide
  have hCode :
      hexFour ('0' :: '0' :: a :: b :: rest) =
        .ok (c.toNat, rest) := by
    simp only [hexFour, hZero, hFirst, hSecond]
    congr 2
    omega
  have hFree : ¬ 0xDC00 ≤ c.toNat := by omega
  have hHigh : ¬ 0xD800 ≤ c.toNat := by omega
  rw [hPair]
  simp only [readEscape, codeEscape, List.cons_append,
    List.nil_append, hCode, bind, Except.bind]
  simp [hFree, hHigh, Char.ofNat_toNat]

/- Every character is read back from what it is written as. -/
theorem readText_escapedChar (c : Char) (rest : List Char) :
    readText (escapedChar c ++ rest) =
      inFront c (readText rest) := by
  unfold escapedChar
  split
  · next hQuote =>
      rw [beq_iff_eq.mp hQuote]
      exact readText_escape rfl
  split
  · next hSlash =>
      rw [beq_iff_eq.mp hSlash]
      exact readText_escape rfl
  split
  · next hBack =>
      rw [beq_iff_eq.mp hBack]
      exact readText_escape rfl
  split
  · next hFeed =>
      rw [beq_iff_eq.mp hFeed]
      exact readText_escape rfl
  split
  · next hLine =>
      rw [beq_iff_eq.mp hLine]
      exact readText_escape rfl
  split
  · next hReturn =>
      rw [beq_iff_eq.mp hReturn]
      exact readText_escape rfl
  split
  · next hTab =>
      rw [beq_iff_eq.mp hTab]
      exact readText_escape rfl
  split
  · next hControl =>
      exact readText_escape (readEscape_code hControl)
  · next hQuote hSlash _ _ _ _ _ hPlain =>
      exact readText_plain (by simpa using hQuote)
        (by simpa using hSlash) (Nat.le_of_not_lt hPlain)

------------------------------------------------------------
-- Whole Texts
------------------------------------------------------------

/- A text is read back up to its closing quote. -/
theorem readText_flatMap (cs rest : List Char) :
    readText (cs.flatMap escapedChar ++ '"' :: rest) =
      .ok (cs, rest) := by
  induction cs with
  | nil => simp [readText]
  | cons c cs ih =>
      rw [List.flatMap_cons, List.append_assoc,
        readText_escapedChar, ih]
      rfl

end Json

end PipelineScript
