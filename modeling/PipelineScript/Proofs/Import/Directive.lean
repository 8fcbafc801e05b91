import PipelineScript.Import.Directive
import Mathlib.Data.List.DropRight

/-
  The normal form of a request.

  Key theorems include:
    * `Text.trimChars_trimChars`
    * `Directive.normalizedPath_normalizedPath`
    * `Directive.normalized_normalized`
-/

namespace PipelineScript

namespace Text

------------------------------------------------------------
-- Trimming
------------------------------------------------------------

/- What comes first does not begin with a blank either. -/
theorem dropWhile_eq_self_of_prefix
    {first second : List Char}
    (hPrefix : first <+: second)
    (hFront : second.dropWhile isBlank = second) :
    first.dropWhile isBlank = first := by
  rw [List.dropWhile_eq_self_iff] at hFront ⊢
  intro hPos hBlank
  apply hFront (hPos.trans_le hPrefix.length_le)
  rw [← hPrefix.getElem hPos]
  exact hBlank

/- What is left by trimming does not begin with a blank. -/
theorem dropWhile_trimChars (cs : List Char) :
    (trimChars cs).dropWhile isBlank = trimChars cs := by
  have hPrefix :
      trimChars cs <+: cs.dropWhile isBlank :=
    List.rdropWhile_prefix isBlank (cs.dropWhile isBlank)
  exact dropWhile_eq_self_of_prefix hPrefix
    (List.dropWhile_idempotent isBlank cs)

/- Trimming twice is trimming once. -/
theorem trimChars_trimChars (cs : List Char) :
    trimChars (trimChars cs) = trimChars cs := by
  have hBack :
      trimChars cs =
        List.rdropWhile isBlank (cs.dropWhile isBlank) :=
    rfl
  rw [trimChars, dropWhile_trimChars]
  change List.rdropWhile isBlank (trimChars cs) = _
  rw [hBack, List.rdropWhile_idempotent]

/- Trimming adds no characters. -/
theorem mem_of_mem_trimChars
    {cs : List Char}
    {c : Char}
    (hMem : c ∈ trimChars cs) :
    c ∈ cs := by
  rw [trimChars, List.mem_reverse] at hMem
  have hFront := (List.dropWhile_sublist _).mem hMem
  rw [List.mem_reverse] at hFront
  exact (List.dropWhile_sublist _).mem hFront

/- Trimming goes by what is blank, not by the characters. -/
theorem trimChars_map
    {f : Char → Char}
    (hBlank : ∀ c, isBlank (f c) = isBlank c)
    (cs : List Char) :
    trimChars (cs.map f) = (trimChars cs).map f := by
  have hComp : isBlank ∘ f = isBlank := funext hBlank
  simp only [trimChars, List.dropWhile_map, ← List.map_reverse,
    hComp]

end Text

namespace Directive

------------------------------------------------------------
-- Normal Forms
------------------------------------------------------------

/- Separators and points are no blanks. -/
theorem isBlank_dotted (c : Char) :
    Text.isBlank (dotted c) = Text.isBlank c := by
  unfold dotted
  split
  · next hSeparator =>
      rw [Bool.or_eq_true, beq_iff_eq, beq_iff_eq] at hSeparator
      rcases hSeparator with rfl | rfl
      · rfl
      · rfl
  · rfl

/- A point stays a point. -/
theorem dotted_dotted (c : Char) :
    dotted (dotted c) = dotted c := by
  by_cases hSeparator : (c == '/' || c == '\\') = true
  · simp [dotted, hSeparator]
  · simp [dotted, hSeparator]

/- A normal path is left as it is. -/
theorem normalizedPath_normalizedPath (path : String) :
    normalizedPath (normalizedPath path) =
      normalizedPath path := by
  have hDotted : dotted ∘ dotted = dotted :=
    funext dotted_dotted
  simp only [normalizedPath, String.toList_ofList,
    Text.trimChars_map isBlank_dotted,
    Text.trimChars_trimChars, List.map_map, hDotted]

/- A name that can be seen is left as it is. -/
theorem visible?_visible? (name : Option String) :
    visible? (visible? name) = visible? name := by
  simp [visible?, Option.filter_filter]

/- A request in its normal form is left as it is. -/
@[simp] theorem normalized_normalized
    (directive : Directive) :
    directive.normalized.normalized = directive.normalized := by
  simp only [normalized, normalizedPath_normalizedPath,
    visible?_visible?]

end Directive

end PipelineScript
