import Mathlib.Data.List.Induction
import PipelineScript.Command.Command

/-
  What is told of failures.

  A failure is told with all contexts around it, unless there
  is an error of the compiler inside. Then the error is told,
  behind its kind, and no context is.

  Key definitions include:
    * `Failure.isBare`

  Key theorems include:
    * `Failure.exists_withinAll`
    * `Failure.display_withinAll`
    * `Command.complaint_of_compile`
    * `Command.complaint_of_other`
-/

namespace PipelineScript

------------------------------------------------------------
-- Failures in Contexts
------------------------------------------------------------

namespace Failure

/- A failure that has no context around it. -/
def isBare : Failure → Bool
  | .within _ _ => false
  | _ => true

/- A further context stands around all others. -/
theorem withinAll_concat
    (root : Failure)
    (contexts : List String)
    (context : String) :
    root.withinAll (contexts ++ [context]) =
      .within context (root.withinAll contexts) := by
  rw [withinAll, List.foldl_append]
  rfl

/- In some contexts, every failure has a bare one inside. -/
theorem exists_withinAll (failure : Failure) :
    ∃ root contexts,
      isBare root ∧ failure = root.withinAll contexts := by
  induction failure with
  | compile error => exact ⟨.compile error, [], rfl, rfl⟩
  | settings problem => exact ⟨.settings problem, [], rfl, rfl⟩
  | file fault => exact ⟨.file fault, [], rfl, rfl⟩
  | decoding words => exact ⟨.decoding words, [], rfl, rfl⟩
  | within context source ih =>
      rcases ih with ⟨root, contexts, hBare, rfl⟩
      exact ⟨root, contexts ++ [context], hBare,
        (withinAll_concat root contexts context).symm⟩

/- Contexts do not hide an error of the compiler. -/
theorem compileError?_withinAll
    (root : Failure)
    (contexts : List String) :
    (root.withinAll contexts).compileError? =
      root.compileError? := by
  induction contexts using List.reverseRecOn with
  | nil => rfl
  | append_singleton contexts context ih =>
      rw [withinAll_concat, compileError?, ih]

/- All contexts are told, the outermost first. -/
theorem display_withinAll
    (root : Failure)
    (contexts : List String) :
    (root.withinAll contexts).display =
      ": ".intercalate (contexts.reverse ++ [root.display]) := by
  induction contexts using List.reverseRecOn with
  | nil =>
      rw [List.reverse_nil, List.nil_append,
        String.intercalate_singleton]
      rfl
  | append_singleton contexts context ih =>
      have hSome : contexts.reverse ++ [root.display] ≠ [] :=
        List.append_ne_nil_of_right_ne_nil _ (List.cons_ne_nil _ _)
      rw [withinAll_concat, List.reverse_concat, List.cons_append,
        String.intercalate_cons_of_ne_nil hSome, ← ih]
      rfl

/- A bare failure is an error of the compiler, or has none. -/
theorem compileError?_eq_none
    {root : Failure}
    (hBare : root.isBare)
    (hOther : ∀ error, root ≠ .compile error) :
    root.compileError? = none := by
  cases root with
  | compile error => exact absurd rfl (hOther error)
  | settings problem => rfl
  | file fault => rfl
  | decoding words => rfl
  | within context source => exact absurd hBare Bool.false_ne_true

end Failure

namespace Command

/- In any contexts, an error of the compiler is told alone. -/
theorem complaint_of_compile
    (error : CompileError)
    (contexts : List String) :
    complaint ((Failure.compile error).withinAll contexts) =
      refusal error := by
  rw [complaint, Failure.compileError?_withinAll]
  rfl

/- Any other failure is told with all its contexts. -/
theorem complaint_of_other
    {root : Failure}
    (hBare : root.isBare)
    (hOther : ∀ error, root ≠ .compile error)
    (contexts : List String) :
    complaint (root.withinAll contexts) =
      "error: "
        ++ ": ".intercalate
          (contexts.reverse ++ [root.display]) := by
  rw [complaint, Failure.compileError?_withinAll,
    Failure.compileError?_eq_none hBare hOther,
    Failure.display_withinAll]

/- The two kinds of lines begin in different ways. -/
theorem refusal_append_ne
    (error : CompileError)
    (behind text : String) :
    refusal error ++ behind ≠ "error: " ++ text := by
  intro hSame
  have hLetters := congrArg String.toList hSame
  simp [refusal] at hLetters

end Command

end PipelineScript
