import PipelineScript.Proofs.Import.Spelling
import PipelineScript.Proofs.Script.Compiling

/-
  Which scripts begin with well-formed import statements.

  What generators ask for is spelled with names. What settings
  ask for is written down as it is, once its path is trimmed
  and dotted and blank names are dropped, and nothing else is
  checked. So the statements of a script are well formed as far
  as the settings spell theirs with names.

  Key definitions include:
    * `Description.required`

  Key theorems include:
    * `NodeKind.isNamed_of_mem_imports`
    * `Compiler.lines_are_statements_iff`
-/

namespace PipelineScript

variable {isName : String → Bool}

------------------------------------------------------------
-- What Settings Ask For
------------------------------------------------------------

/-
  The imports that settings require of a script with these
  nodes: those for every script, and those for their tags.
-/
def Description.required
    (settings : Settings)
    (description : Description) : List Directive :=
  settings.imports.defaults
    ++ description.nodes.values.flatMap fun node =>
      settings.imports.forTag node.kind.tag

/- All other requests are those of the generators. -/
theorem Description.mem_requests_iff
    {settings : Settings} {description : Description}
    {request : Directive} :
    request ∈ description.requests settings ↔
      request ∈ description.required settings ∨
        ∃ node ∈ description.nodes.values,
          request ∈ node.kind.imports := by
  simp only [requests, required, List.mem_append,
    List.mem_flatMap]
  constructor
  · rintro (hDefault | ⟨node, hNode, hOwn | hTag⟩)
    · exact Or.inl (Or.inl hDefault)
    · exact Or.inr ⟨node, hNode, hOwn⟩
    · exact Or.inl (Or.inr ⟨node, hNode, hTag⟩)
  · rintro ((hDefault | ⟨node, hNode, hTag⟩) |
      ⟨node, hNode, hOwn⟩)
    · exact Or.inl hDefault
    · exact Or.inr ⟨node, hNode, Or.inr hTag⟩
    · exact Or.inr ⟨node, hNode, Or.inl hOwn⟩

namespace Directive

/- Where more texts are names, more requests are named. -/
theorem isNamed_mono
    {isName isOther : String → Bool}
    (hNames : ∀ text, isName text → isOther text)
    {directive : Directive}
    (hNamed : directive.isNamed isName) :
    directive.isNamed isOther := by
  rcases directive with ⟨path, otherName, member⟩
  rw [isNamed, Bool.and_eq_true, Bool.and_eq_true] at hNamed ⊢
  refine ⟨⟨?_, ?_⟩, ?_⟩
  · exact List.all_eq_true.mpr fun part hPart =>
      hNames _ (List.all_eq_true.mp hNamed.1.1 part hPart)
  · cases otherName with
    | none => rfl
    | some name => exact hNames name hNamed.1.2
  · cases member with
    | none => rfl
    | some name => exact hNames name hNamed.2

end Directive

/- The requests of the generators are spelled with names. -/
theorem NodeKind.isNamed_of_mem_imports
    (kind : NodeKind) :
    ∀ request ∈ kind.imports,
      request.normalized.isNamed Text.isIdentifier := by
  apply forall_mem_imports
  · decide
  · decide
  · decide

------------------------------------------------------------
-- Statements of Scripts
------------------------------------------------------------

namespace Compiler

/-
  All import lines of a script are well-formed statements
  exactly if the settings spell what they require of it with
  names, or hide a name in a last part. The check of settings
  looks at none of this.
-/
theorem lines_are_statements_iff
    (isName : String → Bool)
    (hNaming : Text.IsNaming isName)
    (settings : Settings)
    (description : Description)
    (script : Script)
    (hCompile :
      ((ofSettings settings).compile description).outcome =
        .ok script) :
    (∀ line ∈ script.imports.lines,
        Directive.IsStatement isName line) ↔
      ∀ request ∈ description.required settings,
        request.normalized.isNamed isName ∨
          request.normalized.HidesName isName := by
  have hLines :
      (∀ line ∈ script.imports.lines,
          Directive.IsStatement isName line) ↔
        ∀ request ∈ description.requests settings,
          request.normalized.isNamed isName ∨
            request.normalized.HidesName isName := by
    simp only [ImportBlock.lines, List.forall_mem_map,
      mem_imports_of_compile hCompile,
      Directive.isStatement_render_iff hNaming]
  rw [hLines]
  constructor
  · intro hAll request hRequest
    exact hAll request
      (Description.mem_requests_iff.mpr (Or.inl hRequest))
  · intro hAll request hRequest
    rcases Description.mem_requests_iff.mp hRequest with
      hRequired | ⟨node, -, hOwn⟩
    · exact hAll request hRequired
    · exact Or.inl (Directive.isNamed_mono hNaming.identifier
        (node.kind.isNamed_of_mem_imports request hOwn))

/- A loader, with a path that is dotted and a hidden name. -/
theorem compile_of_named_requests :
    let requests : List Directive :=
      [.whole " sklearn/cluster ",
        .memberOf "torch.utils" "data as loading"]
    let settings : Settings :=
      { Settings.standard with
        imports := ⟨requests, .empty⟩ }
    let loader :=
      Description.empty.putNode ⟨"a"⟩ "DataLoader" .empty
    ∃ script,
      ((ofSettings settings).compile loader).outcome =
          .ok script ∧
        ∀ line ∈ script.imports.lines,
          Directive.IsStatement Text.isIdentifier line := by
  intro requests settings loader
  have hCompile :
      ∃ script,
        ((ofSettings settings).compile loader).outcome =
          .ok script := by
    apply exists_compile_of_rank fun _ => 0
    · exact Settings.check_eq_ok_iff.mpr ⟨by decide, by decide⟩
    · rfl
    · decide
    · decide
    · exact ⟨by decide, by decide⟩
  rcases hCompile with ⟨script, hScript⟩
  refine ⟨script, hScript, ?_⟩
  apply (lines_are_statements_iff Text.isIdentifier
    Text.isNaming_isIdentifier settings loader script hScript).mpr
  have hRequired : loader.required settings = requests := rfl
  have hLoading :
      Directive.isNamed Text.isIdentifier
        ⟨"torch.utils", some "loading", some "data"⟩ := by
    decide
  rw [hRequired, List.forall_mem_cons, List.forall_mem_singleton]
  refine ⟨Or.inl (by decide), Or.inr ?_⟩
  exact .memberOf hLoading

/- A module whose name has a space in it. -/
theorem compile_of_spaced_path :
    let settings : Settings :=
      { Settings.standard with
        imports :=
          { Requirements.standard with
            defaults :=
              [.whole "torch", .whole "scikit learn"] } }
    settings.check.outcome = .ok () ∧
      ∃ script,
        ((ofSettings settings).compile .empty).outcome =
            .ok script ∧
          "import scikit learn" ∈ script.imports.lines ∧
          ∀ isName,
            ¬ Directive.IsStatement isName
              "import scikit learn" := by
  intro settings
  have hCheck : settings.check.outcome = .ok () :=
    Settings.check_eq_ok_iff.mpr ⟨by decide, by decide⟩
  rcases exists_compile_empty hCheck rfl
      ⟨by decide, by decide⟩ with
    ⟨script, hScript⟩
  have hKept :
      Directive.whole "scikit learn" ∈ script.imports.directives :=
    (mem_imports_of_compile hScript _).mpr (by decide)
  refine ⟨hCheck, script, hScript,
    List.mem_map_of_mem hKept, ?_⟩
  rintro isName ⟨hRead, -⟩
  have hWords :
      Directive.words "import scikit learn" =
        ["import", "scikit", "learn"] := by
    decide
  simp [Directive.read?, hWords] at hRead

end Compiler

end PipelineScript
