import PipelineScript.Proofs.Import.Packages
import PipelineScript.Proofs.Script.ImportLines

/-
  The packages of scripts, and those that settings list.

  A script imports what the settings require of it, in normal
  form, and reports the packages of that. The settings list the
  packages of their table as it is written. So a package that a
  script has because of the table is listed only if some path
  of the table begins with it.

  Key theorems include:
    * `Description.required_subset`
    * `Script.IsMadeOf.normalized_mem_imports`
    * `Requirements.packages_cover_scripts`
-/

namespace PipelineScript

variable {settings : Settings} {registry : Registry}
variable {description : Description} {graph : Graph}
variable {blocks : List Block} {script : Script}

/- What is required of a script is in the table. -/
theorem Description.required_subset
    (settings : Settings)
    (description : Description) :
    description.required settings ⊆
      settings.imports.directives := by
  intro directive hRequired
  rcases List.mem_append.mp hRequired with hDefault | hTag
  · exact List.mem_append_left _ hDefault
  · rcases List.mem_flatMap.mp hTag with ⟨node, -, hOwn⟩
    exact Requirements.mem_directives_of_mem_forTag hOwn

/- What is required of a script, it imports in normal form. -/
theorem Script.IsMadeOf.normalized_mem_imports
    (hMade :
      script.IsMadeOf settings registry description graph
        blocks)
    {directive : Directive}
    (hRequired : directive ∈ description.required settings) :
    directive.normalized ∈ script.imports.directives := by
  apply (hMade.mem_imports _).mpr
  apply List.mem_map_of_mem
  rcases List.mem_append.mp hRequired with hDefault | hTag
  · exact List.mem_append_left _ hDefault
  rcases List.mem_flatMap.mp hTag with ⟨record, hRecord, hOwn⟩
  rcases List.mem_map.mp hRecord with ⟨entry, hEntry, rfl⟩
  have hNode :
      ⟨entry.1, entry.2.kind, entry.2.options⟩ ∈
        blocks.map Block.node := by
    rw [hMade.nodes_perm.mem_iff,
      (Graph.ofDescription_eq_ok_iff.mp hMade.graph_eq).1]
    exact List.mem_map.mpr ⟨entry, hEntry, rfl⟩
  rcases List.mem_map.mp hNode with ⟨block, hBlock, hSame⟩
  apply List.mem_append_right
  refine List.mem_flatMap.mpr ⟨block, hBlock, ?_⟩
  apply List.mem_append_right
  rw [hSame]
  exact hOwn

namespace Requirements

/-
  A block that is made of a whole table has the packages of
  the normal forms, in order of their first. The table lists
  the same if every request shows its package, and only then,
  as far as no package ends in a blank. A script reports the
  package of all that is required of it, and the table lists
  such a package exactly if one of its paths begins with it.
-/
theorem packages_cover_scripts
    (requirements : Requirements)
    (imports : ImportBlock)
    (hMade :
      ImportBlock.ofDirectives requirements.directives =
        .ok imports) :
    imports.packages =
        (requirements.directives.map fun directive =>
          directive.normalized.package).eraseDups ∧
      ((∀ directive ∈ requirements.directives,
          directive.ShowsPackage) →
        requirements.packages = imports.packages) ∧
      ((∀ directive ∈ requirements.directives,
          ¬ Text.EndsBlank directive.normalized.package) →
        (requirements.packages = imports.packages ↔
          ∀ directive ∈ requirements.directives,
            directive.ShowsPackage)) ∧
      ∀ compiler description script,
        compiler.settings.imports = requirements →
        (Compiler.compile compiler description).outcome =
          .ok script →
        ∀ directive ∈ description.required compiler.settings,
          directive.normalized.package ∈ script.packages ∧
            directive.normalized.package ∈ imports.packages ∧
            (directive.normalized.package ∈
                requirements.packages ↔
              directive.normalized.package ≠ "" ∧
                ∃ other ∈ requirements.directives,
                  other.package =
                    directive.normalized.package) := by
  have hBlock := ImportBlock.packages_of_ofDirectives hMade
  refine ⟨hBlock, ?_, packages_eq_iff hMade, ?_⟩
  · intro hShows
    rw [packages_of_showsPackage hShows, hBlock]
  · rintro compiler description script rfl hCompile directive
      hRequired
    rcases Compiler.exists_isMadeOf hCompile with
      ⟨graph, blocks, hScript⟩
    refine ⟨?_, ?_, mem_packages_iff⟩
    · exact ImportBlock.package_mem_packages
        (hScript.normalized_mem_imports hRequired)
    · rw [hBlock, List.mem_eraseDups]
      exact List.mem_map_of_mem
        (description.required_subset _ hRequired)

/- A blank behind a path, and a script that needs the path. -/
theorem packages_of_clusters :
    let clusters : Directive :=
      .aliased "sklearn.cluster " "cluster"
    let requirements : Requirements :=
      ⟨[.whole "torch.nn"], .ofList [("KMeans", [clusters])]⟩
    let compiler :=
      Compiler.ofSettings
        { Settings.standard with imports := requirements }
    let description :=
      Description.empty.putNode ⟨"a"⟩ "KMeans" .empty
    ∃ imports script,
      ImportBlock.ofDirectives requirements.directives =
          .ok imports ∧
        requirements.packages = imports.packages ∧
        (compiler.compile description).outcome = .ok script ∧
        "sklearn" ∈ script.packages ∧
        "sklearn" ∈ requirements.packages := by
  intro clusters requirements compiler description
  have hMade :
      ∃ imports,
        ImportBlock.ofDirectives requirements.directives =
          .ok imports :=
    (ImportBlock.exists_addAll_iff
      ImportBlock.isNormal_empty).mpr ⟨by decide, by decide⟩
  have hCompile :
      ∃ script,
        (compiler.compile description).outcome =
          .ok script := by
    apply Compiler.exists_compile_of_rank fun _ => 0
    · exact Settings.check_eq_ok_iff.mpr ⟨by decide, by decide⟩
    · rfl
    · decide
    · decide
    · exact ⟨by decide, by decide⟩
  rcases hMade with ⟨imports, hMade⟩
  rcases hCompile with ⟨script, hScript⟩
  rcases packages_cover_scripts requirements imports hMade with
    ⟨-, hSame, -, hCovers⟩
  have hShows :
      ∀ directive ∈ requirements.directives,
        directive.ShowsPackage := by
    simp only [Directive.ShowsPackage]
    decide
  have hRequired :
      clusters ∈ description.required compiler.settings := by
    decide
  rcases hCovers compiler description script rfl hScript clusters
      hRequired with
    ⟨hReported, -, hListed⟩
  have hPackage :
      clusters.normalized.package = "sklearn" := by
    decide
  rw [hPackage] at hReported hListed
  refine ⟨imports, script, hMade, hSame hShows, hScript,
    hReported, hListed.mpr ⟨by decide, clusters, ?_, ?_⟩⟩
  · decide
  · decide

/- A separator in a path that is no point. -/
theorem packages_of_separated_path :
    let requirements : Requirements :=
      ⟨[.whole "torch/nn"], .empty⟩
    let settings : Settings :=
      { Settings.standard with imports := requirements }
    (∃ imports,
        ImportBlock.ofDirectives requirements.directives =
            .ok imports ∧
          imports.packages = ["torch"]) ∧
      requirements.packages = ["torch/nn"] ∧
      ∃ script,
        ((Compiler.ofSettings settings).compile
            .empty).outcome = .ok script ∧
          "torch" ∈ script.packages ∧
          "torch" ∉ requirements.packages := by
  intro requirements settings
  have hCheck : settings.check.outcome = .ok () :=
    Settings.check_eq_ok_iff.mpr ⟨by decide, by decide⟩
  rcases Compiler.exists_compile_empty hCheck rfl
      ⟨by decide, by decide⟩ with
    ⟨script, hScript⟩
  have hKept :
      Directive.whole "torch.nn" ∈ script.imports.directives :=
    (Compiler.mem_imports_of_compile hScript _).mpr (by decide)
  exact ⟨⟨_, rfl, by decide⟩, by decide, script, hScript,
    ImportBlock.package_mem_packages hKept, by decide⟩

end Requirements

end PipelineScript
