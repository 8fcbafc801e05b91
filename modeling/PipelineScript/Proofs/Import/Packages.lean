import PipelineScript.Import.Requirements
import PipelineScript.Proofs.Import.ImportBlock

/-
  The packages of requests, listed from blocks and from tables
  of requirements.

  A block lists the packages of paths in their normal form. A
  table lists those of paths as they were written, and leaves
  out what has no package. Both come to the same where every
  request shows its package: where its path, as it is written,
  begins with the package that it has in normal form.

  Key definitions include:
    * `Text.EndsBlank`
    * `Directive.IsTrim`
    * `Directive.ShowsPackage`
    * `Requirements.directives`

  Key theorems include:
    * `ImportBlock.distinct_eq_eraseDups`
    * `ImportBlock.packages_of_addAll`
    * `Directive.firstPart_normalizedPath`
    * `Requirements.packages_eq_iff`
-/

namespace PipelineScript

------------------------------------------------------------
-- Distinct Texts
------------------------------------------------------------

namespace ImportBlock

variable {text : String} {first second : List String}

/- One more text is kept if it is new. -/
theorem distinct_concat (texts : List String) (text : String) :
    distinct (texts ++ [text]) =
      if (distinct texts).contains text then
        distinct texts
      else
        distinct texts ++ [text] := by
  rw [distinct, List.foldl_concat]
  rfl

/- Texts are kept in order of their first. -/
theorem distinct_eq_eraseDups (texts : List String) :
    distinct texts = texts.eraseDups := by
  induction texts using List.reverseRecOn with
  | nil => rfl
  | append_singleton texts text ih =>
      rw [distinct_concat, ih, List.eraseDups_append]
      by_cases hKept : text ∈ texts
      · simp [List.removeAll, hKept]
      · simp [List.removeAll, hKept, List.eraseDups_cons]

/- All texts are kept, and no others. -/
theorem mem_distinct {texts : List String} :
    text ∈ distinct texts ↔ text ∈ texts := by
  rw [distinct_eq_eraseDups, List.mem_eraseDups]

/- A text that came before is left out. -/
theorem distinct_append_cons_of_mem (hMem : text ∈ first) :
    distinct (first ++ text :: second) =
      distinct (first ++ second) := by
  have hLeft :
      (text :: second).removeAll first =
        second.removeAll first := by
    simp [List.removeAll, hMem]
  rw [distinct_eq_eraseDups, distinct_eq_eraseDups,
    List.eraseDups_append, List.eraseDups_append, hLeft]

------------------------------------------------------------
-- Packages of Blocks
------------------------------------------------------------

variable {imports next : ImportBlock}
variable {directives : List Directive}

/- What is added has its packages behind those of the block. -/
theorem packages_of_addAll
    (hAdd : imports.addAll directives = .ok next) :
    next.packages =
      distinct
        (imports.directives.map Directive.package
          ++ directives.map fun directive =>
            directive.normalized.package) := by
  induction directives generalizing imports with
  | nil =>
      rw [addAll_nil, Except.ok.injEq] at hAdd
      rw [← hAdd, List.map_nil, List.append_nil]
      rfl
  | cons directive directives ih =>
      rw [addAll_cons, bind_eq_ok] at hAdd
      rcases hAdd with ⟨middle, hFirst, hRest⟩
      rw [ih hRest, List.map_cons]
      rcases add_eq_ok_iff.mp hFirst with
        ⟨-, ⟨hKept, rfl⟩ | ⟨-, hMiddle⟩⟩
      · exact (distinct_append_cons_of_mem
          (List.mem_map_of_mem hKept)).symm
      · rw [hMiddle, List.map_append, List.append_assoc]
        rfl

/- A block lists the packages of all that it was made of. -/
theorem packages_of_ofDirectives
    (hMade : ofDirectives directives = .ok imports) :
    imports.packages =
      (directives.map fun directive =>
        directive.normalized.package).eraseDups := by
  rw [packages_of_addAll hMade,
    distinct_eq_eraseDups]
  rfl

/- A block lists the packages of what it keeps. -/
theorem package_mem_packages
    {kept : Directive}
    (hKept : kept ∈ imports.directives) :
    kept.package ∈ imports.packages :=
  mem_distinct.mpr (List.mem_map_of_mem hKept)

end ImportBlock

------------------------------------------------------------
-- First Parts
------------------------------------------------------------

/- The text ends in a blank. -/
def Text.EndsBlank (text : String) : Prop :=
  ∃ c, text.toList.getLast? = some c ∧ isBlank c

/- Trimming the end keeps what ends visibly before it. -/
theorem Text.rdropWhile_append
    {first : List Char}
    (hBack : first.rdropWhile isBlank = first)
    (second : List Char) :
    (first ++ second).rdropWhile isBlank =
      first ++ second.rdropWhile isBlank := by
  have hReverse :
      first.reverse.dropWhile isBlank = first.reverse := by
    simpa [List.rdropWhile] using congrArg List.reverse hBack
  unfold List.rdropWhile
  rw [List.reverse_append, List.dropWhile_append, hReverse]
  split
  · next hNone =>
      rw [List.isEmpty_iff.mp hNone]
      simp
  · simp

namespace Directive

/-
  The text can be the first part of a normal path: no blank is
  around it, and no separator is in it.
-/
structure IsTrim (text : String) : Prop where
  front : text.toList.dropWhile Text.isBlank = text.toList
  back : text.toList.rdropWhile Text.isBlank = text.toList
  dotted : text.toList.map dotted = text.toList

/- A path is its first part, and a point if there is more. -/
theorem toList_eq_firstPart_append (path : String) :
    ∃ rest,
      path.toList = (firstPart path).toList ++ rest ∧
        (rest = [] ∨ ∃ behind, rest = '.' :: behind) := by
  refine ⟨path.toList.dropWhile (· != '.'), ?_, ?_⟩
  · rw [firstPart, String.toList_ofList,
      List.takeWhile_append_dropWhile]
  · have hPoint :=
      List.head?_dropWhile_not (· != '.') path.toList
    cases hRest : path.toList.dropWhile (· != '.') with
    | nil => exact Or.inl rfl
    | cons c behind =>
        rw [hRest] at hPoint
        exact Or.inr ⟨behind, by simpa using hPoint⟩

/- A first part that is trim is kept in the normal path. -/
theorem firstPart_normalizedPath
    {path : String}
    (hTrim : IsTrim (firstPart path)) :
    firstPart (normalizedPath path) = firstPart path := by
  rcases toList_eq_firstPart_append path with
    ⟨rest, hPath, hRest⟩
  have hNoPoint :
      ∀ c ∈ (firstPart path).toList, c != '.' := by
    intro c hMem
    rw [firstPart, String.toList_ofList] at hMem
    exact List.mem_takeWhile_imp (p := (· != '.')) hMem
  have hFront :
      path.toList.dropWhile Text.isBlank = path.toList := by
    rw [hPath, List.dropWhile_append, hTrim.front]
    split
    · next hNone =>
        rw [List.isEmpty_iff.mp hNone]
        rcases hRest with rfl | ⟨behind, rfl⟩ <;> rfl
    · rfl
  have hTrimmed :
      Text.trimChars path.toList =
        (firstPart path).toList
          ++ rest.rdropWhile Text.isBlank := by
    rw [Text.trimChars, hFront]
    exact (congrArg _ hPath).trans
      (Text.rdropWhile_append hTrim.back rest)
  -- What is left behind the first part begins with a point.
  have hBehind :
      ((rest.rdropWhile Text.isBlank).map
        Directive.dotted).takeWhile (· != '.') = [] := by
    rcases hRest with rfl | ⟨behind, rfl⟩
    · rfl
    · rw [← List.singleton_append,
        Text.rdropWhile_append (by rfl)]
      rfl
  rw [firstPart, normalizedPath, String.toList_ofList, hTrimmed,
    List.map_append, hTrim.dotted,
    List.takeWhile_append_of_pos hNoPoint, hBehind,
    List.append_nil, String.ofList_toList]

/- The first part of a normal path is trim, if it ends so. -/
theorem isTrim_firstPart_normalizedPath
    {path : String}
    (hEnd :
      ¬ Text.EndsBlank (firstPart (normalizedPath path))) :
    IsTrim (firstPart (normalizedPath path)) := by
  have hPrefix :
      (firstPart (normalizedPath path)).toList <+:
        Text.trimChars (path.toList.map Directive.dotted) := by
    rw [Text.trimChars_map isBlank_dotted, firstPart,
      normalizedPath, String.toList_ofList,
      String.toList_ofList]
    exact List.takeWhile_prefix _
  refine ⟨?_, ?_, ?_⟩
  · exact Text.dropWhile_eq_self_of_prefix hPrefix
      (Text.dropWhile_trimChars _)
  · rw [List.rdropWhile_eq_self_iff]
    intro hNone hBlank
    exact hEnd
      ⟨_, List.getLast?_eq_some_getLast hNone, hBlank⟩
  · refine (List.map_congr_left fun c hMem => ?_).trans
      (List.map_id _)
    rcases List.mem_map.mp
        (Text.mem_of_mem_trimChars (hPrefix.subset hMem)) with
      ⟨raw, -, rfl⟩
    exact dotted_dotted raw

------------------------------------------------------------
-- Packages That Show
------------------------------------------------------------

/- The request has a package, and its path begins with it. -/
def ShowsPackage (directive : Directive) : Prop :=
  directive.package = directive.normalized.package ∧
    directive.package ≠ ""

end Directive

namespace Requirements

variable {requirements : Requirements} {imports : ImportBlock}
variable {directive : Directive} {package : String}

/- All requests, for every script and for some tags. -/
def directives (requirements : Requirements) : List Directive :=
  requirements.defaults ++ requirements.forTags.values.flatten

/- The requests for a tag are among all requests. -/
theorem mem_directives_of_mem_forTag
    {requirements : Requirements}
    {tag : String}
    {directive : Directive}
    (hMem : directive ∈ requirements.forTag tag) :
    directive ∈ requirements.directives := by
  unfold forTag Table.get? at hMem
  cases hFound : requirements.forTags.entries.lookup tag with
  | none => simp [hFound] at hMem
  | some found =>
      rw [hFound, Option.getD_some] at hMem
      rcases List.lookup_eq_some_iff.mp hFound with
        ⟨before, after, hEntries, -⟩
      have hValue : found ∈ requirements.forTags.values := by
        rw [Table.values, hEntries]
        simp
      exact List.mem_append_right _
        (List.mem_flatten.mpr ⟨found, hValue, hMem⟩)

/- A table lists the packages that its paths begin with. -/
theorem mem_packages_iff :
    package ∈ requirements.packages ↔
      package ≠ "" ∧
        ∃ directive ∈ requirements.directives,
          directive.package = package := by
  rw [packages, ImportBlock.mem_distinct, List.mem_filter,
    List.mem_map, and_comm]
  simp [directives]

/- Where every request shows its package, they are all listed. -/
theorem packages_of_showsPackage
    (hShows :
      ∀ directive ∈ requirements.directives,
        directive.ShowsPackage) :
    requirements.packages =
      (requirements.directives.map fun directive =>
        directive.normalized.package).eraseDups := by
  have hPackages :
      (requirements.directives.map Directive.package).filter
          (!·.isEmpty) =
        requirements.directives.map fun directive =>
          directive.normalized.package := by
    rw [List.filter_eq_self.mpr]
    · exact List.map_congr_left fun directive hMem =>
        (hShows directive hMem).1
    · intro package hPackage
      rcases List.mem_map.mp hPackage with
        ⟨directive, hMem, rfl⟩
      simpa using (hShows directive hMem).2
  rw [packages, ← directives, hPackages,
    ImportBlock.distinct_eq_eraseDups]

/-
  A table lists the packages of the block that is made of it
  exactly if every request shows its package, as far as no
  package ends in a blank.
-/
theorem packages_eq_iff
    (hMade :
      ImportBlock.ofDirectives requirements.directives =
        .ok imports)
    (hEnds :
      ∀ directive ∈ requirements.directives,
        ¬ Text.EndsBlank directive.normalized.package) :
    requirements.packages = imports.packages ↔
      ∀ directive ∈ requirements.directives,
        directive.ShowsPackage := by
  have hBlock := ImportBlock.packages_of_ofDirectives hMade
  constructor
  · intro hSame directive hDirective
    have hNormal {package : String} :
        package ∈ requirements.packages ↔
          ∃ other ∈ requirements.directives,
            other.normalized.package = package := by
      rw [hSame, hBlock, List.mem_eraseDups, List.mem_map]
    have hOwn :
        directive.normalized.package ∈ requirements.packages :=
      hNormal.mpr ⟨directive, hDirective, rfl⟩
    have hTrim : Directive.IsTrim directive.package := by
      by_cases hNone : directive.package = ""
      · rw [hNone]
        exact ⟨rfl, rfl, rfl⟩
      · rcases hNormal.mp (mem_packages_iff.mpr
            ⟨hNone, directive, hDirective, rfl⟩) with
          ⟨other, hOther, hPackage⟩
        rw [← hPackage]
        exact Directive.isTrim_firstPart_normalizedPath
          (hEnds other hOther)
    have hShown :
        directive.normalized.package = directive.package :=
      Directive.firstPart_normalizedPath hTrim
    rw [hShown] at hOwn
    exact ⟨hShown.symm, (mem_packages_iff.mp hOwn).1⟩
  · intro hShows
    rw [packages_of_showsPackage hShows, hBlock]

end Requirements

end PipelineScript
