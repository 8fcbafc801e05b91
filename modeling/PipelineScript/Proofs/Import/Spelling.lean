import PipelineScript.Proofs.Import.Meaning
import PipelineScript.Proofs.Lexis.Literals

/-
  Which requests are fulfilled by well-formed statements.

  A request is written down part by part, whatever its parts
  are. What comes of it is a statement if all parts are names,
  and in one other case: where the request gives no other name
  and its last part spells one.

  Key definitions include:
    * `Text.IsNaming`
    * `Directive.HidesName`
    * `Directive.IsStatement`
    * `Scope.IsBoundBy`

  Key theorems include:
    * `Directive.read?_eq_some_iff`
    * `Directive.isStatement_render_iff`
    * `Scope.isBoundBy_iff`
-/

namespace PipelineScript

namespace Text

------------------------------------------------------------
-- What Names Are
------------------------------------------------------------

/-
  What a reader of scripts may take for a name: every plain
  identifier, no word of the language, and nothing with blanks
  in it.
-/
structure IsNaming (isName : String → Bool) : Prop where
  identifier : ∀ text, isIdentifier text → isName text
  keyword : ∀ name, isName name → name ∉ keywords
  blank : ∀ name, isName name → ∀ c ∈ name.toList, ¬ isBlank c

/- There are no spaces in names. -/
theorem IsNaming.space_not_mem
    {isName : String → Bool}
    (hNaming : IsNaming isName)
    (name : String)
    (hName : isName name) :
    ' ' ∉ name.toList := fun hMem =>
  hNaming.blank name hName ' ' hMem rfl

/- The characters of plain names can be seen. -/
theorem not_isBlank_of_isNamePart
    {c : Char}
    (hPart : isNamePart c) :
    ¬ isBlank c := by
  rcases Bool.or_eq_true_iff.mp hPart with hAlpha | hLine
  · rw [Char.isAlphanum, Bool.or_eq_true, Lexis.isAlpha_iff,
      Lexis.isDigit_iff] at hAlpha
    simp only [isBlank, Bool.or_eq_true, Bool.and_eq_true,
      decide_eq_true_eq, beq_iff_eq]
    omega
  · rw [beq_iff_eq.mp hLine]
    decide

/- Plain identifiers are a choice of names. -/
theorem isNaming_isIdentifier : IsNaming isIdentifier where
  identifier := fun _ hText => hText
  keyword := by
    intro name hName
    rw [isIdentifier, Bool.and_eq_true] at hName
    simpa using hName.2
  blank := by
    intro name hName c hMem
    apply not_isBlank_of_isNamePart
    rw [isIdentifier, Bool.and_eq_true, Text.isName] at hName
    cases hLetters : name.toList with
    | nil => simp [hLetters] at hMem
    | cons first rest =>
        rw [hLetters, Bool.and_eq_true] at hName
        rw [hLetters, List.mem_cons] at hMem
        rcases hMem with rfl | hRest
        · exact Lexis.isNamePart_of_isNameStart hName.1.1
        · exact List.all_eq_true.mp hName.1.2 c hRest

end Text

namespace Directive

variable {isName : String → Bool}
variable {directive request : Directive} {line : String}

------------------------------------------------------------
-- Words of Statements
------------------------------------------------------------

/- Words with spaces between them are the line. -/
theorem toList_eq_of_words (line : String) :
    line.toList =
      [' '].intercalate ((words line).map String.toList) := by
  rw [words, List.map_map]
  simp [Function.comp_def, List.intercalate_splitOn]

/- A line of one word is this word. -/
theorem eq_of_words_eq_singleton
    {word : String}
    (hWords : words line = [word]) :
    line = word := by
  have hLetters := toList_eq_of_words line
  rw [hWords] at hLetters
  exact String.toList_inj.mp (by simpa using hLetters)

/- A name behind what it is for is spelled with a word. -/
theorem eq_of_words_eq_named
    {word name : String}
    (hWords : words line = [word, "as", name]) :
    line = word ++ " as " ++ name := by
  have hLetters := toList_eq_of_words line
  rw [hWords] at hLetters
  apply String.toList_inj.mp
  rw [hLetters]
  simp [List.intercalate]

/- What is read is what the words say, if it is named. -/
theorem read?_eq_some_iff :
    read? isName line = some request ↔
      words line = request.parts ∧ request.isNamed isName := by
  constructor
  · intro hRead
    rw [read?, Option.filter_eq_some_iff] at hRead
    rcases hRead with ⟨hShape, hNamed⟩
    refine ⟨?_, hNamed⟩
    split at hShape
    all_goals
      simp only [Option.some.injEq, reduceCtorEq] at hShape
    all_goals subst hShape
    all_goals assumption
  · rintro ⟨hWords, hNamed⟩
    rw [read?, hWords]
    rcases request with ⟨path, otherName, member⟩
    cases otherName <;> cases member <;>
      simp [parts, hNamed]

/- A line is one statement, with spaces and no other blanks. -/
def IsStatement
    (isName : String → Bool)
    (line : String) : Prop :=
  (read? isName line).isSome ∧
    ∀ c ∈ line.toList, Text.isBlank c → c = ' '

/- There are no blanks in what a named request consists of. -/
theorem not_isBlank_of_mem_parts
    (hNaming : Text.IsNaming isName)
    (hNamed : request.isNamed isName)
    {c : Char}
    (hBlank : Text.isBlank c) :
    ∀ part ∈ request.parts, c ∉ part.toList := by
  have hFixed :
      ["from", "import", "as"].all fun word =>
        word.toList.all (!Text.isBlank ·) :=
    rfl
  apply not_mem_parts
  · rintro rfl
    exact absurd hBlank (by decide)
  · intro word hWord hMem
    have hSeen :=
      List.all_eq_true.mp (List.all_eq_true.mp hFixed word hWord)
        c hMem
    simp [hBlank] at hSeen
  · intro name hName hMem
    exact hNaming.blank name hName c hMem hBlank
  · exact hNamed

/- What is read has no blanks but those between its words. -/
theorem isStatement_of_read?
    (hNaming : Text.IsNaming isName)
    (hRead : read? isName line = some request) :
    IsStatement isName line := by
  refine ⟨Option.isSome_of_eq_some hRead, ?_⟩
  rw [read?_eq_some_iff] at hRead
  intro c hMem hBlank
  by_contra hSpace
  rw [toList_eq_of_words, hRead.1] at hMem
  refine Text.not_mem_intercalate hSpace ?_ hMem
  intro letters hLetters
  rcases List.mem_map.mp hLetters with ⟨part, hPart, rfl⟩
  exact not_isBlank_of_mem_parts hNaming hRead.2 hBlank part hPart

------------------------------------------------------------
-- Names Behind Names
------------------------------------------------------------

/- No part of a named request is a word of the language. -/
theorem ne_keyword_of_isNamed
    (hNaming : Text.IsNaming isName)
    (hNamed : request.isNamed isName)
    {word : String}
    (hWord : word ∈ Text.keywords) :
    word ≠ request.path ∧
      some word ≠ request.otherName ∧
        some word ≠ request.member := by
  have hWhole :
      ∀ word ∈ Text.keywords,
        List.splitOn '.' word.toList = [word.toList] := by
    decide +kernel
  have hNone : ¬ isName word := fun hName =>
    hNaming.keyword word hName hWord
  rcases request with ⟨path, otherName, member⟩
  rw [isNamed, Bool.and_eq_true, Bool.and_eq_true] at hNamed
  refine ⟨?_, ?_, ?_⟩
  · rintro rfl
    have hPath := hNamed.1.1
    rw [isNamedPath, hWhole word hWord] at hPath
    exact hNone (by simpa using hPath)
  · rintro rfl
    exact hNone hNamed.1.2
  · rintro rfl
    exact hNone hNamed.2

/-
  A request without another name whose last part spells one: a
  module or a member, with the name behind it.
-/
inductive HidesName (isName : String → Bool) : Directive → Prop where
  | whole {path name : String}
      (hNamed : (aliased path name).isNamed isName) :
      HidesName isName (whole (path ++ " as " ++ name))
  | memberOf {path member name : String}
      (hNamed :
        isNamed isName ⟨path, some name, some member⟩) :
      HidesName isName
        (memberOf path (member ++ " as " ++ name))

/- A hidden name is read as one that is given. -/
theorem read?_of_hidesName
    (hNaming : Text.IsNaming isName)
    (hHidden : directive.HidesName isName) :
    ∃ request, read? isName directive.render = some request := by
  cases hHidden with
  | @whole path name hNamed =>
      refine ⟨aliased path name, ?_⟩
      rw [← read?_render hNaming.space_not_mem hNamed]
      simp [render, whole, aliased, String.append_assoc]
  | @memberOf path member name hNamed =>
      refine ⟨⟨path, some name, some member⟩, ?_⟩
      rw [← read?_render hNaming.space_not_mem hNamed]
      simp [render, memberOf, String.append_assoc]

/- The words that give another name. -/
def naming : Option String → List String
  | none => []
  | some name => ["as", name]

/- The other name comes last, whatever is named. -/
theorem parts_eq (directive : Directive) :
    directive.parts =
      match directive.member with
      | none =>
          "import" :: directive.path ::
            naming directive.otherName
      | some member =>
          "from" :: directive.path :: "import" :: member ::
            naming directive.otherName := by
  rcases directive with ⟨path, otherName, member⟩
  cases otherName <;> cases member <;> rfl

/-
  A text and a name that read as a word and a name are these,
  or it is the text that spells both.
-/
theorem eq_or_eq_of_words
    {text word : String} {otherName otherName' : Option String}
    (hWords :
      words text ++ (naming otherName).flatMap words =
        word :: naming otherName')
    (hWord : "as" ≠ word)
    (hOther : some "as" ≠ otherName') :
    (text = word ∧ otherName = otherName') ∨
      ∃ name,
        otherName = none ∧ otherName' = some name ∧
          text = word ++ " as " ++ name := by
  have hMark : words "as" = ["as"] := by decide
  cases otherName with
  | none =>
      rw [naming, List.flatMap_nil, List.append_nil] at hWords
      cases otherName' with
      | none =>
          exact Or.inl ⟨eq_of_words_eq_singleton hWords, rfl⟩
      | some name =>
          exact Or.inr
            ⟨name, rfl, rfl, eq_of_words_eq_named hWords⟩
  | some otherName =>
      have hWords :
          words text ++ "as" :: words otherName =
            word :: naming otherName' := by
        simpa [naming, hMark] using hWords
      cases otherName' with
      | none =>
          have hMem : "as" ∈ [word] := by
            rw [naming] at hWords
            rw [← hWords]
            simp
          exact absurd (List.mem_singleton.mp hMem) hWord
      | some name =>
          have hName : "as" ≠ name := fun hEq =>
            hOther (congrArg some hEq)
          -- The mark is no name, and so it parts both sides alike.
          have hBoth :
              [word] ++ "as" :: [name] =
                words text ++ "as" :: words otherName :=
            hWords.symm
          rw [List.append_cons_inj_of_notMem
            (by simpa using hWord) (by simpa using hName)]
            at hBoth
          rw [eq_of_words_eq_singleton hBoth.1.symm,
            eq_of_words_eq_singleton hBoth.2.2.symm]
          exact Or.inl ⟨rfl, rfl⟩

/- A member and its other name are behind the second mark. -/
theorem import_not_mem_tail
    {member : String} {otherName : Option String}
    (hOther : some "import" ≠ otherName)
    (hMember : some "import" ≠ some member) :
    "import" ∉ member :: naming otherName := by
  cases otherName with
  | none => simpa [naming] using hMember
  | some name =>
      have hName : "import" ≠ name := fun hEq =>
        hOther (congrArg some hEq)
      simpa [naming, hName] using hMember

/- What is read was named, or it is a name that was hidden. -/
theorem isNamed_or_hidesName_of_read?
    (hNaming : Text.IsNaming isName)
    (hRead : read? isName directive.render = some request) :
    directive.isNamed isName ∨ directive.HidesName isName := by
  rw [read?_eq_some_iff, words_render_eq] at hRead
  rcases hRead with ⟨hWords, hNamed⟩
  have hKeyword {word : String} (hWord : word ∈ Text.keywords) :=
    ne_keyword_of_isNamed hNaming hNamed hWord
  have hAs := hKeyword (show "as" ∈ Text.keywords by decide)
  have hImport :=
    hKeyword (show "import" ∈ Text.keywords by decide)
  have hFirst : words "from" = ["from"] := by decide
  have hMark : words "import" = ["import"] := by decide
  rw [parts_eq, parts_eq] at hWords
  rcases directive with ⟨path, otherName, _ | member⟩ <;>
    rcases request with ⟨path', otherName', _ | member'⟩
  · have hTail :
        words path ++ (naming otherName).flatMap words =
          path' :: naming otherName' := by
      simpa [hMark] using hWords
    rcases eq_or_eq_of_words hTail hAs.1 hAs.2.1 with
      ⟨rfl, rfl⟩ | ⟨name, rfl, rfl, rfl⟩
    · exact Or.inl hNamed
    · exact Or.inr (.whole hNamed)
  · simp [hMark] at hWords
  · simp [hFirst] at hWords
  · -- The path ends at the only mark that can stand behind it.
    have hBoth :
        [path'] ++ "import" :: member' :: naming otherName' =
          words path ++
            "import" ::
              (words member ++ (naming otherName).flatMap words) := by
      simpa [hFirst, hMark] using hWords.symm
    have hMember : "as" ≠ member' := fun hEq =>
      hAs.2.2 (congrArg some hEq)
    rw [List.append_cons_inj_of_notMem
      (by simpa using hImport.1)
      (import_not_mem_tail hImport.2.1 hImport.2.2)] at hBoth
    rw [eq_of_words_eq_singleton hBoth.1.symm]
    rcases eq_or_eq_of_words hBoth.2.2.symm hMember hAs.2.1 with
      ⟨rfl, rfl⟩ | ⟨name, rfl, rfl, rfl⟩
    · exact Or.inl hNamed
    · exact Or.inr (.memberOf hNamed)

/- A statement is what is named, or hides a name. -/
theorem isStatement_render_iff
    (hNaming : Text.IsNaming isName)
    (directive : Directive) :
    IsStatement isName directive.render ↔
      directive.isNamed isName ∨
        directive.HidesName isName := by
  constructor
  · rintro ⟨hRead, -⟩
    rcases Option.isSome_iff_exists.mp hRead with
      ⟨request, hRead⟩
    exact isNamed_or_hidesName_of_read? hNaming hRead
  · rintro (hNamed | hHidden)
    · exact isStatement_of_read? hNaming
        (read?_render hNaming.space_not_mem hNamed)
    · rcases read?_of_hidesName hNaming hHidden with
        ⟨request, hRead⟩
      exact isStatement_of_read? hNaming hRead

end Directive

------------------------------------------------------------
-- Carrying Any Lines Out
------------------------------------------------------------

namespace Scope

variable {isName : String → Bool} {lines : List String}

/-
  Lines can be carried out if they can all be read, and bind
  what was read of them.
-/
theorem execute_eq_some_iff {scope next : Scope} :
    scope.execute isName lines = some next ↔
      (∀ line ∈ lines, (Directive.read? isName line).isSome) ∧
        (lines.filterMap (Directive.read? isName)).foldl take
            scope =
          next := by
  induction lines generalizing scope with
  | nil => simp [execute]
  | cons line rest ih =>
      rw [execute, List.forall_mem_cons]
      cases hRead : Directive.read? isName line with
      | none => simp
      | some directive =>
          rw [List.filterMap_cons_some hRead, List.foldl_cons]
          simpa using ih

/- Once lines are carried out, a name refers to a thing. -/
def IsBoundBy
    (isName : String → Bool)
    (lines : List String)
    (name : String)
    (thing : Thing) : Prop :=
  ∃ scope,
    empty.execute isName lines = some scope ∧
      scope name = some thing

/- The last line that binds a name decides what it is. -/
theorem isBoundBy_iff {name : String} {thing : Thing} :
    IsBoundBy isName lines name thing ↔
      (∀ line ∈ lines, (Directive.read? isName line).isSome) ∧
        ((lines.filterMap (Directive.read? isName)).reverse.find?
            (·.boundName == name)).map Directive.asked =
          some thing := by
  simp only [IsBoundBy, execute_eq_some_iff, and_assoc,
    exists_and_left, exists_eq_left', foldl_take]
  refine and_congr_right fun _ => ?_
  cases (lines.filterMap (Directive.read? isName)).reverse.find?
      (·.boundName == name) with
  | none => simp [empty]
  | some last => rfl

end Scope

end PipelineScript
