import PipelineScript.Proofs.Import.Flattening
import PipelineScript.Text.Name

/-
  What names refer to behind the imports of a script.

  The statements of a block are read word by word, and carried
  out from the first to the last. Every one of them binds a
  name, and what was bound to it before is lost.

  Which object a name then refers to is a matter of the world
  that the statements are carried out in. All that is known of
  it is that a dotted path leads to one object, whether it is
  reached as a module or as a member of the module around it.

  A block keeps apart requests for one module, and so these
  never compete for a name. Requests for different modules
  can: then the last of them has the name.

  Key definitions include:
    * `Thing`
    * `Directive.boundName`
    * `Directive.asked`
    * `Directive.Competes`
    * `Directive.NamesSubmodule`
    * `Directive.read?`
    * `Scope.execute`
    * `ImportBlock.Accepted`

  Key theorems include:
    * `Directive.forms_of_shared`
    * `Directive.words_render_eq`
    * `Directive.read?_render`
    * `Scope.execute_map_render`
    * `Scope.foldl_take`
    * `ImportBlock.Accepted.isNormal_and_mem`
    * `ImportBlock.accepted_names`
-/

namespace PipelineScript

namespace Text

/- What can stand nowhere in a name is in none. -/
theorem not_mem_of_isIdentifier
    {c : Char}
    (hStart : isNameStart c = false)
    (hPart : isNamePart c = false)
    {name : String}
    (hName : isIdentifier name) :
    c ∉ name.toList := by
  rw [isIdentifier, Bool.and_eq_true, isName] at hName
  cases hLetters : name.toList with
  | nil => simp
  | cons first rest =>
      rw [hLetters, Bool.and_eq_true] at hName
      rw [List.mem_cons]
      rintro (rfl | hRest)
      · rw [hStart] at hName
        exact absurd hName.1.1 Bool.false_ne_true
      · have hOther := List.all_eq_true.mp hName.1.2 c hRest
        rw [hPart] at hOther
        exact absurd hOther Bool.false_ne_true

/- There are no spaces and no points in names. -/
theorem marks_not_mem
    {name : String}
    (hName : isIdentifier name) :
    ' ' ∉ name.toList ∧ '.' ∉ name.toList :=
  ⟨not_mem_of_isIdentifier (by decide) (by decide) hName,
    not_mem_of_isIdentifier (by decide) (by decide) hName⟩

/- What stands behind the last point tells texts apart. -/
theorem eq_of_append_point_eq
    {path other name otherName : String}
    (hName : '.' ∉ name.toList)
    (hOther : '.' ∉ otherName.toList)
    (hEq : path ++ "." ++ name = other ++ "." ++ otherName) :
    path = other ∧ name = otherName := by
  have hLetters := congrArg String.toList hEq
  have hPoint : ".".toList = ['.'] := rfl
  simp only [String.toList_append, hPoint, List.append_assoc,
    List.singleton_append] at hLetters
  have hSplit :=
    congrArg (List.splitOn '.') hLetters
  rw [List.splitOn_append_cons_self,
    List.splitOn_append_cons_self,
    List.splitOn_eq_singleton hName,
    List.splitOn_eq_singleton hOther] at hSplit
  have hLast : name.toList = otherName.toList := by
    simpa using (List.append_inj' hSplit rfl).2
  rw [hLast] at hLetters
  exact ⟨String.toList_inj.mp
      (List.append_cancel_right hLetters),
    String.toList_inj.mp hLast⟩

/- A character is between parts or in one of them. -/
theorem not_mem_intercalate
    {c mark : Char}
    (hMark : c ≠ mark)
    {parts : List (List Char)}
    (hParts : ∀ part ∈ parts, c ∉ part) :
    c ∉ [mark].intercalate parts := by
  induction parts with
  | nil => simp
  | cons part rest ih =>
      rw [List.forall_mem_cons] at hParts
      cases rest with
      | nil => simpa using hParts.1
      | cons next rest =>
          rw [List.intercalate_cons_cons, List.mem_append,
            List.mem_append, List.mem_singleton]
          rintro ((hPart | hC) | hRest)
          · exact hParts.1 hPart
          · exact hMark hC
          · exact ih hParts.2 hRest

end Text

------------------------------------------------------------
-- Names and Things
------------------------------------------------------------

/- What a name can refer to: a module, or a member of one. -/
inductive Thing where
  | module (path : String)
  | member (path name : String)
deriving DecidableEq, Repr

/- The dotted path that leads to a thing. -/
def Thing.path : Thing → String
  | .module path => path
  | .member path name => path ++ "." ++ name

namespace Directive

/-
  The name that a request binds: the one it gives, or else
  that of the member, or else that of the package.
-/
def boundName (directive : Directive) : String :=
  match directive.otherName, directive.member with
  | some otherName, _ => otherName
  | none, some member => member
  | none, none => directive.package

/-
  What a request wants the name to refer to. A module under
  its own name is reached through its package.
-/
def asked (directive : Directive) : Thing :=
  match directive.otherName, directive.member with
  | _, some member => .member directive.path member
  | some _, none => .module directive.path
  | none, none => .module directive.package

/- The object that a request asks for in some world. -/
def object
    {ω : Type*}
    (world : String → ω)
    (directive : Directive) : ω :=
  world directive.asked.path

/- Both requests bind one name, each to another object. -/
def Competes
    {ω : Type*}
    (world : String → ω)
    (first second : Directive) : Prop :=
  first.boundName = second.boundName ∧
    first.object world ≠ second.object world

instance
    {ω : Type*}
    [DecidableEq ω]
    (world : String → ω)
    (first second : Directive) :
    Decidable (first.Competes world second) := by
  unfold Competes
  infer_instance

/-
  The first request is for a module under another name, and the
  second for a member that is this module.
-/
def NamesSubmodule (first second : Directive) : Prop :=
  first.asked = .module first.path ∧
    ∃ name,
      second.member = some name ∧
        first.path = second.path ++ "." ++ name

/- There is no point in the name of a package. -/
theorem point_not_mem_package (directive : Directive) :
    '.' ∉ directive.package.toList := by
  rw [package, firstPart, String.toList_ofList]
  intro hMem
  have hOther := List.mem_takeWhile_imp hMem
  exact absurd hOther (by decide)

/- A member is not reached by the name of a package. -/
theorem package_ne_memberPath
    (directive : Directive)
    (path name : String) :
    directive.package ≠ path ++ "." ++ name := by
  intro hEq
  apply point_not_mem_package directive
  rw [hEq]
  simp

/-
  Requests for different modules that bind one name to the end
  of one path share the package of that name, or one of them
  is for a member of the other's parent.
-/
theorem forms_of_shared
    {first second : Directive}
    (hFirst : ∀ name ∈ first.member, '.' ∉ name.toList)
    (hSecond : ∀ name ∈ second.member, '.' ∉ name.toList)
    (hName : first.boundName = second.boundName)
    (hAsked : first.asked.path = second.asked.path)
    (hPath : first.path ≠ second.path) :
    first.asked = .module first.boundName ∨
      first.NamesSubmodule second ∨
      second.NamesSubmodule first := by
  rcases first with ⟨path, otherName, _ | member⟩
  · rcases second with ⟨other, another, _ | member⟩
    · -- Of two modules, one is reached through its package.
      left
      cases otherName <;> cases another <;>
        simp_all [asked, boundName, Thing.path]
    · cases otherName with
      | none =>
          exact absurd hAsked (package_ne_memberPath _ _ _)
      | some name =>
          exact Or.inr (Or.inl ⟨rfl, member, rfl, hAsked⟩)
  · have hAskedFirst :
        asked ⟨path, otherName, some member⟩ =
          .member path member := by
      cases otherName <;> rfl
    rw [hAskedFirst] at hAsked
    rcases second with ⟨other, another, _ | otherMember⟩
    · cases another with
      | none =>
          exact absurd hAsked.symm (package_ne_memberPath _ _ _)
      | some name =>
          exact Or.inr
            (Or.inr ⟨rfl, member, rfl, hAsked.symm⟩)
    · -- Members that are reached by one path have one parent.
      have hAskedSecond :
          asked ⟨other, another, some otherMember⟩ =
            .member other otherMember := by
        cases another <;> rfl
      rw [hAskedSecond] at hAsked
      exact absurd
        (Text.eq_of_append_point_eq (hFirst member rfl)
          (hSecond otherMember rfl) hAsked).1
        hPath

------------------------------------------------------------
-- Reading Statements
------------------------------------------------------------

/- A path consists of names with points between them. -/
def isNamedPath
    (isName : String → Bool)
    (path : String) : Bool :=
  (List.splitOn '.' path.toList).all fun part =>
    isName (String.ofList part)

/- All parts of a request are names. -/
def isNamed
    (isName : String → Bool)
    (directive : Directive) : Bool :=
  isNamedPath isName directive.path
    && directive.otherName.all isName
    && directive.member.all isName

/- The words of a line, with one space between two of them. -/
def words (line : String) : List String :=
  (List.splitOn ' ' line.toList).map String.ofList

/- The request that a statement makes, if it is well formed. -/
def read?
    (isName : String → Bool)
    (line : String) : Option Directive :=
  let directive? : Option Directive :=
    match words line with
    | ["import", path] => some ⟨path, none, none⟩
    | ["import", path, "as", otherName] =>
        some ⟨path, some otherName, none⟩
    | ["from", path, "import", member] =>
        some ⟨path, none, some member⟩
    | ["from", path, "import", member, "as", otherName] =>
        some ⟨path, some otherName, some member⟩
    | _ => none
  directive?.filter (isNamed isName)

/- The words of the statement that fulfils a request. -/
def parts (directive : Directive) : List String :=
  match directive.otherName, directive.member with
  | some otherName, some member =>
      ["from", directive.path, "import", member, "as",
        otherName]
  | some otherName, none =>
      ["import", directive.path, "as", otherName]
  | none, some member =>
      ["from", directive.path, "import", member]
  | none, none => ["import", directive.path]

variable {isName : String → Bool}
variable {directive : Directive}

/- What is in no name is in no path, unless it is a point. -/
theorem not_mem_path
    {c : Char}
    (hPoint : c ≠ '.')
    (hNames : ∀ name, isName name → c ∉ name.toList)
    {path : String}
    (hPath : isNamedPath isName path) :
    c ∉ path.toList := by
  have hJoined :
      ['.'].intercalate (List.splitOn '.' path.toList) =
        path.toList :=
    List.intercalate_splitOn '.'
  rw [← hJoined]
  apply Text.not_mem_intercalate hPoint
  intro part hPart
  have hPart := hNames _ (List.all_eq_true.mp hPath part hPart)
  rwa [String.toList_ofList] at hPart

/- What is in no name is in no part of a named request. -/
theorem not_mem_parts
    {c : Char}
    (hPoint : c ≠ '.')
    (hWords : ∀ word ∈ ["from", "import", "as"], c ∉ word.toList)
    (hNames : ∀ name, isName name → c ∉ name.toList)
    (hNamed : directive.isNamed isName) :
    ∀ part ∈ directive.parts, c ∉ part.toList := by
  rcases directive with ⟨path, otherName, member⟩
  rw [isNamed, Bool.and_eq_true, Bool.and_eq_true] at hNamed
  have hPath := not_mem_path hPoint hNames hNamed.1.1
  have hOther := hNamed.1.2
  have hMember := hNamed.2
  cases otherName <;> cases member <;> simp_all [parts]

/- What is joined by spaces has the words of all its parts. -/
theorem words_eq_flatMap
    {line : String}
    {parts : List String}
    (hLine :
      line.toList =
        [' '].intercalate (parts.map String.toList))
    (hSome : parts ≠ []) :
    words line = parts.flatMap words := by
  rw [words, hLine]
  clear hLine
  induction parts with
  | nil => exact absurd rfl hSome
  | cons part rest ih =>
      cases rest with
      | nil => simp [words]
      | cons next rest =>
          rw [List.map_cons, List.map_cons,
            List.intercalate_cons_cons, List.append_assoc,
            List.singleton_append,
            List.splitOn_append_cons_self, List.map_append,
            ← List.map_cons, ih (List.cons_ne_nil _ _)]
          rfl

/- The words of a statement are those of its parts. -/
theorem words_render_eq (directive : Directive) :
    words directive.render = directive.parts.flatMap words := by
  rcases directive with ⟨path, otherName, member⟩
  apply words_eq_flatMap
  · cases otherName <;> cases member <;>
      simp [render, parts, List.intercalate]
  · cases otherName <;> cases member <;> simp [parts]

/- A text without spaces is a word. -/
theorem words_eq_singleton
    {text : String}
    (hText : ' ' ∉ text.toList) :
    words text = [text] := by
  rw [words, List.splitOn_eq_singleton hText]
  simp

/- The words of a statement are those it was made of. -/
theorem words_render
    (hNames : ∀ name, isName name → ' ' ∉ name.toList)
    (hNamed : directive.isNamed isName) :
    words directive.render = directive.parts := by
  have hParts :
      ∀ part ∈ directive.parts, ' ' ∉ part.toList :=
    not_mem_parts (by decide) (by decide) hNames hNamed
  rw [words_render_eq, List.flatMap_congr fun part hPart =>
    words_eq_singleton (hParts part hPart)]
  simp

/- A statement is read as the request it was made for. -/
theorem read?_render
    (hNames : ∀ name, isName name → ' ' ∉ name.toList)
    (hNamed : directive.isNamed isName) :
    read? isName directive.render = some directive := by
  unfold read?
  rw [words_render hNames hNamed]
  rcases directive with ⟨path, otherName, member⟩
  cases otherName <;> cases member <;>
    simp [parts, hNamed]

end Directive

------------------------------------------------------------
-- Carrying Statements Out
------------------------------------------------------------

/- What names refer to, as far as they refer to anything. -/
def Scope : Type :=
  String → Option Thing

namespace Scope

/- No name refers to anything. -/
def empty : Scope :=
  fun _ => none

/- A request binds its name, and no other. -/
def take
    (scope : Scope)
    (directive : Directive) : Scope :=
  fun name =>
    if name = directive.boundName then
      some directive.asked
    else
      scope name

/- The object that a name refers to in some world. -/
def object?
    {ω : Type*}
    (world : String → ω)
    (scope : Scope)
    (name : String) : Option ω :=
  (scope name).map fun thing => world thing.path

/- Carry lines out one after the other, if all can be read. -/
def execute
    (isName : String → Bool)
    (scope : Scope) : List String → Option Scope
  | [] => some scope
  | line :: rest =>
      match Directive.read? isName line with
      | none => none
      | some directive =>
          (scope.take directive).execute isName rest

variable {isName : String → Bool}

/- Statements bind what was requested, one after the other. -/
theorem execute_map_render
    (hNames : ∀ name, isName name → ' ' ∉ name.toList)
    (scope : Scope)
    {directives : List Directive}
    (hNamed :
      ∀ directive ∈ directives, directive.isNamed isName) :
    scope.execute isName (directives.map Directive.render) =
      some (directives.foldl take scope) := by
  induction directives generalizing scope with
  | nil => rfl
  | cons directive rest ih =>
      rw [List.forall_mem_cons] at hNamed
      rw [List.map_cons, execute,
        Directive.read?_render hNames hNamed.1]
      exact ih (scope.take directive) hNamed.2

/- A name belongs to the last request that binds it. -/
theorem foldl_take
    (scope : Scope)
    (directives : List Directive)
    (name : String) :
    directives.foldl take scope name =
      match
        directives.reverse.find? (·.boundName == name) with
      | some directive => some directive.asked
      | none => scope name := by
  induction directives generalizing scope with
  | nil => rfl
  | cons directive rest ih =>
      rw [List.foldl_cons, ih, List.reverse_cons,
        List.find?_append]
      cases rest.reverse.find? (·.boundName == name) with
      | some last => rfl
      | none =>
          by_cases hName : name = directive.boundName
          · simp [take, hName]
          · have hOther : (directive.boundName == name) = false := by
              simpa using Ne.symm hName
            simp [take, hName, hOther]

end Scope

------------------------------------------------------------
-- What Blocks Accepted
------------------------------------------------------------

namespace ImportBlock

variable {imports next : ImportBlock}
variable {accepted : List Directive}

/-
  The requests in front of the first that cannot be added to a
  block behind those before it.
-/
def accepts
    (imports : ImportBlock) : List Directive → List Directive
  | [] => []
  | directive :: rest =>
      match imports.add directive with
      | .ok next => directive :: next.accepts rest
      | .error _ => []

/-
  What a block accepted on the way to what it is: one by one,
  many at once up to one that failed, and by way of another
  block.
-/
inductive Accepted : ImportBlock → List Directive → Prop where
  | empty : Accepted empty []
  | add {imports next : ImportBlock}
      {accepted : List Directive} {directive : Directive}
      (hImports : Accepted imports accepted)
      (hAdd : imports.add directive = .ok next) :
      Accepted next (accepted ++ [directive])
  | extend {imports : ImportBlock} {accepted : List Directive}
      (hImports : Accepted imports accepted)
      (directives : List Directive) :
      Accepted (imports.extend directives).1
        (accepted ++ imports.accepts directives)
  | merge {imports other next : ImportBlock}
      {accepted more : List Directive}
      (hImports : Accepted imports accepted)
      (hOther : Accepted other more)
      (hMerge : imports.merge other = .ok next) :
      Accepted next (accepted ++ more)

/- What is accepted could have been added at once. -/
theorem addAll_accepts
    (imports : ImportBlock)
    (directives : List Directive) :
    imports.addAll (imports.accepts directives) =
      .ok (imports.extend directives).1 := by
  induction directives generalizing imports with
  | nil => rfl
  | cons directive rest ih =>
      rw [accepts, extend_cons]
      cases hAdd : imports.add directive with
      | error error => rfl
      | ok next =>
          rw [addAll_cons, hAdd]
          exact ih next

/- Requests that were all added were all accepted. -/
theorem Accepted.addAll
    (hAccepted : imports.Accepted accepted)
    {directives : List Directive}
    (hAdd : imports.addAll directives = .ok next) :
    next.Accepted (accepted ++ directives) := by
  induction directives generalizing imports accepted with
  | nil =>
      rw [addAll_nil, Except.ok.injEq] at hAdd
      rw [List.append_nil, ← hAdd]
      exact hAccepted
  | cons directive rest ih =>
      rw [addAll_cons, bind_eq_ok] at hAdd
      rcases hAdd with ⟨middle, hFirst, hRest⟩
      rw [List.append_cons]
      exact ih (hAccepted.add hFirst) hRest

/- Requests that go together are accepted all at once. -/
theorem accepted_of_agree
    {directives : List Directive}
    (hAgree : Agree directives)
    (hFirsts : imports.directives = firsts directives) :
    imports.Accepted directives := by
  have hAdd : ofDirectives directives = .ok imports :=
    ofDirectives_eq_ok_iff.mpr ⟨hAgree, hFirsts⟩
  exact Accepted.empty.addAll hAdd

/- A block keeps what it accepted, in normal form. -/
theorem Accepted.isNormal_and_mem
    (hAccepted : imports.Accepted accepted) :
    imports.IsNormal ∧
      ∀ kept,
        kept ∈ imports.directives ↔
          kept ∈ accepted.map Directive.normalized := by
  induction hAccepted with
  | empty => exact ⟨isNormal_empty, by simp⟩
  | add _ hAdd ih =>
      refine ⟨isNormal_of_add ih.1 hAdd, ?_⟩
      intro kept
      rw [mem_of_add hAdd, ih.2]
      simp [eq_comm]
  | @extend imports _ _ directives ih =>
      have hAll := addAll_accepts imports directives
      refine ⟨isNormal_of_addAll ih.1 hAll, ?_⟩
      intro kept
      rw [mem_of_addAll hAll, ih.2, List.map_append,
        List.mem_append]
  | merge _ _ hMerge ih hOther =>
      refine ⟨isNormal_of_addAll ih.1 hMerge, ?_⟩
      intro kept
      rw [mem_of_merge_iff hOther.1 hMerge, ih.2,
        hOther.2, List.map_append, List.mem_append]

/- A name belongs to the last statement that binds it. -/
theorem execute_lines
    {isName : String → Bool}
    (hNames : ∀ name, isName name → ' ' ∉ name.toList)
    (imports : ImportBlock)
    (hNamed :
      ∀ kept ∈ imports.directives, kept.isNamed isName) :
    ∃ scope,
      Scope.empty.execute isName imports.lines = some scope ∧
        ∀ name,
          scope name =
            (imports.directives.reverse.find?
              (·.boundName == name)).map Directive.asked := by
  refine ⟨_, Scope.execute_map_render hNames _ hNamed, ?_⟩
  intro name
  rw [Scope.foldl_take]
  cases imports.directives.reverse.find?
      (·.boundName == name) with
  | none => rfl
  | some last => rfl

/- A request has its name: it refers to what was asked for. -/
def HasName
    {ω : Type*}
    (world : String → ω)
    (scope : Scope)
    (request : Directive) : Prop :=
  scope.object? world request.boundName =
    some (request.object world)

/- What no other statement competes for is bound as asked. -/
theorem hasName_of_alone
    {ω : Type*}
    {world : String → ω}
    {scope : Scope}
    (hScope :
      ∀ name,
        scope name =
          (imports.directives.reverse.find?
            (·.boundName == name)).map Directive.asked)
    {kept : Directive}
    (hKept : kept ∈ imports.directives)
    (hAlone :
      ∀ other ∈ imports.directives,
        ¬ kept.Competes world other) :
    HasName world scope kept := by
  rw [HasName, Scope.object?, hScope]
  cases hLast :
      imports.directives.reverse.find?
        (·.boundName == kept.boundName) with
  | none =>
      have hNone := List.find?_eq_none.mp hLast
      exact absurd (beq_self_eq_true _)
        (hNone kept (List.mem_reverse.mpr hKept))
  | some last =>
      have hMem :=
        List.mem_reverse.mp (List.mem_of_find?_eq_some hLast)
      have hFound := List.find?_some hLast
      have hName : last.boundName = kept.boundName :=
        beq_iff_eq.mp hFound
      have hObject : kept.object world = last.object world :=
        not_ne_iff.mp fun hNe =>
          hAlone last hMem ⟨hName.symm, hNe⟩
      rw [hObject]
      rfl

/-
  Requests that are spelled with names can be carried out, and
  each name then refers to the object that the last statement
  which binds it asks for. A request has its name unless
  another one competes for it, and all requests have theirs
  exactly if no two compete, whatever the world is in which
  paths lead to objects. Requests for one module never compete.
  Those for different modules that bind one name to the end of
  one path share the package of that name, or are for a module
  and for a member which is this module.
-/
theorem accepted_names
    {ω : Type*}
    (world : String → ω)
    (isName : String → Bool)
    (hNames :
      ∀ name, isName name →
        ' ' ∉ name.toList ∧ '.' ∉ name.toList)
    (imports : ImportBlock)
    (accepted : List Directive)
    (hAccepted : imports.Accepted accepted)
    (hNamed :
      ∀ request ∈ accepted.map Directive.normalized,
        request.isNamed isName) :
    let requests := accepted.map Directive.normalized
    ∃ scope,
      Scope.empty.execute isName imports.lines = some scope ∧
        (∀ name,
          scope.object? world name =
            (imports.directives.reverse.find?
              (·.boundName == name)).map
                (Directive.object world)) ∧
        (∀ request ∈ requests,
          (∀ other ∈ requests,
            ¬ request.Competes world other) →
              HasName world scope request) ∧
        ((∀ request ∈ requests, HasName world scope request) ↔
          ∀ first ∈ requests, ∀ second ∈ requests,
            ¬ first.Competes world second) ∧
        ∀ first ∈ requests, ∀ second ∈ requests,
          (first.Competes world second →
              first.path ≠ second.path) ∧
            (first.boundName = second.boundName →
              first.asked.path = second.asked.path →
                first.path ≠ second.path →
                  first.asked = .module first.boundName ∨
                    first.NamesSubmodule second ∨
                    second.NamesSubmodule first) := by
  intro requests
  rcases hAccepted.isNormal_and_mem with ⟨-, hMem⟩
  have hKeptNamed :
      ∀ kept ∈ imports.directives, kept.isNamed isName :=
    fun kept hKept => hNamed kept ((hMem kept).mp hKept)
  rcases execute_lines (fun name hName => (hNames name hName).1)
      imports hKeptNamed with
    ⟨scope, hExecute, hScope⟩
  have hAlone :
      ∀ request ∈ requests,
        (∀ other ∈ requests, ¬ request.Competes world other) →
          HasName world scope request := by
    intro request hRequest hNone
    exact hasName_of_alone hScope ((hMem request).mpr hRequest)
      fun other hOther => hNone other ((hMem other).mp hOther)
  refine ⟨scope, hExecute, ?_, hAlone, ⟨?_, ?_⟩, ?_⟩
  · intro name
    rw [Scope.object?, hScope, Option.map_map]
    rfl
  · rintro hAll first hFirst second hSecond ⟨hName, hObject⟩
    have hBound := hAll first hFirst
    rw [HasName, hName, hAll second hSecond,
      Option.some.injEq] at hBound
    exact hObject hBound.symm
  · intro hNone request hRequest
    exact hAlone request hRequest (hNone request hRequest)
  · intro first hFirst second hSecond
    have hPoint :
        ∀ request ∈ requests,
          ∀ name ∈ request.member, '.' ∉ name.toList := by
      intro request hRequest name hMember
      have hParts := hNamed request hRequest
      rw [Directive.isNamed, Bool.and_eq_true,
        Option.mem_def.mp hMember] at hParts
      exact (hNames name hParts.2).2
    refine ⟨?_, Directive.forms_of_shared (hPoint first hFirst)
      (hPoint second hSecond)⟩
    rintro ⟨-, hObject⟩ hPath
    apply hObject
    rw [eq_of_path_eq ((hMem first).mpr hFirst)
      ((hMem second).mpr hSecond) hPath]

/-
  Two blocks that share a package and, once as a module and
  once as a member, a module in it.
-/
theorem accepted_names_of_merged :
    let first : List Directive :=
      [.whole "torch.cuda", .aliased "torch/nn" "nn"]
    let second : List Directive :=
      [.memberOf "torch" "nn", .whole "torch.utils",
        .memberOf "torch.utils.data" "DataLoader"]
    let merged : ImportBlock :=
      listing ((first ++ second).map Directive.normalized)
        (by decide)
    merged.Accepted (first ++ second) ∧
      ∃ scope,
        Scope.empty.execute Text.isIdentifier merged.lines =
            some scope ∧
          ∀ request ∈ (first ++ second).map Directive.normalized,
            HasName id scope request := by
  intro first second merged
  have hFirst :
      Accepted
        (listing (first.map Directive.normalized) (by decide))
        first :=
    accepted_of_agree ⟨by decide, by decide⟩ (by decide)
  have hSecond : Accepted (listing second (by decide)) second :=
    accepted_of_agree ⟨by decide, by decide⟩ (by decide)
  have hMerged : merged.Accepted (first ++ second) :=
    .merge hFirst hSecond (by decide)
  refine ⟨hMerged, ?_⟩
  rcases accepted_names id Text.isIdentifier
      (fun _ => Text.marks_not_mem) merged (first ++ second)
      hMerged (by decide) with
    ⟨scope, hExecute, -, -, hAll, -⟩
  exact ⟨scope, hExecute, hAll.mpr (by decide)⟩

/-
  Modules under one name, a path that is none, and two modules
  that share a name with what is no plain import: a package
  with a request under its own name, and a module with a member
  that is this module.
-/
theorem accepted_of_shared_names :
    let numpy : Directive := .aliased "numpy" "np"
    let torch : Directive := .aliased "torch" "np"
    let both : ImportBlock := listing [numpy, torch] (by decide)
    let spaced : ImportBlock :=
      listing [.whole "num py"] (by decide)
    let package : Directive := .aliased "torch" "torch"
    let nested : Directive := .whole "torch.nn"
    let submodule : Directive := .aliased "torch.nn" "nn"
    let member : Directive := .memberOf "torch" "nn"
    (both.Accepted [numpy, torch] ∧
        numpy.Competes id torch ∧
        ∃ scope,
          Scope.empty.execute Text.isIdentifier both.lines =
              some scope ∧
            HasName id scope torch ∧
            ¬ HasName id scope numpy) ∧
      (spaced.Accepted spaced.directives ∧
        Scope.empty.execute Text.isIdentifier spaced.lines =
          none) ∧
      (Accepted (listing [package, nested] (by decide))
          [package, nested] ∧
        package.boundName = nested.boundName ∧
        package.asked.path = nested.asked.path) ∧
      Accepted (listing [submodule, member] (by decide))
          [submodule, member] ∧
        submodule.boundName = member.boundName ∧
        submodule.asked.path = member.asked.path := by
  intro numpy torch both spaced package nested submodule member
  have hBoth : both.Accepted [numpy, torch] :=
    accepted_of_agree ⟨by decide, by decide⟩ (by decide)
  have hSpaced : spaced.Accepted spaced.directives :=
    accepted_of_agree ⟨by decide, by decide⟩ (by decide)
  have hPackage :
      Accepted (listing [package, nested] (by decide))
        [package, nested] :=
    accepted_of_agree ⟨by decide, by decide⟩ (by decide)
  have hMember :
      Accepted (listing [submodule, member] (by decide))
        [submodule, member] :=
    accepted_of_agree ⟨by decide, by decide⟩ (by decide)
  refine ⟨⟨hBoth, by decide, ?_⟩, ⟨hSpaced, by decide⟩,
    ⟨hPackage, by decide, by decide⟩, hMember, by decide,
    by decide⟩
  rcases execute_lines
      (fun name hName => (Text.marks_not_mem hName).1)
      both (by decide) with
    ⟨scope, hExecute, hScope⟩
  refine ⟨scope, hExecute, ?_, ?_⟩
  · rw [HasName, Scope.object?, hScope]
    decide
  · rw [HasName, Scope.object?, hScope]
    decide

end ImportBlock

end PipelineScript
