import PipelineScript.Script.NameTable

/-
  The names of nodes are names that a script can bind.

  Key theorems include:
    * `isName_nodeName`
    * `underscore_mem_nodeName`
    * `isIdentifier_nodeName`
-/

namespace PipelineScript

/- A character that stands in a name after all. -/
theorem isNamePart_nameChar (c : Char) :
    Text.isNamePart (nameChar c) := by
  unfold nameChar
  split
  · assumption
  · rfl

/- What cannot begin a name and stands in it is a digit. -/
theorem isNameStart_of_isNamePart
    {c : Char}
    (hPart : Text.isNamePart c)
    (hDigit : ¬ c.isDigit) :
    Text.isNameStart c := by
  simp only [Text.isNamePart, Char.isAlphanum,
    Bool.or_eq_true] at hPart
  rcases hPart with (hAlpha | hTrue) | hLine
  · simp [Text.isNameStart, hAlpha]
  · exact absurd hTrue hDigit
  · simp [Text.isNameStart, hLine]

/- A digit in front is guarded, and nothing else is. -/
theorem guardDigit_cons
    (first : Char)
    (rest : List Char) :
    guardDigit (first :: rest) =
      if first.isDigit then
        '_' :: first :: rest
      else
        first :: rest :=
  rfl

/- Parts of a name are a name once a digit is guarded. -/
theorem isName_guardDigit
    {letters : List Char}
    (hSome : letters ≠ [])
    (hParts : ∀ c ∈ letters, Text.isNamePart c) :
    Text.isName (String.ofList (guardDigit letters)) := by
  unfold Text.isName
  rw [String.toList_ofList]
  cases letters with
  | nil => exact absurd rfl hSome
  | cons first rest =>
      rw [guardDigit_cons]
      by_cases hDigit : first.isDigit
      · rw [if_pos hDigit]
        exact List.all_eq_true.mpr hParts
      · rw [List.forall_mem_cons] at hParts
        rw [if_neg hDigit, Bool.and_eq_true]
        exact ⟨isNameStart_of_isNamePart hParts.1 hDigit,
          List.all_eq_true.mpr hParts.2⟩

/- Guarding a digit takes nothing away. -/
theorem mem_guardDigit
    {letters : List Char}
    {c : Char}
    (hMem : c ∈ letters) :
    c ∈ guardDigit letters := by
  cases letters with
  | nil => exact hMem
  | cons first rest =>
      rw [guardDigit_cons]
      split
      · exact List.mem_cons_of_mem _ hMem
      · exact hMem

/- The name of a node has the shape of a name. -/
theorem isName_nodeName
    (kind : NodeKind)
    (id : NodeId) :
    Text.isName (nodeName kind id) := by
  apply isName_guardDigit
  · simp
  · intro c hMem
    rcases List.mem_map.mp hMem with ⟨original, -, rfl⟩
    exact isNamePart_nameChar original

/- The tag and the key are joined by an underscore. -/
theorem underscore_mem_nodeName
    (kind : NodeKind)
    (id : NodeId) :
    '_' ∈ (nodeName kind id).toList := by
  rw [nodeName, String.toList_ofList]
  apply mem_guardDigit
  exact List.mem_map.mpr ⟨'_', by simp, rfl⟩

/- The name of a node is no word of the language. -/
theorem isIdentifier_nodeName
    (kind : NodeKind)
    (id : NodeId) :
    Text.isIdentifier (nodeName kind id) := by
  have hWords :
      ∀ word ∈ Text.keywords, '_' ∉ word.toList := by
    decide +kernel
  have hNew : nodeName kind id ∉ Text.keywords := fun hWord =>
    hWords _ hWord (underscore_mem_nodeName kind id)
  simp [Text.isIdentifier, isName_nodeName, hNew]

end PipelineScript
