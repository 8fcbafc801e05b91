import PipelineScript.Proofs.Pairing
import PipelineScript.Proofs.Toml.Faithful
import PipelineScript.Settings.TomlForm

/-
  Settings go through their TOML texts unchanged: whatever
  order the members of a table are read in, no part of the
  settings is left out that would be standard when missing.

  Key definitions include:
    * `Requirements.tagMembers`
    * `Settings.IsReloaded`

  Key theorems include:
    * `Directive.ofToml_of_same`
    * `Requirements.exists_tags_of_same`
    * `Settings.exists_ofToml_of_same`
    * `Settings.exists_decodeToml_of_print`
-/

namespace PipelineScript

open Toml

------------------------------------------------------------
-- Lookups
------------------------------------------------------------

namespace Toml.Value

variable {members others : List (String × Value)}
variable {value other : Value} {key : String}

/- Only a text says the same as a text. -/
theorem Same.eq_text
    {content : String}
    (hSame : Same (.text content) other) :
    other = .text content := by
  cases hSame
  rfl

/- Only a truth value says the same as a truth value. -/
theorem Same.eq_boolean
    {flag : Bool}
    (hSame : Same (.boolean flag) other) :
    other = .boolean flag := by
  cases hSame
  rfl

/- A table says the same as a table. -/
theorem Same.exists_table
    (hSame : Same (.table members) other) :
    ∃ others, other = .table others := by
  cases hSame
  exact ⟨_, rfl⟩

/- A text is under a key of both tables or of neither. -/
theorem Same.lookup_text
    {content? : Option String}
    (hSame : Same (.table members) (.table others))
    (hLookup : members.lookup key = content?.map .text) :
    others.lookup key = content?.map .text := by
  cases content? with
  | none => exact hSame.lookup_of_none hLookup
  | some content =>
      rcases hSame.lookup_of_some hLookup with
        ⟨other, hOther, hText⟩
      rw [hOther, hText.eq_text]
      rfl

/- So is a truth value. -/
theorem Same.lookup_boolean
    {flag : Bool}
    (hSame : Same (.table members) (.table others))
    (hLookup : members.lookup key = some (.boolean flag)) :
    others.lookup key = some (.boolean flag) := by
  rcases hSame.lookup_of_some hLookup with
    ⟨other, hOther, hFlag⟩
  rw [hOther, hFlag.eq_boolean]

end Toml.Value

------------------------------------------------------------
-- Requests
------------------------------------------------------------

namespace Directive

variable {directive : Directive} {other : Value}

/- A request is a table of texts. -/
theorem isPlain_toToml
    (directive : Directive)
    (levels : Nat) :
    directive.toToml.IsPlain (levels + 1) := by
  rcases directive with ⟨path, _ | otherName, _ | member⟩
  all_goals
    refine .table (by simp [partToToml, Entries.keys]) ?_
    intro part hPart
    simp only [partToToml, List.nil_append, List.cons_append,
      List.mem_cons, List.not_mem_nil, or_false] at hPart
  · rw [hPart]
    exact .text _
  · rcases hPart with rfl | rfl <;> exact .text _
  · rcases hPart with rfl | rfl <;> exact .text _
  · rcases hPart with rfl | rfl | rfl <;> exact .text _

/- Requests are an array of such tables. -/
theorem isPlain_listToToml
    (directives : List Directive)
    (levels : Nat) :
    (listToToml directives).IsPlain (levels + 2) := by
  refine .array ?_
  rw [List.forall_mem_map]
  exact fun directive _ => directive.isPlain_toToml levels

/- A request is made of what says the same as its value. -/
theorem ofToml_of_same
    (hSame : directive.toToml.Same other) :
    ofToml? other = some directive := by
  rcases hSame.exists_table with ⟨others, rfl⟩
  have hPath :
      others.lookup "module" =
        (some directive.path).map .text :=
    hSame.lookup_text rfl
  have hName :
      others.lookup "alias" =
        directive.otherName.map .text := by
    apply hSame.lookup_text
    rcases directive with ⟨path, _ | otherName, _ | member⟩
    all_goals rfl
  have hOld : others.lookup "as_name" = none := by
    apply hSame.lookup_of_none
    rcases directive with ⟨path, _ | otherName, _ | member⟩
    all_goals rfl
  have hMember :
      others.lookup "specifier" =
        directive.member.map .text := by
    apply hSame.lookup_text
    rcases directive with ⟨path, _ | otherName, _ | member⟩
    all_goals rfl
  rcases directive with ⟨path, _ | otherName, _ | member⟩
  all_goals
    simp [ofToml?, fill?, fillMembers?, tomlFields, Field.place,
      Value.text?, hPath, hName, hOld, hMember, ofDraft?]

/- So are requests of what says the same as theirs. -/
theorem list_of_same
    {directives : List Directive}
    (hSame : (listToToml directives).Same other) :
    list? ofToml? other = some directives := by
  cases hSame with
  | @array _ others hItems =>
      rw [List.forall₂_map_left_iff] at hItems
      change others.mapM ofToml? = some directives
      rw [Pairing.mapM_eq_some_iff]
      exact hItems.flip.imp fun _ _ => ofToml_of_same

end Directive

------------------------------------------------------------
-- Requirements
------------------------------------------------------------

namespace Requirements

variable {requirements : Requirements} {other : Value}

/- The members of the table of the imports for some tags. -/
def tagMembers
    (requirements : Requirements) : List (String × Value) :=
  requirements.forTags.entries.map fun entry =>
    (entry.1, Directive.listToToml entry.2)

/- Its keys are the tags. -/
theorem keys_tagMembers (requirements : Requirements) :
    Entries.keys requirements.tagMembers =
      requirements.forTags.keys := by
  rw [Entries.keys, tagMembers, List.map_map]
  rfl

/- The imports for some tags are a table of arrays. -/
theorem isPlain_tagMembers
    (requirements : Requirements)
    (levels : Nat) :
    (Value.table requirements.tagMembers).IsPlain
      (levels + 3) := by
  refine .table ?_ ?_
  · rw [keys_tagMembers]
    exact requirements.forTags.distinct
  · rw [tagMembers, List.forall_mem_map]
    exact fun entry _ =>
      Directive.isPlain_listToToml entry.2 levels

/- Requirements are a table of these and the defaults. -/
theorem isPlain_toToml
    (requirements : Requirements)
    (levels : Nat) :
    requirements.toToml.IsPlain (levels + 4) := by
  refine .table (by simp [Entries.keys]) ?_
  rw [List.forall_mem_cons, List.forall_mem_singleton]
  exact ⟨Directive.isPlain_listToToml _ (levels + 1),
    requirements.isPlain_tagMembers levels⟩

/- A member of a table like it has the imports for its tag. -/
theorem get?_of_same
    {others : List (String × Value)}
    (hSame :
      (Value.table requirements.tagMembers).Same
        (.table others))
    {member : String × Value}
    (hMember : member ∈ others) :
    ∃ directives,
      requirements.forTags.get? member.1 = some directives ∧
        list? Directive.ofToml? member.2 = some directives := by
  cases hSame with
  | table _ hKeys hMembers =>
      have hTag :=
        hKeys.mem_iff.mpr (List.mem_map_of_mem hMember)
      rcases List.mem_map.mp hTag with ⟨known, hKnown, hSameTag⟩
      have hValue := hMembers known.1 known.2 member.2 hKnown
      rcases List.mem_map.mp hKnown with ⟨entry, hEntry, rfl⟩
      change entry.1 = member.1 at hSameTag
      refine ⟨entry.2, ?_, ?_⟩
      · rw [← hSameTag, Table.get?_eq_some_iff]
        exact hEntry
      · apply Directive.list_of_same (hValue _)
        rw [hSameTag]
        exact hMember

/-
  A table with the same members has the same imports for each
  tag, and no other tags.
-/
theorem exists_tags_of_same
    (hSame :
      (Value.table requirements.tagMembers).Same other) :
    ∃ tags,
      tagsOfToml? other = some tags ∧
        ∀ tag, tags.get? tag = requirements.forTags.get? tag := by
  rcases hSame.exists_table with ⟨others, rfl⟩
  let made := others.map fun member =>
    (member.1, requirements.forTag member.1)
  have hRead :
      List.Forall₂
        (fun member entry =>
          (list? Directive.ofToml? member.2).map
              (fun directives => (member.1, directives)) =
            some entry)
        others made := by
    rw [List.forall₂_map_right_iff, List.forall₂_same]
    intro member hMember
    rcases get?_of_same hSame hMember with
      ⟨directives, hGet, hList⟩
    rw [hList, forTag, hGet]
    rfl
  have hMade : (Entries.keys made).Nodup := by
    rw [Entries.keys, List.map_map]
    cases hSame with
    | table hDistinct _ _ => exact hDistinct
  refine ⟨.ofList made, ?_, ?_⟩
  · rw [tagsOfToml?, Pairing.mapM_eq_some_iff.mpr hRead]
    rfl
  · intro tag
    ext directives
    rw [Table.get?_eq_some_iff, Table.entries_ofList hMade,
      List.mem_map]
    constructor
    · rintro ⟨member, hMember, hEntry⟩
      rcases get?_of_same hSame hMember with ⟨found, hGet, -⟩
      rw [Prod.mk.injEq, forTag, hGet] at hEntry
      rw [← hEntry.1, ← hEntry.2, hGet]
      rfl
    · intro hGet
      have hTag : tag ∈ Entries.keys requirements.tagMembers := by
        rw [keys_tagMembers]
        exact List.mem_map_of_mem
          (Table.get?_eq_some_iff.mp hGet)
      cases hSame with
      | table _ hKeys _ =>
          rcases List.mem_map.mp (hKeys.mem_iff.mp hTag) with
            ⟨member, hMember, rfl⟩
          refine ⟨member, hMember, ?_⟩
          rw [forTag, hGet]
          rfl

/- Requirements are read with the same imports for each tag. -/
theorem exists_ofToml_of_same
    (hSame : requirements.toToml.Same other) :
    ∃ loaded,
      ofToml? other = some loaded ∧
        loaded.defaults = requirements.defaults ∧
          ∀ tag,
            loaded.forTags.get? tag =
              requirements.forTags.get? tag := by
  rcases hSame.exists_table with ⟨others, rfl⟩
  rcases
      @Value.Same.lookup_of_some _ _ "defaults" _ hSame rfl with
    ⟨defaults, hDefaults, hSameDefaults⟩
  rcases
      @Value.Same.lookup_of_some _ _ "node_types" _ hSame rfl with
    ⟨forTags, hForTags, hSameTags⟩
  rcases exists_tags_of_same hSameTags with
    ⟨tags, hTags, hGet⟩
  refine ⟨⟨requirements.defaults, tags⟩, ?_, rfl, hGet⟩
  simp [ofToml?, fill?, fillMembers?, tomlFields, Field.place,
    hDefaults, hForTags, Directive.list_of_same hSameDefaults,
    hTags, ofDraft]

end Requirements

------------------------------------------------------------
-- Settings
------------------------------------------------------------

namespace Settings

/-
  The loaded settings say the same as those that were saved.
  Only the order of the tags may be another.
-/
structure IsReloaded (settings loaded : Settings) : Prop where
  indent : loaded.indent = settings.indent
  entrypoint : loaded.entrypoint = settings.entrypoint
  deviceSetup : loaded.deviceSetup = settings.deviceSetup
  strictModels : loaded.strictModels = settings.strictModels
  defaults : loaded.imports.defaults = settings.imports.defaults
  forTags :
    ∀ tag,
      loaded.imports.forTags.get? tag =
        settings.imports.forTags.get? tag

/- Settings are as they were. -/
theorem isReloaded_self (settings : Settings) :
    settings.IsReloaded settings :=
  ⟨rfl, rfl, rfl, rfl, rfl, fun _ => rfl⟩

/- Settings are a table of few levels. -/
theorem isPlain_toToml
    (settings : Settings)
    (levels : Nat) :
    (Value.table settings.toToml).IsPlain (levels + 5) := by
  refine .table (by simp [toToml, Entries.keys]) ?_
  simp only [toToml, List.forall_mem_cons]
  exact ⟨.text _, .text _, .boolean _, .boolean _,
    settings.imports.isPlain_toToml levels,
    List.forall_mem_nil _⟩

/- Settings are read from a table with the same members. -/
theorem exists_ofToml_of_same
    {settings : Settings}
    {others : List (String × Value)}
    (hSame :
      (Value.table settings.toToml).Same (.table others)) :
    ∃ loaded,
      ofToml? others = some loaded ∧
        settings.IsReloaded loaded := by
  have hIndent :
      others.lookup "indent" =
        (some settings.indent).map .text :=
    hSame.lookup_text rfl
  have hEntrypoint :
      others.lookup "entrypoint" =
        (some settings.entrypoint).map .text :=
    hSame.lookup_text rfl
  have hDevice :
      others.lookup "device_setup" =
        some (.boolean settings.deviceSetup) :=
    hSame.lookup_boolean rfl
  have hStrict :
      others.lookup "strict_models" =
        some (.boolean settings.strictModels) :=
    hSame.lookup_boolean rfl
  rcases
      @Value.Same.lookup_of_some _ _ "imports" _ hSame rfl with
    ⟨imports, hImports, hSameImports⟩
  rcases Requirements.exists_ofToml_of_same hSameImports with
    ⟨loaded, hLoaded, hDefaults, hForTags⟩
  refine ⟨{ settings with imports := loaded }, ?_,
    ⟨rfl, rfl, rfl, rfl, hDefaults, hForTags⟩⟩
  simp [ofToml?, fillMembers?, tomlFields, Field.place,
    Value.text?, Value.boolean?, hIndent, hEntrypoint, hDevice,
    hStrict, hImports, hLoaded, ofDraft]

/- Settings are decoded from what was printed of them. -/
theorem exists_decodeToml_of_print
    [Codec]
    (hCodec : Codec.IsFaithful)
    {settings : Settings}
    {text : String}
    (hPrint : Codec.print settings.toToml = .ok text) :
    ∃ loaded,
      decodeToml? text = some loaded ∧
        settings.IsReloaded loaded := by
  rcases hCodec.parses (settings.isPlain_toToml 74) hPrint with
    ⟨others, hParse, hSame⟩
  rcases exists_ofToml_of_same hSame with
    ⟨loaded, hLoaded, hReloaded⟩
  refine ⟨loaded, ?_, hReloaded⟩
  rw [decodeToml?, hParse, Option.bind_some, hLoaded]

end Settings

end PipelineScript
