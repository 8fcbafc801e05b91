import PipelineScript.Proofs.Json.Faithful
import PipelineScript.Proofs.Json.Reading
import PipelineScript.Settings.Settings

/-
  Settings go through their JSON texts unchanged: no part of
  them is left out that would be standard when it is missing.

  Key theorems include:
    * `Directive.record_reads`
    * `Requirements.record_reads`
    * `Settings.record_reads`
    * `Settings.exists_decodeJson_print`
-/

namespace PipelineScript

open Json
open Json.Reader

variable {ω : Type}

------------------------------------------------------------
-- Reading
------------------------------------------------------------

/- A request is read back without the parts it has not. -/
theorem Directive.record_reads
    (directive : Directive)
    (depth : Nat) :
    ((record : Record ω Draft Directive).reader
        (depth + 1)).Reads directive.toJson directive := by
  have hPath :
      Fills
        ((record : Record ω Draft Directive).fillMember depth)
        ⟨none, none, none⟩
        [("module", .text directive.path)]
        ⟨some directive.path, none, none⟩ :=
    .cons
      (Record.fillMember_reads rfl rfl
        ((text_reads directive.path).map _))
      (.nil _)
  have hAlias :
      Fills
        ((record : Record ω Draft Directive).fillMember depth)
        ⟨some directive.path, none, none⟩
        (Record.optionalMember "alias" directive.otherName)
        ⟨some directive.path, directive.otherName.map some,
          none⟩ :=
    Record.optional_fills rfl rfl
      (by cases directive.otherName <;> rfl)
  have hMember :
      Fills
        ((record : Record ω Draft Directive).fillMember depth)
        ⟨some directive.path, directive.otherName.map some,
          none⟩
        (Record.optionalMember "specifier" directive.member)
        ⟨some directive.path, directive.otherName.map some,
          directive.member.map some⟩ :=
    Record.optional_fills rfl rfl
      (by cases directive.member <;> rfl)
  apply Record.reader_reads ((hPath.append hAlias).append hMember)
  rcases directive with ⟨path, _ | otherName, _ | member⟩
  all_goals rfl

/- Requirements are read back, with every empty list. -/
theorem Requirements.record_reads
    (requirements : Requirements)
    (depth : Nat) :
    ((record : Record ω Draft Requirements).reader
        (depth + 4)).Reads requirements.toJson
      requirements := by
  have hDefaults :
      (Reader.list Directive.record.reader (depth + 3) :
          Reader ω _).Reads
        (.array (requirements.defaults.map Directive.toJson))
        requirements.defaults :=
    list_reads Directive.record.reader Directive.toJson
      fun directive _ => directive.record_reads (depth + 1)
  have hForTags :=
    table_reads id id (fun _ => rfl)
      (Reader.list
        (Directive.record : Record ω _ Directive).reader)
      (fun directives =>
        .array (directives.map Directive.toJson))
      requirements.forTags
      fun directives _ =>
        list_reads Directive.record.reader Directive.toJson
          fun directive _ => directive.record_reads depth
  have hFills :
      Fills
        ((record : Record ω Draft Requirements).fillMember
          (depth + 3))
        ⟨none, none⟩
        [("defaults", .array (requirements.defaults.map
            Directive.toJson)),
          ("node_types", .object
            (requirements.forTags.entries.map fun entry =>
              (entry.1, .array (entry.2.map
                Directive.toJson))))]
        ⟨some requirements.defaults,
          some requirements.forTags⟩ :=
    .cons (Record.fillMember_reads rfl rfl (hDefaults.map _))
      (.cons (Record.fillMember_reads rfl rfl (hForTags.map _))
        (.nil _))
  exact Record.reader_reads hFills rfl

namespace Settings

/- Settings are read back. -/
theorem record_reads (settings : Settings) :
    ((record : Record ω Draft Settings).reader
        greatestDepth).Reads settings.toJson settings := by
  have hFills :
      Fills
        ((record : Record ω Draft Settings).fillMember 126)
        ⟨none, none, none, none, none⟩
        [("indent", .text settings.indent),
          ("entrypoint", .text settings.entrypoint),
          ("device_setup", .boolean settings.deviceSetup),
          ("strict_models", .boolean settings.strictModels),
          ("imports", settings.imports.toJson)]
        ⟨some settings.indent, some settings.entrypoint,
          some settings.deviceSetup, some settings.strictModels,
          some settings.imports⟩ :=
    .cons
      (Record.fillMember_reads rfl rfl
        ((text_reads settings.indent).map _))
      (.cons
        (Record.fillMember_reads rfl rfl
          ((text_reads settings.entrypoint).map _))
        (.cons
          (Record.fillMember_reads rfl rfl
            ((boolean_reads settings.deviceSetup).map _))
          (.cons
            (Record.fillMember_reads rfl rfl
              ((boolean_reads settings.strictModels).map _))
            (.cons
              (Record.fillMember_reads rfl rfl
                ((settings.imports.record_reads 122).map _))
              (.nil _)))))
  exact Record.reader_reads hFills rfl

------------------------------------------------------------
-- Printing and Decoding
------------------------------------------------------------

/- There are no binary numbers in requests. -/
theorem itemBinaries_directives (directives : List Directive) :
    Value.itemBinaries (directives.map Directive.toJson) =
      [] := by
  induction directives with
  | nil => rfl
  | cons directive directives ih =>
      rcases directive with ⟨path, _ | otherName, _ | member⟩
      all_goals
        rw [List.map_cons, Value.itemBinaries, ih]
        rfl

/- Nor are there any in settings. -/
theorem binaries_toJson (settings : Settings) :
    settings.toJson.binaries = [] := by
  have hTags :
      Value.memberBinaries
          (settings.imports.forTags.entries.map fun entry =>
            (entry.1, .array (entry.2.map
              Directive.toJson))) = [] := by
    induction settings.imports.forTags.entries with
    | nil => rfl
    | cons entry entries ih =>
        rw [List.map_cons, Value.memberBinaries,
          Value.binaries, itemBinaries_directives, ih]
        rfl
  simp [toJson, Requirements.toJson, Value.binaries,
    Value.memberBinaries, itemBinaries_directives, hTags]

/- Settings are printed, and decoded from what is printed. -/
theorem exists_decodeJson_print
    [Codec]
    (hCodec : Codec.IsFaithful)
    (settings : Settings) :
    ∃ printed,
      Codec.print settings.toJson = .ok printed ∧
        decodeJson printed = .done settings := by
  have hNone : ∀ x ∈ settings.toJson.binaries, Codec.Keeps x := by
    rw [binaries_toJson]
    exact List.forall_mem_nil _
  rcases hCodec.stores hNone with ⟨printed, hPrint, hParse⟩
  exact ⟨printed, hPrint,
    decode_of_reads hParse settings.record_reads⟩

end Settings

end PipelineScript
