import PipelineScript.Description.Description
import PipelineScript.Proofs.Json.Parsing
import PipelineScript.Proofs.Json.Yielding
import PipelineScript.Script.Compiler

/-
  Descriptions go through their texts unchanged: what was
  decoded once is printed as a text that is decoded as the
  same description, without events.

  Only the options of nodes can be too deep to be read back.
  Those that were read are not, whatever form the text had.
  What the library does with the binary numbers in them is left
  to the library.

  Key definitions include:
    * `Description.IsStorable`

  Key theorems include:
    * `Description.isStorable_of_decode`
    * `Description.record_reads`
    * `Description.decode_print_of_decode`
-/

namespace PipelineScript

open Json
open Json.Reader

variable {depth : Nat}

------------------------------------------------------------
-- Nodes
------------------------------------------------------------

namespace NodeRecord

/- A node is read back if its options fit. -/
theorem record_reads
    {node : NodeRecord}
    (hFits : node.options.toJson.Fits depth) :
    (record.reader (depth + 1)).Reads node.toJson node := by
  have hKind :
      (Reader.text.map NodeKind.ofTag :
        Reader Event NodeKind).Reads
          (.text node.kind.tag) node.kind := by
    have hTag :=
      (text_reads (ω := Event) node.kind.tag).map NodeKind.ofTag
    rw [NodeKind.ofTag_tag] at hTag
    exact hTag
  have hOptions :
      ((Reader.value depth).noting Options.remarks |>.map
        Options.ofValue).Reads node.options.toJson
          node.options :=
    ((value_reads hFits).noting rfl).map Options.ofValue
  have hFills :
      Fills (record.fillMember depth) record.empty
        [("type", .text node.kind.tag),
          ("data", node.options.toJson)]
        ⟨some node.kind, some node.options⟩ :=
    .cons (Record.fillMember_reads rfl rfl (hKind.map _))
      (.cons
        (Record.fillMember_reads rfl rfl (hOptions.map _))
        (.nil _))
  exact Record.reader_reads hFills rfl

/- Options that were made of a value fit if the value does. -/
theorem fits_ofValue
    {value : Value}
    (hFits : value.Fits (depth + 1)) :
    (Options.ofValue value).toJson.Fits (depth + 1) := by
  have hNone : Options.empty.toJson.Fits (depth + 1) :=
    .object List.nodup_nil (by simp [Options.empty])
  cases value with
  | object members => exact hFits
  | null => exact hNone
  | boolean value => exact hNone
  | number value => exact hNone
  | text value => exact hNone
  | array items => exact hNone

/- The options of a node that was read fit. -/
theorem record_yields (depth : Nat) :
    (record.reader (depth + 2)).Yields fun node =>
      node.options.toJson.Fits (depth + 1) := by
  apply Record.reader_yields
    (I := fun draft =>
      ∀ options, draft.options = some options →
        options.toJson.Fits (depth + 1))
  · intro options hNone
    exact absurd hNone (by simp [record])
  · intro field hField
    simp only [record, List.mem_cons, List.not_mem_nil,
      or_false] at hField
    rcases hField with rfl | rfl
    · exact Yields.map yields_true fun kind _ draft hDraft =>
        hDraft
    · have hOptions :
          ((Reader.value (depth + 1)).noting Options.remarks
            |>.map Options.ofValue).Yields fun options =>
              options.toJson.Fits (depth + 1) :=
        (value_yields (depth + 1)).noting.map
          fun _ hFits => fits_ofValue hFits
      refine hOptions.map ?_
      intro options hFits draft _ found hFound
      rw [← Option.some.inj hFound]
      exact hFits
  · intro draft node hDraft hComplete
    simp only [record] at hComplete
    split at hComplete
    · simp at hComplete
    · rw [Except.ok.injEq] at hComplete
      rw [← hComplete]
      cases hOptions : draft.options with
      | none => exact fits_ofValue .null
      | some options => exact hDraft options hOptions

end NodeRecord

------------------------------------------------------------
-- Connections
------------------------------------------------------------

/- A connection is read back, its slots with it. -/
theorem Connection.record_reads
    (connection : Connection)
    (depth : Nat) :
    (record.reader (depth + 1)).Reads connection.toJson
      connection := by
  have hFills :
      Fills (record.fillMember depth) record.empty
        [("sourceNodeId", .text connection.source.text),
          ("sourcePortId", .text connection.sourceSlot.text),
          ("targetNodeId", .text connection.target.text),
          ("targetPortId", .text connection.targetSlot.text)]
        ⟨some connection.source, some connection.sourceSlot,
          some connection.target,
          some connection.targetSlot⟩ :=
    .cons
      (Record.fillMember_reads rfl rfl
        (((text_reads _).map NodeId.mk).map _))
      (.cons
        (Record.fillMember_reads rfl rfl
          (((text_reads _).map SlotId.mk).map _))
        (.cons
          (Record.fillMember_reads rfl rfl
            (((text_reads _).map NodeId.mk).map _))
          (.cons
            (Record.fillMember_reads rfl rfl
              (((text_reads _).map SlotId.mk).map _))
            (.nil _))))
  exact Record.reader_reads hFills rfl

------------------------------------------------------------
-- Descriptions
------------------------------------------------------------

namespace Description

/-
  The levels that are left for the options of a node: the
  description, its nodes and the node itself take three.
-/
def optionLevels : Nat :=
  124

/-
  The options of every node have few enough levels to be read
  back, and no key twice.
-/
def IsStorable (description : Description) : Prop :=
  ∀ node ∈ description.nodes.values,
    node.options.toJson.Fits optionLevels

/- A description without nodes can be stored. -/
theorem isStorable_of_values_eq_nil
    {description : Description}
    (hNone : description.nodes.values = []) :
    description.IsStorable := by
  intro node hNode
  rw [hNone] at hNode
  exact absurd hNode List.not_mem_nil

/- So can every description that was decoded. -/
theorem isStorable_of_decode
    [Codec]
    {text : String}
    {description : Description}
    (hDecode : (decode text).outcome = .ok description) :
    description.IsStorable := by
  refine of_decode ?_ hDecode
  apply Record.reader_yields
    (I := fun draft =>
      ∀ nodes, draft.nodes = some nodes →
        ∀ node ∈ nodes.values,
          node.options.toJson.Fits optionLevels)
  · intro nodes hNone
    exact absurd hNone (by simp [record])
  · intro field hField
    simp only [record, List.mem_cons, List.not_mem_nil,
      or_false] at hField
    rcases hField with rfl | rfl | rfl | rfl
    · exact Yields.map yields_true fun _ _ _ hDraft => hDraft
    · refine Yields.map
        (table_yields (NodeRecord.record_yields 123)) ?_
      intro nodes hFits draft _ found hFound
      rw [← Option.some.inj hFound]
      exact hFits
    · exact Yields.map yields_true fun _ _ _ hDraft => hDraft
    · exact Yields.map yields_true fun _ _ _ hDraft => hDraft
  · intro draft description hDraft hComplete
    simp only [record, Except.ok.injEq] at hComplete
    rw [← hComplete]
    cases hNodes : draft.nodes with
    | none => exact isStorable_of_values_eq_nil rfl
    | some nodes => exact hDraft nodes hNodes

/- Remarks fill their place if there are any. -/
theorem remarks_fill
    {draft : Draft}
    (hFree : draft.remarks = none)
    (remarks : List String) :
    Fills (record.fillMember (depth + 1)) draft
      (if remarks.isEmpty then
        []
      else
        [("descriptions", .array (remarks.map .text))])
      { draft with
        remarks :=
          if remarks.isEmpty then none else some remarks } := by
  split
  · rw [← hFree]
    exact .nil draft
  · have hReads :
        (Reader.list (fun _ => Reader.text) (depth + 1) :
            Reader Event (List String)).Reads
          (.array (remarks.map .text)) remarks :=
      list_reads (fun _ => Reader.text) .text
        fun remark _ => text_reads remark
    exact .cons
      (Record.fillMember_reads rfl
        (by simp [Field.place, hFree]) (hReads.map _))
      (.nil _)

/- Nodes and connections go to their own places. -/
theorem tables_fill
    {description : Description}
    {draft : Draft}
    (hStorable : description.IsStorable)
    (hNodes : draft.nodes = none)
    (hConnections : draft.connections = none) :
    Fills (record.fillMember 126) draft
      [("nodes", .object
          (description.nodes.entries.map fun entry =>
            (entry.1.text, entry.2.toJson))),
        ("connections", .object
          (description.connections.entries.map fun entry =>
            (entry.1.text, entry.2.toJson)))]
      { draft with
        nodes := some description.nodes
        connections := some description.connections } := by
  have hNodesRead :=
    table_reads NodeId.mk NodeId.text (fun _ => rfl)
      NodeRecord.record.reader NodeRecord.toJson
      description.nodes
      fun node hNode =>
        NodeRecord.record_reads (hStorable node hNode)
  have hConnectionsRead :=
    table_reads ConnectionId.mk ConnectionId.text
      (fun _ => rfl) Connection.record.reader
      Connection.toJson description.connections
      fun connection _ => connection.record_reads 124
  exact .cons
    (Record.fillMember_reads rfl
      (by simp [Field.place, hNodes]) (hNodesRead.map _))
    (.cons
      (Record.fillMember_reads rfl
        (by simp [Field.place, hConnections])
        (hConnectionsRead.map _))
      (.nil _))

/- A description that can be stored is read back. -/
theorem record_reads
    {description : Description}
    (hStorable : description.IsStorable) :
    (record.reader greatestDepth).Reads description.toJson
      description := by
  have hName :
      Fills (record.fillMember 126) record.empty
        (Record.optionalMember "pipelineId"
          description.pipelineId)
        ⟨description.pipelineId.map some, none, none, none⟩ :=
    Record.optional_fills rfl rfl
      (by cases description.pipelineId <;> rfl)
  have hFills :=
    (hName.append (tables_fill hStorable rfl rfl)).append
      (remarks_fill rfl description.remarks)
  apply Record.reader_reads hFills
  rcases description with ⟨id, nodes, connections, remarks⟩
  -- A place that was left free has the value that was left out.
  have hId : (id.map some).getD none = id := by
    cases id <;> rfl
  have hRemarks :
      (if remarks.isEmpty then none else some remarks).getD [] =
        remarks := by
    cases remarks <;> rfl
  simp only [record, hId, hRemarks, Option.getD_some]

------------------------------------------------------------
-- Printing and Decoding
------------------------------------------------------------

/-
  Whatever text a description was decoded from, it is decoded
  from the text it is printed as, if the library follows the
  format and keeps the binary numbers in the description. So
  printing it again changes nothing, and no compiler tells the
  two apart.
-/
theorem decode_print_of_decode
    [Codec]
    (hCodec : Codec.IsFaithful)
    {text : String}
    {description : Description}
    (hDecode : (decode text).outcome = .ok description)
    (hBinaries :
      ∀ x ∈ description.toJson.binaries, Codec.Keeps x) :
    ∃ printed, ∃ again : Description,
      Codec.print description.toJson = .ok printed ∧
        decode printed = .done again ∧
        again = description ∧
        Codec.print again.toJson = .ok printed ∧
        ∀ compiler : Compiler,
          compiler.compile again =
            compiler.compile description := by
  rcases hCodec.stores hBinaries with ⟨printed, hPrint, hParse⟩
  have hReads := record_reads (isStorable_of_decode hDecode)
  exact ⟨printed, description, hPrint,
    decode_of_reads hParse hReads, rfl, hPrint, fun _ => rfl⟩

/-
  A description as arrays, with options that have a key twice
  and numbers of both kinds.
-/
def arrayText : String :=
  "[null, \x7b\"a\": [\"ModelTraining\", \x7b\"k\": 7, "
    ++ "\"rate\": 0.5, \"k\": [null]\x7d]\x7d]"

/- It is written as objects and comes back from them. -/
theorem decode_print_of_arrayText :
    ∃ printed, ∃ description again : Description,
      (decode arrayText).outcome = .ok description ∧
        description.nodes.keys = [⟨"a"⟩] ∧
        Codec.print description.toJson = .ok printed ∧
        decode printed = .done again ∧
        again = description := by
  have hKeys :
      ((decode arrayText).outcome.toOption.map fun read =>
        read.nodes.keys) = some [⟨"a"⟩] := by
    decide +kernel
  have hBinaries :
      ((decode arrayText).outcome.toOption.map fun read =>
        read.toJson.binaries.all fun x =>
          readNumber (numberText (.binary x)) ==
            .ok (.binary x, [])) = some true := by
    decide +kernel
  cases hDecode : (decode arrayText).outcome with
  | error fault =>
      rw [hDecode] at hKeys
      simp [Except.toOption] at hKeys
  | ok description =>
      rw [hDecode] at hKeys hBinaries
      have hKeeps :
          ∀ x ∈ description.toJson.binaries, Codec.Keeps x := by
        intro x hMem
        have hAll :=
          List.all_eq_true.mp (Option.some.inj hBinaries) x hMem
        exact standard_keeps_iff.mpr (beq_iff_eq.mp hAll)
      rcases decode_print_of_decode standard_isFaithful hDecode
          hKeeps with
        ⟨printed, again, hPrint, hAgain, hSame, -⟩
      exact ⟨printed, description, again, rfl,
        Option.some.inj hKeys, hPrint, hAgain, hSame⟩

end Description

end PipelineScript
