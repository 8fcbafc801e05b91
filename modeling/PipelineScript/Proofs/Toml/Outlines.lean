import PipelineScript.Proofs.Pairing
import PipelineScript.Proofs.Toml.Faithful
import PipelineScript.Proofs.Toml.Filling
import PipelineScript.Toml.Standard

/-
  Every table that has an outline is read back from its lines:
  first the values of their own lines, then the tables and the
  lists of tables, each of them in the order it had.

  Key definitions include:
    * `Toml.Holds`
    * `Toml.shownMembers`
    * `Toml.Part.IsWithin`
    * `Toml.IsFilled`

  Key theorems include:
    * `Toml.Holds.same`
    * `Toml.isWithin_of_partsWithin`
    * `Toml.underAll_members`
    * `Toml.isFilled`
    * `Toml.exists_members_of_ofMembers`
    * `Toml.standard_isFaithful`
-/

namespace PipelineScript

namespace Toml

------------------------------------------------------------
-- Entries of Their Own
------------------------------------------------------------

/- A content is made of the value that it is. -/
theorem Content.value_of_ofValue
    {value : Value}
    {content : Content}
    (hContent : Content.ofValue? value = some content) :
    content.value = value := by
  unfold Content.ofValue? at hContent
  split at hContent
  · rw [← Option.some.inj hContent]
    rfl
  · rw [← Option.some.inj hContent]
    rfl
  · rw [← Option.some.inj hContent]
    rfl
  · cases hContent

/- An entry is made of the member that it is. -/
theorem Keyed.member_of_ofMember
    {member : String × Value}
    {entry : Keyed}
    (hEntry : Keyed.ofMember? member = some entry) :
    entry.member = member := by
  rcases Option.map_eq_some_iff.mp hEntry with
    ⟨content, hContent, rfl⟩
  rcases member with ⟨key, value⟩
  simp only [Keyed.member, Content.value_of_ofValue hContent]

/- The keys of branches and members are those of entries. -/
theorem keys_branches (entries : List Keyed) :
    Entries.keys (entries.map Keyed.branch) =
      Entries.keys (entries.map Keyed.member) := by
  rw [Entries.keys, Entries.keys, List.map_map, List.map_map]
  rfl

/- Members that are all entries are those of the entries. -/
theorem members_of_mapM_ofMember
    {members : List (String × Value)}
    {entries : List Keyed}
    (hEntries : members.mapM Keyed.ofMember? = some entries) :
    entries.map Keyed.member = members := by
  rw [Pairing.mapM_eq_some_iff] at hEntries
  have hSame :
      List.Forall₂ (fun entry member => entry.member = member)
        entries members :=
    hEntries.flip.imp fun _ _ => Keyed.member_of_ofMember
  rw [List.forall₂_map_left_iff.symm, List.forall₂_eq_eq_eq]
    at hSame
  exact hSame

/- No key of an entry is there twice if none of a member is. -/
theorem keys_ownEntries_sublist
    (members : List (String × Value)) :
    ((ownEntries members).map Keyed.key).Sublist
      (Entries.keys members) := by
  induction members with
  | nil => exact List.Sublist.refl _
  | cons member members ih =>
      cases hOwn : Keyed.ofMember? member with
      | none =>
          rw [ownEntries, List.filterMap_cons_none hOwn]
          exact ih.cons _
      | some entry =>
          rw [ownEntries, List.filterMap_cons_some hOwn,
            ← Keyed.member_of_ofMember hOwn]
          exact ih.cons_cons _

------------------------------------------------------------
-- What Branches Hold
------------------------------------------------------------

/-
  Branches show the members that have no lines of their own,
  each in its place.
-/
inductive Holds : List (String × Value) → Branches → Prop
  | nil : Holds [] []
  | own
      {member : String × Value}
      {entry : Keyed}
      {members : List (String × Value)}
      {made : Branches}
      (hOwn : Keyed.ofMember? member = some entry)
      (hRest : Holds members made) :
      Holds (member :: members) made
  | nested
      {key : String}
      {value : Value}
      {tree : Tree}
      {members : List (String × Value)}
      {made : Branches}
      (hNested : Content.ofValue? value = none)
      (hSame : value.Same tree.value)
      (hRest : Holds members made) :
      Holds ((key, value) :: members) ((key, tree) :: made)

/- The members that own lines and branches make together. -/
def shownMembers
    (members : List (String × Value))
    (made : Branches) : List (String × Value) :=
  (ownEntries members).map Keyed.member ++ membersOf made

variable {members : List (String × Value)} {made : Branches}

/- They have the keys of the members, in another order. -/
theorem Holds.keys_perm
    (hHolds : Holds members made) :
    (Entries.keys members).Perm
      (Entries.keys (shownMembers members made)) := by
  induction hHolds with
  | nil => exact List.Perm.refl _
  | @own member entry members made hOwn _ ih =>
      rw [shownMembers, ownEntries, List.filterMap_cons_some hOwn,
        List.map_cons, Keyed.member_of_ofMember hOwn]
      exact ih.cons _
  | @nested key value tree members made hNested _ _ ih =>
      have hNone : Keyed.ofMember? (key, value) = none := by
        rw [Keyed.ofMember?, hNested]
        rfl
      rw [shownMembers, ownEntries,
        List.filterMap_cons_none hNone, membersOf,
        Entries.keys, Entries.keys, List.map_append,
        List.map_cons, List.map_cons]
      refine (ih.cons key).trans ?_
      rw [shownMembers, Entries.keys, List.map_append]
      exact List.perm_middle.symm

/- Under every key, they have what says the same. -/
theorem Holds.exists_same
    {levels : Nat}
    (hHolds : Holds members made)
    (hPlain : ∀ member ∈ members, member.2.IsPlain levels) :
    ∀ member ∈ members,
      ∃ other,
        (member.1, other) ∈ shownMembers members made ∧
          member.2.Same other := by
  induction hHolds with
  | nil => exact List.forall_mem_nil _
  | @own first entry members made hOwn _ ih =>
      rw [List.forall_mem_cons] at hPlain ⊢
      rw [shownMembers, ownEntries, List.filterMap_cons_some hOwn,
        List.map_cons, Keyed.member_of_ofMember hOwn]
      constructor
      · exact ⟨first.2, List.mem_cons_self,
          hPlain.1.same_self⟩
      · intro member hMember
        rcases ih hPlain.2 member hMember with
          ⟨other, hOther, hSame⟩
        exact ⟨other, List.mem_cons_of_mem _ hOther, hSame⟩
  | @nested key value tree members made hNested hSame _ ih =>
      have hNone : Keyed.ofMember? (key, value) = none := by
        rw [Keyed.ofMember?, hNested]
        rfl
      rw [List.forall_mem_cons] at hPlain ⊢
      rw [shownMembers, ownEntries,
        List.filterMap_cons_none hNone, membersOf]
      constructor
      · exact ⟨tree.value,
          List.mem_append_right _ List.mem_cons_self, hSame⟩
      · intro member hMember
        rcases ih hPlain.2 member hMember with
          ⟨other, hOther, hSame⟩
        refine ⟨other, ?_, hSame⟩
        rcases List.mem_append.mp hOther with hOwn | hMade
        · exact List.mem_append_left _ hOwn
        · exact List.mem_append_right _
            (List.mem_cons_of_mem _ hMade)

/- Own lines and branches make a table that says the same. -/
theorem Holds.same
    {levels : Nat}
    (hHolds : Holds members made)
    (hPlain : (Value.table members).IsPlain levels) :
    (Value.table members).Same
      (.table (shownMembers members made)) := by
  cases hPlain with
  | table hDistinct hMembers =>
      have hKeys := hHolds.keys_perm
      have hNodup := hKeys.nodup_iff.mp hDistinct
      refine .table hNodup hKeys ?_
      intro key value other hValue hOther
      rcases hHolds.exists_same hMembers _ hValue with
        ⟨found, hFound, hSame⟩
      rw [← Entries.lookup_eq_some_iff_mem hNodup]
        at hOther hFound
      rw [hOther, Option.some.injEq] at hFound
      rw [hFound]
      exact hSame

------------------------------------------------------------
-- Paths
------------------------------------------------------------

/- The path of a part has at most so many keys, and some. -/
def Part.IsWithin (levels : Nat) (part : Part) : Prop :=
  part.header.path ≠ [] ∧ part.header.path.length ≤ levels

variable {levels : Nat} {key : String} {value : Value}
variable {parts : List Part}

/- One key is a path. -/
theorem Part.isWithin_succ
    (levels : Nat)
    (opensItem : Bool)
    (key : String)
    (entries : List Keyed) :
    Part.IsWithin (levels + 1) ⟨⟨opensItem, [key]⟩, entries⟩ :=
  ⟨List.cons_ne_nil _ _, Nat.le_add_left 1 levels⟩

/- The part of an item has its key as the path. -/
theorem Part.isWithin_of_itemPart
    {item : Value}
    {part : Part}
    (hPart : itemPart? key item = some part) :
    part.IsWithin (levels + 1) := by
  unfold itemPart? at hPart
  split at hPart
  · rcases Option.map_eq_some_iff.mp hPart with
      ⟨entries, -, rfl⟩
    exact Part.isWithin_succ _ _ _ _
  · cases hPart

/- The parts of a member have one key more. -/
theorem isWithin_of_partsUnder
    (hInner :
      ∀ members parts, partsWithin? levels members = some parts →
        ∀ part ∈ parts, part.IsWithin levels)
    (hParts :
      partsUnder? (partsWithin? levels) key value =
        some parts) :
    ∀ part ∈ parts, part.IsWithin (levels + 1) := by
  cases value with
  | table members =>
      rcases Option.map_eq_some_iff.mp hParts with
        ⟨inner, hFound, rfl⟩
      rw [tableParts, List.forall_mem_append]
      constructor
      · split
        · exact List.forall_mem_nil _
        · rw [List.forall_mem_singleton]
          exact Part.isWithin_succ _ _ _ _
      · rw [List.forall_mem_map]
        intro part hPart
        exact ⟨List.cons_ne_nil _ _,
          Nat.succ_le_succ (hInner _ _ hFound part hPart).2⟩
  | array items =>
      intro part hPart
      rcases
          Pairing.exists_left
            (Pairing.mapM_eq_some_iff.mp hParts) hPart with
        ⟨item, -, hItem⟩
      exact Part.isWithin_of_itemPart hItem
  | text | boolean | integer | binary | moment => cases hParts

/- The parts of members with so many levels are within them. -/
theorem isWithin_of_partsWithin
    (hParts : partsWithin? levels members = some parts) :
    ∀ part ∈ parts, part.IsWithin levels := by
  induction levels generalizing members parts with
  | zero => cases hParts
  | succ levels ih =>
      rcases Option.map_eq_some_iff.mp hParts with
        ⟨lists, hLists, rfl⟩
      intro part hPart
      rcases List.mem_flatten.mp hPart with
        ⟨list, hList, hPart⟩
      rcases
          Pairing.exists_left
            (Pairing.mapM_eq_some_iff.mp hLists) hList with
        ⟨member, -, hMember⟩
      unfold partsOf? at hMember
      split at hMember
      · rw [← Option.some.inj hMember] at hPart
        exact absurd hPart List.not_mem_nil
      · exact isWithin_of_partsUnder
          (fun _ _ hInner => ih hInner) hMember part hPart

------------------------------------------------------------
-- Sections
------------------------------------------------------------

/-
  The sections of a table within so many levels, read behind
  its own lines, make branches that hold the rest of it.
-/
def IsFilled (levels : Nat) : Prop :=
  ∀ {members : List (String × Value)} {parts : List Part}
      {depth : Nat},
    partsWithin? levels members = some parts →
      (Value.table members).IsPlain depth →
        ∃ made,
          Holds members made ∧
            underAll (parts.map Part.toSection)
                ((ownEntries members).map Keyed.branch) =
              some ((ownEntries members).map Keyed.branch ++ made)

/- Own lines and branches become what they make together. -/
theorem membersOf_shown
    (members : List (String × Value))
    (made : Branches) :
    membersOf ((ownEntries members).map Keyed.branch ++ made) =
      shownMembers members made := by
  rw [membersOf_append, membersOf_entries, shownMembers]

/- A part with one more key is a section with one more key. -/
theorem toSection_inside
    (key : String)
    (parts : List Part) :
    (parts.map (Part.inside key)).map Part.toSection =
      (parts.map Part.toSection).map (inside key) := by
  rw [List.map_map, List.map_map]
  rfl

variable {depth : Nat} {before : Branches}

/- A table under a new key, with or without a header. -/
theorem underAll_tableParts
    {inner : List Part}
    (hFilled : IsFilled levels)
    (hInner : partsWithin? levels members = some inner)
    (hPlain : (Value.table members).IsPlain depth)
    (hNew : key ∉ Entries.keys before) :
    ∃ tree,
      (Value.table members).Same tree.value ∧
        underAll
            ((tableParts key members inner).map Part.toSection)
            before =
          some (before ++ [(key, tree)]) := by
  rcases hFilled hInner hPlain with ⟨made, hHolds, hUnder⟩
  have hSame := hHolds.same hPlain
  rw [← membersOf_shown] at hSame
  have hPaths :
      ∀ part ∈ inner.map Part.toSection,
        part.header.path ≠ [] := by
    rw [List.forall_mem_map]
    exact fun part hPart =>
      (isWithin_of_partsWithin hInner part hPart).1
  rw [tableParts, List.map_append, toSection_inside]
  split
  · next hBare =>
      -- The first of the sections makes the table in passing.
      rw [Bool.and_eq_true, List.isEmpty_iff] at hBare
      rw [hBare.1] at hUnder
      refine ⟨.table .passed _, hSame,
        underAll_inside_new hNew ?_ hPaths ?_⟩
      · simpa using hBare.2
      · rw [hBare.1]
        exact hUnder
  · cases hPlain with
    | table hDistinct hMembers =>
        have hKeys :=
          hDistinct.sublist (keys_ownEntries_sublist members)
        exact ⟨.table .opened _, hSame,
          underAll_append (underAll_tablePart hNew hKeys)
            (underAll_inside hNew hPaths hUnder)⟩

/- The parts of items are those of lists of entries. -/
theorem exists_entries_of_itemParts
    {items : List Value}
    (hParts : items.mapM (itemPart? key) = some parts) :
    ∃ lists : List (List Keyed),
      parts.map Part.toSection = lists.map (itemPart key) ∧
        items =
          lists.map fun entries =>
            .table (entries.map Keyed.member) := by
  rw [Pairing.mapM_eq_some_iff] at hParts
  refine ⟨parts.map Part.entries, ?_, ?_⟩
  · rw [List.map_map]
    apply List.map_congr_left
    intro part hPart
    rcases Pairing.exists_left hParts hPart with
      ⟨item, -, hItem⟩
    unfold itemPart? at hItem
    split at hItem
    · rcases Option.map_eq_some_iff.mp hItem with
        ⟨entries, -, rfl⟩
      rfl
    · cases hItem
  · rw [List.map_map, ← List.forall₂_eq_eq_eq,
      List.forall₂_map_right_iff]
    refine hParts.imp ?_
    intro item part hItem
    unfold itemPart? at hItem
    split at hItem
    · rcases Option.map_eq_some_iff.mp hItem with
        ⟨entries, hEntries, rfl⟩
      rw [Function.comp_apply,
        members_of_mapM_ofMember hEntries]
    · cases hItem

/- A list of tables under a new key. -/
theorem underAll_arrayParts
    {items : List Value}
    (hSome : items ≠ [])
    (hParts : items.mapM (itemPart? key) = some parts)
    (hPlain : (Value.array items).IsPlain depth)
    (hNew : key ∉ Entries.keys before) :
    ∃ tree,
      (Value.array items).Same tree.value ∧
        underAll (parts.map Part.toSection) before =
          some (before ++ [(key, tree)]) := by
  have hSame := hPlain.same_self
  rcases exists_entries_of_itemParts hParts with
    ⟨lists, hSections, hItems⟩
  have hLists : lists ≠ [] := by
    rintro rfl
    exact hSome hItems
  have hKeys :
      ∀ entries ∈ lists, (entries.map Keyed.key).Nodup := by
    intro entries hEntries
    cases hPlain with
    | array hEach =>
        rw [hItems, List.forall_mem_map] at hEach
        cases hEach entries hEntries with
        | table hDistinct _ =>
            rw [Entries.keys, List.map_map] at hDistinct
            exact hDistinct
  refine ⟨.list (lists.map (List.map Keyed.branch)), ?_, ?_⟩
  · rw [Tree.value, tablesOf_items, ← hItems]
    exact hSame
  · rw [hSections]
    exact underAll_itemParts hNew hLists hKeys

/- A member that has no line of its own, under a new key. -/
theorem underAll_partsUnder
    (hFilled : IsFilled levels)
    (hNested : Content.ofValue? value = none)
    (hParts :
      partsUnder? (partsWithin? levels) key value = some parts)
    (hPlain : value.IsPlain depth)
    (hNew : key ∉ Entries.keys before) :
    ∃ tree,
      value.Same tree.value ∧
        underAll (parts.map Part.toSection) before =
          some (before ++ [(key, tree)]) := by
  cases value with
  | table members =>
      rcases Option.map_eq_some_iff.mp hParts with
        ⟨inner, hInner, rfl⟩
      exact underAll_tableParts hFilled hInner hPlain hNew
  | array items =>
      have hSome : items ≠ [] := by
        rintro rfl
        cases hNested
      exact underAll_arrayParts hSome hParts hPlain hNew
  | text | boolean | integer | binary | moment => cases hParts

/- Members that are new stay new behind one with another key. -/
theorem new_behind
    {tree : Tree}
    (hOther : key ∉ Entries.keys members)
    (hNew :
      ∀ member ∈ members, Keyed.ofMember? member = none →
        member.1 ∉ Entries.keys before) :
    ∀ member ∈ members, Keyed.ofMember? member = none →
      member.1 ∉ Entries.keys (before ++ [(key, tree)]) := by
  intro member hMember hNone hFound
  rw [Entries.keys, List.map_append, List.mem_append,
    List.map_singleton, List.mem_singleton] at hFound
  rcases hFound with hBefore | hSame
  · exact hNew member hMember hNone hBefore
  · have hKey : member.1 = key := hSame
    rw [← hKey] at hOther
    exact hOther (List.mem_map_of_mem hMember)

/-
  The sections of members come behind each other. Where they
  begin, no member without a line of its own is there yet.
-/
theorem underAll_members
    {lists : List (List Part)}
    (hFilled : IsFilled levels)
    (hLists :
      List.Forall₂
        (fun member parts =>
          partsOf? (partsWithin? levels) member = some parts)
        members lists)
    (hDistinct : (Entries.keys members).Nodup)
    (hPlain : ∀ member ∈ members, member.2.IsPlain depth)
    (hNew :
      ∀ member ∈ members, Keyed.ofMember? member = none →
        member.1 ∉ Entries.keys before) :
    ∃ made,
      Holds members made ∧
        underAll (lists.flatten.map Part.toSection) before =
          some (before ++ made) := by
  induction hLists generalizing before with
  | nil =>
      refine ⟨[], .nil, ?_⟩
      rw [List.append_nil]
      rfl
  | @cons member parts members lists hParts _ ih =>
      rw [List.forall_mem_cons] at hPlain hNew
      rw [Entries.keys, List.map_cons, List.nodup_cons]
        at hDistinct
      rw [List.flatten_cons, List.map_append]
      rcases member with ⟨key, value⟩
      unfold partsOf? at hParts
      split at hParts
      · next content hContent =>
          have hOwn :
              Keyed.ofMember? (key, value) =
                some ⟨key, content⟩ := by
            rw [Keyed.ofMember?, hContent]
            rfl
          rcases ih hDistinct.2 hPlain.2 hNew.2 with
            ⟨made, hHolds, hUnder⟩
          rw [← Option.some.inj hParts]
          exact ⟨made, .own hOwn hHolds, hUnder⟩
      · next hNested =>
          have hNone : Keyed.ofMember? (key, value) = none := by
            rw [Keyed.ofMember?, hNested]
            rfl
          rcases
              underAll_partsUnder hFilled hNested hParts
                hPlain.1 (hNew.1 hNone) with
            ⟨tree, hSame, hFirst⟩
          rcases ih hDistinct.2 hPlain.2
              (new_behind hDistinct.1 hNew.2) with
            ⟨made, hHolds, hUnder⟩
          refine ⟨(key, tree) :: made,
            .nested hNested hSame hHolds, ?_⟩
          rw [List.append_cons]
          exact underAll_append hFirst hUnder

/- A member without a line of its own is none of the entries. -/
theorem key_not_mem_ownEntries
    (hDistinct : (Entries.keys members).Nodup)
    {member : String × Value}
    (hMember : member ∈ members)
    (hNone : Keyed.ofMember? member = none) :
    member.1 ∉
      Entries.keys ((ownEntries members).map Keyed.branch) := by
  intro hKey
  rw [keys_branches, Entries.keys, List.map_map] at hKey
  rcases List.mem_map.mp hKey with ⟨entry, hEntry, hSame⟩
  rcases List.mem_filterMap.mp hEntry with
    ⟨other, hOther, hOwn⟩
  have hFirst :=
    (Entries.lookup_eq_some_iff_mem hDistinct).mpr hMember
  rw [← Keyed.member_of_ofMember hOwn] at hOther
  have hSecond :=
    (Entries.lookup_eq_some_iff_mem hDistinct).mpr hOther
  change entry.key = member.1 at hSame
  rw [hSame, hFirst, Option.some.injEq] at hSecond
  rw [← Keyed.member_of_ofMember hOwn, Keyed.member, hSame,
    ← hSecond] at hOwn
  rw [hNone] at hOwn
  cases hOwn

/- The sections within any levels fill their table. -/
theorem isFilled (levels : Nat) : IsFilled levels := by
  induction levels with
  | zero =>
      intro members parts depth hParts
      cases hParts
  | succ levels ih =>
      intro members parts depth hParts hPlain
      rcases Option.map_eq_some_iff.mp hParts with
        ⟨lists, hLists, rfl⟩
      cases hPlain with
      | table hDistinct hMembers =>
          exact underAll_members ih
            (Pairing.mapM_eq_some_iff.mp hLists) hDistinct
            hMembers fun member hMember hNone =>
              key_not_mem_ownEntries hDistinct hMember hNone

------------------------------------------------------------
-- Documents
------------------------------------------------------------

/- The document of an outline says what the table says. -/
theorem exists_members_of_ofMembers
    {outline : Outline}
    (hOutline : Outline.ofMembers? members = some outline)
    (hPlain : (Value.table members).IsPlain depth) :
    ∃ others,
      outline.document.members? = some others ∧
        (Value.table members).Same (.table others) := by
  rcases Option.map_eq_some_iff.mp hOutline with
    ⟨parts, hParts, rfl⟩
  rcases isFilled _ hParts hPlain with ⟨made, hHolds, hUnder⟩
  refine ⟨_, ?_, hHolds.same hPlain⟩
  cases hPlain with
  | table hDistinct _ =>
      have hOwn :
          assignAll
              ((ownEntries members).map Keyed.assignment) [] =
            some ((ownEntries members).map Keyed.branch) :=
        assignAll_entries
          (hDistinct.sublist (keys_ownEntries_sublist members))
      rw [Document.members?, Outline.document]
      dsimp only
      rw [hOwn]
      dsimp only
      rw [hUnder, Option.map_some, membersOf_shown]

/- What is printed is read back. -/
theorem standard_isFaithful :
    Codec.IsFaithful where
  parses := by
    intro members text hPlain hPrint
    change print members = .ok text at hPrint
    unfold print at hPrint
    split at hPrint
    · next outline hOutline =>
        rw [← Except.ok.inj hPrint]
        rcases exists_members_of_ofMembers hOutline hPlain with
          ⟨others, hOthers, hSame⟩
        refine ⟨others, ?_, hSame⟩
        have hHeaders :
            ∀ part ∈ outline.parts, part.header.IsWritable := by
          rcases Option.map_eq_some_iff.mp hOutline with
            ⟨parts, hParts, rfl⟩
          intro part hPart
          have hWithin :=
            isWithin_of_partsWithin hParts part hPart
          exact ⟨hWithin.1, Nat.lt_succ_of_le hWithin.2⟩
        change
          (Document.parse? (Text.unlines outline.lines)).bind _ =
            _
        rw [parse_unlines hHeaders]
        exact hOthers
    · cases hPrint

end Toml

end PipelineScript
