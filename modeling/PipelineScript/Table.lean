/-
  Tables with distinct keys in the order of their first
  entry.

  Putting a value under a known key replaces it in place, and
  a new key goes to the end.

  Key definitions include:
    * `Entries.put`
    * `Table`
    * `Table.insert`
    * `Table.get?`
    * `Table.ofList`
-/

namespace PipelineScript

------------------------------------------------------------
-- Lists of Entries
------------------------------------------------------------

namespace Entries

variable {κ α : Type} [DecidableEq κ]

/- The keys of a list of entries. -/
def keys (entries : List (κ × α)) : List κ :=
  entries.map Prod.fst

/- Put a value under a key: in place, or else at the end. -/
def put
    (key : κ)
    (value : α) :
    List (κ × α) → List (κ × α)
  | [] => [(key, value)]
  | entry :: rest =>
      if entry.1 = key then
        (key, value) :: rest
      else
        entry :: put key value rest

/- The keys after a value was put under a key. -/
theorem keys_put
    (key : κ)
    (value : α)
    (entries : List (κ × α)) :
    keys (put key value entries) =
      if key ∈ keys entries then
        keys entries
      else
        keys entries ++ [key] := by
  induction entries with
  | nil => simp [put, keys]
  | cons entry rest ih =>
      by_cases h : entry.1 = key
      · simp [put, keys, h]
      · have hne : ¬ key = entry.1 := fun e => h e.symm
        simp only [put, h, if_false]
        simp only [keys, List.map_cons, List.mem_cons, hne,
          false_or, List.cons_append] at ih ⊢
        rw [ih]
        by_cases hMem : key ∈ List.map Prod.fst rest
        · simp only [hMem, if_true]
        · simp only [hMem, if_false]

/- Putting a value keeps the keys distinct. -/
theorem nodup_keys_put
    {key : κ}
    {value : α}
    {entries : List (κ × α)}
    (h : (keys entries).Nodup) :
    (keys (put key value entries)).Nodup := by
  rw [keys_put]
  split
  · exact h
  · next hNew =>
      rw [List.nodup_append]
      refine ⟨h, by simp, ?_⟩
      intro a ha b hb hab
      rw [List.mem_singleton] at hb
      exact hNew (hb ▸ hab ▸ ha)

/- An entry is new, or it was there, when a value was put. -/
theorem mem_of_mem_put
    {key : κ}
    {value : α}
    {entries : List (κ × α)}
    {entry : κ × α}
    (hMem : entry ∈ put key value entries) :
    entry = (key, value) ∨ entry ∈ entries := by
  induction entries with
  | nil => simpa [put] using hMem
  | cons first rest ih =>
      unfold put at hMem
      split at hMem
      · rcases List.mem_cons.mp hMem with hEntry | hEntry
        · exact Or.inl hEntry
        · exact Or.inr (List.mem_cons_of_mem first hEntry)
      · rcases List.mem_cons.mp hMem with rfl | hEntry
        · exact Or.inr List.mem_cons_self
        · exact (ih hEntry).imp_right
            (List.mem_cons_of_mem first)

/- What stands under a key after a value was put under one. -/
theorem lookup_put
    (key other : κ)
    (value : α)
    (entries : List (κ × α)) :
    (put key value entries).lookup other =
      if other = key then
        some value
      else
        entries.lookup other := by
  induction entries with
  | nil =>
      by_cases h : other = key
      · simp [put, h]
      · have hb : (other == key) = false := by simp [h]
        simp [put, List.lookup_cons, h, hb]
  | cons entry rest ih =>
      obtain ⟨k, v⟩ := entry
      by_cases hk : k = key
      · subst hk
        by_cases h : other = k
        · subst h
          simp [put]
        · have hb : (other == k) = false := by simp [h]
          simp [put, List.lookup_cons, h, hb]
      · by_cases ho : other = k
        · subst ho
          simp [put, hk]
        · have hb : (other == k) = false := by simp [ho]
          simp only [put, hk, if_false, List.lookup_cons, hb, ih]

/- Where keys are distinct, every entry is found by its key. -/
theorem lookup_eq_some_iff_mem
    {key : κ}
    {value : α}
    {entries : List (κ × α)}
    (hKeys : (keys entries).Nodup) :
    entries.lookup key = some value ↔
      (key, value) ∈ entries := by
  induction entries with
  | nil => simp
  | cons entry rest ih =>
      rcases entry with ⟨first, found⟩
      rw [keys, List.map_cons, List.nodup_cons] at hKeys
      by_cases hFirst : key = first
      · subst hFirst
        have hNew : (key, value) ∉ rest := fun hMem =>
          hKeys.1 (List.mem_map.mpr ⟨_, hMem, rfl⟩)
        simp [hNew, eq_comm]
      · have hTest : (key == first) = false := by
          simp [hFirst]
        simp [List.lookup_cons, hTest, hFirst, ih hKeys.2]

/- A value under a new key comes behind all others. -/
theorem put_of_not_mem
    {key : κ}
    (value : α)
    {entries : List (κ × α)}
    (hNew : key ∉ keys entries) :
    put key value entries = entries ++ [(key, value)] := by
  induction entries with
  | nil => rfl
  | cons entry rest ih =>
      simp only [keys, List.map_cons, List.mem_cons, not_or]
        at hNew
      have hOther : ¬ entry.1 = key := fun e => hNew.1 e.symm
      simp only [put, hOther, if_false, List.cons_append]
      rw [ih hNew.2]

/- A value under a known key takes the place of the old one. -/
theorem exists_put_of_mem
    {key : κ}
    (value : α)
    {entries : List (κ × α)}
    (hKnown : key ∈ keys entries) :
    ∃ before old after,
      entries = before ++ (key, old) :: after ∧
        put key value entries =
          before ++ (key, value) :: after := by
  induction entries with
  | nil => simp [keys] at hKnown
  | cons entry rest ih =>
      by_cases h : entry.1 = key
      · exact ⟨[], entry.2, rest, by simp [← h],
          by simp [put, h]⟩
      · simp only [keys, List.map_cons, List.mem_cons] at hKnown
        have hRest : key ∈ keys rest :=
          hKnown.resolve_left fun e => h e.symm
        rcases ih hRest with ⟨before, old, after, hEq, hPut⟩
        refine ⟨entry :: before, old, after, ?_, ?_⟩
        · rw [hEq, List.cons_append]
        · simp only [put, h, if_false, List.cons_append]
          rw [hPut]

end Entries

------------------------------------------------------------
-- Tables
------------------------------------------------------------

/- Entries whose keys are distinct. -/
structure Table (κ α : Type) where
  entries : List (κ × α)
  distinct : (Entries.keys entries).Nodup
deriving Repr

namespace Table

variable {κ α : Type}

/- Tables with the same entries in the same order are equal. -/
theorem ext_entries
    {s t : Table κ α}
    (h : s.entries = t.entries) :
    s = t := by
  cases s
  cases t
  simp_all

/- The table without entries. -/
def empty : Table κ α where
  entries := []
  distinct := by simp [Entries.keys]

instance : Inhabited (Table κ α) :=
  ⟨empty⟩

instance
    [DecidableEq κ]
    [DecidableEq α] : DecidableEq (Table κ α) :=
  fun s t =>
    if h : s.entries = t.entries then
      .isTrue (ext_entries h)
    else
      .isFalse fun e => h (e ▸ rfl)

/- The keys of a table. -/
def keys (t : Table κ α) : List κ :=
  Entries.keys t.entries

/- The values of a table. -/
def values (t : Table κ α) : List α :=
  t.entries.map Prod.snd

/- How many keys a table has. -/
def size (t : Table κ α) : Nat :=
  t.entries.length

/- A table has as many keys as entries. -/
theorem length_keys (t : Table κ α) :
    t.keys.length = t.size :=
  List.length_map Prod.fst

/- The table has no entry. -/
def isEmpty (t : Table κ α) : Bool :=
  t.entries.isEmpty

variable [DecidableEq κ]

/- The value under a key. -/
def get?
    (t : Table κ α)
    (key : κ) : Option α :=
  t.entries.lookup key

/- There is a value under the key. -/
def contains
    (t : Table κ α)
    (key : κ) : Bool :=
  (t.get? key).isSome

/- Put a value under a key: in place, or else at the end. -/
def insert
    (t : Table κ α)
    (key : κ)
    (value : α) : Table κ α where
  entries := Entries.put key value t.entries
  distinct := Entries.nodup_keys_put t.distinct

/- The table made by putting entries one after the other. -/
def ofList (entries : List (κ × α)) : Table κ α :=
  entries.foldl (fun t entry => t.insert entry.1 entry.2) empty

/- Entries with distinct keys are those of their table. -/
theorem entries_ofList
    {entries : List (κ × α)}
    (hKeys : (Entries.keys entries).Nodup) :
    (ofList entries).entries = entries := by
  have hFold :
      ∀ {start : Table κ α},
        (Entries.keys start.entries
          ++ Entries.keys entries).Nodup →
        (entries.foldl
          (fun t entry => t.insert entry.1 entry.2)
          start).entries =
          start.entries ++ entries := by
    clear hKeys
    induction entries with
    | nil => simp
    | cons entry entries ih =>
        intro start hKeys
        have hNew : entry.1 ∉ Entries.keys start.entries := by
          rw [List.nodup_append] at hKeys
          intro hMem
          exact hKeys.2.2 entry.1 hMem entry.1
            List.mem_cons_self rfl
        have hPut :
            (start.insert entry.1 entry.2).entries =
              start.entries ++ [entry] :=
          Entries.put_of_not_mem entry.2 hNew
        rw [List.foldl_cons, ih, hPut, List.append_assoc]
        · rfl
        · rw [hPut]
          simpa [Entries.keys] using hKeys
  exact hFold (by simpa [empty, Entries.keys] using hKeys)

/- Both tables have the same value under every key. -/
def sameEntries
    [BEq α]
    (s t : Table κ α) : Bool :=
  s.size == t.size
    && s.entries.all fun entry =>
      match t.get? entry.1 with
      | some value => entry.2 == value
      | none => false

/- What stands under a key after a value was put under one. -/
theorem get?_insert
    (t : Table κ α)
    (key other : κ)
    (value : α) :
    (t.insert key value).get? other =
      if other = key then some value else t.get? other :=
  Entries.lookup_put key other value t.entries

/- What stands under a key is an entry, as keys are distinct. -/
theorem get?_eq_some_iff
    {t : Table κ α}
    {key : κ}
    {value : α} :
    t.get? key = some value ↔ (key, value) ∈ t.entries :=
  Entries.lookup_eq_some_iff_mem t.distinct

/- Nothing stands under what is no key. -/
theorem get?_eq_none_iff
    {t : Table κ α}
    {key : κ} :
    t.get? key = none ↔ key ∉ t.keys := by
  rw [get?, List.lookup_eq_none_iff, keys, Entries.keys,
    List.mem_map]
  simp only [bne_iff_ne, ne_eq, not_exists, not_and]
  exact forall_congr' fun entry =>
    forall_congr' fun _ => ⟨fun h e => h e.symm, fun h e => h e.symm⟩

/- The keys after a value was put under a key. -/
theorem keys_insert
    (t : Table κ α)
    (key : κ)
    (value : α) :
    (t.insert key value).keys =
      if key ∈ t.keys then t.keys else t.keys ++ [key] :=
  Entries.keys_put key value t.entries

/- How many keys there are after a value was put under a key. -/
theorem size_insert
    (t : Table κ α)
    (key : κ)
    (value : α) :
    (t.insert key value).size =
      if key ∈ t.keys then t.size else t.size + 1 := by
  rw [← length_keys, keys_insert]
  split
  · exact length_keys t
  · rw [List.length_append, length_keys, List.length_singleton]

end Table

end PipelineScript
