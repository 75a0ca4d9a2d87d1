/-!
# Tables

A *table* holds values under keys, in the order in which the keys came first. A later value of a
key takes the place of the earlier one, so a table lists no key twice.

## Main definitions

* `Table`: a list of keys with their values.
* `Table.insert`, `Table.insertAll`, `Table.ofList`, `Table.get?`, `Table.keys`.

## Main results

* `Table.get?_insert`, `Table.get?_insertAll`: a table holds what was inserted last.
* `Table.keys_insert`: a new key comes last, a known one stays where it is.
* `Table.nodup_keys_ofList`: no key is listed twice.
* `Table.ofList_eq_of_nodup`: a list that has no key twice is the table made from it.
* `Table.insertAll_entries_ofList`: a table may be put in by the list from which it was made.
* `Table.get?_eq_of_perm`: the order of the entries plays no part in what a table holds.
* `Table.entries_ofList_flatMap_perm`: nor does the order in which groups of entries are put in.
-/

namespace RosInterface

/-- Values under keys, in the order of the keys' first insertion. -/
structure Table (κ α : Type) where
  /-- The keys with their values. -/
  entries : List (κ × α)
deriving DecidableEq

namespace Table

variable {κ α : Type}

/-- The table without entries. -/
def empty : Table κ α :=
  ⟨[]⟩

instance : Inhabited (Table κ α) :=
  ⟨empty⟩

/-- The keys, in the order of their first insertion. -/
def keys (t : Table κ α) : List κ :=
  t.entries.map Prod.fst

/-- The number of keys. -/
def size (t : Table κ α) : Nat :=
  t.entries.length

variable [DecidableEq κ]

/-- Puts a value under a key of a list of entries: in the place of the key's value, or at the end
when the key is new. -/
def insertEntry (key : κ) (value : α) : List (κ × α) → List (κ × α)
  | [] => [(key, value)]
  | (k, v) :: rest =>
    if k = key then (key, value) :: rest else (k, v) :: insertEntry key value rest

/-- The table with a value put under a key. -/
def insert (t : Table κ α) (key : κ) (value : α) : Table κ α :=
  ⟨insertEntry key value t.entries⟩

/-- The table with all the entries of a list inserted one after the other. -/
def insertAll (t : Table κ α) (entries : List (κ × α)) : Table κ α :=
  entries.foldl (fun t entry => t.insert entry.1 entry.2) t

/-- The table of a list of entries, in which the last value of a key counts. -/
def ofList (entries : List (κ × α)) : Table κ α :=
  empty.insertAll entries

/-- The value under a key. -/
def get? (t : Table κ α) (key : κ) : Option α :=
  (t.entries.find? fun entry => entry.1 = key).map Prod.snd

/-- The key has a value. -/
def contains (t : Table κ α) (key : κ) : Bool :=
  (t.get? key).isSome

/-- The table without a key. -/
def erase (t : Table κ α) (key : κ) : Table κ α :=
  ⟨t.entries.filter fun entry => entry.1 ≠ key⟩

/-! ### What insertion does -/

theorem find?_insertEntry (entries : List (κ × α)) (key key' : κ) (value : α) :
    (insertEntry key value entries).find? (fun entry => entry.1 = key')
      = if key' = key then some (key, value)
        else entries.find? fun entry => entry.1 = key' := by
  induction entries with
  | nil =>
    by_cases h : key = key'
    · simp [insertEntry, h]
    · simp [insertEntry, h, Ne.symm h]
  | cons entry rest ih =>
    obtain ⟨k, v⟩ := entry
    rw [insertEntry]
    by_cases hk : k = key
    · by_cases h : key = key'
      · simp [hk, h]
      · simp [hk, h, Ne.symm h]
    · by_cases h : k = key'
      · subst h
        simp [hk]
      · simp [hk, h, ih]

/-- A table holds what was inserted last. -/
theorem get?_insert (t : Table κ α) (key key' : κ) (value : α) :
    (t.insert key value).get? key' = if key' = key then some value else t.get? key' := by
  rw [get?, insert, find?_insertEntry]
  split <;> rfl

/-- The value that comes last under a key. -/
def lastUnder? (key : κ) (entries : List (κ × α)) : Option α :=
  (entries.reverse.find? fun entry => entry.1 = key).map Prod.snd

/-- Of the values that are inserted under a key, the last one counts. -/
theorem get?_insertAll (entries : List (κ × α)) (t : Table κ α) (key : κ) :
    (t.insertAll entries).get? key = (lastUnder? key entries).or (t.get? key) := by
  induction entries generalizing t with
  | nil => rfl
  | cons entry entries ih =>
    have hstep : t.insertAll (entry :: entries) = (t.insert entry.1 entry.2).insertAll entries :=
      rfl
    rw [hstep, ih, get?_insert, lastUnder?, lastUnder?, List.reverse_cons, List.find?_append]
    cases hfind : entries.reverse.find? fun entry => entry.1 = key with
    | some found => rfl
    | none =>
      by_cases hkey : entry.1 = key
      · simp [hkey]
      · simp [hkey, Ne.symm hkey]

theorem map_fst_insertEntry (entries : List (κ × α)) (key : κ) (value : α) :
    (insertEntry key value entries).map Prod.fst
      = if key ∈ entries.map Prod.fst then entries.map Prod.fst
        else entries.map Prod.fst ++ [key] := by
  induction entries with
  | nil => simp [insertEntry]
  | cons entry rest ih =>
    obtain ⟨k, v⟩ := entry
    rw [insertEntry]
    by_cases hk : k = key
    · simp [hk]
    · have hk' : ¬ key = k := fun h => hk h.symm
      by_cases hm : key ∈ rest.map Prod.fst
      · rw [if_pos hm] at ih
        simp [hk, ih, hm]
      · rw [if_neg hm] at ih
        simp [hk, hk', ih, hm]

/-- A new key comes last, and a known one stays where it is. -/
theorem keys_insert (t : Table κ α) (key : κ) (value : α) :
    (t.insert key value).keys = if key ∈ t.keys then t.keys else t.keys ++ [key] :=
  map_fst_insertEntry t.entries key value

/-- Insertion lists no key twice. -/
theorem nodup_keys_insert {t : Table κ α} (h : t.keys.Nodup) (key : κ) (value : α) :
    (t.insert key value).keys.Nodup := by
  rw [keys_insert]
  split
  · exact h
  · rename_i hk
    rw [List.nodup_append]
    refine ⟨h, by simp, fun a ha b hb => ?_⟩
    rw [List.mem_singleton.mp hb]
    exact fun e => hk (e ▸ ha)

theorem nodup_keys_insertAll (entries : List (κ × α)) {t : Table κ α} (h : t.keys.Nodup) :
    (t.insertAll entries).keys.Nodup := by
  induction entries generalizing t with
  | nil => exact h
  | cons entry rest ih => exact ih (nodup_keys_insert h entry.1 entry.2)

/-- What stands in a table stood there before, or it was put in. -/
theorem mem_entries_insert {t : Table κ α} {key : κ} {value : α} {entry : κ × α}
    (h : entry ∈ (t.insert key value).entries) : entry = (key, value) ∨ entry ∈ t.entries := by
  obtain ⟨entries⟩ := t
  rw [insert] at h
  induction entries with
  | nil => exact .inl (List.mem_singleton.mp h)
  | cons first rest ih =>
    simp only [insertEntry] at h
    split at h
    · exact (List.mem_cons.mp h).imp_right (List.mem_cons_of_mem _)
    · rcases List.mem_cons.mp h with rfl | h
      · exact .inr List.mem_cons_self
      · exact (ih h).imp_right (List.mem_cons_of_mem _)

/-- What stands in a table stood there before, or it is one of the entries that were put in. -/
theorem mem_entries_insertAll {entries : List (κ × α)} {t : Table κ α} {entry : κ × α}
    (h : entry ∈ (t.insertAll entries).entries) : entry ∈ entries ∨ entry ∈ t.entries := by
  induction entries generalizing t with
  | nil => exact .inr h
  | cons first rest ih =>
    rcases ih h with hrest | hfirst
    · exact .inl (List.mem_cons_of_mem _ hrest)
    · rcases mem_entries_insert hfirst with rfl | hbefore
      · exact .inl List.mem_cons_self
      · exact .inr hbefore

/-- A table made from a list lists no key twice. -/
theorem nodup_keys_ofList (entries : List (κ × α)) : (ofList entries).keys.Nodup :=
  nodup_keys_insertAll entries (by simp [empty, keys])

/-- A new key is put at the end. -/
theorem insertEntry_of_notMem {entries : List (κ × α)} {key : κ}
    (h : key ∉ entries.map Prod.fst) (value : α) :
    insertEntry key value entries = entries ++ [(key, value)] := by
  induction entries with
  | nil => rfl
  | cons entry rest ih =>
    rw [List.map_cons, List.mem_cons, not_or] at h
    rw [insertEntry, if_neg (Ne.symm h.1), ih h.2, List.cons_append]

/-- Keys that are new, none of them twice, are put at the end with their values. -/
theorem entries_insertAll {entries : List (κ × α)} {t : Table κ α}
    (h : (t.keys ++ entries.map Prod.fst).Nodup) :
    (t.insertAll entries).entries = t.entries ++ entries := by
  induction entries generalizing t with
  | nil => exact (List.append_nil _).symm
  | cons entry rest ih =>
    have hentry : entry.1 ∉ t.entries.map Prod.fst := fun hmem =>
      (List.nodup_append.mp h).2.2 _ hmem _ List.mem_cons_self rfl
    have hinsert : (t.insert entry.1 entry.2).entries = t.entries ++ [entry] :=
      insertEntry_of_notMem hentry entry.2
    have hkeys : ((t.insert entry.1 entry.2).keys ++ rest.map Prod.fst).Nodup := by
      rw [keys, hinsert, List.map_append, List.append_assoc]
      exact h
    change ((t.insert entry.1 entry.2).insertAll rest).entries = _
    rw [ih hkeys, hinsert, List.append_assoc, List.singleton_append]

/-- A list that has no key twice is the table made from it. -/
theorem ofList_eq_of_nodup {entries : List (κ × α)} (h : (entries.map Prod.fst).Nodup) :
    ofList entries = ⟨entries⟩ :=
  congrArg Table.mk (entries_insertAll h)

/-- A key stands beside the value that it has. -/
theorem mem_entries_of_get? {t : Table κ α} {key : κ} {value : α}
    (h : t.get? key = some value) : (key, value) ∈ t.entries := by
  obtain ⟨entry, he, rfl⟩ := Option.map_eq_some_iff.mp h
  have hk : entry.1 = key := by simpa using List.find?_some he
  exact hk ▸ List.mem_of_find?_eq_some he

/-- A key that has a value is listed. -/
theorem mem_keys_of_get? {t : Table κ α} {key : κ} {value : α} (h : t.get? key = some value) :
    key ∈ t.keys :=
  List.mem_map.mpr ⟨_, mem_entries_of_get? h, rfl⟩

/-- A key that is listed once has the value beside which it stands. -/
theorem get?_eq_some_iff {t : Table κ α} (h : t.keys.Nodup) {key : κ} {value : α} :
    t.get? key = some value ↔ (key, value) ∈ t.entries := by
  refine ⟨mem_entries_of_get?, fun hmem => ?_⟩
  obtain ⟨before, after, hsplit⟩ := List.append_of_mem hmem
  rw [keys, hsplit, List.map_append, List.nodup_append] at h
  rw [get?, hsplit, List.find?_append]
  have hbefore : before.find? (fun entry => entry.1 = key) = none := by
    refine List.find?_eq_none.mpr fun entry hentry hkey => ?_
    exact h.2.2 _ (List.mem_map_of_mem hentry) key List.mem_cons_self (by simpa using hkey)
  simp [hbefore]

/-- The keys that have a value are those that are listed. -/
theorem contains_eq_decide (t : Table κ α) (key : κ) : t.contains key = decide (key ∈ t.keys) := by
  rw [contains, get?, Option.isSome_map, Bool.eq_iff_iff, List.find?_isSome, decide_eq_true_iff,
    keys, List.mem_map]
  simp only [decide_eq_true_iff]

theorem contains_eq_true_iff {t : Table κ α} {key : κ} : t.contains key = true ↔ key ∈ t.keys := by
  rw [contains_eq_decide, decide_eq_true_iff]

/-! ### The order of the entries -/

/-- The order of the entries plays no part in what a table holds. -/
theorem get?_eq_of_perm {t t' : Table κ α} (h : t'.entries.Perm t.entries) (hn : t.keys.Nodup)
    (key : κ) : t'.get? key = t.get? key := by
  have hn' : t'.keys.Nodup := (h.map Prod.fst).nodup_iff.mpr hn
  ext value
  rw [get?_eq_some_iff hn', get?_eq_some_iff hn, h.mem_iff]

/-- Tables that hold the same differ in the order of their entries only. -/
theorem entries_perm_of_get?_eq {t t' : Table κ α} (hn : t.keys.Nodup) (hn' : t'.keys.Nodup)
    (h : ∀ key, t'.get? key = t.get? key) : t'.entries.Perm t.entries := by
  have hentries {s : Table κ α} (hs : s.keys.Nodup) : s.entries.Nodup := by
    rw [keys, List.Nodup, List.pairwise_map] at hs
    exact hs.imp fun hne heq => hne (congrArg Prod.fst heq)
  refine (List.perm_ext_iff_of_nodup (hentries hn') (hentries hn)).mpr fun ⟨key, value⟩ => ?_
  rw [← get?_eq_some_iff hn', ← get?_eq_some_iff hn, h key]

theorem insertAll_append (t : Table κ α) (entries more : List (κ × α)) :
    t.insertAll (entries ++ more) = (t.insertAll entries).insertAll more :=
  List.foldl_append

/-! ### Tables that are put into tables -/

/-- Of two values that are put under a key, the later one counts. -/
theorem insert_insert_self (t : Table κ α) (key : κ) (value value' : α) :
    (t.insert key value).insert key value' = t.insert key value' := by
  obtain ⟨entries⟩ := t
  simp only [insert, mk.injEq]
  induction entries with
  | nil => exact if_pos rfl
  | cons entry rest ih =>
    obtain ⟨k, v⟩ := entry
    by_cases hk : k = key
    · simp [insertEntry, hk]
    · simp [insertEntry, hk, ih]

/-- A value may be put under a known key before or after another key gets its value. -/
theorem insert_insert_of_ne {t : Table κ α} {key key' : κ} (hkey : key ∈ t.keys) (hne : key' ≠ key)
    (value value' : α) :
    (t.insert key' value').insert key value = (t.insert key value).insert key' value' := by
  obtain ⟨entries⟩ := t
  simp only [insert, mk.injEq, keys] at hkey ⊢
  induction entries with
  | nil => cases hkey
  | cons entry rest ih =>
    obtain ⟨k, v⟩ := entry
    rw [List.map_cons, List.mem_cons] at hkey
    by_cases hk : k = key
    · simp [insertEntry, hk, Ne.symm hne]
    · have hrest := ih (hkey.resolve_left (Ne.symm hk))
      by_cases hk' : k = key'
      · simp [insertEntry, hk', hne]
      · simp [insertEntry, hk, hk', hrest]

/-- A value may be put under a known key before or after other keys get theirs. -/
theorem insertAll_insert {t : Table κ α} {key : κ} {entries : List (κ × α)} (hkey : key ∈ t.keys)
    (hentries : key ∉ entries.map Prod.fst) (value : α) :
    (t.insertAll entries).insert key value = (t.insert key value).insertAll entries := by
  induction entries generalizing t with
  | nil => rfl
  | cons entry rest ih =>
    rw [List.map_cons, List.mem_cons, not_or] at hentries
    have hstep (t : Table κ α) :
        t.insertAll (entry :: rest) = (t.insert entry.1 entry.2).insertAll rest := rfl
    have hknown : key ∈ (t.insert entry.1 entry.2).keys := by
      rw [keys_insert]
      split
      · exact hkey
      · exact List.mem_append_left _ hkey
    rw [hstep, hstep, ih hknown hentries.2, insert_insert_of_ne hkey (Ne.symm hentries.1)]

/-- Entries that had a value put under a key are inserted as if it were put there later. -/
theorem insertAll_insertEntry {entries : List (κ × α)} (h : (entries.map Prod.fst).Nodup)
    (t : Table κ α) (key : κ) (value : α) :
    t.insertAll (insertEntry key value entries) = (t.insertAll entries).insert key value := by
  induction entries generalizing t with
  | nil => rfl
  | cons entry rest ih =>
    obtain ⟨k, v⟩ := entry
    obtain ⟨hk, hrest⟩ := List.nodup_cons.mp h
    have hstep (v : α) : t.insertAll ((k, v) :: rest) = (t.insert k v).insertAll rest := rfl
    rw [insertEntry]
    split
    · rename_i hkey
      subst hkey
      have hknown : k ∈ (t.insert k v).keys := by
        rw [keys_insert]
        split
        · assumption
        · exact List.mem_append_right _ List.mem_cons_self
      rw [hstep, hstep, insertAll_insert hknown hk, insert_insert_self]
    · exact ih hrest (t.insert k v)

/-- A table is put into another one with the entries that were put into it before. -/
theorem insertAll_entries_insertAll {s : Table κ α} (h : s.keys.Nodup) (t : Table κ α)
    (entries : List (κ × α)) :
    t.insertAll (s.insertAll entries).entries = (t.insertAll s.entries).insertAll entries := by
  induction entries generalizing s with
  | nil => rfl
  | cons entry rest ih =>
    have hnext := ih (nodup_keys_insert h entry.1 entry.2)
    rw [insert, insertAll_insertEntry h] at hnext
    exact hnext

/-- **A table that is put into another one** may as well be given by the list from which it was
made. -/
theorem insertAll_entries_ofList (t : Table κ α) (entries : List (κ × α)) :
    t.insertAll (ofList entries).entries = t.insertAll entries :=
  insertAll_entries_insertAll (nodup_keys_ofList []) t entries

/-- Tables that are put into another one may be given by the lists from which they were made. -/
theorem insertAll_flatMap_entries_ofList {β : Type} (t : Table κ α) (groups : List β)
    (entries : β → List (κ × α)) :
    t.insertAll (groups.flatMap fun group => (ofList (entries group)).entries)
      = t.insertAll (groups.flatMap entries) := by
  induction groups generalizing t with
  | nil => rfl
  | cons group groups ih =>
    rw [List.flatMap_cons, insertAll_append, insertAll_entries_ofList, ih, List.flatMap_cons,
      insertAll_append]

theorem get?_ofList (entries : List (κ × α)) (key : κ) :
    (ofList entries).get? key = lastUnder? key entries := by
  rw [ofList, get?_insertAll]
  exact Option.or_none

/-- The keys of a table made from a list are those of the list. -/
theorem mem_keys_ofList {entries : List (κ × α)} {key : κ} :
    key ∈ (ofList entries).keys ↔ key ∈ entries.map Prod.fst := by
  rw [← contains_eq_true_iff, contains, get?_ofList, lastUnder?, Option.isSome_map,
    List.find?_isSome]
  simp

/-- A key has a value in a table made from a list in which it stands beside no other. -/
theorem get?_ofList_eq_some {entries : List (κ × α)} {key : κ} {value : α}
    (hmem : (key, value) ∈ entries) (h : ∀ other, (key, other) ∈ entries → other = value) :
    (ofList entries).get? key = some value := by
  have hkey : (ofList entries).contains key = true :=
    contains_eq_true_iff.mpr (mem_keys_ofList.mpr (List.mem_map_of_mem hmem))
  obtain ⟨found, hfound⟩ := Option.isSome_iff_exists.mp hkey
  rcases mem_entries_insertAll (mem_entries_of_get? hfound) with hentry | hentry
  · rw [hfound, h found hentry]
  · cases hentry

theorem lastUnder?_append (key : κ) (entries more : List (κ × α)) :
    lastUnder? key (entries ++ more) = (lastUnder? key more).or (lastUnder? key entries) := by
  rw [lastUnder?, List.reverse_append, List.find?_append, Option.map_or]
  rfl

/-- A key has a value in a table made from groups of entries if it stands in one of them. -/
theorem mem_keys_ofList_flatMap {β : Type} {groups : List β} {entries : β → List (κ × α)}
    {key : κ} : key ∈ (ofList (groups.flatMap entries)).keys ↔
      ∃ group ∈ groups, key ∈ (entries group).map Prod.fst := by
  rw [mem_keys_ofList, List.map_flatMap, List.mem_flatMap]

section Groups

variable {β : Type} {groups groups' : List β} {entries : β → List (κ × α)}

/-- What stands in a table made from groups of entries stands in one of the groups. -/
theorem exists_of_mem_entries_ofList_flatMap {entry : κ × α}
    (h : entry ∈ (ofList (groups.flatMap entries)).entries) :
    ∃ group ∈ groups, entry ∈ entries group := by
  rcases mem_entries_insertAll h with h | h
  · exact List.mem_flatMap.mp h
  · cases h

/-- Where no key stands in two groups, a key has the value that it has in its group. -/
theorem lastUnder?_flatMap_eq_some_iff
    (h : groups.Pairwise fun g g' =>
      ∀ key ∈ (entries g).map Prod.fst, key ∉ (entries g').map Prod.fst)
    {key : κ} {value : α} : lastUnder? key (groups.flatMap entries) = some value ↔
      ∃ group ∈ groups, lastUnder? key (entries group) = some value := by
  have hlisted {group : β} {value : α} (hg : lastUnder? key (entries group) = some value) :
      key ∈ (entries group).map Prod.fst := by
    rw [← get?_ofList] at hg
    exact mem_keys_ofList.mp (mem_keys_of_get? hg)
  induction groups generalizing value with
  | nil => simp [lastUnder?]
  | cons group groups ih =>
    obtain ⟨hgroup, hrest⟩ := List.pairwise_cons.mp h
    rw [List.flatMap_cons, lastUnder?_append]
    simp only [List.mem_cons, exists_eq_or_imp, ← ih hrest]
    cases hlater : lastUnder? key (groups.flatMap entries) with
    | none => simp
    | some later =>
      obtain ⟨other, hother, hvalue⟩ := (ih hrest).mp hlater
      have hnone : lastUnder? key (entries group) = none := by
        rw [← Option.not_isSome_iff_eq_none, Option.isSome_iff_exists]
        rintro ⟨earlier, hearlier⟩
        exact hgroup other hother key (hlisted hearlier) (hlisted hvalue)
      simp [hnone]

/-- Where no key stands in two groups, the order of the groups plays no part in what the table
holds. -/
theorem entries_ofList_flatMap_perm (hp : groups'.Perm groups)
    (h : groups.Pairwise fun g g' =>
      ∀ key ∈ (entries g).map Prod.fst, key ∉ (entries g').map Prod.fst) :
    (ofList (groups'.flatMap entries)).entries.Perm (ofList (groups.flatMap entries)).entries := by
  have h' := hp.symm.pairwise h fun hgg key hkey hkey' => hgg key hkey' hkey
  refine entries_perm_of_get?_eq (nodup_keys_ofList _) (nodup_keys_ofList _) fun key => ?_
  ext value
  rw [get?_ofList, get?_ofList, lastUnder?_flatMap_eq_some_iff h', lastUnder?_flatMap_eq_some_iff h]
  exact exists_congr fun group => and_congr_left' hp.mem_iff

end Groups

end Table

end RosInterface
