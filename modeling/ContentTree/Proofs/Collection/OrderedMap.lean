import ContentTree.Collection.OrderedMap
import Mathlib.Data.List.Nodup

/-!
# Look-ups in ordered maps

What a look-up says about the entries, and look-ups after the operations that touch several keys.
-/

namespace ContentTree.OrderedMap

variable {κ ν μ : Type}

/-- The key of an entry is a key of the map. -/
theorem key_mem {m : OrderedMap κ ν} {k : κ} {v : ν} (h : (k, v) ∈ m.entries) : k ∈ m.keys :=
  List.mem_map.2 ⟨(k, v), h, rfl⟩

/-- A key stands in one entry only. -/
theorem value_unique {m : OrderedMap κ ν} {k : κ} {v v' : ν} (h : (k, v) ∈ m.entries)
    (h' : (k, v') ∈ m.entries) : v = v' :=
  (Prod.mk.inj (List.inj_on_of_nodup_map m.nodup_keys h h' rfl)).2

/-- Mapping the values keeps the keys. -/
theorem keys_map (f : κ → ν → μ) (m : OrderedMap κ ν) : (m.map f).keys = m.keys := by
  simp [keys, map, List.map_map, Function.comp_def]

variable [DecidableEq κ]

/-- What is found under a key is the value of its entry. -/
theorem get?_eq_some {m : OrderedMap κ ν} {k : κ} {v : ν} :
    m.get? k = some v ↔ (k, v) ∈ m.entries := by
  simp only [get?, Option.map_eq_some_iff]
  constructor
  · rintro ⟨⟨k', v'⟩, hfind, rfl⟩
    have hk : k' = k := by simpa using List.find?_some hfind
    exact hk ▸ List.mem_of_find?_eq_some hfind
  · intro h
    cases hfind : m.entries.find? fun e => e.1 = k with
    | none => simpa using List.find?_eq_none.1 hfind _ h
    | some e =>
      have hk : e.1 = k := by simpa using List.find?_some hfind
      have he : (k, e.2) ∈ m.entries := hk ▸ List.mem_of_find?_eq_some hfind
      exact ⟨e, rfl, value_unique he h⟩

/-- Nothing is found under what is not a key. -/
theorem get?_eq_none {m : OrderedMap κ ν} {k : κ} : m.get? k = none ↔ k ∉ m.keys := by
  rw [Option.eq_none_iff_forall_not_mem]
  constructor
  · intro h hk
    obtain ⟨⟨k, v⟩, he, rfl⟩ := List.mem_map.1 hk
    exact h v (get?_eq_some.2 he)
  · intro h v hv
    exact h (key_mem (get?_eq_some.1 hv))

/-- A map contains a key if something is found under it. -/
theorem contains_eq_isSome (m : OrderedMap κ ν) (k : κ) : m.contains k = (m.get? k).isSome := by
  rw [Bool.eq_iff_iff, contains_eq_true, Option.isSome_iff_ne_none, ne_eq, get?_eq_none, not_not]

/-- The values are what is found under the keys. -/
theorem mem_values {m : OrderedMap κ ν} {v : ν} : v ∈ m.values ↔ ∃ k, m.get? k = some v := by
  simp only [values, List.mem_map, get?_eq_some]
  constructor
  · rintro ⟨⟨k, v⟩, h, rfl⟩
    exact ⟨k, h⟩
  · rintro ⟨k, h⟩
    exact ⟨(k, v), h, rfl⟩

/-- Mapping the values maps what is found. -/
theorem get?_map (f : κ → ν → μ) (m : OrderedMap κ ν) (k : κ) :
    (m.map f).get? k = (m.get? k).map (f k) := by
  cases h : m.get? k with
  | none =>
    rw [get?_eq_none] at h
    rw [Option.map_none, get?_eq_none]
    simpa [keys, map, List.map_map, Function.comp_def] using h
  | some v =>
    rw [get?_eq_some] at h
    rw [Option.map_some, get?_eq_some]
    exact List.mem_map.2 ⟨(k, v), h, rfl⟩

/-- Keys that are erased one after the other leave the entries of all other keys in their order. -/
theorem entries_foldl_erase (ks : List κ) (m : OrderedMap κ ν) :
    (ks.foldl erase m).entries = m.entries.filter fun e => e.1 ∉ ks := by
  induction ks generalizing m with
  | nil => simp
  | cons k rest ih =>
    rw [List.foldl_cons, ih, erase, filter, List.filter_filter]
    refine List.filter_congr fun e _ => ?_
    simp only [List.mem_cons, not_or, Bool.decide_and, Bool.and_comm, ne_eq]

/-- Under erased keys nothing is found, and everything else as before. -/
theorem get?_foldl_erase (ks : List κ) (m : OrderedMap κ ν) (k : κ) :
    (ks.foldl erase m).get? k = if k ∈ ks then none else m.get? k := by
  induction ks generalizing m with
  | nil => simp
  | cons a rest ih =>
    rw [List.foldl_cons, ih, get?_erase]
    by_cases hr : k ∈ rest
    · simp [hr]
    · by_cases ha : k = a <;> simp [hr, ha]

/-- Erasing what is not there changes nothing. -/
theorem erase_of_not_mem {m : OrderedMap κ ν} {k : κ} (h : k ∉ m.keys) : m.erase k = m := by
  refine ext (List.filter_eq_self.2 fun e he => ?_)
  have hne : e.1 ≠ k := fun hk => h (hk ▸ key_mem he)
  simp [hne]

/-- The keys after one was erased. -/
theorem mem_keys_erase {m : OrderedMap κ ν} {k a : κ} :
    a ∈ (m.erase k).keys ↔ a ∈ m.keys ∧ a ≠ k := by
  simp [keys_erase]

/-- The keys after one was inserted. -/
theorem mem_keys_insert {m : OrderedMap κ ν} {k a : κ} {v : ν} :
    a ∈ (m.insert k v).keys ↔ a ∈ m.keys ∨ a = k := by
  rw [keys_insert]
  split
  · next h => exact ⟨Or.inl, fun ha => ha.elim id fun hk => hk ▸ h⟩
  · simp

/-- Under each key there is a value. -/
theorem mem_keys_iff {m : OrderedMap κ ν} {k : κ} : k ∈ m.keys ↔ ∃ v, m.get? k = some v := by
  rw [← contains_eq_true, contains_eq_isSome, Option.isSome_iff_exists]

/-- Replacing the value of a key that is there leaves all other entries in their places. -/
theorem entries_insert_of_mem {m : OrderedMap κ ν} {k : κ} (v : ν) (h : k ∈ m.keys) :
    (m.insert k v).entries = m.entries.map fun e => if e.1 = k then (k, v) else e := by
  obtain ⟨l, hl⟩ := m
  simp only [insert, keys] at h ⊢
  induction l with
  | nil => cases h
  | cons e rest ih =>
    obtain ⟨hfresh, hrest⟩ := List.nodup_cons.1 hl
    by_cases he : e.1 = k
    · have hid : rest.map (fun e => if e.1 = k then (k, v) else e) = rest.map id :=
        List.map_congr_left fun a ha =>
          if_neg fun hak => hfresh (List.mem_map.2 ⟨a, ha, hak.trans he.symm⟩)
      simp only [insertEntries, he, if_true, List.map_cons, hid, List.map_id]
    · have hk : k ∈ rest.map Prod.fst := by
        rcases List.mem_cons.1 h with h | h
        · exact absurd h.symm he
        · exact h
      simp only [insertEntries, he, if_false, List.map_cons, ih hrest hk]

/-- What is inserted under a new key stands last. -/
theorem entries_insert_of_not_mem {m : OrderedMap κ ν} {k : κ} (v : ν) (h : k ∉ m.keys) :
    (m.insert k v).entries = m.entries ++ [(k, v)] := by
  obtain ⟨l, hl⟩ := m
  simp only [insert, keys] at h ⊢
  clear hl
  induction l with
  | nil => rfl
  | cons e rest ih =>
    rw [List.map_cons, List.mem_cons, not_or] at h
    simp only [insertEntries, if_neg (Ne.symm h.1), ih h.2, List.cons_append]

/-- Entries put into a map that has none of their keys stand behind those that were there. -/
theorem entries_foldl_insert {l : List (κ × ν)} {m : OrderedMap κ ν} (hnodup : (l.map Prod.fst).Nodup)
    (hfresh : ∀ k ∈ l.map Prod.fst, k ∉ m.keys) :
    (l.foldl (fun m e => m.insert e.1 e.2) m).entries = m.entries ++ l := by
  induction l generalizing m with
  | nil => simp
  | cons e rest ih =>
    obtain ⟨hnew, hrest⟩ := List.nodup_cons.1 hnodup
    have he : e.1 ∉ m.keys := hfresh e.1 (List.mem_cons_self ..)
    rw [List.foldl_cons, ih hrest fun k hk hmem => ?_, entries_insert_of_not_mem e.2 he,
      List.append_assoc, List.singleton_append]
    rcases mem_keys_insert.1 hmem with hold | rfl
    · exact hfresh k (List.mem_cons_of_mem _ hk) hold
    · exact hnew hk

/-- A map is what its entries, put in one after the other, make of the map without entries. -/
theorem foldl_insert_entries (m : OrderedMap κ ν) :
    m.entries.foldl (fun m e => m.insert e.1 e.2) empty = m :=
  ext ((entries_foldl_insert m.nodup_keys fun k _ h => by cases h).trans (List.nil_append _))

/-- A new value that looks like the old one does not change what a map is seen as. -/
theorem map_insert_of_eq {f : κ → ν → μ} {m : OrderedMap κ ν} {k : κ} {v v' : ν}
    (h : m.get? k = some v) (hf : f k v' = f k v) : (m.insert k v').map f = m.map f := by
  have hentry : (k, v) ∈ m.entries := get?_eq_some.1 h
  apply ext
  show (m.insert k v').entries.map _ = m.entries.map _
  rw [entries_insert_of_mem v' (key_mem hentry), List.map_map]
  refine List.map_congr_left fun e he => ?_
  by_cases hk : e.1 = k
  · obtain ⟨k', u⟩ := e
    obtain rfl : k' = k := hk
    obtain rfl : u = v := value_unique he hentry
    simp [hf]
  · simp [hk]

/-! ## Steps that each decide one key -/

/-- Steps that decide one key each, and different ones, decide each of these keys once and leave all
others alone. `look` finds what a state has for a key. -/
theorem look_foldl {σ α : Type} (look : σ → κ → Option ν) {step : σ → α → σ} {key : α → κ}
    (value : α → Option ν)
    (hstep : ∀ s a k, look (step s a) k = if k = key a then value a else look s k) {l : List α}
    (hnodup : (l.map key).Nodup) (s : σ) :
    (∀ a ∈ l, look (l.foldl step s) (key a) = value a) ∧
    (∀ k, k ∉ l.map key → look (l.foldl step s) k = look s k) := by
  induction l generalizing s with
  | nil => exact ⟨fun a ha => absurd ha List.not_mem_nil, fun k _ => rfl⟩
  | cons b rest ih =>
    obtain ⟨hnew, hrest⟩ := List.nodup_cons.1 hnodup
    obtain ⟨hin, hout⟩ := ih hrest (step s b)
    refine ⟨fun a ha => ?_, fun k hk => ?_⟩
    · rcases List.mem_cons.1 ha with rfl | ha
      · rw [List.foldl_cons, hout _ hnew, hstep, if_pos rfl]
      · exact hin a ha
    · rw [List.map_cons, List.mem_cons, not_or] at hk
      rw [List.foldl_cons, hout k hk.2, hstep, if_neg hk.1]

end ContentTree.OrderedMap
