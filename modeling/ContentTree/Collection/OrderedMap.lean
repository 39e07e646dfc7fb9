/-!
# Maps that remember an order

A finite map whose keys stand in a definite order: a new key goes to the end (`insert`) or to the
front (`insertFront`), a key that is already there keeps its place under `insert`. The keys are
distinct by construction. Main statements: look-up and key order after each operation
(`get?_insert`, `keys_insert`, `get?_erase`, `keys_erase`, `get?_insertFront`).
-/

namespace ContentTree

/-- A finite map with distinct keys in a definite order. -/
structure OrderedMap (κ ν : Type) where
  entries : List (κ × ν)
  nodup_keys : (entries.map Prod.fst).Nodup

namespace OrderedMap

variable {κ ν μ : Type}

/-- A map is told by its entries. -/
@[ext] theorem ext {a b : OrderedMap κ ν} (h : a.entries = b.entries) : a = b := by
  cases a; cases b; cases h; rfl

instance [DecidableEq κ] [DecidableEq ν] : DecidableEq (OrderedMap κ ν) := fun a b =>
  if h : a.entries = b.entries then isTrue (ext h) else isFalse fun e => h (e ▸ rfl)

/-- The map without entries. -/
def empty : OrderedMap κ ν :=
  ⟨[], List.nodup_nil⟩

instance : EmptyCollection (OrderedMap κ ν) := ⟨empty⟩

instance : Inhabited (OrderedMap κ ν) := ⟨empty⟩

/-- The keys in order. -/
def keys (m : OrderedMap κ ν) : List κ :=
  m.entries.map Prod.fst

/-- The values in the order of their keys. -/
def values (m : OrderedMap κ ν) : List ν :=
  m.entries.map Prod.snd

/-- The number of entries. -/
def size (m : OrderedMap κ ν) : Nat :=
  m.entries.length

/-- Whether there is no entry. -/
def isEmpty (m : OrderedMap κ ν) : Bool :=
  m.entries.isEmpty

/-- The entries with `f` applied to every key and value; keys stay. -/
def map (f : κ → ν → μ) (m : OrderedMap κ ν) : OrderedMap κ μ where
  entries := m.entries.map fun (k, v) => (k, f k v)
  nodup_keys := by simpa [List.map_map, Function.comp_def] using m.nodup_keys

/-- Values changed one after the other, up to the first that fails; what was changed until then
stays. -/
def tryEntries {ε : Type} (f : ν → Except ε ν) : List (κ × ν) → Except ε Unit × List (κ × ν)
  | [] => (.ok (), [])
  | (k, v) :: rest =>
    match f v with
    | .error e => (.error e, (k, v) :: rest)
    | .ok v =>
      let (result, rest) := tryEntries f rest
      (result, (k, v) :: rest)

/-- Keys stay, also where a value could not be replaced. -/
theorem keys_tryEntries {ε : Type} (f : ν → Except ε ν) (l : List (κ × ν)) :
    (tryEntries f l).2.map Prod.fst = l.map Prod.fst := by
  induction l with
  | nil => rfl
  | cons e rest ih =>
    obtain ⟨k, v⟩ := e
    unfold tryEntries
    split
    · rfl
    · simp [ih]

/-- The map with values changed in order, up to the first that fails; what was changed until then
stays. -/
def tryMap {ε : Type} (f : ν → Except ε ν) (m : OrderedMap κ ν) :
    Except ε Unit × OrderedMap κ ν :=
  ((tryEntries f m.entries).1,
    ⟨(tryEntries f m.entries).2, by rw [keys_tryEntries]; exact m.nodup_keys⟩)

/-- The entries that satisfy a condition on key and value, in their order. -/
def filter (p : κ → ν → Bool) (m : OrderedMap κ ν) : OrderedMap κ ν where
  entries := m.entries.filter fun (k, v) => p k v
  nodup_keys := m.nodup_keys.sublist (List.filter_sublist.map _)

/-- A filter by keys keeps the keys that pass it, in their order. -/
theorem keys_filter_fst (p : κ → Bool) (m : OrderedMap κ ν) :
    (m.filter fun k _ => p k).keys = m.keys.filter p := by
  simp only [keys, filter, List.filter_map]
  rfl

variable [DecidableEq κ]

/-- The value under a key. -/
def get? (m : OrderedMap κ ν) (k : κ) : Option ν :=
  (m.entries.find? fun e => e.1 = k).map Prod.snd

/-- Whether a key has a value. -/
def contains (m : OrderedMap κ ν) (k : κ) : Bool :=
  m.entries.any fun e => e.1 = k

/-- A map contains exactly its keys. -/
theorem contains_eq_true {m : OrderedMap κ ν} {k : κ} : m.contains k = true ↔ k ∈ m.keys := by
  simp only [contains, keys, List.any_eq_true, List.mem_map, decide_eq_true_eq]

/-- The map without a key. -/
def erase (m : OrderedMap κ ν) (k : κ) : OrderedMap κ ν :=
  m.filter fun k' _ => k' ≠ k

/-- Entries with the value under `k` replaced where `k` stands, or put at the end. -/
def insertEntries (k : κ) (v : ν) : List (κ × ν) → List (κ × ν)
  | [] => [(k, v)]
  | (k', v') :: rest => if k' = k then (k, v) :: rest else (k', v') :: insertEntries k v rest

/-- A new key comes in last; one that is there keeps its place. -/
theorem keys_insertEntries (k : κ) (v : ν) (l : List (κ × ν)) :
    (insertEntries k v l).map Prod.fst =
      if k ∈ l.map Prod.fst then l.map Prod.fst else l.map Prod.fst ++ [k] := by
  induction l with
  | nil => simp [insertEntries]
  | cons e rest ih =>
    obtain ⟨k', v'⟩ := e
    by_cases h : k' = k
    · simp [insertEntries, h]
    · have h' : k ≠ k' := fun e => h e.symm
      simp only [insertEntries, h, if_false, List.map_cons, ih, List.mem_cons, h', false_or]
      split <;> simp

/-- The map with a value under a key: a known key keeps its place, a new one goes to the end. -/
def insert (m : OrderedMap κ ν) (k : κ) (v : ν) : OrderedMap κ ν where
  entries := insertEntries k v m.entries
  nodup_keys := by
    rw [keys_insertEntries]
    split
    · exact m.nodup_keys
    · next h =>
      rw [List.nodup_append]
      refine ⟨m.nodup_keys, by simp, ?_⟩
      intro a ha b hb e
      simp only [List.mem_singleton] at hb
      exact h (hb ▸ e ▸ ha)

/-- The map with a value under a key at the front, whether the key was known or not. -/
def insertFront (m : OrderedMap κ ν) (k : κ) (v : ν) : OrderedMap κ ν where
  entries := (k, v) :: (m.erase k).entries
  nodup_keys := by
    rw [List.map_cons, List.nodup_cons]
    refine ⟨?_, (m.erase k).nodup_keys⟩
    simp [erase, filter]

/-- Inserting brings at most the one key in, behind the other ones. -/
theorem keys_insert (m : OrderedMap κ ν) (k : κ) (v : ν) :
    (m.insert k v).keys = if k ∈ m.keys then m.keys else m.keys ++ [k] :=
  keys_insertEntries k v m.entries

/-- Erasing takes out the one key. -/
theorem keys_erase (m : OrderedMap κ ν) (k : κ) :
    (m.erase k).keys = m.keys.filter (· ≠ k) :=
  keys_filter_fst _ m

/-- Nothing is found in the empty map. -/
@[simp] theorem get?_empty (k : κ) : (empty : OrderedMap κ ν).get? k = none := rfl

/-- Inserting changes what is found under one key only. -/
theorem get?_insert (m : OrderedMap κ ν) (k : κ) (v : ν) (k' : κ) :
    (m.insert k v).get? k' = if k' = k then some v else m.get? k' := by
  obtain ⟨l, hl⟩ := m
  simp only [get?, insert]
  clear hl
  induction l with
  | nil =>
    by_cases h : k' = k
    · simp [insertEntries, h]
    · have : k ≠ k' := fun e => h e.symm
      simp [insertEntries, h, this]
  | cons e rest ih =>
    obtain ⟨a, b⟩ := e
    by_cases ha : a = k
    · subst ha
      by_cases h : k' = a
      · simp [insertEntries, h]
      · have : a ≠ k' := fun e => h e.symm
        simp [insertEntries, h, this]
    · simp only [insertEntries, ha, if_false, List.find?_cons]
      by_cases hk : a = k'
      · have : ¬k' = k := fun e => ha (hk.trans e)
        simp [hk, this]
      · simp [hk, ih]

/-- Erasing changes what is found under one key only. -/
theorem get?_erase (m : OrderedMap κ ν) (k k' : κ) :
    (m.erase k).get? k' = if k' = k then none else m.get? k' := by
  simp only [get?, erase, filter, List.find?_filter]
  split
  · next h =>
    subst h
    rw [List.find?_eq_none.2 (fun e _ => by simp), Option.map_none]
  · next h =>
    congr 2
    funext e
    by_cases he : e.1 = k'
    · have : ¬e.1 = k := fun hk => h (he.symm.trans hk)
      simp [he, h]
    · simp [he]

/-- What is inserted at the front is found, and everything else as before. -/
theorem get?_insertFront (m : OrderedMap κ ν) (k : κ) (v : ν) (k' : κ) :
    (m.insertFront k v).get? k' = if k' = k then some v else m.get? k' := by
  by_cases h : k' = k
  · simp [get?, insertFront, h]
  · have h' : ¬k = k' := fun e => h e.symm
    have := get?_erase m k k'
    simp only [get?, insertFront, List.find?_cons, h', decide_false, h, if_false] at this ⊢
    exact this

end OrderedMap

end ContentTree
