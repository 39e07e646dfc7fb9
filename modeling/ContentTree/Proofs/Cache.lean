import ContentTree.Cache
import ContentTree.Proofs.Collection.OrderedMap

/-!
# What a cache holds after each operation

Every operation is described by what a look-up finds afterwards. A sweep takes nothing that somebody
else holds (`peek?_sweep_of_held`); it takes the candidates that were used least recently, as many as it has
to, and leaves the other entries in their order (`swept_sweep`).
-/

namespace ContentTree.Cache

/-- Asking for an instance changes the order of the entries only. -/
theorem peek?_retrieve (c : Cache) (id k : ItemId) : (c.retrieve id).2.peek? k = c.peek? k := by
  unfold retrieve
  split
  · next h hid =>
    show (c.entries.insertFront id h).get? k = c.entries.get? k
    rw [OrderedMap.get?_insertFront]
    split
    · next hk => subst hk; exact hid.symm
    · rfl
  · rfl

/-- An instance that comes in is found under its identity, and everything else as before. -/
theorem peek?_put (c : Cache) (h : Handle) (k : ItemId) :
    (c.put h).2.peek? k = if k = h.id then some h else c.peek? k :=
  OrderedMap.get?_insertFront _ _ _ _

/-- A loaded state is found under its identity, and everything else as before. -/
theorem peek?_putLoaded (c : Cache) (heap : Heap) (id : ItemId) (s : ItemState) (k : ItemId) :
    (c.putLoaded heap id s).2.1.peek? k =
      if k = id then some (c.putLoaded heap id s).1 else c.peek? k :=
  OrderedMap.get?_insertFront _ _ _ _

/-- An instance that is evicted is not found any more if it was the one that was cached. -/
theorem peek?_evictInstance (c : Cache) (h : Handle) (k : ItemId) :
    (c.evictInstance h).2.peek? k =
      if k = h.id ∧ c.peek? k = some h then none else c.peek? k := by
  unfold evictInstance
  split
  · next hc =>
    show (c.entries.erase h.id).get? k = _
    rw [OrderedMap.get?_erase]
    by_cases hk : k = h.id
    · subst hk; simp [hc]
    · simp [hk, peek?]
  · next hc =>
    rw [if_neg]
    rintro ⟨rfl, hk⟩
    exact hc hk

/-- A sweep takes out the swept identities and nothing else. -/
theorem peek?_sweep (c : Cache) (heap : Heap) (held : List Handle) (target : Nat) (k : ItemId) :
    (c.sweep heap held target).2.peek? k =
      if k ∈ c.sweepable heap held target then none else c.peek? k :=
  OrderedMap.get?_foldl_erase _ _ _

/-- What a sweep leaves was there before. -/
theorem peek?_of_peek?_sweep {c : Cache} {heap : Heap} {held : List Handle} {target : Nat}
    {k : ItemId} {h : Handle} (hk : (c.sweep heap held target).2.peek? k = some h) :
    c.peek? k = some h := by
  rw [peek?_sweep] at hk
  split at hk
  · cases hk
  · exact hk

/-- A sweep takes nothing that somebody else holds. -/
theorem peek?_sweep_of_held {c : Cache} {heap : Heap} {held : List Handle} {k : ItemId}
    {h : Handle} (target : Nat) (hk : c.peek? k = some h) (hheld : h ∈ held) :
    (c.sweep heap held target).2.peek? k = some h := by
  have hentry : (k, h) ∈ c.entries.entries := OrderedMap.get?_eq_some.1 hk
  rw [peek?_sweep, if_neg, hk]
  intro hswept
  obtain ⟨⟨k, h'⟩, he, rfl⟩ := List.mem_map.1 (List.mem_of_mem_take hswept)
  obtain ⟨hmem, hsweep⟩ := List.mem_filter.1 he
  -- the entry that is swept is the one of `h`, of which there are two handles at least
  obtain rfl : h' = h := OrderedMap.value_unique (List.mem_reverse.1 hmem) hentry
  have hone : c.handles held h' = 1 := by
    simp only [isSweepable, Bool.and_eq_true, decide_eq_true_eq] at hsweep
    exact hsweep.1
  have hcached : 0 < c.entries.values.count h' :=
    List.count_pos_iff.2 (List.mem_map.2 ⟨_, hentry, rfl⟩)
  have hother : 0 < held.count h' := List.count_pos_iff.2 hheld
  unfold handles at hone
  omega

/-! ## What a sweep takes -/

/-- A cached item whose instance is not new, and to which the cache has the only handle. -/
def Candidate (c : Cache) (heap : Heap) (held : List Handle) (id : ItemId) : Prop :=
  ∃ h, c.peek? id = some h ∧ h ∉ held ∧ (∀ k, c.peek? k = some h → k = id) ∧
    (heap.read h).status ≠ .new

/-- What sweeping down to a number of entries makes of a cache: the candidates go in the order in which they
were used, the least recently used first, until the number is reached or there are no more. -/
structure Swept (c : Cache) (heap : Heap) (held : List Handle) (target : Nat) (swept : List ItemId)
    (c' : Cache) : Prop where
  taken : ∃ candidates : List ItemId, candidates.Sublist c.ids.reverse ∧
    (∀ id, id ∈ candidates ↔ c.Candidate heap held id) ∧
    swept = candidates.take (min (c.size - target) candidates.length)
  left : c'.entries.entries = c.entries.entries.filter fun e => e.1 ∉ swept

/-- The cache has one handle to an instance if it has it under one identity. -/
theorem count_values_eq_one_iff {c : Cache} {id : ItemId} {h : Handle} (hid : c.peek? id = some h) :
    c.entries.values.count h = 1 ↔ ∀ k, c.peek? k = some h → k = id := by
  obtain ⟨front, back, hsplit⟩ := List.append_of_mem (OrderedMap.get?_eq_some.1 hid)
  have hperm : c.entries.entries.Perm ((id, h) :: (front ++ back)) := hsplit ▸ List.perm_middle
  have hcount : c.entries.values.count h = ((front ++ back).map Prod.snd).count h + 1 := by
    rw [OrderedMap.values, (hperm.map Prod.snd).count_eq, List.map_cons, List.count_cons_self]
  have hcached : ∀ k, c.peek? k = some h ↔ k = id ∨ (k, h) ∈ front ++ back := by
    intro k
    rw [peek?, OrderedMap.get?_eq_some, hperm.mem_iff, List.mem_cons, Prod.mk.injEq,
      and_iff_left rfl]
  have hother : id ∉ (front ++ back).map Prod.fst :=
    (List.nodup_cons.1 ((hperm.map Prod.fst).nodup_iff.1 c.entries.nodup_keys)).1
  rw [hcount, Nat.add_eq_right, List.count_eq_zero, List.mem_map]
  constructor
  · intro hnone k hk
    exact ((hcached k).1 hk).resolve_right fun hmem => hnone ⟨(k, h), hmem, rfl⟩
  · rintro hunique ⟨⟨k, g⟩, hmem, rfl⟩
    exact hother (List.mem_map.2 ⟨(k, g), hmem, hunique k ((hcached k).2 (Or.inr hmem))⟩)

/-- An entry may be swept if nobody holds its instance, it is the only entry for it, and it is not new.
-/
theorem isSweepable_iff {c : Cache} {heap : Heap} {held : List Handle} {id : ItemId} {h : Handle}
    (hid : c.peek? id = some h) :
    c.isSweepable heap held h = true ↔
      h ∉ held ∧ (∀ k, c.peek? k = some h → k = id) ∧ (heap.read h).status ≠ .new := by
  have hcached : 0 < c.entries.values.count h :=
    List.count_pos_iff.2 (OrderedMap.mem_values.2 ⟨id, hid⟩)
  have hheld : held.count h = 0 ↔ h ∉ held := List.count_eq_zero
  have hhandles : c.handles held h = 1 ↔ h ∉ held ∧ ∀ k, c.peek? k = some h → k = id := by
    rw [← hheld, ← count_values_eq_one_iff hid, handles]
    omega
  rw [isSweepable, Bool.and_eq_true, decide_eq_true_eq, hhandles, bne_iff_ne, and_assoc]

/-- What a sweep takes out is what may be swept, the least recently used first, down to the limit. -/
theorem swept_sweep (c : Cache) (heap : Heap) (held : List Handle) (target : Nat) :
    Swept c heap held target (c.sweep heap held target).1 (c.sweep heap held target).2 := by
  refine ⟨⟨(c.entries.entries.reverse.filter fun e => c.isSweepable heap held e.2).map Prod.fst,
    ?_, fun id => ?_, ?_⟩, OrderedMap.entries_foldl_erase _ _⟩
  · rw [ids, OrderedMap.keys, ← List.map_reverse]
    exact List.filter_sublist.map _
  · simp only [List.mem_map, List.mem_filter, List.mem_reverse, Prod.exists, exists_and_right,
      exists_eq_right]
    constructor
    · rintro ⟨h, hentry, hsweep⟩
      have hid : c.peek? id = some h := OrderedMap.get?_eq_some.2 hentry
      exact ⟨h, hid, (isSweepable_iff hid).1 hsweep⟩
    · rintro ⟨h, hid, hfree⟩
      exact ⟨h, OrderedMap.get?_eq_some.1 hid, (isSweepable_iff hid).2 hfree⟩
  · exact List.take_eq_take_min

namespace Swept

variable {c c' : Cache} {heap : Heap} {held : List Handle} {target : Nat} {swept : List ItemId}

/-- After a sweep what was not swept is found as before. -/
theorem peek?_eq_some_iff (h : Swept c heap held target swept c') {k : ItemId} {g : Handle} :
    c'.peek? k = some g ↔ c.peek? k = some g ∧ k ∉ swept := by
  simp only [peek?, OrderedMap.get?_eq_some, h.left, List.mem_filter, decide_eq_true_eq]

/-- What was swept could be swept. -/
theorem candidate_of_mem (h : Swept c heap held target swept c') {id : ItemId} (hid : id ∈ swept) :
    c.Candidate heap held id := by
  obtain ⟨candidates, -, hall, rfl⟩ := h.taken
  exact (hall id).1 (List.mem_of_mem_take hid)

/-- What is taken and what is left make up the cache. -/
theorem size_add_length (h : Swept c heap held target swept c') : c'.size + swept.length = c.size := by
  obtain ⟨candidates, hsublist, -, htake⟩ := h.taken
  have hswept : swept.Sublist c.ids.reverse := htake ▸ (List.take_sublist _ _).trans hsublist
  have hids : c'.ids = c.ids.filter (· ∉ swept) := by
    rw [ids, OrderedMap.keys, h.left, ids, OrderedMap.keys, List.filter_map]
    rfl
  have hperm : (c.ids.filter (· ∈ swept)).Perm swept := by
    refine (List.perm_ext_iff_of_nodup (c.entries.nodup_keys.filter _) ?_).2 fun k => ?_
    · exact (List.nodup_reverse.2 c.entries.nodup_keys).sublist hswept
    · simp only [List.mem_filter, decide_eq_true_eq, and_iff_right_iff_imp]
      exact fun hk => List.mem_reverse.1 (hswept.subset hk)
  have hsize : ∀ c : Cache, c.size = c.ids.length := fun c => (List.length_map _).symm
  have hsplit := List.length_eq_length_filter_add (l := c.ids) fun k => k ∈ swept
  rw [hsize, hsize, hids, hsplit, hperm.length_eq, Nat.add_comm]
  simp

/-- A sweep comes down to its target unless it runs out of candidates. -/
theorem limited (h : Swept c heap held target swept c') :
    c'.size ≤ target ∨ ∀ id, ¬c'.Candidate heap held id := by
  obtain ⟨candidates, -, hall, htake⟩ := h.taken
  have hsize := h.size_add_length
  by_cases hmany : c.size - target ≤ candidates.length
  · left
    have hlength : swept.length = c.size - target := by
      rw [htake, List.length_take]
      omega
    omega
  · right
    rintro id ⟨g, hid, hheld, hunique, hstatus⟩
    obtain ⟨hold, hnot⟩ := h.peek?_eq_some_iff.1 hid
    have heverything : swept = candidates := by
      rw [htake, Nat.min_eq_right (by omega), List.take_length]
    -- an identity under which the instance was cached as well was not swept, as it was not the only one
    refine hnot (heverything ▸ (hall id).2 ⟨g, hold, hheld, fun k hk => ?_, hstatus⟩)
    by_cases hkept : k ∈ swept
    · obtain ⟨g', hk', -, hone, -⟩ := h.candidate_of_mem hkept
      obtain rfl : g = g' := Option.some.inj (hk.symm.trans hk')
      exact (hone id hold).symm
    · exact hunique k (h.peek?_eq_some_iff.2 ⟨hk, hkept⟩)

end Swept

end ContentTree.Cache
