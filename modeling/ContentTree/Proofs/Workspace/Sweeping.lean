import ContentTree.Proofs.Workspace.Presence

/-!
# What a read leaves in the cache

Every item that is read through the cache ends with a sweep down to the limit of the configuration. The sweep
takes the candidates that were used least recently; what is read, the root, and whatever somebody holds stay in
the cache as the instances they are (`getItemState_swept`).
-/

namespace ContentTree.Workspace

variable {σ : Type} {w w' : Workspace σ} {held : List Handle} {id : ItemId} {h : Handle}

/-- What the others hold: their own handles, and the instances that their overlays are connected to. -/
def holders (clients : List Handle) (overlays : List LocalItem) : List Handle :=
  clients ++ overlays.filterMap LocalItem.overlayed

/-- A workspace after an instance was read through its cache. -/
structure Tidied (held : List Handle) (w : Workspace σ) (id : ItemId) (h : Handle) (w' : Workspace σ) :
    Prop where
  /-- The cache is down to its limit, or there is nothing left to sweep. -/
  limited : w'.cache.size ≤ w.config.cacheSoftLimit ∨
    ∀ k, ¬w'.cache.Candidate w'.heap (w'.root :: h :: held) k
  cached : w'.cache.peek? id = some h
  /-- The instance of the root and those that somebody holds stay where they were. -/
  kept : ∀ k g, g ∈ w.root :: held → w.cache.peek? k = some g → w'.cache.peek? k = some g

/-- A sweep brings the cache to its limit, or leaves nothing that could go. -/
theorem limited_sweep (held : List Handle) (w : Workspace σ) :
    (sweep held w).cache.size ≤ w.config.cacheSoftLimit ∨
      ∀ k, ¬(sweep held w).cache.Candidate w.heap (w.holding held) k := by
  unfold sweep
  split
  · exact (Cache.swept_sweep w.cache w.heap (w.holding held) w.config.cacheSoftLimit).limited
  · next hsmall => exact Or.inl (Nat.le_of_not_lt hsmall)

/-- A stored item that was read leaves the workspace tidied. -/
theorem tidied_persistedItem (hread : persistedItem held id w = .ok h w') : Tidied held w id h w' := by
  have hlook := rooted_persistedItem held id w
  rw [stateAfter_of_ok hread] at hlook
  refine ⟨?_, peek?_of_persistedItem hread, fun k g hg hk => LookedAt.kept hlook hk hg⟩
  obtain ⟨mid, hload, rfl⟩ := exists_of_persistedItem hread
  have hmid := lookedAt_cachedOrLoaded held id w
  rw [stateAfter_of_ok hload] at hmid
  have houtline := sweep_outline (h :: held) mid
  have hheap : (sweep (h :: held) mid).heap = mid.heap := congrArg (fun u => u.heap) houtline
  have hroot : (sweep (h :: held) mid).root = mid.root := congrArg (fun u => u.root) houtline
  rw [hheap, hroot, ← hmid.config]
  exact limited_sweep (h :: held) mid

/-- An item that the cache or the storage has is read through the cache, unless a subtree claims it. -/
theorem getItemState_of_keeps (hclaim : w.claimant? id = none) (hkeeps : w.Keeps id)
    (hfree : w.locked = false) (held : List Handle) :
    ∃ h w', persistedItem held id w = .ok h w' ∧ getItemState held id w = .ok h w' := by
  obtain ⟨h, w', hok⟩ := exists_persistedItem_ok hkeeps held
  refine ⟨h, w', hok, ?_⟩
  rw [getItemState, reading_of_unlocked hfree, itemState, get_bind, hclaim]
  exact tryCatch_of_ok hok

/-- A reading succeeds only if the workspace is not locked. -/
theorem unlocked_of_reading {α : Type} {action : Action σ α} {a : α} (h : reading action w = .ok a w') :
    w.locked = false := by
  cases hlocked : w.locked with
  | false => rfl
  | true =>
    have herror : reading action w = .error (.lockInterrupted .read) w := by
      show (if w.locked then throw _ else action : Action σ α) w = _
      rw [hlocked]
      rfl
    rw [herror] at h
    cases h

/-- **A sweep takes the right entries.** Sweeping takes the candidates that were used least recently, as many
as the cache has entries too many, and leaves the others in their order. So after an item was read that no
subtree gave out, the cache is down to its limit or nothing in it can be swept; it has what was read, and it
has the instances of the root and of all that somebody holds where it had them. -/
theorem getItemState_swept (clients : List Handle) (overlays : List LocalItem)
    (hclaim : w.claimant? id = none) (hkeeps : w.Keeps id) :
    (∀ (c : Cache) heap held target,
      c.Swept heap held target (c.sweep heap held target).1 (c.sweep heap held target).2) ∧
    ((∃ h w', getItemState (holders clients overlays) id w = .ok h w') ↔ w.locked = false) ∧
    ∀ h w', getItemState (holders clients overlays) id w = .ok h w' →
      Tidied (holders clients overlays) w id h w' := by
  refine ⟨Cache.swept_sweep, ⟨?_, ?_⟩, ?_⟩
  · rintro ⟨h, w', hread⟩
    exact unlocked_of_reading hread
  · intro hfree
    obtain ⟨h, w', -, hok⟩ := getItemState_of_keeps hclaim hkeeps hfree (holders clients overlays)
    exact ⟨h, w', hok⟩
  · intro h w' hread
    obtain ⟨k, v, hitem, hok⟩ := getItemState_of_keeps hclaim hkeeps (unlocked_of_reading hread)
      (holders clients overlays)
    rw [hok] at hread
    cases hread
    exact tidied_persistedItem hitem

/-! ### A cache with room for one entry -/

/-- An overlay that is connected to the instance of the known item. -/
def Sample.connected : LocalItem :=
  .overlaying (Sample.workspace Sample.memory).heap ⟨1, Sample.known⟩

/-- The known item stays when another one is read into a full cache, as an overlay is connected to it. -/
theorem getItemState_swept_connected :
    let w := Sample.workspace Sample.memory
    w.claimant? Sample.other = none ∧ w.Keeps Sample.other ∧ w.config.cacheSoftLimit < w.cache.size ∧
      w.cache.peek? Sample.known = some ⟨1, Sample.known⟩ ∧
      ∃ h w', getItemState (holders [] [Sample.connected]) Sample.other w = .ok h w' ∧
        w'.cache.peek? Sample.other = some h ∧
        w'.cache.peek? Sample.known = some ⟨1, Sample.known⟩ := by
  intro w
  have hclaim : w.claimant? Sample.other = none := rfl
  have hkeeps : w.Keeps Sample.other := Or.inr ⟨_, _, rfl⟩
  have hcached : w.cache.peek? Sample.known = some ⟨1, Sample.known⟩ := by decide +kernel
  obtain ⟨-, hread, htidied⟩ := getItemState_swept [] [Sample.connected] hclaim hkeeps
  obtain ⟨h, w', hok⟩ := hread.2 rfl
  refine ⟨hclaim, hkeeps, by decide +kernel, hcached, h, w', hok, (htidied h w' hok).cached, ?_⟩
  exact (htidied h w' hok).kept _ _ (List.mem_cons_of_mem _ (List.mem_cons_self ..)) hcached

end ContentTree.Workspace
