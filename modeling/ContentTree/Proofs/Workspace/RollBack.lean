import ContentTree.Proofs.Workspace.Persisting

/-!
# Undoing a commit

Undoing loads the data of every instance in the modified and in the deleted set anew, and gives up
those that cannot be loaded and all that were made for added items. Each of these steps concerns one
instance (`Concerns`), and the instances are different ones, so what becomes of an instance is decided
by its own step.
-/

namespace ContentTree.Workspace

variable {σ τ : Type} {w w' : Workspace σ}

/-- All of a workspace but its instances, its cache, its storage and its subscribers. -/
def outline (w : Workspace σ) :
    List Provider × Config × Backend σ × Handle × List Nat × Bool :=
  (w.providers, w.config, w.backend, w.root, w.overlays, w.locked)

/-- Nothing was done to instances other than `hs`, and no cache entry came in. -/
structure Concerns (hs : List Handle) (w w' : Workspace σ) : Prop where
  outline : w'.outline = w.outline
  valid : ∀ h, w'.heap.Valid h ↔ w.heap.Valid h
  read : ∀ k, (∀ h ∈ hs, h.index ≠ k.index) → w'.heap.read k = w.heap.read k
  cached : ∀ {id k}, w'.cache.peek? id = some k → w.cache.peek? id = some k
  kept : ∀ {id k}, w.cache.peek? id = some k → k ∉ hs → w'.cache.peek? id = some k

namespace Concerns

variable {hs : List Handle}

instance : IsPreorder (Workspace σ) (Concerns hs) where
  refl _ := ⟨rfl, fun _ => Iff.rfl, fun _ _ => rfl, id, fun h _ => h⟩
  trans _ _ _ hab hbc :=
    ⟨hbc.outline.trans hab.outline, fun h => (hbc.valid h).trans (hab.valid h),
      fun k hk => (hbc.read k hk).trans (hab.read k hk), fun hid => hab.cached (hbc.cached hid),
      fun hid hk => hbc.kept (hab.kept hid hk) hk⟩

/-- What concerns some instances concerns more of them. -/
theorem mono {all : List Handle} (h : Concerns hs w w') (hsub : ∀ k ∈ hs, k ∈ all) :
    Concerns all w w' :=
  { h with
    read := fun k hk => h.read k fun j hj => hk j (hsub j hj)
    kept := fun hid hk => h.kept hid fun hmem => hk (hsub _ hmem) }

/-- Steps that each concern their own instance, one after the other. -/
theorem foldl {step : Workspace σ → Handle → Workspace σ}
    (hstep : ∀ w h, Concerns [h] w (step w h)) (hs : List Handle) (w : Workspace σ) :
    Concerns hs w (hs.foldl step w) := by
  induction hs generalizing w with
  | nil => exact refl_of (Concerns []) w
  | cons h rest ih =>
    refine trans_of (Concerns (h :: rest)) ((hstep w h).mono fun k hk => ?_)
      ((ih (step w h)).mono fun k hk => List.mem_cons_of_mem h hk)
    rw [List.mem_singleton.1 hk]
    exact List.mem_cons_self ..

/-- Changes that concern some instances keep the providers. -/
theorem providers (h : Concerns hs w w') : w'.providers = w.providers :=
  congrArg (·.1) h.outline

/-- Changes that concern some instances keep the backend. -/
theorem backend (h : Concerns hs w w') : w'.backend = w.backend :=
  congrArg (·.2.2.1) h.outline

/-- Changes that concern some instances keep the root. -/
theorem root (h : Concerns hs w w') : w'.root = w.root :=
  congrArg (·.2.2.2.1) h.outline

/-- Changes that concern some instances keep the overlays. -/
theorem overlays (h : Concerns hs w w') : w'.overlays = w.overlays :=
  congrArg (·.2.2.2.2.1) h.outline

/-- An instance that is not concerned reads as before. -/
theorem read_of_not_mem (h : Concerns hs w w') {k : Handle} (hv : w.heap.Valid k)
    (hhs : ∀ j ∈ hs, w.heap.Valid j) (hk : k ∉ hs) : w'.heap.read k = w.heap.read k :=
  h.read k fun j hj hi => hk ((hhs j hj).eq_of_index hv hi ▸ hj)

/-- An instance that is not concerned stays cached, or stays out of the cache. -/
theorem peek?_of_not_mem (h : Concerns hs w w') {id : ItemId} {k : Handle} (hk : k ∉ hs) :
    w'.cache.peek? id = some k ↔ w.cache.peek? id = some k :=
  ⟨h.cached, fun hid => h.kept hid hk⟩

end Concerns

/-! ## Single instances -/

/-- Discarding an instance concerns no other one. -/
theorem concerns_discard (w : Workspace σ) (h : Handle) : Concerns [h] w (w.discard h) where
  outline := rfl
  valid _ := Heap.valid_setStatus
  read k hk := Heap.read_modify_of_ne _ (fun hi => hk h (List.mem_singleton.2 rfl) hi.symm) _
  cached hid := by
    replace hid := (w.cache.peek?_evictInstance h _).symm.trans hid
    split at hid
    · cases hid
    · exact hid
  kept {id k} hid hk := by
    refine (w.cache.peek?_evictInstance h id).trans ?_
    rw [if_neg, hid]
    rintro ⟨-, hsome⟩
    rw [hid] at hsome
    cases hsome
    exact hk (List.mem_singleton.2 rfl)

/-- An instance that was given up is discarded and is not what the cache has for its identity. -/
theorem discarded (w : Workspace σ) {h : Handle} (hv : w.heap.Valid h) :
    ((w.discard h).heap.read h).status = .discarded ∧ (w.discard h).cache.peek? h.id ≠ some h ∧
      (w.cache.peek? h.id = some h → (w.discard h).cache.peek? h.id = none) := by
  have hpeek : (w.discard h).cache.peek? h.id =
      if h.id = h.id ∧ w.cache.peek? h.id = some h then none else w.cache.peek? h.id :=
    w.cache.peek?_evictInstance h h.id
  refine ⟨?_, fun hid => ?_, fun hid => ?_⟩
  · show ((w.heap.setStatus h .discarded).read h).status = _
    rw [Heap.read_setStatus hv]
    rfl
  · rw [hpeek] at hid
    split at hid
    · cases hid
    · next hne => exact hne ⟨rfl, hid⟩
  · rw [hpeek, if_pos ⟨rfl, hid⟩]

/-- Restoring loads the instance anew, and discards it if that fails. -/
theorem restore_eq (w : Workspace σ) (h : Handle) :
    w.restore h = match w.backend.load h.id w.storage with
      | .ok s t => { w with storage := t, heap := w.heap.copyInto h s }
      | .error _ t => discard { w with storage := t } h := by
  unfold restore onStorage Backend.onPart
  cases w.backend.load h.id w.storage <;> rfl

/-- Restoring an instance concerns no other one. -/
theorem concerns_restore (w : Workspace σ) (h : Handle) : Concerns [h] w (w.restore h) := by
  rw [restore_eq]
  cases w.backend.load h.id w.storage with
  | ok s t =>
    exact ⟨rfl, fun _ => Heap.valid_copyInto,
      fun k hk => Heap.read_modify_of_ne _ (fun hi => hk h (List.mem_singleton.2 rfl) hi.symm) _,
      id, fun hid _ => hid⟩
  | error e t =>
    have hstart : Concerns [h] w { w with storage := t } :=
      ⟨rfl, fun _ => Iff.rfl, fun _ _ => rfl, id, fun hid _ => hid⟩
    exact trans_of (Concerns [h]) hstart (concerns_discard _ h)

/-! ## All instances of a commit -/

/-- What loading some instances anew makes of a storage. -/
def reloads (b : Backend σ) (hs : List Handle) (storage : σ) : σ :=
  hs.foldl (fun t h => stateAfter (b.load h.id) t) storage

/-- Restoring instances one after the other loads each of them. -/
theorem storage_foldl_restore (hs : List Handle) (w : Workspace σ) :
    (hs.foldl restore w).storage = reloads w.backend hs w.storage := by
  induction hs generalizing w with
  | nil => rfl
  | cons h rest ih =>
    have hstorage : (w.restore h).storage = stateAfter (w.backend.load h.id) w.storage := by
      rw [restore_eq, stateAfter]
      cases w.backend.load h.id w.storage <;> rfl
    rw [List.foldl_cons, ih, (concerns_restore w h).backend, hstorage]
    rfl

/-- Loading instances anew asks the backend and nothing else. -/
theorem queried_reloads (b : Backend σ) (hs : List Handle) (storage : σ) :
    b.Queried storage (reloads b hs storage) :=
  List.foldlRecOn hs _ (motive := b.Queried storage) (.refl storage) fun _ ht h _ => ht.load h.id

/-- What a reload makes of an instance `h`: `w` is the workspace before it, `w'` the one after all is
done, and `result` what the backend answered. -/
def Reloaded (w w' : Workspace σ) (h : Handle) : EStateM.Result Error σ ItemState → Prop
  | .ok s _ => w'.heap.read h = (w.heap.read h).copyFrom s ∧
      ∀ id, w'.cache.peek? id = some h ↔ w.cache.peek? id = some h
  | .error _ _ => (w'.heap.read h).status = .discarded ∧ w'.cache.peek? h.id ≠ some h ∧
      (w.cache.peek? h.id = some h → w'.cache.peek? h.id = none)

/-- A restored instance is reloaded. -/
theorem reloaded_restore {h : Handle} (hv : w.heap.Valid h) :
    Reloaded w (w.restore h) h (w.backend.load h.id w.storage) := by
  rw [restore_eq]
  cases w.backend.load h.id w.storage with
  | ok s t => exact ⟨Heap.read_copyInto hv s, fun _ => Iff.rfl⟩
  | error e t => exact discarded { w with storage := t } hv

/-- A reload is not undone by what concerns other instances. -/
theorem Reloaded.between {w₀ w₁ : Workspace σ} {h : Handle} {earlier later : List Handle}
    {result : EStateM.Result Error σ ItemState} (hr : Reloaded w w' h result)
    (hearlier : Concerns earlier w₀ w) (hlater : Concerns later w' w₁)
    (hread : w.heap.read h = w₀.heap.read h) (hread' : w₁.heap.read h = w'.heap.read h)
    (hnot : h ∉ earlier) (hnot' : h ∉ later) : Reloaded w₀ w₁ h result := by
  have hpeek : ∀ id, w.cache.peek? id = some h ↔ w₀.cache.peek? id = some h :=
    fun _ => hearlier.peek?_of_not_mem hnot
  have hpeek' : ∀ id, w₁.cache.peek? id = some h ↔ w'.cache.peek? id = some h :=
    fun _ => hlater.peek?_of_not_mem hnot'
  cases result with
  | ok s t =>
    refine ⟨?_, fun id => (hpeek' id).trans ((hr.2 id).trans (hpeek id))⟩
    rw [hread', hr.1, hread]
  | error e t =>
    obtain ⟨hstatus, hgone, hnone⟩ := hr
    refine ⟨hread' ▸ hstatus, fun hid => hgone ((hpeek' _).1 hid), fun hid => ?_⟩
    have hempty := hnone ((hpeek _).2 hid)
    -- nothing comes into the cache afterwards
    cases hafter : w₁.cache.peek? h.id with
    | none => rfl
    | some k => rw [hlater.cached hafter] at hempty; cases hempty

/-- Undoing first sees to the instances that were there, then to those that were made. -/
theorem rollBack_eq (w : Workspace σ) (shared : ChangeLog Handle) :
    w.rollBack shared = shared.addedItems.values.foldl discard
      ((shared.modifiedItems.values ++ shared.deletedItems.values).foldl restore w) := rfl

/-- Undoing does no more to the storage than ask it. -/
theorem queried_rollBack (w : Workspace σ) (shared : ChangeLog Handle) :
    w.backend.Queried w.storage (w.rollBack shared).storage := by
  have hdiscard : ∀ (hs : List Handle) (v : Workspace σ),
      (hs.foldl discard v).storage = v.storage := by
    intro hs
    induction hs with
    | nil => exact fun _ => rfl
    | cons h rest ih => exact fun v => ih (v.discard h)
  rw [rollBack_eq, hdiscard, storage_foldl_restore]
  exact queried_reloads _ _ _

/-- Undoing concerns the instances in the shared log. -/
theorem concerns_rollBack (w : Workspace σ) (shared : ChangeLog Handle) :
    Concerns shared.states w (w.rollBack shared) := by
  have hrestore := Concerns.foldl concerns_restore
    (shared.modifiedItems.values ++ shared.deletedItems.values) w
  have hdiscard := Concerns.foldl concerns_discard shared.addedItems.values
    ((shared.modifiedItems.values ++ shared.deletedItems.values).foldl restore w)
  refine trans_of (Concerns shared.states) (hrestore.mono fun k hk => ?_)
    (hdiscard.mono fun k hk => ?_)
  · rw [ChangeLog.states, List.append_assoc]
    exact List.mem_append_right _ hk
  · exact List.mem_append_left _ (List.mem_append_left _ hk)

/-- Undoing decides of an instance in the modified or in the deleted set by its own reload. -/
theorem reloaded_rollBack {shared : ChangeLog Handle}
    (hvalid : ∀ h ∈ shared.states, w.heap.Valid h) (hnodup : shared.states.Nodup)
    {before after : List Handle} {h : Handle}
    (htouched : shared.modifiedItems.values ++ shared.deletedItems.values = before ++ h :: after) :
    Reloaded w (w.rollBack shared) h
      (w.backend.load h.id (reloads w.backend before w.storage)) := by
  have hstates : shared.states = shared.addedItems.values ++ (before ++ h :: after) := by
    rw [← htouched, ChangeLog.states, List.append_assoc]
  rw [hstates] at hvalid hnodup
  obtain ⟨-, hrest, hadded⟩ := List.nodup_append.1 hnodup
  obtain ⟨-, hafter, hbefore⟩ := List.nodup_append.1 hrest
  have hnot : h ∉ before := fun hmem => hbefore h hmem h (List.mem_cons_self ..) rfl
  have hnot' : h ∉ after ++ shared.addedItems.values := by
    intro hmem
    rcases List.mem_append.1 hmem with hmem | hmem
    · exact (List.nodup_cons.1 hafter).1 hmem
    · exact hadded h hmem h (by simp) rfl
  -- the steps before that of `h`, its own, and those after it
  have hearlier := Concerns.foldl concerns_restore before w
  have hstep := concerns_restore (before.foldl restore w) h
  have hlater : Concerns (after ++ shared.addedItems.values) ((before.foldl restore w).restore h)
      (w.rollBack shared) := by
    rw [rollBack_eq, htouched, List.foldl_append, List.foldl_cons]
    exact trans_of (Concerns (after ++ shared.addedItems.values))
      ((Concerns.foldl concerns_restore _ _).mono fun k hk => List.mem_append_left _ hk)
      ((Concerns.foldl concerns_discard _ _).mono fun k hk => List.mem_append_right _ hk)
  have hvalid₁ : (before.foldl restore w).heap.Valid h :=
    (hearlier.valid h).2 (hvalid h (by simp))
  have hr := reloaded_restore hvalid₁
  rw [hearlier.backend, storage_foldl_restore] at hr
  refine hr.between hearlier hlater
    (hearlier.read_of_not_mem (hvalid h (by simp)) (fun j hj => hvalid j (by simp [hj])) hnot)
    (hlater.read_of_not_mem ((hstep.valid h).2 hvalid₁) (fun j hj => ?_) hnot') hnot hnot'
  refine (hstep.valid j).2 ((hearlier.valid j).2 (hvalid j ?_))
  rcases List.mem_append.1 hj with hj | hj <;> simp [hj]

/-- Giving up several instances discards each of them. -/
theorem discarded_foldl {hs : List Handle} (hvalid : ∀ h ∈ hs, w.heap.Valid h) {h : Handle}
    (hmem : h ∈ hs) : ((hs.foldl discard w).heap.read h).status = .discarded := by
  induction hs generalizing w with
  | nil => cases hmem
  | cons k rest ih =>
    have hstep := concerns_discard w k
    have hvalid' : ∀ j ∈ rest, (w.discard k).heap.Valid j :=
      fun j hj => (hstep.valid j).2 (hvalid j (List.mem_cons_of_mem k hj))
    by_cases hrest : h ∈ rest
    · exact ih hvalid' hrest
    · obtain rfl : h = k := (List.mem_cons.1 hmem).resolve_right hrest
      have hv := hvalid h (List.mem_cons_self ..)
      rw [List.foldl_cons, (Concerns.foldl concerns_discard rest _).read_of_not_mem
        ((hstep.valid h).2 hv) hvalid' hrest]
      exact (discarded w hv).1

/-- Undoing gives up every instance that was made for an added item. -/
theorem discarded_rollBack {shared : ChangeLog Handle}
    (hvalid : ∀ h ∈ shared.states, w.heap.Valid h) {h : Handle}
    (hmem : h ∈ shared.addedItems.values) :
    ((w.rollBack shared).heap.read h).status = .discarded := by
  rw [rollBack_eq]
  refine discarded_foldl (fun k hk => ?_) hmem
  exact ((Concerns.foldl concerns_restore _ w).valid k).2
    (hvalid k (ChangeLog.mem_states.2 ⟨.added, hk⟩))

end ContentTree.Workspace
