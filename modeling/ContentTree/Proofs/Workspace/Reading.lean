import ContentTree.Workspace.Read
import ContentTree.Proofs.Action
import ContentTree.Proofs.Cache
import ContentTree.Proofs.Item.Heap

/-!
# What reading does to a workspace

Reading changes a workspace: items are loaded, the cache is reordered and swept, and the storage may
keep books of its own. `LookedAt` says all that a reader can do, whatever is read and whether it is
there: instances are only made, never written to, everything besides instances, cache and storage
stays, and a cached instance that somebody holds is still the cached one afterwards.
-/

namespace ContentTree

/-- What asking can make of a storage. -/
inductive Backend.Queried {σ : Type} (b : Backend σ) : σ → σ → Prop where
  | refl (s : σ) : Queried b s s
  | load {s t : σ} (id : ItemId) : Queried b s t → Queried b s (stateAfter (b.load id) t)
  | contains {s t : σ} (id : ItemId) : Queried b s t → Queried b s (stateAfter (b.contains id) t)
  | loadReferences {s t : σ} (target : NodeId) :
    Queried b s t → Queried b s (stateAfter (b.loadReferences target) t)
  | containsReferences {s t : σ} (target : NodeId) :
    Queried b s t → Queried b s (stateAfter (b.containsReferences target) t)

/-- Questions to a backend add up. -/
theorem Backend.Queried.trans {σ : Type} {b : Backend σ} {r s t : σ} (h : b.Queried r s)
    (h' : b.Queried s t) : b.Queried r t := by
  induction h' with
  | refl => exact h
  | load id _ ih => exact ih.load id
  | contains id _ ih => exact ih.contains id
  | loadReferences target _ ih => exact ih.loadReferences target
  | containsReferences target _ ih => exact ih.containsReferences target

/-- What no single question changes, asking does not change. -/
theorem Backend.Queried.preserves {σ ν : Type} {b : Backend σ} {f : σ → ν}
    (hload : ∀ id s, f (stateAfter (b.load id) s) = f s)
    (hcontains : ∀ id s, f (stateAfter (b.contains id) s) = f s)
    (hrecord : ∀ target s, f (stateAfter (b.loadReferences target) s) = f s)
    (hhas : ∀ target s, f (stateAfter (b.containsReferences target) s) = f s) {s t : σ}
    (h : b.Queried s t) : f t = f s := by
  induction h with
  | refl => rfl
  | load id _ ih => exact (hload id _).trans ih
  | contains id _ ih => exact (hcontains id _).trans ih
  | loadReferences target _ ih => exact (hrecord target _).trans ih
  | containsReferences target _ ih => exact (hhas target _).trans ih

namespace Workspace

variable {σ α : Type} {held : List Handle} {w w' : Workspace σ}

/-- All of a workspace but its instances, its cache and its storage. -/
def fixture (w : Workspace σ) :
    List Provider × Config × Backend σ × Handle × List Nat × Notifier × Bool :=
  (w.providers, w.config, w.backend, w.root, w.overlays, w.notifier, w.locked)

/-- An instance made since `w`, of what the storage had for an item at that time. -/
structure LoadedSince (w w' : Workspace σ) (id : ItemId) (h : Handle) : Prop where
  fresh : w.heap.cells.size ≤ h.index
  valid : w'.heap.Valid h
  content : ∃ t s t', w.backend.Queried w.storage t ∧ w.backend.load id t = .ok s t' ∧
    w'.heap.read h = s.withStatus .existing

/-- What a reader can make of a workspace while others hold the handles `held`. -/
structure LookedAt (held : List Handle) (w w' : Workspace σ) : Prop where
  heap : w.heap.Grows w'.heap
  fixture : w'.fixture = w.fixture
  storage : w.backend.Queried w.storage w'.storage
  /-- A cached instance that somebody holds stays cached. -/
  kept : ∀ {id h}, w.cache.peek? id = some h → h ∈ held → w'.cache.peek? id = some h
  /-- Whatever is cached was cached before or was loaded in between. -/
  entry : ∀ {id h}, w'.cache.peek? id = some h →
    w.cache.peek? id = some h ∨ LoadedSince w w' id h

namespace LookedAt

/-- Looking keeps the providers. -/
theorem providers (h : LookedAt held w w') : w'.providers = w.providers :=
  congrArg (·.1) h.fixture

/-- Looking keeps the configuration. -/
theorem config (h : LookedAt held w w') : w'.config = w.config :=
  congrArg (·.2.1) h.fixture

/-- Looking keeps the backend. -/
theorem backend (h : LookedAt held w w') : w'.backend = w.backend :=
  congrArg (·.2.2.1) h.fixture

/-- Looking keeps the root. -/
theorem root (h : LookedAt held w w') : w'.root = w.root :=
  congrArg (·.2.2.2.1) h.fixture

/-- Looking keeps the overlays. -/
theorem overlays (h : LookedAt held w w') : w'.overlays = w.overlays :=
  congrArg (·.2.2.2.2.1) h.fixture

/-- Looking keeps the subscribers. -/
theorem notifier (h : LookedAt held w w') : w'.notifier = w.notifier :=
  congrArg (·.2.2.2.2.2.1) h.fixture

/-- Looking keeps the lock. -/
theorem locked (h : LookedAt held w w') : w'.locked = w.locked :=
  congrArg (·.2.2.2.2.2.2) h.fixture

/-- Looking keeps the subtrees. -/
theorem subtrees (h : LookedAt held w w') : w'.subtrees = w.subtrees := by
  simp only [Workspace.subtrees, h.providers, h.overlays]

instance : IsPreorder (Workspace σ) (LookedAt held) where
  refl w := ⟨refl_of Heap.Grows _, rfl, .refl _, fun h _ => h, Or.inl⟩
  trans u v w huv hvw := by
    refine ⟨trans_of Heap.Grows huv.heap hvw.heap, hvw.fixture.trans huv.fixture, ?_,
      fun hid hheld => hvw.kept (huv.kept hid hheld) hheld, fun hid => ?_⟩
    · have hlater := hvw.storage
      rw [huv.backend] at hlater
      exact huv.storage.trans hlater
    · -- an entry is old, or was loaded in the first part, or in the second
      rcases hvw.entry hid with hmid | hnew
      · rcases huv.entry hmid with hold | hloaded
        · exact Or.inl hold
        · obtain ⟨t, s, t', hq, hl, hread⟩ := hloaded.content
          exact Or.inr ⟨hloaded.fresh, hvw.heap.valid hloaded.valid,
            t, s, t', hq, hl, (hvw.heap.read hloaded.valid).trans hread⟩
      · obtain ⟨t, s, t', hq, hl, hread⟩ := hnew.content
        rw [huv.backend] at hq hl
        exact Or.inr ⟨Nat.le_trans huv.heap.size_le hnew.fresh, hnew.valid,
          t, s, t', huv.storage.trans hq, hl, hread⟩

/-- A reader who respects more handles respects fewer. -/
theorem mono {less : List Handle} (hless : ∀ h ∈ less, h ∈ held) (h : LookedAt held w w') :
    LookedAt less w w' :=
  { h with kept := fun hid hmem => h.kept hid (hless _ hmem) }

/-- Taking the lock makes no difference to what was read before. -/
theorem lock (h : LookedAt held w w') (b : Bool) :
    LookedAt held { w with locked := b } { w' with locked := b } where
  heap := h.heap
  fixture := by
    show (_, _, _, _, _, _, _) = (_, _, _, _, _, _, _)
    rw [h.providers, h.config, h.backend, h.root, h.overlays, h.notifier]
  storage := h.storage
  kept := h.kept
  entry hid := (h.entry hid).imp_right fun hl => ⟨hl.fresh, hl.valid, hl.content⟩

end LookedAt

/-- What a reader can make of a workspace that, while others hold the handles `held`, holds the
instance of its root itself. -/
def Rooted (held : List Handle) (w w' : Workspace σ) : Prop :=
  LookedAt (w.root :: held) w w'

/-- Looking that keeps the root is looking. -/
theorem Rooted.lookedAt (h : Rooted held w w') : LookedAt held w w' :=
  LookedAt.mono (fun _ hk => List.mem_cons_of_mem w.root hk) h

/-- A reader who respects more handles respects fewer. -/
theorem Rooted.mono {less : List Handle} (hless : ∀ h ∈ less, h ∈ held) (h : Rooted held w w') :
    Rooted less w w' :=
  LookedAt.mono (fun _ hk => (List.mem_cons.1 hk).elim (fun heq => heq ▸ List.mem_cons_self ..)
    fun hk => List.mem_cons_of_mem w.root (hless _ hk)) h

instance : IsPreorder (Workspace σ) (Rooted held) where
  refl w := refl_of (LookedAt (w.root :: held)) w
  trans u v w huv hvw := by
    unfold Rooted at hvw
    rw [LookedAt.root huv] at hvw
    exact trans_of (LookedAt (u.root :: held)) huv hvw

/-- A reader who never sweeps respects whatever handles there are. -/
theorem rooted_of_lookedAt {action : Action σ α} (h : ∀ held, Tracks (LookedAt held) action) :
    Tracks (Rooted held) action :=
  fun w => h (w.root :: held) w

/-! ## Steps on the storage -/

/-- A step of the storage leaves the rest of the workspace alone. -/
theorem stateAfter_onStorage (step : EStateM Error σ α) (w : Workspace σ) :
    stateAfter (onStorage step) w = { w with storage := stateAfter step w.storage } :=
  stateAfter_onPart _ _ step w

/-- A step of the storage succeeds in the workspace. -/
theorem onStorage_of_ok {step : EStateM Error σ α} {a : α} {t : σ} (h : step w.storage = .ok a t) :
    onStorage step w = .ok a { w with storage := t } :=
  onPart_of_ok h

/-- A step that only asks the storage. -/
theorem lookedAt_onStorage {step : EStateM Error σ α}
    (hstep : w.backend.Queried w.storage (stateAfter step w.storage)) :
    LookedAt held w (stateAfter (onStorage step) w) := by
  rw [stateAfter_onStorage]
  exact ⟨refl_of Heap.Grows _, rfl, hstep, fun h _ => h, Or.inl⟩

/-- A question to the storage that counts as denied where it fails. -/
theorem lookedAt_ask {step : EStateM Error σ Bool}
    (hstep : w.backend.Queried w.storage (stateAfter step w.storage)) :
    LookedAt held w (stateAfter (tryCatch (onStorage step) fun _ => pure false) w) :=
  Tracks.tryCatchAt (lookedAt_onStorage hstep) fun _ mid _ => refl_of (LookedAt held) mid

/-! ## Items -/

/-- A cached item is served from the cache. -/
theorem cachedOrLoaded_of_cached {id : ItemId} {h : Handle} (hc : w.cache.peek? id = some h) :
    cachedOrLoaded id w = .ok h { w with cache := (w.cache.retrieve id).2 } := by
  have hr : w.cache.retrieve id = (some h, (w.cache.retrieve id).2) := by
    simp only [Cache.retrieve, hc]
  rw [cachedOrLoaded, get_bind, hr]
  rfl

/-- An item that is not cached is loaded and cached. -/
theorem cachedOrLoaded_of_not_cached {id : ItemId} (hc : w.cache.peek? id = none) :
    cachedOrLoaded id w =
      match w.backend.load id w.storage with
      | .ok s t =>
        .ok (w.cache.putLoaded w.heap id s).1
          { w with
            storage := t
            cache := (w.cache.putLoaded w.heap id s).2.1
            heap := (w.cache.putLoaded w.heap id s).2.2 }
      | .error e t => .error e { w with storage := t } := by
  have hr : w.cache.retrieve id = (none, w.cache) := by simp only [Cache.retrieve, hc]
  rw [cachedOrLoaded, get_bind, hr]
  show EStateM.bind (onStorage (w.backend.load id)) _ w = _
  cases hl : w.backend.load id w.storage with
  | ok s t => simp only [EStateM.bind, onStorage, Backend.onPart, hl]; rfl
  | error e t => simp only [EStateM.bind, onStorage, Backend.onPart, hl]

/-- Looking an item up only looks at the workspace. -/
theorem lookedAt_cachedOrLoaded (held : List Handle) (id : ItemId) :
    Tracks (LookedAt held) (cachedOrLoaded (σ := σ) id) := by
  intro w
  cases hc : w.cache.peek? id with
  | some h =>
    rw [stateAfter_of_ok (cachedOrLoaded_of_cached hc)]
    have hpeek : ∀ k, (w.cache.retrieve id).2.peek? k = w.cache.peek? k := w.cache.peek?_retrieve id
    exact ⟨refl_of Heap.Grows _, rfl, .refl _, fun hk _ => (hpeek _).trans hk,
      fun hk => Or.inl ((hpeek _).symm.trans hk)⟩
  | none =>
    have hq : w.backend.Queried w.storage (stateAfter (w.backend.load id) w.storage) :=
      (Backend.Queried.refl _).load id
    rw [stateAfter, cachedOrLoaded_of_not_cached hc]
    cases hl : w.backend.load id w.storage with
    | error e t =>
      rw [stateAfter_of_error hl] at hq
      exact ⟨refl_of Heap.Grows _, rfl, hq, fun h _ => h, Or.inl⟩
    | ok s t =>
      rw [stateAfter_of_ok hl] at hq
      refine ⟨Heap.grows_alloc _ _, rfl, hq, fun {k h} hk _ => ?_, fun {k h} hk => ?_⟩
      · -- the new entry hides none, as there was none for this item
        have hne : k ≠ id := by rintro rfl; rw [hc] at hk; cases hk
        rw [Cache.peek?_putLoaded, if_neg hne]
        exact hk
      · rw [Cache.peek?_putLoaded] at hk
        split at hk
        · next hid =>
          cases hk
          subst hid
          exact Or.inr ⟨Nat.le_refl _, Heap.valid_alloc _ _, w.storage, s, t, .refl _, hl,
            Heap.read_alloc _ _⟩
        · exact Or.inl hk

/-- An item that was looked up is cached. -/
theorem peek?_of_cachedOrLoaded {id : ItemId} {h : Handle}
    (hr : cachedOrLoaded id w = .ok h w') : w'.cache.peek? id = some h := by
  cases hc : w.cache.peek? id with
  | some h' =>
    rw [cachedOrLoaded_of_cached hc] at hr
    cases hr
    exact (w.cache.peek?_retrieve id id).trans hc
  | none =>
    rw [cachedOrLoaded_of_not_cached hc] at hr
    cases hl : w.backend.load id w.storage with
    | error e t => rw [hl] at hr; cases hr
    | ok s t =>
      rw [hl] at hr
      cases hr
      exact (Cache.peek?_putLoaded _ _ _ _ _).trans (if_pos rfl)

/-- Sweeping changes the cache only. -/
theorem sweep_outline (held : List Handle) (w : Workspace σ) :
    sweep held w = { w with cache := (sweep held w).cache } := by
  unfold sweep
  split <;> rfl

/-- Sweeping only looks at the workspace if it knows all instances held. -/
theorem lookedAt_sweep {more : List Handle} {w : Workspace σ} (hheld : ∀ h ∈ held, h ∈ w.holding more) :
    LookedAt held w (sweep more w) := by
  unfold sweep
  split
  · exact ⟨refl_of Heap.Grows _, rfl, .refl _,
      fun hid hmem => Cache.peek?_sweep_of_held _ hid (hheld _ hmem),
      fun hid => Or.inl (Cache.peek?_of_peek?_sweep hid)⟩
  · exact refl_of (LookedAt held) w

/-- Reading a stored item keeps the root. -/
theorem rooted_persistedItem (held : List Handle) (id : ItemId) :
    Tracks (Rooted held) (persistedItem (σ := σ) held id) := by
  refine (rooted_of_lookedAt fun held => lookedAt_cachedOrLoaded held id).bind fun h =>
    Tracks.bind (fun w => lookedAt_sweep fun k hk => ?_) fun _ => Tracks.pure h
  rcases List.mem_cons.1 hk with rfl | hk
  · exact List.mem_cons_self ..
  · exact List.mem_cons_of_mem _ (List.mem_cons_of_mem h hk)

/-- Reading a stored item only looks at the workspace. -/
theorem lookedAt_persistedItem (held : List Handle) (id : ItemId) :
    Tracks (LookedAt held) (persistedItem (σ := σ) held id) :=
  fun w => (rooted_persistedItem held id w).lookedAt

/-- What a read through the cache hands out is held while the cache is swept. -/
theorem exists_of_persistedItem {id : ItemId} {h : Handle} (hr : persistedItem held id w = .ok h w') :
    ∃ mid, cachedOrLoaded id w = .ok h mid ∧ w' = sweep (h :: held) mid := by
  obtain ⟨h', mid, hload, hrest⟩ := exists_of_bind_ok hr
  have hdone : (h', sweep (h' :: held) mid) = (h, w') := by cases hrest; rfl
  cases hdone
  exact ⟨mid, hload, rfl⟩

/-- A stored item that was read is cached. -/
theorem peek?_of_persistedItem {id : ItemId} {h : Handle}
    (hr : persistedItem held id w = .ok h w') : w'.cache.peek? id = some h := by
  obtain ⟨mid, hload, rfl⟩ := exists_of_persistedItem hr
  -- the sweep spares the instance that is about to be handed out
  exact (lookedAt_sweep fun _ hmem => List.mem_cons_of_mem _ hmem).kept
    (peek?_of_cachedOrLoaded hload) (List.mem_cons_self ..)

/-- The instance of an item that no subtree claims, or that of a subtree that holds it. -/
theorem rooted_itemState (held : List Handle) (id : ItemId) :
    Tracks (Rooted held) (itemState (σ := σ) held id) := by
  have hget : ∀ p : Provider, Tracks (Rooted held) (ofExcept (p.get id) : Action σ Handle) := by
    intro p
    cases p.get id with
    | ok h => exact Tracks.pure h
    | error e => exact Tracks.throw e
  refine Tracks.get.bind fun w => ?_
  split
  · next p _ => exact hget p
  · refine (rooted_persistedItem held id).tryCatch fun e => ?_
    split
    · refine Tracks.get.bind fun w => ?_
      split
      · next p _ => exact hget p
      · exact Tracks.throw _
    · exact Tracks.throw e

/-- Reading an item only looks at the workspace. -/
theorem lookedAt_itemState (held : List Handle) (id : ItemId) :
    Tracks (LookedAt held) (itemState (σ := σ) held id) :=
  fun w => (rooted_itemState held id w).lookedAt

/-- A handle that a subtree gives out for an item. -/
theorem ofExcept_get_ok {p : Provider} {id : ItemId} {h : Handle}
    (hr : (ofExcept (p.get id) : Action σ Handle) w = .ok h w') :
    w' = w ∧ p.items.get? id = some h := by
  unfold Provider.get at hr
  cases hp : p.items.get? id with
  | some h' => rw [hp] at hr; cases hr; exact ⟨rfl, rfl⟩
  | none => rw [hp] at hr; cases hr

/-- An instance that is read is the cached one, or one of a registered subtree. -/
theorem itemState_ok {id : ItemId} {h : Handle} (hr : itemState held id w = .ok h w') :
    w'.cache.peek? id = some h ∨ ∃ p ∈ w.subtrees, p.items.get? id = some h := by
  rw [itemState, get_bind] at hr
  cases hclaim : w.claimant? id with
  | some p =>
    rw [hclaim] at hr
    exact Or.inr ⟨p, List.mem_of_find?_eq_some hclaim, (ofExcept_get_ok hr).2⟩
  | none =>
    rw [hclaim] at hr
    replace hr : (tryCatch (persistedItem held id) _ : Action σ Handle) w = .ok h w' := hr
    cases hitem : persistedItem held id w with
    | ok h' mid =>
      rw [tryCatch_of_ok hitem] at hr
      cases hr
      exact Or.inl (peek?_of_persistedItem hitem)
    | error e mid =>
      have hmid := lookedAt_persistedItem held id w
      rw [stateAfter_of_error hitem] at hmid
      rw [tryCatch_of_error hitem] at hr
      split at hr
      · rw [get_bind] at hr
        cases howner : mid.owner? id with
        | some p =>
          rw [howner] at hr
          have hp : p ∈ mid.subtrees := List.mem_of_find?_eq_some howner
          exact Or.inr ⟨p, hmid.subtrees ▸ hp, (ofExcept_get_ok hr).2⟩
        | none => rw [howner] at hr; cases hr
      · cases hr

/-- An instance that is cached is found, if no subtree claims the identity as its root. -/
theorem itemState_of_cached {id : ItemId} {h : Handle} (hclaim : w.claimant? id = none)
    (hc : w.cache.peek? id = some h) (held : List Handle) :
    ∃ w', itemState held id w = .ok h w' := by
  have hitem : ∃ w', persistedItem held id w = .ok h w' := ⟨_, bind_of_ok (cachedOrLoaded_of_cached hc)⟩
  obtain ⟨w', hitem⟩ := hitem
  refine ⟨w', ?_⟩
  rw [itemState, get_bind, hclaim]
  exact tryCatch_of_ok hitem

/-- Asking whether there is an item only looks at the workspace. -/
theorem lookedAt_hasItem (held : List Handle) (id : ItemId) :
    Tracks (LookedAt held) (hasItem (σ := σ) id) := by
  intro w
  show LookedAt held w (stateAfter (if _ then _ else _ : Action σ Bool) w)
  split
  · exact Tracks.pure true w
  · refine Tracks.bindAt (lookedAt_ask ((Backend.Queried.refl _).contains id)) fun b mid _ => ?_
    cases b with
    | true => exact refl_of (LookedAt held) mid
    | false => exact refl_of (LookedAt held) mid

/-- While the lock is free it makes no difference. -/
theorem reading_of_unlocked (h : w.locked = false) (action : Action σ α) :
    reading action w = action w := by
  show (if w.locked then throw _ else action : Action σ α) w = _
  rw [h]
  rfl

/-! ## Reference records -/

/-- Reading stored references only looks at the workspace. -/
theorem lookedAt_persistedReferences (held : List Handle) (target : NodeId) :
    Tracks (LookedAt held) (persistedReferences (σ := σ) target) := by
  intro w
  show LookedAt held w (stateAfter (tryCatch _ _ >>= _ : Action σ _) w)
  refine Tracks.bindAt (Tracks.tryCatchAt ?_ fun _ mid _ => refl_of (LookedAt held) mid)
    fun answer mid _ => by cases answer <;> exact refl_of (LookedAt held) mid
  refine Tracks.bindAt (lookedAt_onStorage ((Backend.Queried.refl _).containsReferences target))
    fun b mid hmid => ?_
  cases b with
  | false => exact refl_of (LookedAt held) mid
  | true =>
    refine Tracks.bindAt ?_ fun _ later _ => refl_of (LookedAt held) later
    -- the record is loaded from the same backend
    have hbackend : mid.backend = w.backend := by
      have hafter := stateAfter_onStorage (w.backend.containsReferences target) w
      rw [stateAfter_of_ok hmid] at hafter
      rw [hafter]
    rw [← hbackend]
    exact lookedAt_onStorage ((Backend.Queried.refl _).loadReferences target)

/-- Reading references only looks at the workspace. -/
theorem lookedAt_references (held : List Handle) (target : NodeId) :
    Tracks (LookedAt held) (references (σ := σ) target) := by
  refine (lookedAt_persistedReferences held target).bind fun r => ?_
  split
  · exact Tracks.pure _
  · refine Tracks.get.bind fun w => ?_
    split
    · next p _ =>
      cases p.references target with
      | ok r => exact Tracks.pure r
      | error e => exact Tracks.throw e
    · exact Tracks.throw _

/-- Asking whether there are references only looks at the workspace. -/
theorem lookedAt_hasReferences (held : List Handle) (target : NodeId) :
    Tracks (LookedAt held) (hasReferences (σ := σ) target) := by
  intro w
  show LookedAt held w (stateAfter (tryCatch _ _ >>= fun b : Bool => _ : Action σ Bool) w)
  refine Tracks.bindAt (lookedAt_ask ((Backend.Queried.refl _).containsReferences target))
    fun b mid _ => ?_
  cases b with
  | true => exact refl_of (LookedAt held) mid
  | false => exact refl_of (LookedAt held) mid

/-- Asking whether a reference dangles only looks at the workspace. -/
theorem lookedAt_isDangling (held : List Handle) (log : ChangeLog LocalItem) (r : NodeReferences) :
    Tracks (LookedAt held) (isDangling (σ := σ) log r) := by
  unfold isDangling
  dsimp only
  split
  · exact Tracks.pure _
  · split
    · exact Tracks.pure _
    · split
      · exact Tracks.pure _
      · exact (lookedAt_hasItem held _).bind fun _ => Tracks.pure _

/-- Dividing reference records only looks at the workspace. -/
theorem lookedAt_partitionReferences (held : List Handle) (log : ChangeLog LocalItem)
    (records : List NodeReferences) :
    Tracks (LookedAt held) (partitionReferences (σ := σ) log records) := by
  induction records with
  | nil => exact Tracks.pure _
  | cons r rest ih =>
    refine Tracks.get.bind fun w => ?_
    split
    · exact ih.bind fun _ => Tracks.pure _
    · refine (lookedAt_isDangling held log r).bind fun b => ?_
      cases b with
      | true => exact Tracks.throw _
      | false => exact ih.bind fun _ => Tracks.pure _

/-! ## Handles that denote something -/

/-- The cache and the virtual subtrees hold handles to instances that were made. -/
structure Sound (w : Workspace σ) : Prop where
  cached : ∀ {id h}, w.cache.peek? id = some h → w.heap.Valid h
  provided : ∀ p ∈ w.providers, ∀ id h, p.items.get? id = some h → w.heap.Valid h

/-- Without overlays there are no subtrees. -/
theorem subtrees_eq_nil (h : w.overlays = []) : w.subtrees = [] := by
  simp only [subtrees, h, List.filterMap_nil]

/-- Without overlays no subtree claims an item. -/
theorem claimant?_eq_none (h : w.overlays = []) (id : ItemId) : w.claimant? id = none := by
  rw [claimant?, subtrees_eq_nil h]
  rfl

/-- Without subtrees to give it out, an instance that is read is the cached one. -/
theorem peek?_of_itemState (h : w.overlays = []) {id : ItemId} {k : Handle}
    (hr : itemState held id w = .ok k w') : w'.cache.peek? id = some k := by
  rcases itemState_ok hr with hcached | ⟨p, hp, -⟩
  · exact hcached
  · rw [subtrees_eq_nil h] at hp
    cases hp

/-- A subtree is a provider. -/
theorem mem_providers {p : Provider} (h : p ∈ w.subtrees) : p ∈ w.providers := by
  obtain ⟨n, -, hn⟩ := List.mem_filterMap.1 h
  exact List.mem_of_getElem? hn

/-- Looking leaves a sound workspace sound. -/
theorem LookedAt.sound (h : LookedAt held w w') (hw : w.Sound) : w'.Sound where
  cached hid := by
    rcases h.entry hid with hold | hnew
    · exact h.heap.valid (hw.cached hold)
    · exact hnew.valid
  provided p hp id k hid := by
    rw [h.providers] at hp
    exact h.heap.valid (hw.provided p hp id k hid)

end Workspace

end ContentTree
