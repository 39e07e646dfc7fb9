import ContentTree.Proofs.Workspace.Transitions

/-!
# Commits do not know their subscribers

Reading and committing go the same way whoever has subscribed and however full the mailboxes are
(`store_observed`). Two states that differ in their subscribers only are followed through the same
action: its answers are the same, and the states that it leaves again differ in the subscribers only
(`Respects`). This is kept by all ways of putting actions together.
-/

namespace ContentTree

variable {ε σ τ α β : Type}

/-! ## Two runs of one action -/

/-- The same answer or the same failure, with related states. -/
inductive Agree (R : σ → σ → Prop) : EStateM.Result ε σ α → EStateM.Result ε σ α → Prop
  | ok (a : α) {s s' : σ} : R s s' → Agree R (.ok a s) (.ok a s')
  | error (e : ε) {s s' : σ} : R s s' → Agree R (.error e s) (.error e s')

/-- From related states the action goes the same way. -/
def Respects (R : σ → σ → Prop) (x : EStateM ε σ α) : Prop :=
  ∀ s s', R s s' → Agree R (x s) (x s')

namespace Respects

variable {R : σ → σ → Prop} {x : EStateM ε σ α}

/-- Answering without a step goes the same way from related states. -/
theorem pure (a : α) : Respects R (pure a : EStateM ε σ α) :=
  fun _ _ h => .ok a h

/-- Raising an error goes the same way from related states. -/
theorem throw (e : ε) : Respects R (throw e : EStateM ε σ α) :=
  fun _ _ h => .error e h

/-- A change that keeps states related goes the same way from them. -/
theorem modify {f : σ → σ} (h : ∀ s s', R s s' → R (f s) (f s')) :
    Respects R (modify f : EStateM ε σ PUnit) :=
  fun s s' hs => .ok _ (h s s' hs)

/-- A sequence of actions goes the same way if each of them does. -/
theorem bind {k : α → EStateM ε σ β} (hx : Respects R x) (hk : ∀ a, Respects R (k a)) :
    Respects R (x >>= k) := by
  intro s s' h
  have hagree := hx s s' h
  generalize hr : x s = r, hr' : x s' = r' at hagree
  cases hagree with
  | ok a hmid =>
    rw [bind_of_ok hr, bind_of_ok hr']
    exact hk a _ _ hmid
  | error e hmid =>
    rw [bind_of_error hr, bind_of_error hr']
    exact .error e hmid

/-- An action and its handler go the same way if both do. -/
theorem tryCatch {handler : ε → EStateM ε σ α} (hx : Respects R x)
    (hh : ∀ e, Respects R (handler e)) : Respects R (tryCatch x handler) := by
  intro s s' h
  have hagree := hx s s' h
  generalize hr : x s = r, hr' : x s' = r' at hagree
  cases hagree with
  | ok a hmid =>
    rw [tryCatch_of_ok hr, tryCatch_of_ok hr']
    exact .ok a hmid
  | error e hmid =>
    rw [tryCatch_of_error hr, tryCatch_of_error hr']
    exact hh e _ _ hmid

/-- What looks at the state first may do so if it takes nothing from it that is not the same. -/
theorem get_bind {k : σ → EStateM ε σ α} (h : ∀ s s', R s s' → Agree R (k s s) (k s' s')) :
    Respects R (get >>= k) :=
  h

/-- Going the same way passes along sequences. -/
theorem sequential : Sequential fun x : EStateM ε σ _ => Respects R x :=
  ⟨pure, bind⟩

/-- An action that may return early from inside another one. -/
theorem earlyReturn {x : EStateM ε σ (Except α α)} (hx : Respects R x) :
    Respects R (do EarlyReturn.runK (← x) (fun a => Pure.pure a) fun a => Pure.pure a) :=
  sequential.earlyReturn hx

/-- A loop goes the same way if each of its steps does. -/
theorem forM {f : α → EStateM ε σ PUnit} {l : List α} (hf : ∀ a ∈ l, Respects R (f a)) :
    Respects R (l.forM f) :=
  sequential.forM hf

/-- Collecting answers goes the same way if each of the steps does. -/
theorem mapM {f : α → EStateM ε σ β} (hf : ∀ a, Respects R (f a)) (l : List α) :
    Respects R (l.mapM f) :=
  sequential.mapM hf l

/-- A step on a part of a state. -/
theorem onPart {R' : τ → τ → Prop} {part : τ → σ} {replace : τ → σ → τ} {step step' : EStateM Error σ α}
    {t t' : τ} (h : Agree R (step (part t)) (step' (part t')))
    (hreplace : ∀ s s', R s s' → R' (replace t s) (replace t' s')) :
    Agree R' (Backend.onPart part replace step t) (Backend.onPart part replace step' t') := by
  unfold Backend.onPart
  generalize step (part t) = r, step' (part t') = r' at h
  cases h with
  | ok a hstate => exact .ok a (hreplace _ _ hstate)
  | error e hstate => exact .error e (hreplace _ _ hstate)

end Respects

/-- A choice goes the same way if both of its branches do. -/
theorem Agree.ite {R : σ → σ → Prop} {p : Prop} [Decidable p] {x y x' y' : EStateM ε σ α} {s s' : σ}
    (hx : Agree R (x s) (x' s')) (hy : Agree R (y s) (y' s')) :
    Agree R ((if p then x else y) s) ((if p then x' else y') s') := by
  split
  · exact hx
  · exact hy

/-- A result agrees with itself. -/
theorem Agree.refl {R : σ → σ → Prop} (hR : ∀ s, R s s) (r : EStateM.Result ε σ α) : Agree R r r := by
  cases r with
  | ok a s => exact .ok a (hR s)
  | error e s => exact .error e (hR s)

namespace Workspace

/-! ## Reading -/

/-- A workspace with other subscribers. -/
def observed (w : Workspace σ) (n : Notifier) : Workspace σ :=
  { w with notifier := n }

/-- Two workspaces that differ in their subscribers only. -/
def Beside (w w' : Workspace σ) : Prop :=
  ∃ n, w' = w.observed n

/-- A workspace differs from itself in nothing. -/
theorem Beside.refl (w : Workspace σ) : Beside w w :=
  ⟨w.notifier, rfl⟩

/-- A step of the storage does not depend on the subscribers. -/
theorem respects_onStorage (step : EStateM Error σ α) : Respects Beside (onStorage step) := by
  rintro w - ⟨n, rfl⟩
  refine Respects.onPart (R := Eq) (Agree.refl (fun _ => rfl) _) ?_
  rintro s - rfl
  exact ⟨n, rfl⟩

/-- Looking an item up does not depend on the subscribers. -/
theorem respects_cachedOrLoaded (id : ItemId) : Respects Beside (cachedOrLoaded (σ := σ) id) := by
  refine Respects.get_bind ?_
  rintro w - ⟨n, rfl⟩
  dsimp only
  rw [show (w.observed n).cache.retrieve id = w.cache.retrieve id from rfl]
  rcases w.cache.retrieve id with ⟨_ | h, cache⟩
  · refine Respects.bind (respects_onStorage (w.backend.load id)) (fun s => ?_) w (w.observed n) ⟨n, rfl⟩
    refine Respects.get_bind ?_
    rintro u - ⟨m, rfl⟩
    exact .ok _ ⟨m, rfl⟩
  · exact .ok h ⟨n, rfl⟩

/-- Reading a stored item does not depend on the subscribers. -/
theorem respects_persistedItem (held : List Handle) (id : ItemId) :
    Respects Beside (persistedItem (σ := σ) held id) := by
  refine (respects_cachedOrLoaded id).bind fun h => Respects.bind (.modify ?_) fun _ => .pure h
  rintro w - ⟨n, rfl⟩
  refine ⟨n, ?_⟩
  unfold sweep
  by_cases hover : w.config.cacheSoftLimit < w.cache.size
  · rw [if_pos hover]
    exact if_pos hover
  · rw [if_neg hover]
    exact if_neg hover

/-- A result given beforehand does not depend on the state. -/
theorem respects_ofExcept {R : Workspace σ → Workspace σ → Prop} (r : Except Error α) :
    Respects R (ofExcept r : Action σ α) := by
  cases r with
  | ok a => exact .pure a
  | error e => exact .throw e

/-- Reading an item does not depend on the subscribers. -/
theorem respects_itemState (held : List Handle) (id : ItemId) :
    Respects Beside (itemState (σ := σ) held id) := by
  refine Respects.get_bind ?_
  rintro w - ⟨n, rfl⟩
  rw [show (w.observed n).claimant? id = w.claimant? id from rfl]
  cases w.claimant? id with
  | some p => exact respects_ofExcept (p.get id) w _ ⟨n, rfl⟩
  | none =>
    refine (respects_persistedItem held id).tryCatch (fun e => ?_) w _ ⟨n, rfl⟩
    split
    · refine Respects.get_bind ?_
      rintro u - ⟨m, rfl⟩
      rw [show (u.observed m).owner? id = u.owner? id from rfl]
      cases u.owner? id with
      | some p => exact respects_ofExcept (p.get id) u _ ⟨m, rfl⟩
      | none => exact .error _ ⟨m, rfl⟩
    · exact .throw e

/-- A question to the storage that counts as answered with no if the storage fails. -/
theorem respects_ask (step : EStateM Error σ Bool) :
    Respects Beside (tryCatch (onStorage step) fun _ => pure false : Action σ Bool) :=
  (respects_onStorage step).tryCatch fun _ => .pure false

/-- Asking whether there is an item does not depend on the subscribers. -/
theorem respects_hasItem (id : ItemId) : Respects Beside (hasItem (σ := σ) id) := by
  refine Respects.get_bind ?_
  rintro w - ⟨n, rfl⟩
  refine Agree.ite (p := ((w.claimant? id).isSome || w.isCached id) = true) (.ok true ⟨n, rfl⟩) ?_
  refine (respects_ask (w.backend.contains id)).bind (fun persisted => ?_) w _ ⟨n, rfl⟩
  cases persisted with
  | true => exact .pure true
  | false =>
    refine Respects.get_bind ?_
    rintro u - ⟨m, rfl⟩
    exact .ok _ ⟨m, rfl⟩

/-- Whether a reference dangles does not depend on the subscribers. -/
theorem respects_isDangling (log : ChangeLog LocalItem) (r : NodeReferences) :
    Respects Beside (isDangling (σ := σ) log r) := by
  unfold isDangling
  dsimp only
  split
  · exact .pure _
  · split
    · exact .pure _
    · split
      · exact .pure _
      · exact (respects_hasItem _).bind fun _ => .pure _

/-- How reference records are divided does not depend on the subscribers. -/
theorem respects_partitionReferences (log : ChangeLog LocalItem) (records : List NodeReferences) :
    Respects Beside (partitionReferences (σ := σ) log records) := by
  induction records with
  | nil => exact .pure _
  | cons r rest ih =>
    refine Respects.get_bind ?_
    rintro w - ⟨n, rfl⟩
    refine Agree.ite (p := (w.owner? (.node r.target)).isSome = true) ?_ ?_
    · exact ih.bind (fun _ => .pure _) w _ ⟨n, rfl⟩
    · refine (respects_isDangling log r).bind (fun dangling => ?_) w _ ⟨n, rfl⟩
      cases dangling with
      | true => exact .throw _
      | false => exact ih.bind fun _ => .pure _

/-! ## Reading between commits -/

/-- Reading stored references does not depend on the subscribers. -/
theorem respects_persistedReferences (target : NodeId) :
    Respects Beside (persistedReferences (σ := σ) target) := by
  refine Respects.get_bind ?_
  rintro w - ⟨n, rfl⟩
  refine Respects.bind (Respects.tryCatch ?_ fun _ => .pure _) (fun answer => ?_) w _ ⟨n, rfl⟩
  · refine (respects_onStorage (w.backend.containsReferences target)).bind fun known => ?_
    cases known with
    | true => exact (respects_onStorage (w.backend.loadReferences target)).bind fun _ => .pure _
    | false => exact .pure _
  · cases answer <;> exact .pure _

/-- Reading references does not depend on the subscribers. -/
theorem respects_references (target : NodeId) : Respects Beside (references (σ := σ) target) := by
  refine (respects_persistedReferences target).bind fun r => ?_
  cases r with
  | some r => exact .pure r
  | none =>
    refine Respects.get_bind ?_
    rintro w - ⟨n, rfl⟩
    rw [show (w.observed n).subtrees = w.subtrees from rfl]
    cases w.subtrees.find? (·.hasReferences target) with
    | some p => exact respects_ofExcept (p.references target) w _ ⟨n, rfl⟩
    | none => exact .error _ ⟨n, rfl⟩

/-- Asking whether there are references does not depend on the subscribers. -/
theorem respects_hasReferences (target : NodeId) :
    Respects Beside (hasReferences (σ := σ) target) := by
  refine Respects.get_bind ?_
  rintro w - ⟨n, rfl⟩
  refine (respects_ask (w.backend.containsReferences target)).bind (fun persisted => ?_) w _ ⟨n, rfl⟩
  cases persisted with
  | true => exact .pure true
  | false =>
    refine Respects.get_bind ?_
    rintro u - ⟨m, rfl⟩
    exact .ok _ ⟨m, rfl⟩

/-- A reading does not depend on the subscribers if what it does for the answer does not. -/
theorem respects_reading {action : Action σ α} (h : Respects Beside action) :
    Respects Beside (reading action) := by
  refine Respects.get_bind ?_
  rintro w - ⟨n, rfl⟩
  exact Agree.ite (p := w.locked = true) (.error _ ⟨n, rfl⟩) (h w _ ⟨n, rfl⟩)

/-- A failure that counts as no. -/
theorem respects_orNo {action : Action σ Bool} (h : Respects Beside action) :
    Respects Beside (try action catch _ => return false) :=
  Respects.earlyReturn ((h.bind fun _ => .pure _).tryCatch fun _ => .pure _)

/-- An action that tells nobody anything leaves the same but for the subscribers. -/
theorem stateAfter_observed {x : Action σ α} (hx : Respects Beside x) {w : Workspace σ} {n : Notifier}
    (hkept : (stateAfter x (w.observed n)).notifier = n) :
    stateAfter x (w.observed n) = (stateAfter x w).observed n := by
  have hagree := hx w _ ⟨n, rfl⟩
  generalize hr : x w = r, hr' : x (w.observed n) = r' at hagree
  cases hagree with
  | ok a hstate =>
    obtain ⟨m, rfl⟩ := hstate
    rw [stateAfter_of_ok hr'] at hkept ⊢
    rw [stateAfter_of_ok hr, ← hkept]
    rfl
  | error e hstate =>
    obtain ⟨m, rfl⟩ := hstate
    rw [stateAfter_of_error hr'] at hkept ⊢
    rw [stateAfter_of_error hr, ← hkept]
    rfl

end Workspace

/-! ## Committing -/

/-- Workspaces that differ in their subscribers only, each with the same state of a sink. -/
def BesideFirst (s s' : Workspace σ × τ) : Prop :=
  ∃ n, s' = (s.1.observed n, s.2)

/-- A sink that does not look at the subscribers. -/
structure Sink.Blind (sink : Sink σ τ) : Prop where
  create : ∀ held root log, Respects BesideFirst (sink.create held root log)
  prepare : Respects BesideFirst sink.prepare
  dispatch : ∀ held s s', BesideFirst s s' → BesideFirst (sink.dispatch held s) (sink.dispatch held s')

/-- The silent sink does not look at the subscribers. -/
theorem Sink.blind_silent : (Sink.silent σ).Blind :=
  ⟨fun _ _ _ => .pure _, .pure _, fun _ _ _ h => h⟩

/-- The sink that collects events does not look at the subscribers. -/
theorem Collector.blind_sink : (Collector.sink σ).Blind := by
  have hparent : ∀ held id, Respects BesideFirst (sharedParent (σ := σ) held id) := by
    rintro held id ⟨w, c⟩ - ⟨n, rfl⟩
    refine Respects.onPart (R := Workspace.Beside) (Respects.earlyReturn (Respects.tryCatch ?_
      fun _ => .pure _) w _ ⟨n, rfl⟩) ?_
    · refine (Workspace.respects_itemState held id).bind fun h => Respects.get_bind ?_
      rintro u - ⟨m, rfl⟩
      exact .ok _ ⟨m, rfl⟩
    · rintro u - ⟨m, rfl⟩
      exact ⟨m, rfl⟩
  have hask : ∀ held id, Respects BesideFirst (Event.askParent (sharedParent (σ := σ) held) id) := by
    intro held id
    cases id with
    | node n => exact hparent held _
    | property n => exact .pure none
  refine ⟨fun held root log => ?_, .modify ?_, ?_⟩
  · refine Respects.bind (Respects.bind (Respects.mapM (fun l : LocalItem => (hask held l.id).bind
      fun _ => .pure _) _) fun _ => Respects.bind (Respects.mapM (fun l : LocalItem => (hask held l.id).bind
        fun _ => .pure _) _) fun _ => .pure _) fun events => .modify ?_
    rintro ⟨w, c⟩ - ⟨n, rfl⟩
    exact ⟨n, rfl⟩
  · rintro ⟨w, c⟩ - ⟨n, rfl⟩
    exact ⟨n, rfl⟩
  · rintro held ⟨w, c⟩ - ⟨n, rfl⟩
    exact ⟨n, rfl⟩

namespace Commit

/-- Commits that differ in the subscribers of their workspaces only. -/
def Beside (c c' : Commit σ τ) : Prop :=
  ∃ n, c' = { c with workspace := c.workspace.observed n }

variable {sink : Sink σ τ}

/-- A step of the workspace in a commit does not depend on the subscribers if the step itself does not.
-/
theorem respects_onWorkspace {step : Workspace.Action σ α} (h : Respects Workspace.Beside step) :
    Respects Beside (onWorkspace (τ := τ) step) := by
  rintro c - ⟨n, rfl⟩
  refine Respects.onPart (h c.workspace _ ⟨n, rfl⟩) ?_
  rintro w - ⟨m, rfl⟩
  exact ⟨m, rfl⟩

/-- A step of the sink in a commit does not depend on the subscribers if the step itself does not. -/
theorem respects_onSink {step : EStateM Error (Workspace σ × τ) α} (h : Respects BesideFirst step) :
    Respects Beside (onSink step) := by
  rintro c - ⟨n, rfl⟩
  refine Respects.onPart (h (c.workspace, c.sink) _ ⟨n, rfl⟩) ?_
  rintro ⟨w, t⟩ - ⟨m, rfl⟩
  exact ⟨m, rfl⟩

/-- Finding a counterpart does not depend on the subscribers. -/
theorem respects_counterpart (cls : ChangeLog.Class) (l : LocalItem) :
    Respects Beside (counterpart (σ := σ) (τ := τ) cls l) := by
  rintro c - ⟨n, rfl⟩
  have hread : ∀ cls, cls ≠ .added → Agree Beside (counterpart cls l c)
      (counterpart cls l { c with workspace := c.workspace.observed n }) := by
    intro cls hcls
    rw [counterpart_eq hcls, counterpart_eq hcls]
    exact respects_onWorkspace (Workspace.respects_itemState c.holding l.id) c _ ⟨n, rfl⟩
  cases cls with
  | modified => exact hread _ (by decide)
  | deleted => exact hread _ (by decide)
  | added => exact .ok _ ⟨n, rfl⟩

/-- Connecting an item does not depend on the subscribers. -/
theorem respects_connectItem (cls : ChangeLog.Class) (id : ItemId) (l : LocalItem) :
    Respects Beside (connectItem (σ := σ) (τ := τ) cls id l) := by
  refine (respects_counterpart cls l).bind fun h => Respects.get_bind ?_
  rintro c - ⟨n, rfl⟩
  dsimp only
  rw [show (c.workspace.observed n).heap = c.workspace.heap from rfl]
  cases l.connect c.workspace.heap h with
  | ok l' => exact .ok _ ⟨n, rfl⟩
  | error e => exact .error e ⟨n, rfl⟩

/-- Persisting a commit does not depend on the subscribers if the sink does not look at them. -/
theorem respects_persist (hsink : sink.Blind) : Respects Beside (persist sink) := by
  rintro c - ⟨n, rfl⟩
  rw [persist_eq, persist_eq, forM_steps]
  refine Respects.bind (Respects.forM fun a _ => respects_connectItem a.1 a.2.1 a.2.2)
    (fun _ => Respects.forM fun step hstep => ?_) c _ ⟨n, rfl⟩
  simp only [finishing, List.mem_cons, List.not_mem_nil, or_false] at hstep
  rcases hstep with rfl | rfl | rfl | rfl | rfl
  · refine .modify ?_
    rintro c - ⟨n, rfl⟩
    exact ⟨n, rfl⟩
  · refine Respects.get_bind ?_
    rintro c - ⟨n, rfl⟩
    exact respects_onSink (hsink.create c.holding c.workspace.rootId c.log) c _ ⟨n, rfl⟩
  · exact respects_onSink hsink.prepare
  · refine Respects.get_bind ?_
    rintro c - ⟨n, rfl⟩
    refine Respects.onPart (R := Eq) (Agree.refl (fun _ => rfl) _) ?_
    rintro heap - rfl
    exact ⟨n, rfl⟩
  · refine Respects.get_bind ?_
    rintro c - ⟨n, rfl⟩
    exact respects_onWorkspace (Workspace.respects_onStorage _) c _ ⟨n, rfl⟩

end Commit

namespace Workspace

/-- A loop over instances keeps workspaces beside each other if each of its steps does. -/
theorem Beside.foldl {step : Workspace σ → Handle → Workspace σ}
    (hstep : ∀ w n h, Beside (step w h) (step (w.observed n) h)) (hs : List Handle) :
    ∀ w n, Beside (hs.foldl step w) (hs.foldl step (w.observed n)) := by
  induction hs with
  | nil => exact fun w n => ⟨n, rfl⟩
  | cons h rest ih =>
    intro w n
    obtain ⟨m, hm⟩ := hstep w n h
    rw [List.foldl_cons, List.foldl_cons, hm]
    exact ih (step w h) m

/-- Rolling back keeps workspaces beside each other. -/
theorem beside_rollBack (w : Workspace σ) (n : Notifier) (shared : ChangeLog Handle) :
    Beside (w.rollBack shared) ((w.observed n).rollBack shared) := by
  have hrestore : ∀ (w : Workspace σ) n h, Beside (w.restore h) ((w.observed n).restore h) := by
    intro w n h
    rw [restore_eq, restore_eq, show (w.observed n).backend.load h.id (w.observed n).storage =
      w.backend.load h.id w.storage from rfl]
    cases w.backend.load h.id w.storage with
    | ok s t => exact ⟨n, rfl⟩
    | error e t => exact ⟨_, rfl⟩
  obtain ⟨m, hm⟩ := Beside.foldl hrestore (shared.modifiedItems.values ++ shared.deletedItems.values) w n
  rw [rollBack_eq, rollBack_eq, hm]
  exact Beside.foldl (fun w n h => ⟨_, rfl⟩) _ _ m

/-- Taking over what was persisted keeps workspaces beside each other. -/
theorem beside_persisted (w : Workspace σ) (n : Notifier) (shared : ChangeLog Handle) :
    Beside (w.persisted shared) ((w.observed n).persisted shared) := by
  have hadded : ∀ (w : Workspace σ) n h, Beside (settleAdded w h) (settleAdded (w.observed n) h) :=
    fun _ _ _ => ⟨_, rfl⟩
  have hmodified : ∀ (w : Workspace σ) n h,
      Beside (settleModified w h) (settleModified (w.observed n) h) := fun _ _ _ => ⟨_, rfl⟩
  unfold persisted
  obtain ⟨m, hm⟩ := Beside.foldl hadded shared.addedItems.values w n
  obtain ⟨k, hk⟩ := Beside.foldl hmodified shared.modifiedItems.values
    (shared.addedItems.values.foldl settleAdded w) m
  rw [hm, hk]
  exact Beside.foldl (fun w n h => ⟨_, rfl⟩) _ _ k

/-- A commit with other subscribers. -/
def Outcome.observed (out : Outcome σ τ) (n : Notifier) : Outcome σ τ :=
  { out with workspace := out.workspace.observed n }

/-- Abandoning keeps commits beside each other. -/
theorem beside_abandon (e : Error) (c : Commit σ τ) (n : Notifier) :
    ∃ m, abandon e { c with workspace := c.workspace.observed n } = (abandon e c).observed m := by
  obtain ⟨m, hm⟩ := beside_rollBack c.workspace n c.shared
  refine ⟨m, ?_⟩
  show Outcome.mk _ { (c.workspace.observed n).rollBack c.shared with locked := false } _ _ = _
  rw [hm]
  rfl

/-- What concluding does once the persisted state of the workspace is known. -/
theorem conclude_eq (sink : Sink σ τ) (virtual : List NodeReferences) (c : Commit σ τ)
    {u : Workspace σ} (hu : c.workspace.persisted c.shared = u) :
    conclude sink virtual c =
      ⟨.ok (),
        (sink.dispatch (c.held ++ (c.log.settle u.heap).2.connections)
          ({ u.deliver virtual with locked := false }, c.sink)).1,
        (sink.dispatch (c.held ++ (c.log.settle u.heap).2.connections)
          ({ u.deliver virtual with locked := false }, c.sink)).2,
        (c.log.settle u.heap).2⟩ := by
  subst hu
  rfl

/-- Concluding keeps commits beside each other if the sink does not look at the subscribers. -/
theorem beside_conclude {sink : Sink σ τ} (hsink : sink.Blind) (virtual : List NodeReferences)
    (c : Commit σ τ) (n : Notifier) :
    ∃ m, conclude sink virtual { c with workspace := c.workspace.observed n } =
      (conclude sink virtual c).observed m := by
  obtain ⟨k, hk⟩ := beside_persisted c.workspace n c.shared
  generalize hu : c.workspace.persisted c.shared = u at hk
  obtain ⟨m, hm⟩ := hsink.dispatch (c.held ++ (c.log.settle u.heap).2.connections)
    ({ u.deliver virtual with locked := false }, c.sink)
    ({ (u.observed k).deliver virtual with locked := false }, c.sink) ⟨k, rfl⟩
  refine ⟨m, ?_⟩
  rw [conclude_eq sink virtual { c with workspace := c.workspace.observed n } hk,
    conclude_eq sink virtual c hu]
  show Outcome.mk _ (sink.dispatch (c.held ++ (c.log.settle u.heap).2.connections)
    ({ (u.observed k).deliver virtual with locked := false }, c.sink)).1 (sink.dispatch
      (c.held ++ (c.log.settle u.heap).2.connections)
      ({ (u.observed k).deliver virtual with locked := false }, c.sink)).2 _ = _
  rw [hm]
  rfl

/-- A commit goes the same way, and gives up the same instances, whoever has subscribed. -/
theorem beside_store {sink : Sink σ τ} (hsink : sink.Blind) {w : Workspace σ} (hw : w.locked = false)
    (held : List Handle) (t : τ) (log : ChangeLog LocalItem) (n : Notifier) :
    (∃ m, store sink held (w.observed n) t log = (store sink held w t log).observed m) ∧
      discards sink held (w.observed n) t log = discards sink held w t log := by
  have hunlocked : ¬w.locked = true := by
    rw [hw]
    decide
  have hpartition := respects_partitionReferences log log.references.values w _ ⟨n, rfl⟩
  rw [store, store, if_neg hunlocked, if_neg (show ¬(w.observed n).locked = true from hunlocked),
    discards, discards]
  generalize partitionReferences log log.references.values w = r,
    partitionReferences log log.references.values (w.observed n) = r' at hpartition
  cases hpartition with
  | error e hstate =>
    obtain ⟨m, rfl⟩ := hstate
    exact ⟨⟨m, rfl⟩, rfl⟩
  | @ok a u u' hstate =>
    obtain ⟨m, rfl⟩ := hstate
    obtain ⟨records, virtual⟩ := a
    have hpersist := Commit.respects_persist hsink (begin u t held log records)
      (begin (u.observed m) t held log records) ⟨m, rfl⟩
    dsimp only
    generalize Commit.persist sink (begin u t held log records) = r,
      Commit.persist sink (begin (u.observed m) t held log records) = r' at hpersist
    cases hpersist with
    | error e hstate =>
      obtain ⟨k, rfl⟩ := hstate
      exact ⟨beside_abandon e _ k, rfl⟩
    | ok v hstate =>
      obtain ⟨k, rfl⟩ := hstate
      exact ⟨beside_conclude hsink virtual _ k, rfl⟩

/-- **A commit does not know its subscribers**: its transitions do not depend on them, and neither does
anything else that it leaves behind. -/
theorem store_observed {b : Backend σ} {sink : Sink σ τ} {log : ChangeLog LocalItem} {w : Workspace σ}
    (hw : w.Ready b) (hsink : sink.OnlyReads) (hblind : sink.Blind) (hlog : log.Recorded)
    (held : List Handle) (t : τ) (n : Notifier) :
    transitions sink held (w.observed n) t log = transitions sink held w t log ∧
      store sink held (w.observed n) t log =
        (store sink held w t log).observed (n.tell (transitions sink held w t log)) := by
  obtain ⟨⟨m, hm⟩, hdiscards⟩ := beside_store hblind hw.unlocked held t log n
  have htransitions : transitions sink held (w.observed n) t log = transitions sink held w t log := by
    rw [transitions, transitions, hm, hdiscards]
    rfl
  refine ⟨htransitions, ?_⟩
  have hw' : (w.observed n).Ready b :=
    ⟨⟨hw.sound.cached, hw.sound.provided⟩, hw.unlocked, hw.backend⟩
  have htold := notifier_store hw' hsink hlog held t
  rw [htransitions, hm] at htold
  rw [hm, ← show m = n.tell (transitions sink held w t log) from htold]

end Workspace

end ContentTree
