import ContentTree.Proofs.Workspace.Routing

/-!
# Instances that virtual subtrees lend

The instances of virtual subtrees are never cached (`Apart`), so a commit comes to one of them only if
a look-up gives it out: the one that a subtree has for its root, and the one that a subtree has for an
item that the backend does not find (`Lends`). However far a commit gets, it has come to no other
instance of a subtree (`borrows_persist`).
-/

namespace ContentTree

namespace Workspace

variable {σ τ : Type} {b : Backend σ} {w w' : Workspace σ} {held : List Handle}

/-! ## Instances that are given out -/

/-- Some subtree, registered or not, holds an instance. -/
def Provides (w : Workspace σ) (h : Handle) : Prop :=
  ∃ p ∈ w.providers, ∃ id, p.items.get? id = some h

/-- A look-up in a workspace may give out an instance of a subtree. -/
inductive Lends (w : Workspace σ) (h : Handle) : Prop where
  /-- The subtree claims the identity as its root. -/
  | claimed {p : Provider} : w.claimant? h.id = some p → p.items.get? h.id = some h → Lends w h
  /-- The subtree is the first that holds the item, and the backend does not find it. -/
  | owned {p : Provider} {asked after : σ} {e : Error} : w.claimant? h.id = none →
    w.backend.Queried w.storage asked → w.backend.load h.id asked = .error e after →
    e.isNotFound = true → w.owner? h.id = some p → p.items.get? h.id = some h → Lends w h

/-- The cache and the subtrees share no instance. -/
structure Apart (w : Workspace σ) : Prop where
  cached : ∀ {id h}, w.cache.peek? id = some h → ¬w.Provides h
  rootValid : w.heap.Valid w.root
  root : ¬w.Provides w.root

/-- In a sound workspace the instances of the providers are valid. -/
theorem Sound.valid_of_provides (hw : w.Sound) {h : Handle} (hh : w.Provides h) :
    w.heap.Valid h := by
  obtain ⟨p, hp, id, hget⟩ := hh
  exact hw.provided p hp id h hget

/-- Nothing that was made later is held by a subtree. -/
theorem Sound.not_provides_of_fresh (hw : w.Sound) {h : Handle} (hh : w.heap.cells.size ≤ h.index) :
    ¬w.Provides h :=
  fun hp => Nat.not_le_of_lt (hw.valid_of_provides hp).index_lt hh

/-- What is provided depends on the items of the providers only. -/
theorem provides_congr (h : w'.providers.map Provider.items = w.providers.map Provider.items)
    {k : Handle} : w'.Provides k ↔ w.Provides k := by
  have hitems : ∀ u : Workspace σ, u.Provides k ↔
      ∃ items ∈ u.providers.map Provider.items, ∃ id, items.get? id = some k := by
    intro u
    constructor
    · rintro ⟨p, hp, id, hget⟩
      exact ⟨p.items, List.mem_map.2 ⟨p, hp, rfl⟩, id, hget⟩
    · rintro ⟨items, hmem, id, hget⟩
      obtain ⟨p, hp, rfl⟩ := List.mem_map.1 hmem
      exact ⟨p, hp, id, hget⟩
  rw [hitems, hitems, h]

/-- What is cached after the cache only took in new instances is still apart from the subtrees. -/
theorem Apart.congr (hw : w.Apart) (hsound : w.Sound)
    (hitems : w'.providers.map Provider.items = w.providers.map Provider.items)
    (hroot : w'.root = w.root) (hvalid : w.heap.Valid w.root → w'.heap.Valid w.root)
    (hentries : ∀ {id h}, w'.cache.peek? id = some h →
      w.cache.peek? id = some h ∨ w.heap.cells.size ≤ h.index) : w'.Apart where
  cached hid := by
    rw [provides_congr hitems]
    exact (hentries hid).elim hw.cached hsound.not_provides_of_fresh
  rootValid := hroot ▸ hvalid hw.rootValid
  root := by
    rw [provides_congr hitems, hroot]
    exact hw.root

/-- Providers stay apart while the workspace is looked at. -/
theorem Apart.look (hw : w.Apart) (hsound : w.Sound) (h : w.LookedAt held w') : w'.Apart :=
  hw.congr hsound (by rw [h.providers]) h.root h.heap.valid
    fun hid => (h.entry hid).imp_right fun hnew => hnew.fresh

/-- Looking at a workspace lends nothing new. -/
theorem LookedAt.lends (h : w.LookedAt held w') {k : Handle} (hk : w'.Lends k) : w.Lends k := by
  have hclaimant : ∀ id, w'.claimant? id = w.claimant? id := fun id => by
    rw [claimant?, h.subtrees, claimant?]
  cases hk with
  | claimed hclaim hget => exact .claimed (hclaimant _ ▸ hclaim) hget
  | owned hclaim hasked hload he howner hget =>
    rw [h.backend] at hasked hload
    exact .owned (hclaimant _ ▸ hclaim) (h.storage.trans hasked) hload he (h.owner? _ ▸ howner) hget

/-- Taking the lock makes no difference to what is lent. -/
theorem Lends.unlock {locked : Bool} {k : Handle} (hk : Lends { w with locked } k) : w.Lends k := by
  cases hk with
  | claimed hclaim hget => exact .claimed hclaim hget
  | owned hclaim hasked hload he howner hget => exact .owned hclaim hasked hload he howner hget

/-- An item that a workspace cannot come up with could not be loaded. -/
theorem load_of_persistedItem_error {id : ItemId} {e : Error}
    (h : persistedItem held id w = .error e w') :
    ∃ t, w.backend.load id w.storage = .error e t := by
  cases hload : cachedOrLoaded id w with
  | ok k mid =>
    rw [persistedItem, bind_of_ok hload] at h
    cases h
  | error e' mid =>
    rw [persistedItem, bind_of_error hload] at h
    cases h
    cases hc : w.cache.peek? id with
    | some k => rw [cachedOrLoaded_of_cached hc] at hload; cases hload
    | none =>
      rw [cachedOrLoaded_of_not_cached hc] at hload
      cases hl : w.backend.load id w.storage with
      | ok s t => rw [hl] at hload; cases hload
      | error e'' t =>
        rw [hl] at hload
        cases hload
        exact ⟨t, rfl⟩

/-- An instance of a subtree that is read was lent. -/
theorem Apart.lends_of_itemState (hw : w.Apart) (hsound : w.Sound) {id : ItemId} {h : Handle}
    (hr : itemState held id w = .ok h w') (hid : h.id = id) (hh : w.Provides h) : w.Lends h := by
  subst hid
  rw [itemState, get_bind] at hr
  cases hclaim : w.claimant? h.id with
  | some p =>
    rw [hclaim] at hr
    exact .claimed hclaim (ofExcept_get_ok hr).2
  | none =>
    rw [hclaim] at hr
    replace hr : (tryCatch (persistedItem held h.id) _ : Action σ Handle) w = .ok h w' := hr
    have hlook := lookedAt_persistedItem held h.id w
    cases hitem : persistedItem held h.id w with
    | ok k mid =>
      rw [tryCatch_of_ok hitem] at hr
      rw [stateAfter_of_ok hitem] at hlook
      cases hr
      -- what is found in the cache or loaded is no instance of a subtree
      rcases hlook.entry (peek?_of_persistedItem hitem) with hold | hnew
      · exact absurd hh (hw.cached hold)
      · exact absurd hh (hsound.not_provides_of_fresh hnew.fresh)
    | error e mid =>
      obtain ⟨t, hload⟩ := load_of_persistedItem_error hitem
      rw [tryCatch_of_error hitem] at hr
      rw [stateAfter_of_error hitem] at hlook
      split at hr
      · next he =>
        rw [get_bind] at hr
        cases howner : mid.owner? h.id with
        | none => rw [howner] at hr; cases hr
        | some p =>
          rw [howner] at hr
          exact .owned hclaim (.refl _) hload he (hlook.owner? _ ▸ howner) (ofExcept_get_ok hr).2
      · cases hr

end Workspace

/-! ## What a commit comes to -/

namespace Commit

variable {σ τ : Type} {w : Workspace σ}

/-- The instances of subtrees among those that a commit came to are lent by the workspace. -/
def Borrows (w : Workspace σ) (shared : ChangeLog Handle) : Prop :=
  ∀ h ∈ shared.states, w.Provides h → w.Lends h

/-- While overlays are connected nothing else is borrowed. -/
structure Borrowing (w : Workspace σ) (c : Commit σ τ) : Prop where
  looked : w.LookedAt [] c.workspace
  borrows : Borrows w c.shared

/-- Steps that keep to what is lent. -/
def KeepsBorrowing (w : Workspace σ) (c c' : Commit σ τ) : Prop :=
  Borrowing w c → Borrowing w c'

instance (w : Workspace σ) : IsPreorder (Commit σ τ) (KeepsBorrowing w) where
  refl _ h := h
  trans _ _ _ hab hbc h := hbc (hab h)

/-- Steps that come to no further instance. -/
def KeepsShared (c c' : Commit σ τ) : Prop :=
  c'.shared = c.shared

instance : IsPreorder (Commit σ τ) KeepsShared where
  refl _ := rfl
  trans _ _ _ hab hbc := Eq.trans hbc hab

/-- Borrowing goes on while the workspace is looked at. -/
theorem Borrowing.read {c : Commit σ τ} (hc : Borrowing w c) {u : Workspace σ}
    (hlook : c.workspace.LookedAt c.holding u) : Borrowing w { c with workspace := u } where
  looked := trans_of (Workspace.LookedAt []) hc.looked (hlook.mono fun h hh => by cases hh)
  borrows := hc.borrows

/-- Connecting an overlay comes to the instance that a look-up gives out, or to one of its own. -/
theorem keepsBorrowing_connectNext (hsound : w.Sound) (hapart : w.Apart)
    {a : ChangeLog.Class × ItemId × LocalItem} (ha : a.2.2.Faithful) :
    Tracks (KeepsBorrowing (σ := σ) (τ := τ) w) (connectNext a) := by
  obtain ⟨cls, id, l⟩ := a
  intro c hc
  obtain ⟨u, hafter, hlook⟩ := counterpart_looked cls l c
  have hread := hc.read hlook
  show Borrowing w (stateAfter (connectItem cls id l) c)
  rw [stateAfter, connectItem_eq]
  cases hr : counterpart cls l c with
  | error e c' =>
    rw [stateAfter_of_error hr] at hafter
    exact hafter ▸ hread
  | ok h c' =>
    rw [stateAfter_of_ok hr] at hafter
    subst hafter
    dsimp only
    cases hconnect : l.connect u.heap h with
    | error e => exact hread
    | ok l' =>
      obtain ⟨hid, -, -⟩ := LocalItem.connect_ok ha hconnect
      refine ⟨hread.looked, fun k hk hprovided => ?_⟩
      rcases ChangeLog.mem_states_record cls hk with rfl | hold
      · -- what is found for an item that is not added was looked up, and so is lent if it is provided
        have hfound : cls ≠ .added → w.Lends k := by
          intro hcls
          rw [counterpart_eq hcls] at hr
          obtain ⟨v, hv, -⟩ := onPart_ok hr
          have hprovided' : c.workspace.Provides k :=
            (Workspace.provides_congr (by rw [hc.looked.providers])).2 hprovided
          exact hc.looked.lends ((hapart.look hsound hc.looked).lends_of_itemState
            (hc.looked.sound hsound) hv hid hprovided')
        cases cls with
        | modified => exact hfound (by decide)
        | deleted => exact hfound (by decide)
        | added =>
          replace hr : EStateM.Result.ok (ε := Error) (createInstance l.state c.workspace).1 _ =
            .ok k _ := hr
          cases hr
          -- an instance made by the commit is younger than all that is provided
          exact absurd hprovided (hsound.not_provides_of_fresh hc.looked.heap.size_le)
      · exact hc.borrows k hold hprovided

/-- What follows the connecting of overlays comes to no further instance. -/
theorem keepsShared_finishing (sink : Sink σ τ) :
    Tracks KeepsShared ((finishing sink).forM id : Action σ τ PUnit) := by
  have honSink : ∀ {α : Type} (step : EStateM Error (Workspace σ × τ) α),
      Tracks KeepsShared (onSink step : Action σ τ α) := by
    intro α step c
    rw [onSink, stateAfter_onPart]
    rfl
  exact tracks_finishing (fun _ => rfl) (fun _ => honSink _ _) (honSink _) fun _ _ _ => rfl

/-- However far it gets, a commit comes to no instance of a subtree that is not lent. -/
theorem borrows_persist (sink : Sink σ τ) (hsound : w.Sound) (hapart : w.Apart) {c : Commit σ τ}
    (hlog : c.log.Recorded) (hlook : w.LookedAt [] c.workspace) (hempty : c.shared.states = []) :
    Borrows w (stateAfter (persist sink) c).shared := by
  have hconnect : Tracks (KeepsBorrowing w) (c.log.agenda.forM connectNext : Action σ τ PUnit) := by
    refine Tracks.forM fun a ha => keepsBorrowing_connectNext hsound hapart ?_
    exact hlog.faithful _ (ChangeLog.mem_states.2
      ⟨a.1, OrderedMap.mem_values.2 ⟨a.2.1, ChangeLog.mem_agenda.1 ha⟩⟩)
  have hbegin : Borrowing w c := ⟨hlook, fun h hh => by rw [hempty] at hh; cases hh⟩
  have hbetween := hconnect c hbegin
  rw [stateAfter, persist_eq, forM_steps]
  cases hfirst : c.log.agenda.forM connectNext c with
  | error e mid =>
    rw [bind_of_error hfirst]
    rw [stateAfter_of_error hfirst] at hbetween
    exact hbetween.borrows
  | ok u mid =>
    rw [bind_of_ok hfirst]
    rw [stateAfter_of_ok hfirst] at hbetween
    have hshared := keepsShared_finishing sink mid
    show Borrows w (stateAfter ((finishing sink).forM id) mid).shared
    rw [show (stateAfter ((finishing sink).forM id) mid).shared = mid.shared from hshared]
    exact hbetween.borrows

end Commit

end ContentTree
