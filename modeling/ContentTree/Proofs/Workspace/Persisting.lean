import ContentTree.Proofs.Workspace.Connecting

/-!
# The steps of a commit that can fail

After the overlays are connected the sink derives its events, the local data is copied into the
instances, and the backend is handed the batch. Copying changes the data of connected instances and
nothing else. Main statement: how a commit stands wherever it fails, and how it stands when nothing
failed (`persist_run`).
-/

namespace ContentTree

/-! ## Copying data into instances -/

namespace Heap

/-- Only data was written, and only to the instances listed. -/
structure Overwritten (written : List Handle) (old new : Heap) : Prop where
  valid : ∀ h, new.Valid h ↔ old.Valid h
  copied : ∀ h, new.read h = (old.read h).copyFrom (new.read h)
  other : ∀ h, (∀ k ∈ written, k.index ≠ h.index) → new.read h = old.read h

instance (written : List Handle) : IsPreorder Heap (Overwritten written) where
  refl _ := ⟨fun _ => Iff.rfl, fun _ => rfl, fun _ _ => rfl⟩
  trans _ _ _ hab hbc := by
    refine ⟨fun h => (hbc.valid h).trans (hab.valid h), fun h => ?_,
      fun h hh => (hbc.other h hh).trans (hab.other h hh)⟩
    rw [hbc.copied h, hab.copied h]
    rfl

/-- What is written to some instances is written to more of them. -/
theorem Overwritten.mono {some all : List Handle} {old new : Heap} (h : Overwritten some old new)
    (hsub : ∀ k ∈ some, k ∈ all) : Overwritten all old new :=
  { h with other := fun k hk => h.other k fun j hj => hk j (hsub j hj) }

/-- Copying a state into an instance writes to that instance only. -/
theorem overwritten_copyInto (heap : Heap) (h : Handle) (s : ItemState) :
    Overwritten [h] heap (heap.copyInto h s) where
  valid _ := valid_copyInto
  copied k := by
    by_cases hk : k.index = h.index
    · simp only [copyInto, modify, read, Array.getD_eq_getD_getElem?, Array.getElem?_modify, hk,
        if_true]
      cases heap.cells[h.index]? <;> rfl
    · rw [copyInto, read_modify_of_ne _ hk]
      rfl
  other k hk := read_modify_of_ne _ (fun hi => hk h (List.mem_singleton.2 rfl) hi.symm) _

/-- Writing data keeps the identities. -/
theorem Overwritten.keepsIds {written : List Handle} {old new : Heap}
    (h : Overwritten written old new) : KeepsIds old new :=
  fun k hv => (h.valid k).2 hv

end Heap

namespace ChangeLog

/-- Copies one overlay into its instance. -/
def pushState (l : LocalItem) : EStateM Error Heap Unit := do
  match l.push (← get) with
  | .ok heap => set heap
  | .error e => throw e

/-- Pushing a log pushes its states one by one. -/
theorem push_eq (log : ChangeLog LocalItem) : log.push = log.states.forM pushState := rfl

/-- The state of a connected overlay is copied into its instance. -/
theorem pushState_of_connected {l : LocalItem} {h : Handle} (hl : l.overlayed = some h)
    (heap : Heap) : pushState l heap = .ok () (heap.copyInto h l.state) := by
  have hpush : l.push heap = .ok (heap.copyInto h l.state) := by
    simp only [LocalItem.push, LocalItem.shared, hl]
    rfl
  show (match l.push heap with
    | .ok heap => set heap
    | .error e => throw e : EStateM Error Heap Unit) heap = _
  rw [hpush]
  rfl

/-- The state of an overlay that is not connected cannot be pushed. -/
theorem pushState_of_not_connected {l : LocalItem} (hl : l.overlayed = none) (heap : Heap) :
    pushState l heap = .error (.itemState (.notConnected l.id)) heap := by
  have hpush : l.push heap = .error (.itemState (.notConnected l.id)) := by
    simp only [LocalItem.push, LocalItem.shared, hl]
    rfl
  show (match l.push heap with
    | .ok heap => set heap
    | .error e => throw e : EStateM Error Heap Unit) heap = _
  rw [hpush]
  rfl

/-- However far it gets, pushing writes to connected instances only. -/
theorem overwritten_forM {ls : List LocalItem} {written : List Handle}
    (h : ∀ l ∈ ls, ∀ k, l.overlayed = some k → k ∈ written) :
    Tracks (Heap.Overwritten written) (ls.forM pushState) := by
  refine Tracks.forM fun l hl heap => ?_
  cases hover : l.overlayed with
  | none =>
    rw [stateAfter_of_error (pushState_of_not_connected hover heap)]
    exact refl_of (Heap.Overwritten _) heap
  | some k =>
    rw [stateAfter_of_ok (pushState_of_connected hover heap)]
    refine (Heap.overwritten_copyInto heap k l.state).mono fun j hj => ?_
    rw [List.mem_singleton.1 hj]
    exact h l hl k hover

/-- Pushing a log writes to the instances it is connected to. -/
theorem overwritten_push (log : ChangeLog LocalItem) :
    Tracks (Heap.Overwritten log.connections) log.push := by
  rw [push_eq]
  exact overwritten_forM fun l hl k hk => List.mem_filterMap.2 ⟨l, hl, hk⟩

/-- Once all overlays are pushed, each instance has the data of its overlay. -/
theorem read_of_push {ls : List LocalItem} {heap heap' : Heap}
    (hp : ls.forM pushState heap = .ok ⟨⟩ heap')
    (hvalid : ∀ h ∈ ls.filterMap LocalItem.overlayed, heap.Valid h)
    (hnodup : (ls.filterMap LocalItem.overlayed).Nodup) {l : LocalItem} {h : Handle} (hl : l ∈ ls)
    (hover : l.overlayed = some h) : heap'.read h = (heap.read h).copyFrom l.state := by
  induction ls generalizing heap with
  | nil => cases hl
  | cons a rest ih =>
    replace hp : (pushState a >>= fun _ => rest.forM pushState) heap = .ok ⟨⟩ heap' := hp
    cases ha : a.overlayed with
    | none =>
      obtain ⟨u, mid, hfirst, -⟩ := exists_of_bind_ok hp
      have herr := pushState_of_not_connected ha heap
      rw [herr] at hfirst
      cases hfirst
    | some k =>
      rw [bind_of_ok (pushState_of_connected ha heap)] at hp
      rw [List.filterMap_cons_some ha] at hvalid hnodup
      obtain ⟨hfresh, hrest⟩ := List.nodup_cons.1 hnodup
      have hk : heap.Valid k := hvalid k (List.mem_cons_self ..)
      have hvalid' : ∀ j ∈ rest.filterMap LocalItem.overlayed,
          (heap.copyInto k a.state).Valid j := fun j hj =>
        Heap.valid_copyInto.2 (hvalid j (List.mem_cons_of_mem k hj))
      rcases List.mem_cons.1 hl with rfl | hmem
      · -- the later overlays belong to other instances
        obtain rfl : h = k := by rw [hover] at ha; cases ha; rfl
        have hafter : (heap.copyInto h l.state).Overwritten (rest.filterMap LocalItem.overlayed)
            (stateAfter (rest.forM pushState) (heap.copyInto h l.state)) :=
          overwritten_forM (fun l hl k hk => List.mem_filterMap.2 ⟨l, hl, hk⟩) _
        rw [stateAfter_of_ok hp] at hafter
        rw [hafter.other h fun j hj hi => hfresh ?_, Heap.read_copyInto hk]
        exact (hvalid j (List.mem_cons_of_mem h hj)).eq_of_index hk hi ▸ hj
      · have hmem' : h ∈ rest.filterMap LocalItem.overlayed := List.mem_filterMap.2 ⟨l, hmem, hover⟩
        have hne : h ≠ k := fun heq => hfresh (heq ▸ hmem')
        rw [ih hp hvalid' hrest hmem]
        have hread : (heap.copyInto k a.state).read h = heap.read h :=
          Heap.read_modify_of_ne heap
            ((hvalid h (List.mem_cons_of_mem k hmem')).index_ne hk hne) _
        rw [hread]

end ChangeLog

/-! ## All steps -/

namespace Commit

variable {σ τ : Type} {sink : Sink σ τ}

/-- Sets of a log other than the one that is being connected stay as they are. -/
def KeepsSets (cls : ChangeLog.Class) (c c' : Commit σ τ) : Prop :=
  ∀ cls', cls' ≠ cls → c'.log.itemsOf cls' = c.log.itemsOf cls'

instance (cls : ChangeLog.Class) : IsPreorder (Commit σ τ) (KeepsSets cls) where
  refl _ _ _ := rfl
  trans _ _ _ hab hbc cls' hne := (hbc cls' hne).trans (hab cls' hne)

/-- Connecting the items of one class keeps the other sets. -/
theorem keepsSets_connectClass (cls : ChangeLog.Class) :
    Tracks (KeepsSets cls) (connectClass (σ := σ) (τ := τ) cls) := by
  intro c
  refine Tracks.forM (R := KeepsSets cls) (fun e _ c => ?_) c
  show KeepsSets cls c (stateAfter (connectItem cls e.1 e.2) c)
  obtain ⟨w, -, hafter | ⟨l', h, hafter⟩⟩ := stateAfter_connectItem cls e.1 e.2 c
  · rw [hafter]
    exact fun _ _ => rfl
  · rw [hafter]
    exact fun cls' hne => (ChangeLog.itemsOf_setItems _ _ _ _).trans (if_neg hne)

/-- Connecting the items of one class connects them one after the other. -/
theorem connectClass_eq (cls : ChangeLog.Class) (c : Commit σ τ) :
    connectClass cls c =
      ((c.log.itemsOf cls).entries.map fun e => (cls, e)).forM connectNext c := by
  show (c.log.itemsOf cls).entries.forM (fun e => connectItem cls e.1 e.2) c = _
  rw [List.forM_eq_forM, List.forM_eq_forM, List.forM_map]
  rfl

/-- A commit goes through its steps. -/
theorem persist_eq (sink : Sink σ τ) (c : Commit σ τ) :
    persist sink c = (steps sink c.log).forM id c := by
  -- the later sets are connected as they were at the beginning
  have hlater : ∀ {cls cls' : ChangeLog.Class} {u v : Commit σ τ}, cls' ≠ cls →
      connectClass cls u = .ok () v → v.log.itemsOf cls' = u.log.itemsOf cls' := by
    intro cls cls' u v hne hr
    have hkeeps := keepsSets_connectClass cls u
    rw [stateAfter_of_ok hr] at hkeeps
    exact hkeeps cls' hne
  have hsteps : (steps sink c.log).forM id =
      (((c.log.itemsOf .modified).entries.map fun e => (.modified, e)).forM connectNext >>= fun _ =>
        ((c.log.itemsOf .deleted).entries.map fun e => (.deleted, e)).forM connectNext >>= fun _ =>
          ((c.log.itemsOf .added).entries.map fun e => (.added, e)).forM connectNext >>= fun _ =>
            (finishing sink).forM id : Action σ τ Unit) := by
    simp only [steps, ChangeLog.agenda, List.flatMap_cons, List.flatMap_nil, List.append_nil,
      List.forM_eq_forM, List.forM_append, List.forM_map, bind_assoc, id]
  rw [hsteps]
  refine bind_congr_of_ok (connectClass_eq .modified c) fun _ u hu => ?_
  have hdeleted := connectClass_eq .deleted u
  rw [hlater (by decide) hu] at hdeleted
  refine bind_congr_of_ok hdeleted fun _ v hv => ?_
  have hadded := connectClass_eq .added v
  rw [hlater (by decide) hv, hlater (by decide) hu] at hadded
  refine bind_congr_of_ok hadded fun _ w _ => ?_
  simp only [finishing, announce, createEvents, List.forM_eq_forM, List.forM_cons, List.forM_nil, id,
    bind_pure_unit, bind_assoc]

/-- The steps of a commit: the overlays are connected, and the rest is done. -/
theorem forM_steps (sink : Sink σ τ) (log : ChangeLog LocalItem) : (steps sink log).forM id =
    (log.agenda.forM connectNext >>= fun _ => (finishing sink).forM id : Action σ τ Unit) := by
  simp only [steps, List.forM_eq_forM, List.forM_append, List.forM_map, id]

/-! ## How a commit stands when a step fails -/

/-- How a commit that began as `c₀` stands at any time before it is settled or given up. -/
structure Underway (c₀ c : Commit σ τ) : Prop where
  fixture : c.workspace.fixture = c₀.workspace.fixture
  sound : c.workspace.Sound
  kept : ∀ {id h}, c₀.workspace.cache.peek? id = some h → h ∈ c₀.held →
    c.workspace.cache.peek? id = some h
  states : c.log.mapStates LocalItem.state = c₀.log.mapStates LocalItem.state
  wellFormed : c.shared.WellFormed
  keepsIds : c₀.workspace.heap.KeepsIds c.workspace.heap
  copied : ∀ {h}, c₀.workspace.heap.Valid h →
    c.workspace.heap.read h = (c₀.workspace.heap.read h).copyFrom (c.workspace.heap.read h)
  /-- Only instances in the modified and in the deleted set were written to. -/
  untouched : ∀ {h}, c₀.workspace.heap.Valid h → h ∉ (c.shared.itemsOf .modified).values →
    h ∉ (c.shared.itemsOf .deleted).values →
    c.workspace.heap.read h = c₀.workspace.heap.read h
  valid : ∀ {cls h}, h ∈ (c.shared.itemsOf cls).values → c.workspace.heap.Valid h
  added : ∀ {h}, h ∈ (c.shared.itemsOf .added).values →
    c₀.workspace.heap.cells.size ≤ h.index ∧ ∀ id, c.workspace.cache.peek? id ≠ some h
  current : ∀ cls {h}, cls ≠ .added → h ∈ (c.shared.itemsOf cls).values →
    c.workspace.cache.peek? h.id = some h ∨
      ∃ p ∈ c₀.workspace.subtrees, p.items.get? h.id = some h

/-- The commit with other instances and another storage. -/
def withData (c : Commit σ τ) (heap : Heap) (storage : σ) : Commit σ τ :=
  { c with workspace := { c.workspace with heap, storage } }

/-- Pushing in a commit writes the data of its log. -/
theorem push_eq (c : Commit σ τ) :
    push c = match c.log.push c.workspace.heap with
      | .ok _ heap => .ok () (c.withData heap c.workspace.storage)
      | .error e heap => .error e (c.withData heap c.workspace.storage) := by
  show Backend.onPart (fun c : Commit σ τ => c.workspace.heap)
    (fun c heap => { c with workspace := { c.workspace with heap := heap } }) c.log.push c = _
  unfold Backend.onPart
  cases c.log.push c.workspace.heap <;> rfl

/-- Writing in a commit stores the batch of its shared log. -/
theorem write_eq (c : Commit σ τ) :
    write c =
      match c.workspace.backend.store (c.shared.changeSet c.workspace.heap) c.workspace.storage with
      | .ok _ storage => .ok () (c.withData c.workspace.heap storage)
      | .error e storage => .error e (c.withData c.workspace.heap storage) := by
  show Backend.onPart Commit.workspace (fun c workspace => { c with workspace := workspace })
    (Workspace.onStorage _) c = _
  unfold Workspace.onStorage Backend.onPart
  cases c.workspace.backend.store (c.shared.changeSet c.workspace.heap) c.workspace.storage <;> rfl

/-- What is done once all overlays are connected: the sink is told, and data and storage change. -/
theorem tracks_finishing {R : Commit σ τ → Commit σ τ → Prop} [IsPreorder (Commit σ τ) R]
    (hstart : ∀ c, R c { c with sink := sink.start c.sink })
    (hcreate : ∀ c, R c (stateAfter (onSink (sink.create c.holding c.workspace.rootId c.log)) c))
    (hprepare : ∀ c, R c (stateAfter (onSink sink.prepare) c))
    (hdata : ∀ c heap storage, R c (c.withData heap storage)) :
    Tracks R ((finishing sink).forM id : Action σ τ PUnit) := by
  refine Tracks.forM fun step hstep => ?_
  simp only [finishing, List.mem_cons, List.not_mem_nil, or_false] at hstep
  rcases hstep with rfl | rfl | rfl | rfl | rfl
  · exact Tracks.modify hstart
  · exact hcreate
  · exact hprepare
  · intro c
    show R c (stateAfter push c)
    rw [stateAfter, push_eq]
    cases c.log.push c.workspace.heap <;> exact hdata _ _ _
  · intro c
    show R c (stateAfter write c)
    rw [stateAfter, write_eq]
    cases c.workspace.backend.store (c.shared.changeSet c.workspace.heap) c.workspace.storage <;>
      exact hdata _ _ _

/-- An instance in a shared set was entered under its own identity. -/
theorem Connecting.entered_of_mem {c₀ c : Commit σ τ} {done : List (ChangeLog.Class × ItemId)}
    (hc : Connecting c₀ done c) {cls : ChangeLog.Class} {h : Handle}
    (hmem : h ∈ (c.shared.itemsOf cls).values) : Entered c₀.workspace c cls h.id h := by
  obtain ⟨id, hget⟩ := OrderedMap.mem_values.1 hmem
  have he := hc.entered hget
  rwa [he.id_eq]

/-- What has been written to entered instances, and what the storage went through, does no harm. -/
theorem Connecting.underway {c₀ c : Commit σ τ} {done : List (ChangeLog.Class × ItemId)}
    (hsound : c₀.workspace.Sound) (hc : Connecting c₀ done c) {heap : Heap}
    (hheap : c.workspace.heap.Overwritten c.shared.states heap) (storage : σ) :
    Underway c₀ (c.withData heap storage) where
  fixture := hc.looked.fixture
  sound := by
    have hs := hc.looked.sound hsound
    exact ⟨fun hid => (hheap.valid _).2 (hs.cached hid),
      fun p hp id h hid => (hheap.valid _).2 (hs.provided p hp id h hid)⟩
  kept := hc.looked.kept
  states := hc.states
  wellFormed := hc.wellFormed
  keepsIds h hv := (hheap.valid h).2 (hc.looked.heap.valid hv)
  copied {h} hv := by
    rw [← hc.looked.heap.read hv]
    exact hheap.copied h
  untouched {h} hv hm hd := by
    have hv' := hc.looked.heap.valid hv
    refine (hheap.other h fun k hk hi => ?_).trans (hc.looked.heap.read hv)
    obtain ⟨cls, hcls⟩ := ChangeLog.mem_states.1 hk
    have he := hc.entered_of_mem hcls
    obtain rfl : k = h := he.valid.eq_of_index hv' hi
    cases cls with
    | added => exact absurd he.placed.1 (Nat.not_le_of_lt hv.index_lt)
    | modified => exact hm hcls
    | deleted => exact hd hcls
  valid hmem := (hheap.valid _).2 (hc.entered_of_mem hmem).valid
  added hmem := ⟨(hc.entered_of_mem hmem).placed.1, (hc.entered_of_mem hmem).placed.2.1⟩
  current cls {h} hne hmem := by
    have hp := (hc.entered_of_mem hmem).placed
    cases cls with
    | added => exact absurd rfl hne
    | modified => exact hp
    | deleted => exact hp

/-- A commit underway keeps the backend. -/
theorem Underway.backend {c₀ c : Commit σ τ} (hc : Underway c₀ c) :
    c.workspace.backend = c₀.workspace.backend :=
  congrArg (·.2.2.1) hc.fixture

/-- A commit underway keeps the root. -/
theorem Underway.root {c₀ c : Commit σ τ} (hc : Underway c₀ c) :
    c.workspace.root = c₀.workspace.root :=
  congrArg (·.2.2.2.1) hc.fixture

/-- A commit underway keeps the overlays. -/
theorem Underway.overlays {c₀ c : Commit σ τ} (hc : Underway c₀ c) :
    c.workspace.overlays = c₀.workspace.overlays :=
  congrArg (·.2.2.2.2.1) hc.fixture

/-- A commit underway keeps the providers. -/
theorem Underway.providers {c₀ c : Commit σ τ} (hc : Underway c₀ c) :
    c.workspace.providers = c₀.workspace.providers :=
  congrArg (·.1) hc.fixture

/-- A commit underway keeps the configuration. -/
theorem Underway.config {c₀ c : Commit σ τ} (hc : Underway c₀ c) :
    c.workspace.config = c₀.workspace.config :=
  congrArg (·.2.1) hc.fixture

/-- A commit underway keeps the subscribers. -/
theorem Underway.notifier {c₀ c : Commit σ τ} (hc : Underway c₀ c) :
    c.workspace.notifier = c₀.workspace.notifier :=
  congrArg (·.2.2.2.2.2.1) hc.fixture

/-- The instances that a commit underway came to are valid. -/
theorem Underway.valid_states {c₀ c : Commit σ τ} (hc : Underway c₀ c) :
    ∀ h ∈ c.shared.states, c.workspace.heap.Valid h := by
  intro h hh
  obtain ⟨cls, hcls⟩ := ChangeLog.mem_states.1 hh
  exact hc.valid hcls

/-- The instances in the shared log are different ones, as they stand under different identities. -/
theorem Underway.nodup_states {c₀ c : Commit σ τ} (hc : Underway c₀ c) : c.shared.states.Nodup :=
  .of_map Tracked.itemId (hc.wellFormed.map_itemId_states ▸ hc.wellFormed.nodup_scope)

/-- Without virtual subtrees the instance of an item that was there is the cached one. -/
theorem Underway.cached {c₀ c : Commit σ τ} (hc : Underway c₀ c) (hsub : c₀.workspace.subtrees = [])
    {cls : ChangeLog.Class} {h : Handle} (hcls : cls ≠ .added)
    (hmem : h ∈ (c.shared.itemsOf cls).values) : c.workspace.cache.peek? h.id = some h := by
  rcases hc.current cls hcls hmem with hpeek | ⟨p, hp, -⟩
  · exact hpeek
  · rw [hsub] at hp
    cases hp

/-- So a deleted instance is the only one that the cache can have for its item. -/
theorem Underway.deleted_eq {c₀ c : Commit σ τ} (hc : Underway c₀ c)
    (hsub : c₀.workspace.subtrees = []) : ∀ h ∈ c.shared.deletedItems.values, ∀ k,
      c.workspace.cache.peek? h.id = some k → k = h := by
  intro h hh k hk
  have hcached := hc.cached hsub (show ChangeLog.Class.deleted ≠ .added by decide) hh
  exact Option.some.inj (hk.symm.trans hcached)

/-- A commit that came to a stop before its batch was stored: while it entered overlays or later, with
data in the instances that it had entered, or because the batch was refused. -/
def Stopped (c₀ c : Commit σ τ) : Prop :=
  ∃ (done : List (ChangeLog.Class × ItemId)) (before : Commit σ τ) (heap : Heap) (storage : σ),
    Connecting c₀ done before ∧
    before.workspace.heap.Overwritten before.shared.states heap ∧
    (storage = before.workspace.storage ∨ ∃ e, before.workspace.backend.store
      (before.shared.changeSet heap) before.workspace.storage = .error e storage) ∧
    c = before.withData heap storage

/-- A commit that is connecting may stop at any time. -/
theorem Connecting.stopped {c₀ c : Commit σ τ} {done : List (ChangeLog.Class × ItemId)}
    (hc : Connecting c₀ done c) : Stopped c₀ c :=
  ⟨done, c, c.workspace.heap, c.workspace.storage, hc, refl_of (Heap.Overwritten _) _, Or.inl rfl, rfl⟩

/-- A commit that stopped is still underway. -/
theorem Stopped.underway {c₀ c : Commit σ τ} (hsound : c₀.workspace.Sound) (hc : Stopped c₀ c) :
    Underway c₀ c := by
  obtain ⟨done, before, heap, storage, hbefore, hheap, -, rfl⟩ := hc
  exact hbefore.underway hsound hheap storage

/-- Once all overlays are entered, each of them is connected to the instance it was entered with. -/
theorem Connecting.complete {c₀ c : Commit σ τ}
    (hc : Connecting c₀ (c₀.log.agenda.map fun a => (a.1, a.2.1)) c) {cls : ChangeLog.Class}
    {id : ItemId} {l : LocalItem} (hl : (c.log.itemsOf cls).get? id = some l) :
    ∃ h l₀, (c.shared.itemsOf cls).get? id = some h ∧ (c₀.log.itemsOf cls).get? id = some l₀ ∧
      l.overlayed = some h ∧ l.state = l₀.state := by
  -- the overlay is one of those the commit began with, so it was entered
  have hstates := congrArg (fun log => (log.itemsOf cls).get? id) hc.states
  simp only [ChangeLog.itemsOf_mapStates, OrderedMap.get?_map, hl, Option.map_some] at hstates
  obtain ⟨l₀, hl₀, hstate⟩ := Option.map_eq_some_iff.1 hstates.symm
  have hdone : id ∈ (c.shared.itemsOf cls).keys :=
    hc.mem_done.1 (List.mem_map.2 ⟨(cls, id, l₀), ChangeLog.mem_agenda.2 hl₀, rfl⟩)
  obtain ⟨h, hh⟩ := OrderedMap.mem_keys_iff.1 hdone
  obtain ⟨l', hl', hover⟩ := (hc.entered hh).connected
  rw [hl] at hl'
  cases hl'
  exact ⟨h, l₀, hh, hl₀, hover, hstate.symm⟩

/-- Once all overlays are entered, the shared log names the items of the log, set by set. -/
theorem Connecting.mem_keys_shared {c₀ c : Commit σ τ}
    (hc : Connecting c₀ (c₀.log.agenda.map fun a => (a.1, a.2.1)) c) {cls : ChangeLog.Class}
    {id : ItemId} : id ∈ (c.shared.itemsOf cls).keys ↔ id ∈ (c₀.log.itemsOf cls).keys := by
  rw [← hc.mem_done, OrderedMap.mem_keys_iff, List.mem_map]
  constructor
  · rintro ⟨⟨cls', id', l⟩, hmem, heq⟩
    cases heq
    exact ⟨l, ChangeLog.mem_agenda.1 hmem⟩
  · rintro ⟨l, hl⟩
    exact ⟨(cls, id, l), ChangeLog.mem_agenda.2 hl, rfl⟩

/-- Once all items are entered, every connection is to a shared instance. -/
theorem Connecting.connections_subset {c₀ c : Commit σ τ}
    (hc : Connecting c₀ (c₀.log.agenda.map fun a => (a.1, a.2.1)) c) :
    ∀ h ∈ c.log.connections, h ∈ c.shared.states := by
  intro h hh
  obtain ⟨l, hl, hover⟩ := List.mem_filterMap.1 hh
  obtain ⟨cls, hcls⟩ := ChangeLog.mem_states.1 hl
  obtain ⟨id, hget⟩ := OrderedMap.mem_values.1 hcls
  obtain ⟨k, l₀, hk, -, hover', -⟩ := hc.complete hget
  rw [hover] at hover'
  cases hover'
  exact ChangeLog.mem_states.2 ⟨cls, OrderedMap.mem_values.2 ⟨id, hk⟩⟩

/-- An instance that was entered is that of a connected overlay. -/
theorem Connecting.mem_connections {c₀ c : Commit σ τ} {done : List (ChangeLog.Class × ItemId)}
    (hc : Connecting c₀ done c) {h : Handle} (hh : h ∈ c.shared.states) : h ∈ c.log.connections := by
  obtain ⟨cls, hcls⟩ := ChangeLog.mem_states.1 hh
  obtain ⟨l, hl, hover⟩ := (hc.entered_of_mem hcls).connected
  exact List.mem_filterMap.2
    ⟨l, ChangeLog.mem_states.2 ⟨cls, OrderedMap.mem_values.2 ⟨h.id, hl⟩⟩, hover⟩

/-- Settling a log whose overlays are all entered brings each of them in step. -/
theorem Connecting.settle {c₀ c : Commit σ τ}
    (hc : Connecting c₀ (c₀.log.agenda.map fun a => (a.1, a.2.1)) c) (heap : Heap) :
    (c.log.settle heap).2 = c.log.mapStates (LocalItem.settled heap) := by
  rw [ChangeLog.settle_of_connected fun l hl => ?_]
  obtain ⟨cls, hcls⟩ := ChangeLog.mem_states.1 hl
  obtain ⟨id, hget⟩ := OrderedMap.mem_values.1 hcls
  obtain ⟨h, l₀, -, -, hover, -⟩ := hc.complete hget
  exact ⟨h, hover⟩

/-- Different overlays are connected to different instances. -/
theorem Connecting.nodup_connections {c₀ c : Commit σ τ} (hlog : c₀.log.WellFormed)
    (hc : Connecting c₀ (c₀.log.agenda.map fun a => (a.1, a.2.1)) c) : c.log.connections.Nodup := by
  have hfaithful : ∀ l ∈ c.log.states, l.Faithful := by
    intro l hl h hover
    obtain ⟨cls, hcls⟩ := ChangeLog.mem_states.1 hl
    obtain ⟨id, hget⟩ := OrderedMap.mem_values.1 hcls
    obtain ⟨k, l₀, hk, hl₀, hover', hstate⟩ := hc.complete hget
    rw [hover] at hover'
    cases hover'
    have hid : l₀.id = id := hlog.itemId_eq cls hl₀
    rw [(hc.entered hk).id_eq, ← hid, LocalItem.id, LocalItem.id, hstate]
  have hids : c.log.states.map LocalItem.id = c₀.log.scope := by
    rw [← hlog.map_itemId_states]
    have hstates := congrArg ChangeLog.states hc.states
    rw [ChangeLog.states_mapStates, ChangeLog.states_mapStates] at hstates
    have hmap := congrArg (List.map ItemState.id) hstates
    rwa [List.map_map, List.map_map] at hmap
  -- an overlay is connected to an instance of its own identity, and identities are distinct
  have hsub : ∀ ls : List LocalItem, (∀ l ∈ ls, l.Faithful) →
      ((ls.filterMap LocalItem.overlayed).map Handle.id).Sublist (ls.map LocalItem.id) := by
    intro ls hls
    induction ls with
    | nil => exact .slnil
    | cons l rest ih =>
      have hrest := ih fun k hk => hls k (List.mem_cons_of_mem l hk)
      cases hover : l.overlayed with
      | none =>
        rw [List.filterMap_cons_none hover]
        exact hrest.cons l.id
      | some h =>
        rw [List.filterMap_cons_some hover, List.map_cons, List.map_cons,
          hls l (List.mem_cons_self ..) h hover]
        exact hrest.cons_cons l.id
  exact .of_map Handle.id ((hids ▸ hlog.nodup_scope).sublist (hsub c.log.states hfaithful))

/-- What the sink derives its events from is only read. -/
theorem Connecting.createEvents {c₀ c : Commit σ τ} {done : List (ChangeLog.Class × ItemId)}
    (hsink : sink.OnlyReads) (hlocked : c₀.workspace.locked = true) (hc : Connecting c₀ done c) :
    Connecting c₀ done (stateAfter (createEvents sink) c) := by
  show Connecting c₀ done (stateAfter (onSink (sink.create c.holding c.workspace.rootId c.log)) c)
  rw [onSink, stateAfter_onPart]
  exact hc.look (hsink.create _ _ _ _ _ (hc.looked.locked.trans hlocked)) _

/-- A sink that only reads leaves the commit connecting. -/
theorem Connecting.prepare {c₀ c : Commit σ τ} {done : List (ChangeLog.Class × ItemId)}
    (hsink : sink.OnlyReads) (hc : Connecting c₀ done c) :
    Connecting c₀ done (stateAfter (onSink sink.prepare) c) := by
  rw [onSink, stateAfter_onPart]
  exact hc.look (hsink.prepare _ _ _) _

/-- A commit whose data was pushed. -/
def Pushed (c₀ c : Commit σ τ) : Prop :=
  ∃ (before : Commit σ τ) (heap : Heap),
    Connecting c₀ (c₀.log.agenda.map fun a => (a.1, a.2.1)) before ∧
    before.log.push before.workspace.heap = .ok () heap ∧
    c = before.withData heap before.workspace.storage

/-- Once all data is pushed, the instance of an overlay has the data that the overlay had when the commit
began. -/
theorem Connecting.exists_pushed {c₀ c : Commit σ τ} (hlog : c₀.log.WellFormed)
    (hc : Connecting c₀ (c₀.log.agenda.map fun a => (a.1, a.2.1)) c) {heap : Heap}
    (hpush : c.log.push c.workspace.heap = .ok () heap) {cls : ChangeLog.Class} {id : ItemId}
    {l : LocalItem} (hl : (c₀.log.itemsOf cls).get? id = some l) :
    ∃ l' h, (c.log.itemsOf cls).get? id = some l' ∧ (c.shared.itemsOf cls).get? id = some h ∧
      l'.overlayed = some h ∧ l'.state = l.state ∧ heap.Valid h ∧
      heap.read h = (c.workspace.heap.read h).copyFrom l.state := by
  have hheap := ChangeLog.overwritten_push c.log c.workspace.heap
  rw [stateAfter_of_ok hpush] at hheap
  -- the overlay in the log of the commit
  have hstates := congrArg (fun log => (log.itemsOf cls).get? id) hc.states
  simp only [ChangeLog.itemsOf_mapStates, OrderedMap.get?_map, hl, Option.map_some] at hstates
  obtain ⟨l', hl', hstate⟩ := Option.map_eq_some_iff.1 hstates
  obtain ⟨h, l₀, hh, -, hover, -⟩ := hc.complete hl'
  have hmem : l' ∈ c.log.states := ChangeLog.mem_states.2 ⟨cls, OrderedMap.mem_values.2 ⟨id, hl'⟩⟩
  have hvalid : ∀ k ∈ c.log.connections, c.workspace.heap.Valid k := by
    intro k hk
    obtain ⟨cls', hcls'⟩ := ChangeLog.mem_states.1 (hc.connections_subset k hk)
    exact (hc.entered_of_mem hcls').valid
  have hread := ChangeLog.read_of_push hpush hvalid (hc.nodup_connections hlog) hmem hover
  exact ⟨l', h, hl', hh, hover, hstate, (hheap.valid h).2 (hc.entered hh).valid, hstate ▸ hread⟩

/-- A commit whose data was pushed and whose batch was stored. -/
def Stored (c₀ c : Commit σ τ) : Prop :=
  ∃ (before : Commit σ τ) (heap : Heap) (storage : σ),
    Connecting c₀ (c₀.log.agenda.map fun a => (a.1, a.2.1)) before ∧
    before.log.push before.workspace.heap = .ok () heap ∧
    before.workspace.backend.store (before.shared.changeSet heap) before.workspace.storage =
      .ok () storage ∧
    c = before.withData heap storage

/-- Pushing once all items are entered ends pushed, or stopped. -/
theorem Connecting.push {c₀ c : Commit σ τ}
    (hc : Connecting c₀ (c₀.log.agenda.map fun a => (a.1, a.2.1)) c) :
    Ends (Pushed c₀) (Stopped c₀) (push c) := by
  rw [push_eq]
  have hheap := (ChangeLog.overwritten_push c.log c.workspace.heap).mono hc.connections_subset
  cases hp : c.log.push c.workspace.heap with
  | ok u heap => exact ⟨c, heap, hc, hp, rfl⟩
  | error e heap =>
    rw [stateAfter_of_error hp] at hheap
    exact ⟨_, c, heap, _, hc, hheap, Or.inl rfl, rfl⟩

/-- Writing what was pushed ends stored, or stopped. -/
theorem Pushed.write {c₀ c : Commit σ τ} (hc : Pushed c₀ c) :
    Ends (Stored c₀) (Stopped c₀) (write c) := by
  obtain ⟨before, heap, hbefore, hp, rfl⟩ := hc
  have hheap := (ChangeLog.overwritten_push before.log before.workspace.heap).mono
    hbefore.connections_subset
  rw [stateAfter_of_ok hp] at hheap
  rw [write_eq]
  simp only [withData]
  cases hs : before.workspace.backend.store (before.shared.changeSet heap)
      before.workspace.storage with
  | ok u storage => exact ⟨before, heap, storage, hbefore, hp, hs, rfl⟩
  | error e storage => exact ⟨_, before, heap, storage, hbefore, hheap, Or.inr ⟨e, hs⟩, rfl⟩

/-- A commit that was stored is still underway. -/
theorem Stored.underway {c₀ c : Commit σ τ} (hsound : c₀.workspace.Sound) (hc : Stored c₀ c) :
    Underway c₀ c := by
  obtain ⟨before, heap, storage, hbefore, hp, -, rfl⟩ := hc
  have hheap := (ChangeLog.overwritten_push before.log before.workspace.heap).mono
    hbefore.connections_subset
  rw [stateAfter_of_ok hp] at hheap
  exact hbefore.underway hsound hheap storage

/-- The batch that was stored names the items of the log, set by set. -/
theorem Stored.mem_keys_shared {c₀ c : Commit σ τ} (hc : Stored c₀ c) {cls : ChangeLog.Class}
    {id : ItemId} : id ∈ (c.shared.itemsOf cls).keys ↔ id ∈ (c₀.log.itemsOf cls).keys := by
  obtain ⟨before, heap, storage, hbefore, -, -, rfl⟩ := hc
  exact hbefore.mem_keys_shared

/-- Settled overlays are connected to the instances that the batch was made of. -/
theorem Stored.mem_connections_settle {c₀ c : Commit σ τ} (hc : Stored c₀ c) (heap : Heap)
    {h : Handle} : h ∈ (c.log.settle heap).2.connections ↔ h ∈ c.shared.states := by
  obtain ⟨before, heap', storage, hbefore, -, -, rfl⟩ := hc
  have hsettle : ((before.withData heap' storage).log.settle heap).2 = _ := hbefore.settle heap
  rw [hsettle, ChangeLog.connections_settled]
  exact ⟨hbefore.connections_subset h, hbefore.mem_connections⟩

/-- Settling the log adds no connections. -/
theorem Stored.connections_settle {c₀ c : Commit σ τ} (hc : Stored c₀ c) (heap : Heap) :
    ∀ h ∈ (c.log.settle heap).2.connections, h ∈ c.shared.states :=
  fun _ hh => (hc.mem_connections_settle heap).1 hh

/-- A commit that was stored holds what it held when it began. -/
theorem Stored.held {c₀ c : Commit σ τ} (hc : Stored c₀ c) : c.held = c₀.held := by
  obtain ⟨before, heap, storage, hbefore, -, -, rfl⟩ := hc
  exact hbefore.held

/-- What is done once all overlays are connected. -/
theorem finishing_run {c₀ c : Commit σ τ} (hsink : sink.OnlyReads)
    (hlocked : c₀.workspace.locked = true)
    (hc : Connecting c₀ (c₀.log.agenda.map fun a => (a.1, a.2.1)) c) :
    Ends (Stored c₀) (Stopped c₀) ((finishing sink).forM id c) := by
  have hself : ∀ {c}, Connecting c₀ (c₀.log.agenda.map fun a => (a.1, a.2.1)) c →
      Stopped c₀ c := fun hc => hc.stopped
  show Ends _ _ ((announce sink >>= fun _ => Commit.createEvents sink >>= fun _ =>
    onSink sink.prepare >>= fun _ => Commit.push >>= fun _ => Commit.write >>= fun _ => pure ⟨⟩ :
    Action σ τ PUnit) c)
  refine Ends.bind (hc.look (refl_of (Workspace.LookedAt _) c.workspace) (sink.start c.sink))
    fun _ c hc => ?_
  refine Ends.bind (.of_stateAfter (hc.createEvents hsink hlocked) hself) fun _ c hc => ?_
  refine Ends.bind (.of_stateAfter (hc.prepare hsink) hself) fun _ c hc => ?_
  refine Ends.bind hc.push fun _ c hc => ?_
  exact Ends.bind hc.write fun _ c hc => hc

/-- A commit up to its end or to the step that fails. -/
theorem persist_run {c₀ c : Commit σ τ} (hsink : sink.OnlyReads) (hsound : c₀.workspace.Sound)
    (hlocked : c₀.workspace.locked = true) (hlog : c₀.log.Recorded)
    (hbegin : Connecting c₀ [] c) (hsame : c.log = c₀.log) :
    Ends (Stored c₀) (Stopped c₀) (persist sink c) := by
  rw [persist_eq, hsame, forM_steps]
  have hconnect := Connecting.forM hsound hlog c₀.log.agenda [] c rfl hbegin
  refine Ends.bind (hconnect.imp_bad ?_) fun _ c hc => finishing_run hsink hlocked hc
  rintro c ⟨done, hc⟩
  exact hc.stopped

end Commit

end ContentTree
