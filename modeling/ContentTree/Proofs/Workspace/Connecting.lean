import ContentTree.Proofs.Item.Local
import ContentTree.Proofs.Workspace.Sinks
import Mathlib.Data.List.Nodup

/-!
# Connecting the overlays of a commit

A commit is a list of steps, one for each overlay and a few more, and stops at the first that fails.
Until the data is pushed nothing is written to any instance. `Connecting` is the invariant of that
part: which overlays have been entered, that each of them holds its instance, and that the instance
is the cached one. It holds of the state that any of these steps leaves, whether it fails or not.
-/

namespace ContentTree

/-! ## The overlays in their order -/

namespace ChangeLog

/-- The overlays of a log in the order in which a commit connects them. -/
def agenda (log : ChangeLog LocalItem) : List (Class × ItemId × LocalItem) :=
  [Class.modified, .deleted, .added].flatMap fun cls => (log.itemsOf cls).entries.map fun e => (cls, e)

/-- The agenda of a log lists the items of its three sets. -/
theorem mem_agenda {log : ChangeLog LocalItem} {cls : Class} {id : ItemId} {l : LocalItem} :
    (cls, id, l) ∈ log.agenda ↔ (log.itemsOf cls).get? id = some l := by
  rw [OrderedMap.get?_eq_some]
  simp only [agenda, List.mem_flatMap, List.mem_map]
  constructor
  · rintro ⟨cls', -, e, he, heq⟩
    cases heq
    exact he
  · intro h
    exact ⟨cls, by cases cls <;> simp, (id, l), h, rfl⟩

/-- The agenda of a log goes once through its scope. -/
theorem agenda_perm_scope (log : ChangeLog LocalItem) :
    (log.agenda.map fun a => a.2.1).Perm log.scope := by
  have hkeys : log.agenda.map (fun a => a.2.1) =
      (log.modifiedItems.keys ++ log.deletedItems.keys) ++ log.addedItems.keys := by
    simp [agenda, itemsOf, OrderedMap.keys, Function.comp_def]
  rw [hkeys, scope, List.append_assoc log.addedItems.keys]
  exact List.perm_append_comm

/-- No identity comes twice. -/
theorem WellFormed.fresh_agenda {log : ChangeLog LocalItem} (hlog : log.WellFormed)
    {done rest : List (Class × ItemId × LocalItem)} {cls : Class} {id : ItemId} {l : LocalItem}
    (h : log.agenda = done ++ (cls, id, l) :: rest) (cls' : Class) :
    (cls', id) ∉ done.map fun a => (a.1, a.2.1) := by
  intro hmem
  obtain ⟨b, hb, heq⟩ := List.mem_map.1 hmem
  have hnodup := log.agenda_perm_scope.nodup_iff.2 hlog.nodup_scope
  rw [h, List.map_append, List.nodup_append] at hnodup
  exact hnodup.2.2 b.2.1 (List.mem_map.2 ⟨b, hb, rfl⟩) id (List.mem_cons_self ..) (Prod.mk.inj heq).2

/-- Reference records that are modified leave the three sets alone. -/
theorem itemsOf_foldl_modifiedReferences {α : Type} (records : List NodeReferences)
    (log : ChangeLog α) (cls : Class) :
    (records.foldl modifiedReferences log).itemsOf cls = log.itemsOf cls := by
  induction records generalizing log with
  | nil => rfl
  | cons r rest ih => rw [List.foldl_cons, ih]; cases cls <;> rfl

end ChangeLog

/-! ## A commit as a list of steps -/

namespace Commit

variable {σ τ : Type} {sink : Sink σ τ}

/-- Connects the overlay that is next. -/
def connectNext (a : ChangeLog.Class × ItemId × LocalItem) : Action σ τ Unit :=
  connectItem a.1 a.2.1 a.2.2

/-- Tells the sink that a commit begins. -/
def announce (sink : Sink σ τ) : Action σ τ Unit :=
  modify fun c => { c with sink := sink.start c.sink }

/-- Lets the sink derive its events. -/
def createEvents (sink : Sink σ τ) : Action σ τ Unit := do
  let c ← get
  onSink (sink.create c.holding c.workspace.rootId c.log)

/-- What is done once all overlays are connected. -/
def finishing (sink : Sink σ τ) : List (Action σ τ Unit) :=
  [announce sink, createEvents sink, onSink sink.prepare, push, write]

/-- Everything that can fail in the commit of a log, step by step. -/
def steps (sink : Sink σ τ) (log : ChangeLog LocalItem) : List (Action σ τ Unit) :=
  log.agenda.map connectNext ++ finishing sink

/-- The commit enters an overlay with its instance. -/
def enter (c : Commit σ τ) (cls : ChangeLog.Class) (id : ItemId) (l : LocalItem) (h : Handle) :
    Commit σ τ :=
  { c with
    log := c.log.setItems ((c.log.itemsOf cls).insert id l) cls
    shared := c.shared.record cls h }

/-- Connecting an item finds its counterpart, connects to it and enters it. -/
theorem connectItem_eq (cls : ChangeLog.Class) (id : ItemId) (l : LocalItem) (c : Commit σ τ) :
    connectItem cls id l c =
      match counterpart cls l c with
      | .error e c' => .error e c'
      | .ok h c' =>
        match l.connect c'.workspace.heap h with
        | .ok l' => .ok () (c'.enter cls id l' h)
        | .error e => .error e c' := by
  show EStateM.bind (counterpart cls l) _ c = _
  unfold EStateM.bind
  cases counterpart cls l c with
  | error e c' => rfl
  | ok h c' =>
    show (match l.connect c'.workspace.heap h with
      | .ok l => _
      | .error e => throw e : Action σ τ Unit) c' = _
    dsimp only
    cases l.connect c'.workspace.heap h with
    | ok l' => rfl
    | error e => rfl

/-- An item that is not added has the instance that the workspace has for it. -/
theorem counterpart_eq {cls : ChangeLog.Class} (hcls : cls ≠ .added) (l : LocalItem)
    (c : Commit σ τ) :
    counterpart cls l c = onWorkspace (Workspace.itemState c.holding l.id) c := by
  cases cls with
  | added => exact absurd rfl hcls
  | modified => rfl
  | deleted => rfl

/-- Finding the instance of an overlay leaves all but the workspace alone, and only reads there. -/
theorem counterpart_rooted (cls : ChangeLog.Class) (l : LocalItem) (c : Commit σ τ) :
    ∃ w, stateAfter (counterpart cls l) c = { c with workspace := w } ∧
      c.workspace.Rooted c.holding w := by
  have hread : ∀ cls, cls ≠ .added → ∃ w, stateAfter (counterpart cls l) c =
      { c with workspace := w } ∧ c.workspace.Rooted c.holding w := by
    intro cls hcls
    refine ⟨_, ?_, Workspace.rooted_itemState c.holding l.id c.workspace⟩
    rw [stateAfter, counterpart_eq hcls]
    exact stateAfter_onPart Commit.workspace (fun c workspace => { c with workspace })
      (Workspace.itemState c.holding l.id) c
  cases cls with
  | modified => exact hread _ (by decide)
  | deleted => exact hread _ (by decide)
  | added =>
    refine ⟨(createInstance l.state c.workspace).2, rfl, Heap.grows_alloc _ _, rfl, .refl _,
      fun h _ => h, Or.inl⟩

/-- Finding a counterpart only looks at the workspace. -/
theorem counterpart_looked (cls : ChangeLog.Class) (l : LocalItem) (c : Commit σ τ) :
    ∃ w, stateAfter (counterpart cls l) c = { c with workspace := w } ∧
      c.workspace.LookedAt c.holding w := by
  obtain ⟨w, hafter, hread⟩ := counterpart_rooted cls l c
  exact ⟨w, hafter, hread.lookedAt⟩

/-- Connecting an overlay reads, and if it succeeds the overlay is entered. -/
theorem stateAfter_connectItem (cls : ChangeLog.Class) (id : ItemId) (l : LocalItem) (c : Commit σ τ) :
    ∃ w, c.workspace.Rooted c.holding w ∧
      (stateAfter (connectItem cls id l) c = { c with workspace := w } ∨
        ∃ l' h, stateAfter (connectItem cls id l) c = { c with workspace := w }.enter cls id l' h) := by
  obtain ⟨w, hafter, hread⟩ := counterpart_rooted cls l c
  refine ⟨w, hread, ?_⟩
  rw [stateAfter, connectItem_eq]
  cases hr : counterpart cls l c with
  | error e c' =>
    rw [stateAfter_of_error hr] at hafter
    exact Or.inl hafter
  | ok h c' =>
    rw [stateAfter_of_ok hr] at hafter
    subst hafter
    dsimp only
    cases l.connect w.heap h with
    | error e => exact Or.inl rfl
    | ok l' => exact Or.inr ⟨l', h, rfl⟩

/-! ## The invariant -/

/-- Where the instance of an overlay is found in a workspace `u`, for a commit that began with the
workspace `w`. That of an added item was made by the commit and is not in the cache; any other one is
the cached instance, or one of a virtual subtree. -/
def Placed (w u : Workspace σ) : ChangeLog.Class → Handle → Prop
  | .added, h => w.heap.cells.size ≤ h.index ∧ (∀ id, u.cache.peek? id ≠ some h) ∧
      ∃ t s, u.heap.read h = ((w.backend.createNew t s.id).copyFrom s).withStatus .new
  | _, h => u.cache.peek? h.id = some h ∨ ∃ p ∈ w.subtrees, p.items.get? h.id = some h

/-- A placed instance stays placed while the workspace is looked at and the instance is held. -/
theorem Placed.later {w u u' : Workspace σ} {cls : ChangeLog.Class} {h : Handle}
    {held : List Handle} (hp : Placed w u cls h) (hv : u.heap.Valid h) (hlook : u.LookedAt held u')
    (hheld : h ∈ held) : Placed w u' cls h := by
  have hcached : (u.cache.peek? h.id = some h ∨ ∃ p ∈ w.subtrees, p.items.get? h.id = some h) →
      u'.cache.peek? h.id = some h ∨ ∃ p ∈ w.subtrees, p.items.get? h.id = some h :=
    Or.imp_left fun hpeek => hlook.kept hpeek hheld
  cases cls with
  | added =>
    obtain ⟨hfresh, hnot, t, s, hread⟩ := hp
    refine ⟨hfresh, fun id hpeek => ?_, t, s, (hlook.heap.read hv).trans hread⟩
    rcases hlook.entry hpeek with hold | hnew
    · exact hnot id hold
    · exact absurd hnew.fresh (Nat.not_le_of_lt hv.index_lt)
  | modified => exact hcached hp
  | deleted => exact hcached hp

/-- An overlay that the commit has entered with its instance. -/
structure Entered (w : Workspace σ) (c : Commit σ τ) (cls : ChangeLog.Class) (id : ItemId)
    (h : Handle) : Prop where
  id_eq : h.id = id
  valid : c.workspace.heap.Valid h
  placed : Placed w c.workspace cls h
  connected : ∃ l, (c.log.itemsOf cls).get? id = some l ∧ l.overlayed = some h

/-- How a commit that began as `c₀` stands after it has entered the overlays listed in `done`, while
no instance has been written to. -/
structure Connecting (c₀ : Commit σ τ) (done : List (ChangeLog.Class × ItemId))
    (c : Commit σ τ) : Prop where
  looked : c₀.workspace.LookedAt c₀.held c.workspace
  held : c.held = c₀.held
  states : c.log.mapStates LocalItem.state = c₀.log.mapStates LocalItem.state
  references : c.shared.references = c₀.shared.references
  wellFormed : c.shared.WellFormed
  mem_done : ∀ {cls id}, (cls, id) ∈ done ↔ id ∈ (c.shared.itemsOf cls).keys
  waiting : ∀ {cls id}, (cls, id) ∉ done →
    (c.log.itemsOf cls).get? id = (c₀.log.itemsOf cls).get? id
  entered : ∀ {cls id h}, (c.shared.itemsOf cls).get? id = some h →
    Entered c₀.workspace c cls id h

/-- A commit begins with no instance in its shared log. -/
theorem itemsOf_shared_begin (w : Workspace σ) (t : τ) (held : List Handle) (log : ChangeLog LocalItem)
    (records : List NodeReferences) (cls : ChangeLog.Class) :
    (Workspace.begin w t held log records).shared.itemsOf cls = .empty := by
  refine (ChangeLog.itemsOf_foldl_modifiedReferences records _ cls).trans ?_
  cases cls <;> rfl

/-- A commit that has just begun is connecting, with nothing connected. -/
theorem connecting_begin {w w' : Workspace σ} {held : List Handle} (hlook : w.LookedAt held w')
    (t : τ) (log : ChangeLog LocalItem) (records : List NodeReferences) :
    Connecting (Workspace.begin w t held log records) []
      (Workspace.begin w' t held log records) := by
  have hnone := itemsOf_shared_begin w' t held log records
  have hwf : (Workspace.begin w' t held log records).shared.WellFormed :=
    List.foldlRecOn records _ (ChangeLog.wellFormed_new log.target)
      fun _ hlog r _ => hlog.modifiedReferences r
  refine ⟨hlook.lock true, rfl, rfl, rfl, hwf, fun {cls id} => ?_, fun _ => rfl,
    fun {cls id h} hget => ?_⟩
  · rw [hnone cls]
    exact ⟨fun h => absurd h List.not_mem_nil, fun h => absurd h List.not_mem_nil⟩
  · rw [hnone cls] at hget
    cases hget

/-- An entered instance is among those that the commit keeps others from sweeping. -/
theorem Entered.mem_holding {w : Workspace σ} {c : Commit σ τ} {cls : ChangeLog.Class} {id : ItemId}
    {h : Handle} (he : Entered w c cls id h) : h ∈ c.holding := by
  obtain ⟨l, hget, hover⟩ := he.connected
  refine List.mem_append_right _ (List.mem_filterMap.2 ⟨l, ?_, hover⟩)
  exact ChangeLog.mem_states.2 ⟨cls, OrderedMap.mem_values.2 ⟨id, hget⟩⟩

/-- Reading on behalf of the commit keeps the invariant. -/
theorem Connecting.look {c₀ c : Commit σ τ} {done : List (ChangeLog.Class × ItemId)}
    (hc : Connecting c₀ done c) {w : Workspace σ} (hlook : c.workspace.LookedAt c.holding w) (t : τ) :
    Connecting c₀ done { c with workspace := w, sink := t } where
  looked := by
    refine trans_of (Workspace.LookedAt c₀.held) hc.looked (hlook.mono fun h hh => ?_)
    exact List.mem_append_left _ (hc.held ▸ hh)
  held := hc.held
  states := hc.states
  references := hc.references
  wellFormed := hc.wellFormed
  mem_done := hc.mem_done
  waiting := hc.waiting
  entered hget := by
    have he := hc.entered hget
    exact ⟨he.id_eq, hlook.heap.valid he.valid, he.placed.later he.valid hlook he.mem_holding,
      he.connected⟩

section Enter

variable {c : Commit σ τ} {cls cls' : ChangeLog.Class} {id id' : ItemId} {l : LocalItem} {h h' : Handle}

/-- An instance that is in no set of the shared log is entered in one. -/
theorem itemsOf_shared_enter (hid : h.id = id) (hfresh : ∀ cls, id ∉ (c.shared.itemsOf cls).keys)
    (cls cls' : ChangeLog.Class) : (c.enter cls id l h).shared.itemsOf cls' =
      if cls' = cls then (c.shared.itemsOf cls).insert id h else c.shared.itemsOf cls' := by
  have hid' : Tracked.itemId h = id := hid
  have hrecord := ChangeLog.itemsOf_record (fun cls => hid' ▸ hfresh cls) cls cls'
  rw [hid'] at hrecord
  exact hrecord

/-- An item that is entered is found under its class and identity. -/
theorem get?_log_enter_self : ((c.enter cls id l h).log.itemsOf cls).get? id = some l := by
  simp only [Commit.enter, ChangeLog.itemsOf_setItems, if_true]
  rw [OrderedMap.get?_insert, if_pos rfl]

/-- The overlays of other items stay as they are. -/
theorem get?_log_enter_of_ne (hne : (cls', id') ≠ (cls, id)) :
    ((c.enter cls id l h).log.itemsOf cls').get? id' = (c.log.itemsOf cls').get? id' := by
  simp only [Commit.enter, ChangeLog.itemsOf_setItems]
  split
  · next hcls =>
    subst hcls
    rw [OrderedMap.get?_insert, if_neg fun hid' => hne (by rw [hid'])]
  · rfl

/-- The overlay that was entered stands for the instance it was entered with. -/
theorem Entered.enter_self {w : Workspace σ} (hover : l.overlayed = some h) (hid : h.id = id)
    (hv : c.workspace.heap.Valid h) (hp : Placed w c.workspace cls h) :
    Entered w (c.enter cls id l h) cls id h :=
  ⟨hid, hv, hp, l, get?_log_enter_self, hover⟩

/-- What is entered under another class or identity stays entered. -/
theorem Entered.enter_of_ne {w : Workspace σ} (he : Entered w c cls' id' h')
    (hne : (cls', id') ≠ (cls, id)) : Entered w (c.enter cls id l h) cls' id' h' := by
  obtain ⟨k, hk, hover⟩ := he.connected
  exact ⟨he.id_eq, he.valid, he.placed, k, (get?_log_enter_of_ne hne).trans hk, hover⟩

end Enter

/-- Entering an overlay that no set of the shared log has yet keeps the invariant. -/
theorem Connecting.enter {c₀ c : Commit σ τ} {done : List (ChangeLog.Class × ItemId)}
    (hc : Connecting c₀ done c) {cls : ChangeLog.Class} {id : ItemId} {l l' : LocalItem} {h : Handle}
    (hnew : ∀ cls', (cls', id) ∉ done) (hl : (c₀.log.itemsOf cls).get? id = some l)
    (hstate : l'.state = l.state) (hover : l'.overlayed = some h) (hid : h.id = id)
    (hv : c.workspace.heap.Valid h) (hp : Placed c₀.workspace c.workspace cls h) :
    Connecting c₀ (done ++ [(cls, id)]) (c.enter cls id l' h) := by
  have hshared := itemsOf_shared_enter (l := l') hid (fun cls' hmem => hnew cls' (hc.mem_done.2 hmem)) cls
  have hcurrent : (c.log.itemsOf cls).get? id = some l := (hc.waiting (hnew cls)).trans hl
  refine ⟨hc.looked, hc.held, ?_, ?_, hc.wellFormed.record cls h, fun {cls' id'} => ?_,
    fun {cls' id'} hw => ?_, fun {cls' id' h'} hget => ?_⟩
  · exact (ChangeLog.mapStates_setItems hcurrent hstate).trans hc.states
  · exact (ChangeLog.references_record _ _ _).trans hc.references
  · rw [hshared, List.mem_append, List.mem_singleton, hc.mem_done]
    split
    · next hcls =>
      subst hcls
      rw [OrderedMap.mem_keys_insert, Prod.mk.injEq]
      simp
    · next hcls => simp [hcls]
  · rw [List.mem_append, not_or, List.mem_singleton] at hw
    exact (get?_log_enter_of_ne hw.2).trans (hc.waiting hw.1)
  · rw [hshared] at hget
    -- what is found under the new key is the new instance, and else one entered before
    by_cases hself : (cls', id') = (cls, id)
    · cases hself
      rw [if_pos rfl, OrderedMap.get?_insert, if_pos rfl] at hget
      cases hget
      exact .enter_self hover hid hv hp
    · refine (hc.entered ?_).enter_of_ne hself
      split at hget
      · next hcls =>
        subst hcls
        rw [OrderedMap.get?_insert, if_neg fun hid' => hself (by rw [hid'])] at hget
        exact hget
      · exact hget

/-! ## The invariant along a run -/

/-- What finding an instance gives: one that the overlay may be entered with. -/
theorem counterpart_ok {c₀ c c' : Commit σ τ} {done : List (ChangeLog.Class × ItemId)}
    (hsound : c₀.workspace.Sound) (hc : Connecting c₀ done c) {cls : ChangeLog.Class}
    {l : LocalItem} {h : Handle} (hr : counterpart cls l c = .ok h c') (hid : h.id = l.id) :
    c'.workspace.heap.Valid h ∧ Placed c₀.workspace c'.workspace cls h := by
  have hsound' : c.workspace.Sound := hc.looked.sound hsound
  -- an item that is not added is read, and so is cached or provided
  have hread : ∀ {w}, Workspace.itemState c.holding l.id c.workspace = .ok h w →
      w.heap.Valid h ∧
        (w.cache.peek? h.id = some h ∨ ∃ p ∈ c₀.workspace.subtrees, p.items.get? h.id = some h) := by
    intro w hw
    have hlook := Workspace.lookedAt_itemState c.holding l.id c.workspace
    rw [stateAfter_of_ok hw] at hlook
    rw [hid, ← hc.looked.subtrees]
    have hplace := Workspace.itemState_ok hw
    refine ⟨?_, hplace⟩
    rcases hplace with hpeek | ⟨p, hp, hget⟩
    · exact (hlook.sound hsound').cached hpeek
    · exact hlook.heap.valid (hsound'.provided p (Workspace.mem_providers hp) _ _ hget)
  have hreader : cls ≠ .added → c'.workspace.heap.Valid h ∧
      (c'.workspace.cache.peek? h.id = some h ∨
        ∃ p ∈ c₀.workspace.subtrees, p.items.get? h.id = some h) := by
    intro hcls
    rw [counterpart_eq hcls] at hr
    obtain ⟨w, hw, rfl⟩ := onPart_ok hr
    exact hread hw
  cases cls with
  | modified => exact hreader (by decide)
  | deleted => exact hreader (by decide)
  | added =>
    replace hr : EStateM.Result.ok (ε := Error) (createInstance l.state c.workspace).1
      { c with workspace := (createInstance l.state c.workspace).2 } = .ok h c' := hr
    cases hr
    -- an added item gets a new instance, which nothing knows yet
    refine ⟨Heap.valid_alloc _ _, hc.looked.heap.size_le, fun id hpeek => ?_,
      c.workspace.storage, l.state, ?_⟩
    · exact Nat.lt_irrefl _ (hsound'.cached hpeek).index_lt
    · rw [← hc.looked.backend]
      exact Heap.read_alloc _ _

/-- The overlay that is next is entered, or the commit stops with those that were. -/
theorem Connecting.connectItem {c₀ c : Commit σ τ} {done : List (ChangeLog.Class × ItemId)}
    (hsound : c₀.workspace.Sound) (hlog : c₀.log.Recorded) (hc : Connecting c₀ done c)
    {cls : ChangeLog.Class} {id : ItemId} {l : LocalItem} (hnew : ∀ cls', (cls', id) ∉ done)
    (hl : (c₀.log.itemsOf cls).get? id = some l) :
    Ends (Connecting c₀ (done ++ [(cls, id)])) (Connecting c₀ done)
      (Commit.connectItem cls id l c) := by
  have hid : l.id = id := hlog.wellFormed.itemId_eq _ hl
  have hfaithful : l.Faithful :=
    hlog.faithful l (ChangeLog.mem_states.2 ⟨cls, OrderedMap.mem_values.2 ⟨id, hl⟩⟩)
  obtain ⟨w, hafter, hlook⟩ := counterpart_looked cls l c
  have hread : Connecting c₀ done { c with workspace := w } := hc.look hlook c.sink
  rw [connectItem_eq]
  cases hr : counterpart cls l c with
  | error e c' =>
    rw [stateAfter_of_error hr] at hafter
    exact hafter ▸ hread
  | ok h c' =>
    rw [stateAfter_of_ok hr] at hafter
    subst hafter
    dsimp only
    cases hconnect : l.connect w.heap h with
    | error e => exact hread
    | ok l' =>
      obtain ⟨hh, hover, hstate⟩ := LocalItem.connect_ok hfaithful hconnect
      obtain ⟨hv, hp⟩ := counterpart_ok hsound hc hr hh
      exact hread.enter hnew hl hstate hover (hh.trans hid) hv hp

/-- The overlays that are left are all entered, or the commit stops at one of them. -/
theorem Connecting.forM {c₀ : Commit σ τ} (hsound : c₀.workspace.Sound)
    (hlog : c₀.log.Recorded) (rest : List (ChangeLog.Class × ItemId × LocalItem)) :
    ∀ (done : List (ChangeLog.Class × ItemId × LocalItem)) (c : Commit σ τ),
      c₀.log.agenda = done ++ rest → Connecting c₀ (done.map fun a => (a.1, a.2.1)) c →
      Ends (Connecting c₀ (c₀.log.agenda.map fun a => (a.1, a.2.1)))
        (fun c' => ∃ done, Connecting c₀ done c') (rest.forM connectNext c) := by
  induction rest with
  | nil =>
    intro done c hagenda hc
    rw [hagenda, List.append_nil]
    exact hc
  | cons a rest ih =>
    intro done c hagenda hc
    obtain ⟨cls, id, l⟩ := a
    have hl : (c₀.log.itemsOf cls).get? id = some l :=
      ChangeLog.mem_agenda.1 (hagenda ▸ List.mem_append_right _ (List.mem_cons_self ..))
    have hnew : ∀ cls', (cls', id) ∉ done.map fun a => (a.1, a.2.1) :=
      hlog.wellFormed.fresh_agenda hagenda
    have hstep := hc.connectItem hsound hlog hnew hl
    refine Ends.bind (hstep.imp_bad fun _ h => ⟨_, h⟩) fun _ c' hc' => ?_
    refine ih (done ++ [(cls, id, l)]) c' (by rw [hagenda, List.append_assoc]; rfl) ?_
    rw [List.map_append]
    exact hc'

end Commit

end ContentTree
