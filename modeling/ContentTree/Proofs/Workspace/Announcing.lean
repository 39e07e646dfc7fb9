import ContentTree.Proofs.Workspace.Hosting
import ContentTree.Proofs.Workspace.Routing

/-!
# What a commit announces

A collector derives the events of a commit while the overlays are connected and no data is pushed, so
that the shared copies are as they were before, and sends them once the batch is stored. Main statement:
which bundle a commit leaves on a channel that has room for it (`Hosting.announcing`). The exception is a
node whose shared copy records no parent: wherever it goes, it is not seen to move
(`moved_from_nowhere`).
-/

namespace ContentTree

/-! ## Events by what they say -/

namespace Event

/-- The event of an added item. -/
def addition (s : ItemState) : Event :=
  match s.id with
  | .node id => .nodeAdded id s.parent?
  | .property id => .propertyAdded id

/-- The event of a modified item whose shared copy records the parent `source`. A node is seen to move
from a parent that is recorded to another one, or out of the tree. -/
def change (source : Option NodeId) (s : ItemState) : Option Event :=
  match s.id with
  | .node id =>
    if source.isSome ∧ source ≠ s.parent? then some (.nodeMoved id source s.parent?) else none
  | .property id => some (.propertyChanged id)

/-- The event of a deleted item whose shared copy records the parent `source`. -/
def removal (source : Option NodeId) (s : ItemState) : Event :=
  match s.id with
  | .node id => .nodeRemoved id (if source.isSome then source else s.parent?)
  | .property id => .propertyRemoved id

/-- The events of a commit, where `parent` is the parent that the shared copy of an item records. -/
def announced (parent : ItemId → Option NodeId) (log : ChangeLog ItemState) : List Event :=
  log.addedItems.values.map addition ++
    log.modifiedItems.values.filterMap (fun s => change (parent s.id) s) ++
    log.deletedItems.values.map fun s => removal (parent s.id) s

/-- An added item is announced by its own state. -/
theorem ofAdded_eq (l : LocalItem) : ofAdded l = addition l.state := by
  unfold ofAdded addition LocalItem.id
  cases l.state.id <;> rfl

/-- A node is asked for its shared parent, and a property needs none. -/
theorem ofModified_eq {l : LocalItem} {answer source : Option NodeId}
    (h : ∀ n, l.id = .node n → answer = source) : ofModified answer l = change source l.state := by
  cases hid : l.state.id with
  | property p => simp only [ofModified, change, LocalItem.id, hid]
  | node n =>
    obtain rfl := h n hid
    simp only [ofModified, change, LocalItem.id, hid]
    cases answer with
    | none => simp
    | some p => by_cases hp : some p = l.state.parent? <;> simp [hp]

/-- A deleted item is announced by its own state, and by the parent that was found. -/
theorem ofDeleted_eq {l : LocalItem} {answer source : Option NodeId}
    (h : ∀ n, l.id = .node n → answer = source) : ofDeleted answer l = removal source l.state := by
  cases hid : l.state.id with
  | property p => simp only [ofDeleted, removal, LocalItem.id, hid]
  | node n =>
    obtain rfl := h n hid
    simp only [ofDeleted, removal, LocalItem.id, hid]
    cases answer <;> rfl

section

variable {S : Type} {I : S → Prop} {ask : ItemId → EStateM Error S (Option NodeId)}
  {parent : ItemId → Option NodeId} {log : ChangeLog LocalItem}

/-- The parent of a node can be asked for, and what the answer relies on stays. -/
theorem exists_askParent_ok {id : ItemId}
    (h : ∀ n, id = .node n → ∀ s, I s → ∃ s', ask id s = .ok (parent id) s' ∧ I s') {s : S} (hs : I s) :
    ∃ s' answer, askParent ask id s = .ok answer s' ∧ (∀ n, id = .node n → answer = parent id) ∧ I s' := by
  cases id with
  | node n =>
    obtain ⟨s', hask, hs'⟩ := h n rfl s hs
    exact ⟨s', _, hask, fun _ _ => rfl, hs'⟩
  | property p => exact ⟨s, none, rfl, fun n hn => (by cases hn), hs⟩

/-- Where all questions for shared parents are answered, the events of a log are those announced. -/
theorem exists_ofLog_ok
    (h : ∀ cls ≠ ChangeLog.Class.added, ∀ l ∈ (log.itemsOf cls).values, ∀ n, l.id = .node n → ∀ s, I s →
      ∃ s', ask l.id s = .ok (parent l.id) s' ∧ I s') {s : S} (hs : I s) :
    ∃ s', ofLog ask log s = .ok (announced parent (log.mapStates LocalItem.state)) s' ∧ I s' := by
  have hmodified : ∀ l ∈ log.modifiedItems.values, ∀ s, I s → ∃ s',
      (do return ofModified (← askParent ask l.id) l : EStateM Error S (Option Event)) s =
        .ok (change (parent l.id) l.state) s' ∧ I s' := by
    intro l hl s hs
    obtain ⟨s', answer, hask, hanswer, hs'⟩ := exists_askParent_ok (h .modified (by decide) l hl) hs
    exact ⟨s', (bind_of_ok hask).trans (by rw [ofModified_eq hanswer]; rfl), hs'⟩
  have hdeleted : ∀ l ∈ log.deletedItems.values, ∀ s, I s → ∃ s',
      (do return ofDeleted (← askParent ask l.id) l : EStateM Error S Event) s =
        .ok (removal (parent l.id) l.state) s' ∧ I s' := by
    intro l hl s hs
    obtain ⟨s', answer, hask, hanswer, hs'⟩ := exists_askParent_ok (h .deleted (by decide) l hl) hs
    exact ⟨s', (bind_of_ok hask).trans (by rw [ofDeleted_eq hanswer]; rfl), hs'⟩
  -- modified items are asked for before deleted ones, and added ones not at all
  obtain ⟨mid, hmid, hs⟩ := exists_mapM_ok hmodified hs
  obtain ⟨s', hs', hlast⟩ := exists_mapM_ok hdeleted hs
  refine ⟨s', (bind_of_ok hmid).trans ((bind_of_ok hs').trans ?_), hlast⟩
  have hvalues := ChangeLog.values_mapStates LocalItem.state log
  have hevents : announced parent (log.mapStates LocalItem.state) = log.addedItems.values.map ofAdded ++
      (log.modifiedItems.values.map fun l => change (parent l.id) l.state).filterMap id ++
      log.deletedItems.values.map fun l => removal (parent l.id) l.state := by
    rw [announced, show (log.mapStates LocalItem.state).addedItems.values = _ from hvalues .added,
      show (log.mapStates LocalItem.state).modifiedItems.values = _ from hvalues .modified,
      show (log.mapStates LocalItem.state).deletedItems.values = _ from hvalues .deleted,
      List.map_map, List.filterMap_map, List.map_map, List.filterMap_map]
    exact congrArg (· ++ _ ++ _) (List.map_congr_left fun l _ => (ofAdded_eq l).symm)
  rw [hevents]
  rfl

end

end Event

/-! ## Collecting -/

namespace Workspace

variable {σ : Type} {w w' : Workspace σ} {held : List Handle} {id : ItemId}

/-- The parent that the cached instance of an item records. -/
def cachedParent (w : Workspace σ) (id : ItemId) : Option NodeId :=
  (w.cache.peek? id).bind fun h => Event.recordedParent (w.heap.read h)

/-- The state of the shared copy of an item: that of its cached instance, or what the storage has of it
if it is not cached or if nobody holds its instance. -/
inductive SharedCopy (held : List Handle) (w : Workspace σ) (id : ItemId) : ItemState → Prop where
  | cached {h : Handle} : w.cache.peek? id = some h → SharedCopy held w id (w.heap.read h)
  | loaded {m m' : σ} {s : ItemState} : (∀ h ∈ held, w.cache.peek? id ≠ some h) →
    w.backend.Queried w.storage m → w.backend.load id m = .ok s m' →
    SharedCopy held w id (s.withStatus .existing)

/-- Reading leaves the shared copies as they are. -/
theorem LookedAt.sharedCopy (hsound : w.Sound) (h : w.LookedAt held w') {k : Handle}
    (hk : w'.cache.peek? id = some k) : SharedCopy held w id (w'.heap.read k) := by
  rcases h.entry hk with hold | hnew
  · rw [h.heap.read (hsound.cached hold)]
    exact .cached hold
  · obtain ⟨m, s, m', hasked, hload, hread⟩ := hnew.content
    rw [hread]
    refine .loaded (fun j hj hold => ?_) hasked hload
    -- an instance that is held stays, and none could be loaded
    have hsame := (h.kept hold hj).symm.trans hk
    cases hsame
    exact Nat.not_le_of_lt (hsound.cached hold).index_lt hnew.fresh

end Workspace

namespace Collector

variable {σ : Type} {w : Workspace σ} {held : List Handle} {id : ItemId}

/-- Without virtual subtrees, the parent of a shared copy that is cached can be told. -/
theorem exists_sharedParent_ok (hoverlays : w.overlays = []) {h : Handle}
    (hcached : w.cache.peek? id = some h) (hv : w.heap.Valid h) (held : List Handle)
    (t : Collector) : ∃ w', sharedParent held id (w, t) = .ok (w.cachedParent id) (w', t) ∧
      w.LookedAt held w' := by
  obtain ⟨w', hitem⟩ := Workspace.itemState_of_cached
    (Workspace.claimant?_eq_none hoverlays id) hcached held
  have hlook := Workspace.lookedAt_itemState held id w
  rw [stateAfter_of_ok hitem] at hlook
  have hparent : w.cachedParent id = Event.recordedParent (w'.heap.read h) := by
    rw [hlook.heap.read hv, Workspace.cachedParent, hcached, Option.bind_some]
  have hread : (Workspace.itemState held id >>= fun h => get >>= fun w =>
      pure (Except.error (Event.recordedParent (w.heap.read h))) :
      Workspace.Action σ (Except (Option NodeId) (Option NodeId))) w =
        .ok (.error (w.cachedParent id)) w' := by
    rw [bind_of_ok hitem, hparent]
    rfl
  have hanswer : (do
      try
        let h ← Workspace.itemState held id
        return Event.recordedParent ((← get).heap.read h)
      catch _ => return none : Workspace.Action σ (Option NodeId)) w = .ok (w.cachedParent id) w' :=
    (bind_of_ok (tryCatch_of_ok hread)).trans rfl
  exact ⟨w', onPart_of_ok hanswer, hlook⟩

/-- Steps that send nothing. -/
def SendsNothing (s s' : Workspace σ × Collector) : Prop :=
  s'.2.channel = s.2.channel

instance : IsPreorder (Workspace σ × Collector) SendsNothing where
  refl _ := rfl
  trans _ _ _ hab hbc := Eq.trans hbc hab

/-- Collecting the related items sends nothing. -/
theorem sendsNothing_collect (held : List Handle) (root : NodeId) (log : ChangeLog LocalItem) :
    Tracks SendsNothing (collect (σ := σ) held root log) := by
  have hask : ∀ id, Tracks SendsNothing (sharedParent (σ := σ) held id) := by
    intro id s
    rw [sharedParent, stateAfter_onPart]
    rfl
  exact (Event.tracks_ofLog hask log).bind fun events => Tracks.modify fun s => rfl

/-- Collecting the events of a log whose overlays are connected to cached instances. -/
theorem exists_collect_ok (hoverlays : w.overlays = []) (hsound : w.Sound) {log : ChangeLog LocalItem}
    (hcached : ∀ cls ≠ ChangeLog.Class.added, ∀ l ∈ (log.itemsOf cls).values,
      ∃ h ∈ held, w.cache.peek? l.id = some h) (root : NodeId) (t : Collector) :
    ∃ w', collect held root log (w, t) = .ok () (w', { t with
      collection := t.collection.collect root
        (Event.announced w.cachedParent (log.mapStates LocalItem.state)) }) := by
  have hask : ∀ cls ≠ ChangeLog.Class.added, ∀ l ∈ (log.itemsOf cls).values, ∀ n, l.id = .node n →
      ∀ s : Workspace σ × Collector, w.LookedAt held s.1 ∧ s.2 = t →
        ∃ s', sharedParent held l.id s = .ok (w.cachedParent l.id) s' ∧
          w.LookedAt held s'.1 ∧ s'.2 = t := by
    rintro cls hcls l hl - - ⟨u, t'⟩ ⟨hlook, hsame⟩
    obtain ⟨h, hheld, hpeek⟩ := hcached cls hcls l hl
    have hkept := hlook.kept hpeek hheld
    have hv := hsound.cached hpeek
    have hparent : u.cachedParent l.id = w.cachedParent l.id := by
      rw [Workspace.cachedParent, hkept, Workspace.cachedParent, hpeek, Option.bind_some,
        Option.bind_some, hlook.heap.read hv]
    obtain ⟨u', hask, hlook'⟩ := exists_sharedParent_ok (hlook.overlays.trans hoverlays) hkept
      (hlook.heap.valid hv) held t'
    exact ⟨(u', t'), hparent ▸ hask, trans_of (Workspace.LookedAt held) hlook hlook', hsame⟩
  obtain ⟨⟨w', t'⟩, hevents, -, hsame⟩ := Event.exists_ofLog_ok hask (s := (w, t))
    ⟨refl_of (Workspace.LookedAt held) w, rfl⟩
  obtain rfl : t' = t := hsame
  exact ⟨w', (bind_of_ok hevents).trans rfl⟩

end Collector

/-! ## In the course of a commit -/

namespace Commit

variable {σ τ : Type}

/-- Steps that do not concern the sink. -/
def KeepsSink (c c' : Commit σ τ) : Prop :=
  c'.sink = c.sink

instance : IsPreorder (Commit σ τ) KeepsSink where
  refl _ := rfl
  trans _ _ _ hab hbc := Eq.trans hbc hab

/-- Connecting an item keeps the sink. -/
theorem keepsSink_connectNext (a : ChangeLog.Class × ItemId × LocalItem) :
    Tracks KeepsSink (connectNext a : Action σ τ Unit) := by
  intro c
  show KeepsSink c (stateAfter (connectItem a.1 a.2.1 a.2.2) c)
  obtain ⟨w, -, hafter | ⟨l', h, hafter⟩⟩ := stateAfter_connectItem a.1 a.2.1 a.2.2 c
  · rw [hafter]
    rfl
  · rw [hafter]
    rfl

/-- Pushing the new states keeps the sink. -/
theorem keepsSink_push : Tracks KeepsSink (push : Action σ τ Unit) := by
  intro c
  show KeepsSink c (stateAfter push c)
  rw [stateAfter, push_eq]
  cases c.log.push c.workspace.heap <;> rfl

/-- Writing to the backend keeps the sink. -/
theorem keepsSink_write : Tracks KeepsSink (write : Action σ τ Unit) := by
  intro c
  show KeepsSink c (stateAfter write c)
  rw [stateAfter, write_eq]
  cases c.workspace.backend.store (c.shared.changeSet c.workspace.heap) c.workspace.storage <;> rfl

/-- A step of the sink changes the workspace and the sink only. -/
theorem onSink_of_ok {α : Type} {step : EStateM Error (Workspace σ × τ) α} {c : Commit σ τ} {a : α}
    {w : Workspace σ} {t : τ} (h : step (c.workspace, c.sink) = .ok a (w, t)) :
    onSink step c = .ok a { c with workspace := w, sink := t } := by
  rw [onSink, Backend.onPart, h]

/-- When nothing fails the sink is told once, after all overlays were entered. -/
theorem exists_of_persist_ok {sink : Sink σ τ} {c₀ c c' : Commit σ τ} (hsound : c₀.workspace.Sound)
    (hlog : c₀.log.Recorded) (hbegin : Connecting c₀ [] c) (hsame : c.log = c₀.log)
    (h : persist sink c = .ok () c') :
    ∃ before created prepared, Connecting c₀ (c₀.log.agenda.map fun a => (a.1, a.2.1)) before ∧
      createEvents sink { before with sink := sink.start c.sink } = .ok () created ∧
      onSink sink.prepare created = .ok () prepared ∧ c'.sink = prepared.sink := by
  rw [persist_eq, hsame, forM_steps] at h
  obtain ⟨u, before, hconnect, hrest⟩ := exists_of_bind_ok h
  have hbefore := Connecting.forM hsound hlog c₀.log.agenda [] c rfl hbegin
  have hsink : KeepsSink c (stateAfter (c₀.log.agenda.forM connectNext) c) :=
    Tracks.forM (fun a _ => keepsSink_connectNext a) c
  rw [hconnect] at hbefore
  rw [stateAfter_of_ok hconnect] at hsink
  replace hrest : (announce sink >>= fun _ => Commit.createEvents sink >>= fun _ =>
    onSink sink.prepare >>= fun _ => Commit.push >>= fun _ => Commit.write >>= fun _ => pure ⟨⟩ :
    Action σ τ PUnit) before = .ok () c' := hrest
  obtain ⟨_, told, htold, hrest⟩ := exists_of_bind_ok hrest
  cases htold
  obtain ⟨_, created, hcreated, hrest⟩ := exists_of_bind_ok hrest
  obtain ⟨_, prepared, hprepared, hrest⟩ := exists_of_bind_ok hrest
  obtain ⟨_, pushed, hpushed, hrest⟩ := exists_of_bind_ok hrest
  obtain ⟨_, written, hwritten, hrest⟩ := exists_of_bind_ok hrest
  cases hrest
  have hpush := keepsSink_push prepared
  have hwrite := keepsSink_write pushed
  rw [stateAfter_of_ok hpushed] at hpush
  rw [stateAfter_of_ok hwritten] at hwrite
  refine ⟨before, created, prepared, hbefore, ?_, hprepared, hwrite.trans hpush⟩
  rw [← show before.sink = c.sink from hsink]
  exact hcreated

/-- Steps that leave the channel of a collector as it is. -/
def KeepsChannel (c c' : Commit σ Collector) : Prop :=
  c'.sink.channel = c.sink.channel

instance : IsPreorder (Commit σ Collector) KeepsChannel where
  refl _ := rfl
  trans _ _ _ hab hbc := Eq.trans hbc hab

/-- However far it gets, a commit sends nothing before it is concluded. -/
theorem keepsChannel_persist :
    Tracks KeepsChannel (persist (Collector.sink σ) : Action σ Collector Unit) := by
  intro c
  rw [stateAfter, persist_eq, forM_steps]
  refine Tracks.bind (R := KeepsChannel)
    (Tracks.forM fun a _ c => congrArg Collector.channel (keepsSink_connectNext a c)) (fun _ => ?_) c
  refine tracks_finishing (fun _ => rfl) (fun c => ?_) (fun c => ?_) fun _ _ _ => rfl
  · show (stateAfter (onSink _) c).sink.channel = _
    rw [onSink, stateAfter_onPart]
    exact Collector.sendsNothing_collect _ _ _ (c.workspace, c.sink)
  · show (stateAfter (onSink _) c).sink.channel = _
    rw [onSink, stateAfter_onPart]
    rfl

/-- Once all overlays are entered, without subtrees that could have given instances out, those of
modified and of deleted items are cached and held. -/
theorem Connecting.exists_cached {c₀ c : Commit σ τ} (hsound : c₀.workspace.Sound)
    (hoverlays : c₀.workspace.overlays = [])
    (hc : Connecting c₀ (c₀.log.agenda.map fun a => (a.1, a.2.1)) c) {cls : ChangeLog.Class}
    (hcls : cls ≠ .added) {id : ItemId} (hid : id ∈ (c₀.log.itemsOf cls).keys) :
    ∃ h ∈ c.holding, c.workspace.cache.peek? id = some h := by
  obtain ⟨h, hh⟩ := OrderedMap.mem_keys_iff.1 (hc.mem_keys_shared.2 hid)
  have hunder : Underway c₀ c :=
    hc.underway hsound (refl_of (Heap.Overwritten _) _) c.workspace.storage
  refine ⟨h, (hc.entered hh).mem_holding, ?_⟩
  rw [← (hc.entered hh).id_eq]
  exact hunder.cached (Workspace.subtrees_eq_nil hoverlays) hcls (OrderedMap.mem_values.2 ⟨id, hh⟩)

/-- What a collector has when nothing failed. -/
theorem sink_of_persist_ok {c₀ c c' : Commit σ Collector} (hsound : c₀.workspace.Sound)
    (hoverlays : c₀.workspace.overlays = []) (hlog : c₀.log.Recorded) (hbegin : Connecting c₀ [] c)
    (hsame : c.log = c₀.log) (h : persist (Collector.sink σ) c = .ok () c') :
    ∃ before, Connecting c₀ (c₀.log.agenda.map fun a => (a.1, a.2.1)) before ∧
      c'.sink = ⟨c.sink.channel, some c₀.workspace.rootId,
        Event.announced before.workspace.cachedParent (c₀.log.mapStates LocalItem.state), true⟩ := by
  obtain ⟨before, created, prepared, hbefore, hcreated, hprepared, hsink⟩ :=
    exists_of_persist_ok hsound hlog hbegin hsame h
  refine ⟨before, hbefore, ?_⟩
  have hcached : ∀ cls ≠ ChangeLog.Class.added, ∀ l ∈ (before.log.itemsOf cls).values,
      ∃ h ∈ before.holding, before.workspace.cache.peek? l.id = some h := by
    intro cls hcls l hl
    obtain ⟨id, hget⟩ := OrderedMap.mem_values.1 hl
    obtain ⟨-, l₀, -, hl₀, -, hstate⟩ := hbefore.complete hget
    have hid : l.id = id := (congrArg ItemState.id hstate).trans (hlog.wellFormed.itemId_eq cls hl₀)
    rw [hid]
    exact hbefore.exists_cached hsound hoverlays hcls (OrderedMap.mem_keys_iff.2 ⟨l₀, hl₀⟩)
  obtain ⟨w', hcollect⟩ := Collector.exists_collect_ok (hbefore.looked.overlays.trans hoverlays)
    (hbefore.looked.sound hsound) hcached before.workspace.rootId
    ((Collector.sink σ).start c.sink)
  have hcollected : createEvents (Collector.sink σ)
      { before with sink := (Collector.sink σ).start c.sink } = .ok () { before with
        workspace := w'
        sink := ⟨c.sink.channel, some before.workspace.rootId,
          Event.announced before.workspace.cachedParent (before.log.mapStates LocalItem.state), false⟩ } :=
    onSink_of_ok hcollect
  cases hcollected.symm.trans hcreated
  cases hprepared
  rw [hsink, Workspace.rootId, hbefore.looked.config, hbefore.states]
  rfl

end Commit

/-! ## Sending -/

/-- The bundles that the events of one commit are sent in: one, or none if there are no events. -/
def EventBundle.bundled (root : NodeId) (events : List Event) : List EventBundle :=
  if events = [] then [] else [⟨root, events⟩]

/-- What was collected and prepared goes out on a channel that has room, and that somebody hears. -/
theorem Collection.dispatch_eq {channel : Channel} (hheard : channel.isHeard = true)
    (hroom : channel.queue.length < channel.capacity) (root : NodeId) (events : List Event) :
    Collection.dispatch ⟨some root, events, true⟩ channel =
      { channel with queue := channel.queue ++ EventBundle.bundled root events } := by
  cases events with
  | nil => simp [dispatch, EventBundle.bundled]
  | cons e rest => simp [dispatch, EventBundle.bundled, Channel.send, hheard, hroom]

namespace Workspace

variable {σ : Type} {b : Backend σ} {w : Workspace σ} {held : List Handle}
  {log : ChangeLog LocalItem} {t : Collector} {id : ItemId}

/-- What a commit leaves on the channel of a collector. -/
structure Announced (held : List Handle) (w : Workspace σ) (t : Collector) (log : ChangeLog LocalItem)
    (out : Outcome σ Collector) : Prop where
  /-- If it succeeds, the events that follow from the log and the shared copies as they were. -/
  sent : out.result = .ok () → ∃ parent : ItemId → Option NodeId,
    (∀ id, log.isModified id = true ∨ log.isDeleted id = true →
      ∃ s, SharedCopy held w id s ∧ parent id = Event.recordedParent s) ∧
    let events := Event.announced parent (log.mapStates LocalItem.state)
    out.sink.channel =
      { t.channel with queue := t.channel.queue ++ EventBundle.bundled w.rootId events }
  /-- If it fails, nothing. -/
  silent : ∀ e, out.result = .error e → out.sink.channel = t.channel

/-- A shared copy stays one when the lock is released. -/
theorem SharedCopy.unlock {locked : Bool} {s : ItemState} (h : SharedCopy held { w with locked } id s) :
    SharedCopy held w id s := by
  cases h with
  | cached hh => exact .cached hh
  | loaded hnot hasked hload => exact .loaded hnot hasked hload

/-- **A commit announces what it did.** -/
theorem Hosting.announcing (hw : Hosting b w) (hoverlays : w.overlays = []) (hlog : log.Recorded)
    (hheard : t.channel.isHeard = true) (hroom : t.channel.queue.length < t.channel.capacity)
    (held : List Handle) : Announced held w t log (store (Collector.sink σ) held w t log) := by
  have hready := hw.host.ready
  have hlook := lookedAt_partitionReferences held log log.references.values w
  have hcourse := store_course hready Collector.onlyReads_sink hlog held t
  generalize store (Collector.sink σ) held w t log = out at hcourse ⊢
  cases hcourse with
  | refused => exact ⟨fun h => (by cases h), fun _ _ => rfl⟩
  | @abandoned records _ w' e c hp hpersist hc =>
    have hkeeps := Commit.keepsChannel_persist (begin w' t held log records)
    rw [stateAfter_of_error hpersist] at hkeeps
    exact ⟨fun h => (by cases h), fun _ _ => hkeeps⟩
  | @concluded records _ w' c hp hpersist hc =>
    rw [stateAfter_of_ok hp] at hlook
    obtain ⟨before, hbefore, hsink⟩ := Commit.sink_of_persist_ok hready.sound_begin hoverlays hlog
      (Commit.connecting_begin hlook t log records) rfl hpersist
    refine ⟨fun _ => ⟨before.workspace.cachedParent, fun id hid => ?_, ?_⟩, fun e h => (by cases h)⟩
    · have hcached : ∃ h ∈ before.holding, before.workspace.cache.peek? id = some h := by
        rw [ChangeLog.isModified_eq_true, ChangeLog.isDeleted_eq_true] at hid
        rcases hid with hmodified | hdeleted
        · exact hbefore.exists_cached hready.sound_begin hoverlays (by decide) hmodified
        · exact hbefore.exists_cached hready.sound_begin hoverlays (by decide) hdeleted
      obtain ⟨h, -, hpeek⟩ := hcached
      refine ⟨_, (hbefore.looked.sharedCopy hready.sound_begin hpeek).unlock, ?_⟩
      rw [cachedParent, hpeek, Option.bind_some]
    · show c.sink.collection.dispatch c.sink.channel = _
      rw [hsink]
      exact Collection.dispatch_eq hheard hroom _ _

/-! ### Nodes that move -/

namespace Sample

/-- A memory where the known item stands below the root. -/
def nested : MemoryStore :=
  memory.put ⟨known, .existing, 0, .node (.new ⟨"nested"⟩ (some default))⟩

/-- A log that takes the known item out of the tree and deletes the other one. -/
def pruning : ChangeLog LocalItem :=
  ((ChangeLog.new (.node default)).record .modified
    (.new ⟨known, .existing, 0, .node (.new ⟨"nested"⟩ none)⟩)).record .deleted (.new (.empty other))

/-- The log that prunes is recorded. -/
theorem recorded_pruning : pruning.Recorded :=
  ((ChangeLog.Recorded.new _).record .modified (LocalItem.faithful_new _)).record .deleted
    (LocalItem.faithful_new _)

/-- A log that puts the known item below the root. -/
def planting : ChangeLog LocalItem :=
  (ChangeLog.new (.node default)).record .modified
    (.new ⟨known, .existing, 0, .node (.new ⟨"nested"⟩ (some default))⟩)

/-- The log that plants is recorded. -/
theorem recorded_planting : planting.Recorded :=
  (ChangeLog.Recorded.new _).record .modified (LocalItem.faithful_new _)

/-- A collector on a channel with room for one bundle. -/
def listening : Collector :=
  .new ⟨1, [], true⟩

end Sample

/-- A node that is taken out of the tree is seen to move. -/
theorem Hosting.announcing_pruning :
    let w := Sample.opened Sample.nested
    let out := store (Collector.sink MemoryStore) [] w Sample.listening Sample.pruning
    Announced [] w Sample.listening Sample.pruning out ∧ out.result = .ok () ∧
      out.sink.channel.queue = [⟨default, [.nodeMoved ⟨List.replicate 16 1, rfl⟩ (some default) none,
        .nodeRemoved ⟨List.replicate 16 2, rfl⟩ none]⟩] :=
  ⟨Hosting.announcing (Sample.hosting_opened Sample.nested rfl) rfl Sample.recorded_pruning rfl
    (by decide) [], by decide +kernel, by decide +kernel⟩

/-- A node that had no parent is put into the tree, and nothing is announced. -/
theorem moved_from_nowhere :
    let w := Sample.opened Sample.memory
    let out := store (Collector.sink MemoryStore) [] w Sample.listening Sample.planting
    Hosting MemoryStore.backend w ∧ w.overlays = [] ∧ Sample.planting.Recorded ∧
      Sample.listening.channel.isHeard = true ∧
      Sample.listening.channel.queue.length < Sample.listening.channel.capacity ∧
      ((readItem (getItemState []) Sample.known).run' w).map ItemState.parent? = some none ∧
      (Sample.planting.modifiedItems.get? Sample.known).map (·.state.parent?) = some (some default) ∧
      out.result = .ok () ∧ out.sink.channel.queue = [] :=
  ⟨Sample.hosting_opened Sample.memory rfl, rfl, Sample.recorded_planting, rfl, by decide,
    by decide +kernel, by decide +kernel, by decide +kernel, by decide +kernel⟩

end Workspace

end ContentTree
