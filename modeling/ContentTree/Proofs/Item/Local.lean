import ContentTree.Proofs.ChangeLog
import ContentTree.Proofs.Item.Heap

/-!
# Overlays and their instances

An overlay is only ever connected to an instance of its own identity. Whatever way an overlay comes
about, and whatever is done to it, keeps this.
-/

namespace ContentTree

namespace LocalItem

/-- The instance that an overlay is connected to has the identity of the overlay. -/
def Faithful (l : LocalItem) : Prop :=
  ∀ h, l.overlayed = some h → h.id = l.id

/-- A new overlay is faithful. -/
theorem faithful_new (s : ItemState) : (new s).Faithful := by
  intro h hh
  cases hh

/-- An overlay that is disconnected is faithful. -/
theorem Faithful.disconnect (l : LocalItem) : l.disconnect.Faithful := by
  intro h hh
  cases hh

/-- An overlay that could be connected: to an instance of its identity, and otherwise unchanged. -/
theorem connect_ok {heap : Heap} {h : Handle} {l l' : LocalItem} (hl : l.Faithful)
    (hc : l.connect heap h = .ok l') : h.id = l.id ∧ l'.overlayed = some h ∧ l'.state = l.state := by
  unfold connect at hc
  split at hc
  · next current hcurrent =>
    split at hc
    · next heq =>
      cases hc
      subst heq
      exact ⟨hl _ hcurrent, hcurrent, rfl⟩
    · cases hc
  · split at hc
    · next hid =>
      cases hc
      exact ⟨hid, rfl, rfl⟩
    · cases hc

/-- An overlay that is connected stays faithful. -/
theorem Faithful.connect {heap : Heap} {h : Handle} {l l' : LocalItem} (hl : l.Faithful)
    (hc : l.connect heap h = .ok l') : l'.Faithful := by
  obtain ⟨hid, hover, hstate⟩ := connect_ok hl hc
  intro k hk
  obtain rfl : h = k := by rw [hover] at hk; cases hk; rfl
  rw [hid, LocalItem.id, LocalItem.id, hstate]

end LocalItem

/-- Giving up connections changes no data and no status. -/
theorem ChangeLog.mapStates_disconnect (log : ChangeLog LocalItem) :
    log.disconnect.mapStates LocalItem.state = log.mapStates LocalItem.state := by
  simp only [disconnect, mapStates, OrderedMap.map, List.map_map]
  rfl

/-- A log that is disconnected has no connections. -/
theorem ChangeLog.connections_disconnect (log : ChangeLog LocalItem) :
    log.disconnect.connections = [] := by
  rw [connections, disconnect, states_mapStates, List.filterMap_map]
  exact List.filterMap_eq_nil_iff.2 fun _ _ => rfl

/-! ## Settling -/

namespace LocalItem

/-- The overlay in step with its instance, if it has one. -/
def settled (heap : Heap) (l : LocalItem) : LocalItem :=
  match l.overlayed with
  | some h =>
    { l with
      state := l.state.withStatus (heap.read h).status
      baseModCount := (heap.read h).modCount }
  | none => l

/-- Settling leaves the connection. -/
theorem overlayed_settled (heap : Heap) (l : LocalItem) :
    (l.settled heap).overlayed = l.overlayed := by
  unfold settled
  split <;> rfl

/-- A connected overlay is settled. -/
theorem settle_of_connected {heap : Heap} {l : LocalItem} {h : Handle} (hl : l.overlayed = some h) :
    l.settle heap = .ok (l.settled heap) := by
  simp only [settle, settled, shared, hl]
  rfl

end LocalItem

/-- A map in which every value can be replaced has all of them replaced. -/
theorem OrderedMap.tryMap_of_ok {κ ν ε : Type} {f : ν → Except ε ν} {g : ν → ν}
    {m : OrderedMap κ ν} (h : ∀ v ∈ m.values, f v = .ok (g v)) :
    m.tryMap f = (.ok (), m.map fun _ => g) := by
  have hentries : ∀ l : List (κ × ν), (∀ e ∈ l, f e.2 = .ok (g e.2)) →
      tryEntries f l = (.ok (), l.map fun e => (e.1, g e.2)) := by
    intro l hl
    induction l with
    | nil => rfl
    | cons e rest ih =>
      obtain ⟨k, v⟩ := e
      have hv : f v = .ok (g v) := hl (k, v) (List.mem_cons_self ..)
      simp only [tryEntries, hv, ih fun e he => hl e (List.mem_cons_of_mem _ he), List.map_cons]
  have hm := hentries m.entries fun e he => h e.2 (List.mem_map.2 ⟨e, he, rfl⟩)
  refine Prod.ext (congrArg (·.1) hm) (OrderedMap.ext ?_)
  exact congrArg (·.2) hm

/-- Settling a log whose overlays are all connected brings each of them in step. -/
theorem ChangeLog.settle_of_connected {heap : Heap} {log : ChangeLog LocalItem}
    (h : ∀ l ∈ log.states, ∃ k, l.overlayed = some k) :
    log.settle heap = (.ok (), log.mapStates (LocalItem.settled heap)) := by
  have hset : ∀ cls, (log.itemsOf cls).tryMap (LocalItem.settle heap) =
      (.ok (), (log.itemsOf cls).map fun _ => LocalItem.settled heap) := by
    intro cls
    refine OrderedMap.tryMap_of_ok fun l hl => ?_
    obtain ⟨k, hk⟩ := h l (mem_states.2 ⟨cls, hl⟩)
    exact LocalItem.settle_of_connected hk
  have ha := hset .added
  have hm := hset .modified
  have hd := hset .deleted
  simp only [itemsOf] at ha hm hd
  simp only [settle, ha, hm, hd]
  rfl

/-- Settling gives up no connection and makes none. -/
theorem ChangeLog.connections_settled (heap : Heap) (log : ChangeLog LocalItem) :
    (log.mapStates (LocalItem.settled heap)).connections = log.connections := by
  rw [connections, states_mapStates, List.filterMap_map]
  exact List.filterMap_congr fun l _ => l.overlayed_settled heap

/-- A log of overlays as it comes out of recording: every overlay under its own identity, in one set,
and connected to an instance of that identity if to any. -/
structure ChangeLog.Recorded (log : ChangeLog LocalItem) : Prop where
  wellFormed : log.WellFormed
  faithful : ∀ l ∈ log.states, l.Faithful

namespace ChangeLog.Recorded

/-- A new log records no overlays. -/
theorem new (target : ItemId) : Recorded (ChangeLog.new target) :=
  ⟨wellFormed_new target, fun l hl => by cases hl⟩

/-- Recording a faithful overlay keeps a log recorded. -/
theorem record {log : ChangeLog LocalItem} (hlog : log.Recorded) (cls : Class) {l : LocalItem}
    (hl : l.Faithful) : Recorded (log.record cls l) where
  wellFormed := hlog.wellFormed.record cls l
  faithful k hk := by
    rcases mem_states_record cls hk with rfl | hold
    · exact hl
    · exact hlog.faithful k hold

/-- Recording references keeps a log recorded. -/
theorem modifiedReferences {log : ChangeLog LocalItem} (hlog : log.Recorded) (r : NodeReferences) :
    Recorded (log.modifiedReferences r) :=
  ⟨hlog.wellFormed.modifiedReferences r, hlog.faithful⟩

end ChangeLog.Recorded

end ContentTree
