import ContentTree.Proofs.Workspace.Success
import Mathlib.Data.List.Induction

/-!
# The state that was recorded last

A log holds one state for each item that it adds or modifies. For an item in the modified set this is the
state of the last call that added or modified it. One in the added set keeps the state that it was added
with, and a modification of it is passed over (`get?_passed_over`). A commit that succeeds copies the
state that the log holds into the instance of the item, and hands it to the backend (`store_recorded`).
-/

namespace ContentTree

namespace ChangeLog

variable {α : Type} [Tracked α]

/-- The log that a sequence of calls leaves. -/
def recording (target : ItemId) (calls : List (Class × α)) : ChangeLog α :=
  calls.foldl (fun log call => log.record call.1 call.2) (new target)

/-- The state that the last call of one of these kinds has for an item. -/
def lastState (kinds : List Class) (id : ItemId) (calls : List (Class × α)) : Option α :=
  (calls.reverse.find? fun call => call.1 ∈ kinds ∧ Tracked.itemId call.2 = id).map Prod.snd

/-- The calls whose states come into a set. -/
def Class.sources : Class → List Class
  | .added => [.added]
  | .modified => [.added, .modified]
  | .deleted => [.deleted]

variable {log : ChangeLog α} {calls : List (Class × α)} {id : ItemId} {a b : α}

/-- One more call is recorded behind the earlier ones. -/
theorem recording_concat (target : ItemId) (calls : List (Class × α)) (cls : Class) (a : α) :
    recording target (calls ++ [(cls, a)]) = (recording target calls).record cls a :=
  List.foldl_concat ..

/-- The last state of an item is that of the last call for it. -/
theorem lastState_concat (kinds : List Class) (id : ItemId) (calls : List (Class × α)) (cls : Class)
    (a : α) : lastState kinds id (calls ++ [(cls, a)]) =
      if cls ∈ kinds ∧ Tracked.itemId a = id then some a else lastState kinds id calls := by
  simp only [lastState, List.reverse_concat, List.find?_cons]
  by_cases h : cls ∈ kinds ∧ Tracked.itemId a = id
  · simp [h]
  · simp [h]

/-- A log that is recorded call by call is well-formed. -/
theorem wellFormed_recording (target : ItemId) (calls : List (Class × α)) :
    (recording target calls).WellFormed :=
  List.foldlRecOn calls _ (wellFormed_new target) fun _ hlog call _ => hlog.record call.1 call.2

/-- A call leaves the other items alone. -/
theorem get?_record_of_ne (cls cls' : Class) (h : Tracked.itemId a ≠ id) :
    ((log.record cls a).itemsOf cls').get? id = (log.itemsOf cls').get? id := by
  cases cls <;>
    simp only [record, ChangeLog.added, ChangeLog.modified, ChangeLog.deleted] <;>
    split <;>
    cases cls' <;>
    simp [itemsOf, OrderedMap.get?_insert, OrderedMap.get?_erase, Ne.symm h]

/-- What a set holds of the item of a call is the state of the call, if the call is one whose states come
into the set, and otherwise what it held before. -/
theorem get?_record_self (hlog : log.WellFormed) (cls cls' : Class)
    (h : ((log.record cls a).itemsOf cls').get? (Tracked.itemId a) = some b) :
    if cls ∈ cls'.sources then b = a else (log.itemsOf cls').get? (Tracked.itemId a) = some b := by
  -- an item that stays in its set is in no other one
  have hother : ∀ cls₁ cls₂, cls₁ ≠ cls₂ → Tracked.itemId a ∈ (log.itemsOf cls₁).keys →
      (log.itemsOf cls₂).get? (Tracked.itemId a) ≠ some b := by
    intro cls₁ cls₂ hne h₁ h₂
    exact hne (hlog.class_eq cls₁ cls₂ h₁ (OrderedMap.mem_keys_iff.2 ⟨b, h₂⟩))
  cases cls with
  | added =>
    simp only [record, ChangeLog.added, Bool.or_eq_true, isDeleted_eq_true, isModified_eq_true] at h
    split at h
    · next hin =>
      cases cls' with
      | added =>
        rcases hin with hin | hin
        · exact absurd h (hother .deleted .added (by decide) hin)
        · exact absurd h (hother .modified .added (by decide) hin)
      | modified => simpa [itemsOf, Class.sources, OrderedMap.get?_insert, eq_comm] using h
      | deleted => simp [itemsOf, OrderedMap.get?_erase] at h
    · next hout =>
      cases cls' with
      | added => simpa [itemsOf, Class.sources, OrderedMap.get?_insert, eq_comm] using h
      | modified => exact absurd (Or.inr (OrderedMap.mem_keys_iff.2 ⟨b, h⟩)) hout
      | deleted => exact h
  | modified =>
    simp only [record, ChangeLog.modified, Bool.or_eq_true, isAdded_eq_true, isDeleted_eq_true] at h
    split at h
    · next hin =>
      cases cls' with
      | modified =>
        rcases hin with hin | hin
        · exact absurd h (hother .added .modified (by decide) hin)
        · exact absurd h (hother .deleted .modified (by decide) hin)
      | _ => exact h
    · cases cls' with
      | modified => simpa [itemsOf, Class.sources, OrderedMap.get?_insert, eq_comm] using h
      | _ => exact h
  | deleted =>
    simp only [record, ChangeLog.deleted, isAdded_eq_true] at h
    split at h
    · next hin =>
      cases cls' with
      | added => simp [itemsOf, OrderedMap.get?_erase] at h
      | modified => exact h
      | deleted => exact absurd h (hother .added .deleted (by decide) hin)
    · cases cls' with
      | added => exact h
      | modified => simp [itemsOf, OrderedMap.get?_erase] at h
      | deleted => simpa [itemsOf, Class.sources, OrderedMap.get?_insert, eq_comm] using h

/-- A set holds the state of the last call whose states come into it. -/
theorem lastState_of_get?_recording {target : ItemId} {cls : Class}
    (h : ((recording target calls).itemsOf cls).get? id = some a) :
    lastState cls.sources id calls = some a := by
  induction calls using List.reverseRecOn with
  | nil => cases cls <;> cases h
  | append_singleton calls call ih =>
    rw [recording_concat] at h
    rw [lastState_concat]
    by_cases hid : Tracked.itemId call.2 = id
    · subst hid
      have hstep := get?_record_self (wellFormed_recording target calls) call.1 cls h
      by_cases hcall : call.1 ∈ cls.sources
      · rw [if_pos hcall] at hstep
        rw [if_pos ⟨hcall, rfl⟩, hstep]
      · rw [if_neg hcall] at hstep
        rw [if_neg fun hlast => hcall hlast.1]
        exact ih hstep
    · rw [get?_record_of_ne call.1 cls hid] at h
      rw [if_neg fun hlast => hid hlast.2]
      exact ih h

/-- An item in a set of a recording has the state of the last call that counts for the set. -/
theorem exists_get?_recording {target : ItemId} {cls : Class}
    (h : id ∈ ((recording target calls).itemsOf cls).keys) :
    ∃ a, ((recording target calls).itemsOf cls).get? id = some a ∧
      lastState cls.sources id calls = some a := by
  obtain ⟨a, ha⟩ := OrderedMap.mem_keys_iff.1 h
  exact ⟨a, ha, lastState_of_get?_recording ha⟩

/-- Overlays that were not connected to instances of other items are recorded as such. -/
theorem recorded_recording (target : ItemId) {calls : List (Class × LocalItem)}
    (hcalls : ∀ call ∈ calls, call.2.Faithful) : (recording target calls).Recorded :=
  List.foldlRecOn calls _ (.new target) fun _ hlog call hcall => hlog.record call.1 (hcalls call hcall)

end ChangeLog

namespace Workspace

variable {σ τ : Type} {b : Backend σ} {w : Workspace σ} {sink : Sink σ τ} {held : List Handle} {t : τ}
  {log : ChangeLog LocalItem} {cls : ChangeLog.Class} {id : ItemId} {l : LocalItem}

/-- The instance of an item has the data of the overlay `l`, and so has the state that the backend was
handed for it, by a commit of `w` that ended with `out`. -/
structure Handed (b : Backend σ) (w : Workspace σ) (out : Outcome σ τ) (cls : ChangeLog.Class)
    (id : ItemId) (l : LocalItem) : Prop where
  pushed : ∃ l' h, (out.log.itemsOf cls).get? id = some l' ∧ l'.overlayed = some h ∧ h.id = id ∧
    (out.workspace.heap.read h).data = l.state.data
  /-- Between the commit's beginning and its end the storage was only asked, but for one batch. -/
  stored : ∃ set before after, b.Queried w.storage before ∧ b.store set before = .ok () after ∧
    b.Queried after out.workspace.storage ∧ (∃ s ∈ set.written, s.id = id) ∧
    ∀ s ∈ set.written, s.id = id → s.data = l.state.data

/-- A batch writes the instances in the added and in the modified set. -/
theorem mem_written_changeSet {shared : ChangeLog Handle} {heap : Heap} {s : ItemState} :
    s ∈ (shared.changeSet heap).written ↔
      ∃ cls, cls ≠ .deleted ∧ ∃ h ∈ (shared.itemsOf cls).values, heap.read h = s := by
  simp only [ChangeSet.written, ChangeLog.changeSet, List.mem_append, List.mem_map]
  constructor
  · rintro (h | h)
    · exact ⟨.added, by decide, h⟩
    · exact ⟨.modified, by decide, h⟩
  · rintro ⟨cls, hcls, h⟩
    cases cls with
    | added => exact Or.inl h
    | modified => exact Or.inr h
    | deleted => exact absurd rfl hcls

/-- A commit that succeeds hands over what its log holds for an item that it adds or modifies. -/
theorem handed_of_store (hw : w.Ready b) (hsink : sink.OnlyReads) (hlog : log.Recorded)
    (hcls : cls ≠ .deleted) (hl : (log.itemsOf cls).get? id = some l)
    (hok : (store sink held w t log).result = .ok ()) :
    Handed b w (store sink held w t log) cls id l := by
  revert hok
  refine store_ends (motive := fun out => out.result = .ok () → Handed b w out cls id l) hw hsink hlog
    (fun _ _ _ hok => by cases hok) (fun _ _ _ _ hok => by cases hok) fun records virtual c hc _ => ?_
  have hunderway := hc.underway hw.sound_begin
  have hwf := hunderway.wellFormed
  have hvalid := hunderway.valid_states
  have hnodup := hunderway.nodup_states
  have hlook := lookedAt_conclude hsink virtual c
  -- telling the sink changes no instance, and the storage is only asked
  have hsame : ∀ h, c.workspace.heap.Valid h → (conclude sink virtual c).workspace.heap.read h =
      (c.workspace.persisted c.shared).heap.read h :=
    fun h hv => hlook.heap.read ((valid_persisted c.workspace c.shared h).2 hv)
  have hasked : b.Queried (c.workspace.persisted c.shared).storage
      (conclude sink virtual c).workspace.storage := (hw.settle hunderway virtual).backend ▸ hlook.storage
  rw [storage_persisted] at hasked
  obtain ⟨before, heap, storage, hbefore, hpush, hstore, rfl⟩ := hc
  obtain ⟨l', h, hl', hh, hover, -, hv, hread⟩ := hbefore.exists_pushed hlog.wellFormed hpush hl
  have hmem : h ∈ (before.shared.itemsOf cls).values := OrderedMap.mem_values.2 ⟨id, hh⟩
  have hdata : (heap.read h).data = l.state.data := by rw [hread]; rfl
  have hid : h.id = id := (hbefore.entered hh).id_eq
  constructor
  · have hsettled : ((conclude sink virtual (before.withData heap storage)).log.itemsOf cls).get? id =
        some (l'.settled ((before.withData heap storage).workspace.persisted before.shared).heap) := by
      show ((before.log.settle _).2.itemsOf cls).get? id = _
      rw [hbefore.settle, ChangeLog.itemsOf_mapStates, OrderedMap.get?_map, hl']
      rfl
    refine ⟨_, h, hsettled, (LocalItem.overlayed_settled _ l').trans hover, hid, ?_⟩
    rw [hsame h hv, heap_persisted, (read_settledHeap hvalid hnodup hv).1 cls hmem, ← hdata]
    cases cls <;> rfl
  · refine ⟨before.shared.changeSet heap, before.workspace.storage, storage, ?_, ?_, hasked, ?_, ?_⟩
    · have hqueried := hbefore.looked.storage
      rwa [show (begin w t held log records).workspace.backend = b from hw.backend] at hqueried
    · rwa [show before.workspace.backend = b from hbefore.looked.backend.trans hw.backend] at hstore
    · exact ⟨heap.read h, mem_written_changeSet.2 ⟨cls, hcls, h, hmem, rfl⟩, hv.read_id.trans hid⟩
    · intro s hs hsid
      obtain ⟨cls', -, k, hk, rfl⟩ := mem_written_changeSet.1 hs
      have hkv : heap.Valid k := hvalid k (ChangeLog.mem_states.2 ⟨cls', hk⟩)
      rw [hkv.read_id] at hsid
      have hkh : k = h :=
        List.inj_on_of_nodup_map (hwf.map_itemId_states ▸ hwf.nodup_scope)
          (ChangeLog.mem_states.2 ⟨cls', hk⟩) (ChangeLog.mem_states.2 ⟨cls, hmem⟩)
          (hsid.trans hid.symm)
      rw [hkh]
      exact hdata

/-- **A log holds the state that was recorded last, and a commit that succeeds hands over what it holds.**
For an item in the modified set it is the state of the last call that added or modified it, and for one in
the added set that of the last call that added it. -/
theorem store_recorded (hw : Reachable b w) (hsink : sink.OnlyReads) (held : List Handle) (t : τ)
    (target : ItemId) {calls : List (ChangeLog.Class × LocalItem)}
    (hcalls : ∀ call ∈ calls, call.2.Faithful) (id : ItemId) :
    let log := ChangeLog.recording target calls
    let out := store sink held w t log
    (log.isModified id → ∃ l, log.get? id = some l ∧
      ChangeLog.lastState [.added, .modified] id calls = some l ∧
      (out.result = .ok () → Handed b w out .modified id l)) ∧
    (log.isAdded id → ∃ l, log.get? id = some l ∧ ChangeLog.lastState [.added] id calls = some l ∧
      (out.result = .ok () → Handed b w out .added id l)) := by
  intro log out
  have hlog : log.Recorded := ChangeLog.recorded_recording target hcalls
  constructor
  · intro hin
    have hmem : id ∈ (log.itemsOf .modified).keys := ChangeLog.isModified_eq_true.1 hin
    obtain ⟨l, hl, hlast⟩ := ChangeLog.exists_get?_recording hmem
    have hnot : log.addedItems.get? id = none := OrderedMap.get?_eq_none.2 fun hadded =>
      absurd (hlog.wellFormed.class_eq .modified .added hmem hadded) (by decide)
    refine ⟨l, ?_, hlast, handed_of_store hw.ready hsink hlog (by decide) hl⟩
    rw [ChangeLog.get?, hnot]
    exact hl
  · intro hin
    obtain ⟨l, hl, hlast⟩ := ChangeLog.exists_get?_recording (ChangeLog.isAdded_eq_true.1 hin)
    refine ⟨l, ?_, hlast, handed_of_store hw.ready hsink hlog (by decide) hl⟩
    rw [ChangeLog.get?, show log.addedItems.get? id = some l from hl]
    rfl

namespace Sample

/-- A draft of the item that is not stored. -/
def draft (type : String) : LocalItem :=
  .new ⟨fresh, .new, 0, .node (.new ⟨type⟩ none)⟩

/-- Calls that add an item, take it out, and add it twice again. -/
def revised : List (ChangeLog.Class × LocalItem) :=
  [(.added, draft "a"), (.deleted, draft "b"), (.added, draft "c"), (.modified, .new (.empty other)),
    (.added, draft "d")]

end Sample

/-- Its last draft is committed. -/
theorem store_recorded_revised :
    (ChangeLog.recording (.node default) Sample.revised).get? Sample.fresh = some (Sample.draft "d") ∧
    Handed MemoryStore.backend (Sample.workspace Sample.memory)
      (store (Sink.silent MemoryStore) [] (Sample.workspace Sample.memory) ()
        (.recording (.node default) Sample.revised)) .added Sample.fresh (Sample.draft "d") := by
  have hfaithful : ∀ call ∈ Sample.revised, call.2.Faithful := by
    intro call hcall
    simp only [Sample.revised, List.mem_cons, List.not_mem_nil, or_false] at hcall
    rcases hcall with rfl | rfl | rfl | rfl | rfl <;> exact LocalItem.faithful_new _
  obtain ⟨l, hl, -, hhanded⟩ := (store_recorded Sample.reachable_memory Sink.onlyReads_silent [] ()
    (.node default) hfaithful Sample.fresh).2 (by decide +kernel)
  have hheld : (ChangeLog.recording (.node default) Sample.revised).get? Sample.fresh =
      some (Sample.draft "d") := by decide +kernel
  obtain rfl : l = Sample.draft "d" := Option.some.inj (hl.symm.trans hheld)
  exact ⟨hheld, hhanded (by decide +kernel)⟩

/-- A modification of an added item is passed over: the log holds the state before it, and this state is
stored by a commit that succeeds. -/
theorem get?_passed_over :
    let calls := [(ChangeLog.Class.added, Sample.draft "first"), (.modified, Sample.draft "second")]
    let log := ChangeLog.recording (.node default) calls
    let out := store (Sink.silent MemoryStore) [] (Sample.workspace Sample.memory) () log
    log.isAdded Sample.fresh ∧
    ChangeLog.lastState [.added, .modified] Sample.fresh calls = some (Sample.draft "second") ∧
    log.get? Sample.fresh = some (Sample.draft "first") ∧
    Sample.draft "first" ≠ Sample.draft "second" ∧
    out.result = .ok () ∧
    (out.workspace.storage.items.get? Sample.fresh).map ItemState.data =
      some (Sample.draft "first").state.data := by
  decide +kernel

end Workspace

end ContentTree
