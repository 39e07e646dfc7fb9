import ContentTree.Proofs.Workspace.Counting
import ContentTree.Proofs.Workspace.Hosting

/-!
# Overlays that fall behind

An overlay remembers the modification count that its instance had when the two were last in step. From
then on the count of the instance is ahead by the number of commits that succeeded with the instance in
their modified set: other commits, reads and undoing leave it alone. So refreshing an overlay tells
exactly whether its instance was modified or is gone (`Follows.staleness`).
-/

namespace ContentTree

/-- Refreshing looks only at whether the instance is gone, and at its count. -/
theorem LocalItem.refreshStatus_congr {l : LocalItem} {h : Handle} {heap heap' : Heap}
    (hover : l.overlayed = some h)
    (hstatus : (heap'.read h).status = (heap.read h).status)
    (hcount : (heap'.read h).modCount = (heap.read h).modCount) :
    l.refreshStatus heap' = l.refreshStatus heap := by
  simp only [refreshStatus, hover, hstatus, hcount]

/-- A connection that was made, or was there already. -/
theorem LocalItem.overlayed_connect {heap : Heap} {h : Handle} {l l' : LocalItem}
    (hc : l.connect heap h = .ok l') : l'.overlayed = some h := by
  unfold connect at hc
  split at hc
  · next current hcurrent =>
    split at hc
    · next heq =>
      cases hc
      rw [hcurrent, heq]
    · cases hc
  · split at hc <;> cases hc
    rfl

/-- Once its batch is stored, a commit has connected the overlays of each set to the instances that the
shared log has in that set, and they stay so when they are settled. -/
theorem Commit.Stored.mem_values_shared {σ τ : Type} {c₀ c : Commit σ τ} (hc : Stored c₀ c)
    (heap : Heap) {cls : ChangeLog.Class} {h : Handle} :
    h ∈ (c.shared.itemsOf cls).values ↔
      ∃ l ∈ ((c.log.settle heap).2.itemsOf cls).values, l.overlayed = some h := by
  obtain ⟨before, heap', storage, hbefore, -, -, rfl⟩ := hc
  have hsettle : ((before.withData heap' storage).log.settle heap).2 =
      before.log.mapStates (LocalItem.settled heap) := hbefore.settle heap
  rw [hsettle, ChangeLog.values_mapStates]
  constructor
  · intro hh
    obtain ⟨l, hl, hconnected⟩ := (hbefore.entered_of_mem hh).connected
    refine ⟨l.settled heap, List.mem_map.2 ⟨l, OrderedMap.mem_values.2 ⟨h.id, hl⟩, rfl⟩, ?_⟩
    rw [LocalItem.overlayed_settled, hconnected]
  · rintro ⟨l', hl', hconnected⟩
    obtain ⟨l, hl, rfl⟩ := List.mem_map.1 hl'
    obtain ⟨id, hget⟩ := OrderedMap.mem_values.1 hl
    obtain ⟨k, l₀, hk, -, hl, -⟩ := hbefore.complete hget
    rw [LocalItem.overlayed_settled, hl] at hconnected
    cases hconnected
    exact OrderedMap.mem_values.2 ⟨id, hk⟩

namespace Workspace

variable {σ τ : Type} {b : Backend σ} {w w' : Workspace σ} {sink : Sink σ τ} {held : List Handle}
  {log : ChangeLog LocalItem} {t : τ} {h : Handle}

/-- A commit that succeeded with an instance in its modified set. -/
def Outcome.modifies (out : Outcome σ τ) (h : Handle) : Bool :=
  out.result.toBool && out.log.modifiedItems.values.any fun l => l.overlayed = some h

/-! ## One commit -/

/-- An instance that was there before a commit is counted up when the commit is settled, if it stands
in the modified set. -/
theorem modCount_settle (hw : w.Ready b) {records : List NodeReferences} {c : Commit σ τ}
    (hc : Commit.Stored (begin w t held log records) c) (hv : w.heap.Valid h) :
    ((c.workspace.persisted c.shared).heap.read h).modCount = (w.heap.read h).modCount +
      if h ∈ (c.shared.itemsOf .modified).values then 1 else 0 := by
  have hunder := hc.underway hw.sound_begin
  have hv' : c.workspace.heap.Valid h := hunder.keepsIds h hv
  have hcount : (c.workspace.heap.read h).modCount = (w.heap.read h).modCount := by
    rw [hunder.copied hv]
    rfl
  obtain ⟨hin, hout⟩ := read_settledHeap hunder.valid_states hunder.nodup_states hv'
  rw [heap_persisted, ← hcount]
  by_cases hmem : h ∈ c.shared.states
  · obtain ⟨cls, hcls⟩ := ChangeLog.mem_states.1 hmem
    rw [hin cls hcls]
    by_cases hm : h ∈ (c.shared.itemsOf .modified).values
    · -- the identity stands in one set only
      obtain rfl : cls = .modified := hunder.wellFormed.class_eq _ _ (hunder.wellFormed.mem_keys hcls)
        (hunder.wellFormed.mem_keys hm)
      rw [if_pos hm]
      rfl
    · rw [if_neg hm]
      cases cls with
      | modified => exact absurd hcls hm
      | added => rfl
      | deleted => rfl
  · rw [hout hmem, if_neg fun hm => hmem (ChangeLog.mem_states.2 ⟨.modified, hm⟩)]
    rfl

/-- A commit counts up the instances in its modified set if it succeeds, and no others. -/
theorem modCount_store (hw : w.Ready b) (hsink : sink.OnlyReads) (hlog : log.Recorded)
    (hv : w.heap.Valid h) :
    ((store sink held w t log).workspace.heap.read h).modCount = (w.heap.read h).modCount +
      if (store sink held w t log).modifies h then 1 else 0 := by
  apply store_ends (motive := fun out => (out.workspace.heap.read h).modCount =
    (w.heap.read h).modCount + if out.modifies h then 1 else 0) hw hsink hlog
  · intro e w' hlook
    show (w'.heap.read h).modCount = _
    rw [(hlook []).heap.read hv]
    rfl
  · intro records e c hc
    have hunder := hc.underway hw.sound_begin
    show ((c.workspace.rollBack c.shared).heap.read h).modCount = _
    rw [keepsCounts_rollBack c.workspace c.shared h, hunder.copied hv]
    rfl
  · -- telling the sink changes no instance, so the count is that of the settled one
    intro records virtual c hc
    have hlook := lookedAt_conclude hsink virtual c
    have hvalid : (c.workspace.persisted c.shared).heap.Valid h := by
      rw [valid_persisted]
      exact (hc.underway hw.sound_begin).keepsIds h hv
    have hmodifies : (conclude sink virtual c).modifies h = true ↔
        h ∈ (c.shared.itemsOf .modified).values := by
      rw [hc.mem_values_shared (c.workspace.persisted c.shared).heap]
      show (true && ((c.log.settle (c.workspace.persisted c.shared).heap).2.itemsOf
        .modified).values.any _) = true ↔ _
      simp only [Bool.true_and, List.any_eq_true, decide_eq_true_eq]
    have hread : (conclude sink virtual c).workspace.heap.read h =
        (c.workspace.persisted c.shared).heap.read h := hlook.heap.read hvalid
    simp only [hread, modCount_settle hw hc hv, hmodifies]

/-- A commit that succeeds leaves its overlays in step with their instances. -/
theorem base_of_store_ok (hw : w.Ready b) (hsink : sink.OnlyReads) (hlog : log.Recorded)
    (hok : (store sink held w t log).result = .ok ()) {l : LocalItem}
    (hl : l ∈ (store sink held w t log).log.states) (hover : l.overlayed = some h) :
    (store sink held w t log).workspace.heap.Valid h ∧
      ((store sink held w t log).workspace.heap.read h).modCount = l.baseModCount := by
  obtain ⟨records, virtual, mid, c, -, hc, hstore⟩ := exists_of_store_ok hw hsink hlog hok
  have hunder := hc.underway hw.sound_begin
  have hlook := lookedAt_conclude hsink virtual c
  rw [hstore] at hl ⊢
  replace hl : l ∈ (c.log.settle (c.workspace.persisted c.shared).heap).2.states := hl
  have hvalid : (c.workspace.persisted c.shared).heap.Valid h := by
    rw [valid_persisted]
    obtain ⟨cls, hcls⟩ := ChangeLog.mem_states.1 hl
    exact hunder.valid ((hc.mem_values_shared _).2 ⟨l, hcls, hover⟩)
  have hbase : ((c.workspace.persisted c.shared).heap.read h).modCount = l.baseModCount := by
    obtain ⟨before, heap, storage, hbefore, -, -, rfl⟩ := hc
    rw [show ((before.withData heap storage).log.settle _).2 = _ from hbefore.settle _,
      ChangeLog.states_mapStates] at hl
    obtain ⟨l₀, -, rfl⟩ := List.mem_map.1 hl
    rw [LocalItem.overlayed_settled] at hover
    simp only [LocalItem.settled, hover]
  refine ⟨hlook.heap.valid hvalid, ?_⟩
  rw [hlook.heap.read hvalid]
  exact hbase

/-- A commit that fails leaves status and count of an instance as they were, or has given the instance up
because the item could not be loaded anew. -/
theorem status_of_store_error (hw : w.Ready b) (hsink : sink.OnlyReads) (hlog : log.Recorded)
    {e : Error} (hfail : (store sink held w t log).result = .error e) (hv : w.heap.Valid h) :
    ((store sink held w t log).workspace.heap.read h).status = (w.heap.read h).status ∨
      ((store sink held w t log).workspace.heap.read h).status = .discarded ∧
        ∃ s e s', b.load h.id s = .error e s' := by
  revert hfail
  apply store_ends (motive := fun out => out.result = .error e →
    (out.workspace.heap.read h).status = (w.heap.read h).status ∨
      (out.workspace.heap.read h).status = .discarded ∧ ∃ s e s', b.load h.id s = .error e s')
    hw hsink hlog
  · intro e' w' hlook _
    refine Or.inl ?_
    rw [(hlook []).heap.read hv]
  · intro records e' c hc _
    have hback := rolledBack_abandon hw (hc.underway hw.sound_begin) e'
    -- an instance that the commit came to was loaded anew or given up
    by_cases htouched : h ∈ c.touched
    · obtain ⟨before, after, hsplit⟩ := List.append_of_mem htouched
      have hreload := hback.recovered before h after hsplit
      rw [hw.backend] at hreload
      cases hload : b.load h.id (reloads b before c.workspace.storage) with
      | ok s s' =>
        rw [hload] at hreload
        refine Or.inl ?_
        rw [hreload.2.1 hv]
        rfl
      | error e'' s' =>
        rw [hload] at hreload
        exact Or.inr ⟨hreload.1, _, _, _, hload⟩
    · exact Or.inl (congrArg ItemState.status (hback.others h hv htouched))
  · intro records virtual c hc hfail
    cases hfail

/-! ## Runs -/

/-- An overlay `l` that has been connected to the instance `h` since the two were last in step: when the
overlay was made, connected, or took over data or status, or at the end of a commit that saved it. Since
then `n` commits succeeded with the instance in their modified set, of those that were made by anybody. -/
inductive Follows (b : Backend σ) (h : Handle) : Nat → LocalItem → Workspace σ → Prop where
  | overlaying {w : Workspace σ} : Hosting b w → w.heap.Valid h →
    Follows b h 0 (.overlaying w.heap h) w
  | connected {w : Workspace σ} {l l' : LocalItem} : Hosting b w → w.heap.Valid h →
    l.overlayed = none → l.connect w.heap h = .ok l' → Follows b h 0 l' w
  | pulled {w : Workspace σ} {l l' : LocalItem} : Hosting b w → w.heap.Valid h →
    l.overlayed = some h → l.pull w.heap = .ok l' → Follows b h 0 l' w
  | settled {w : Workspace σ} {l l' : LocalItem} : Hosting b w → w.heap.Valid h →
    l.overlayed = some h → l.settle w.heap = .ok l' → Follows b h 0 l' w
  | saved {τ : Type} {w : Workspace σ} {sink : Sink σ τ} {log : ChangeLog LocalItem} {l : LocalItem}
    (held : List Handle) (t : τ) : Hosting b w → sink.OnlyReads → log.Recorded →
    (store sink held w t log).result = .ok () → l ∈ (store sink held w t log).log.states →
    l.overlayed = some h → Follows b h 0 l (store sink held w t log).workspace
  /-- The session changes its copy, or refreshes its status. -/
  | edited {n : Nat} {w : Workspace σ} {l : LocalItem} {state : ItemState} : state.id = l.id →
    Follows b h n l w → Follows b h n { l with state } w
  | reconnected {n : Nat} {w : Workspace σ} {l l' : LocalItem} : l.connect w.heap h = .ok l' →
    Follows b h n l w → Follows b h n l' w
  | asked {n : Nat} {w w' : Workspace σ} {l : LocalItem} : Asked w w' →
    Follows b h n l w → Follows b h n l w'
  | stored {τ : Type} {n : Nat} {w : Workspace σ} {sink : Sink σ τ} {log : ChangeLog LocalItem}
    {l : LocalItem} (held : List Handle) (t : τ) : sink.OnlyReads → log.Recorded →
    Follows b h n l w →
    Follows b h (n + if (store sink held w t log).modifies h then 1 else 0) l
      (store sink held w t log).workspace
  | disposed {n : Nat} {w : Workspace σ} {l : LocalItem} : Follows b h n l w →
    Follows b h n l w.dispose
  | switched {n : Nat} {w : Workspace σ} {l : LocalItem} (storage : σ) (notifier : Notifier) :
    Follows b h n l w → Follows b h n l { w with storage, notifier }

/-- What holds of an overlay all along: its instance is ahead by the number of modifications. -/
structure Ahead (b : Backend σ) (h : Handle) (n : Nat) (l : LocalItem) (w : Workspace σ) : Prop where
  hosting : Hosting b w
  valid : w.heap.Valid h
  connected : l.overlayed = some h
  count : (w.heap.read h).modCount = l.baseModCount + n

namespace Ahead

variable {n : Nat} {l l' : LocalItem}

/-- A workspace that an instance is ahead in is ready. -/
theorem ready (hl : Ahead b h n l w) : w.Ready b :=
  hl.hosting.host.ready

/-- Asking leaves the instance as far ahead as it was. -/
theorem ask (hl : Ahead b h n l w) (hask : Asked w w') : Ahead b h n l w' where
  hosting := .asked hask hl.hosting
  valid := hask.lookedAt.heap.valid hl.valid
  connected := hl.connected
  count := by
    rw [hask.lookedAt.heap.read hl.valid]
    exact hl.count

/-- A commit takes the instance one further ahead if it modifies it. -/
theorem store (hl : Ahead b h n l w) (hsink : sink.OnlyReads) (hlog : log.Recorded)
    (held : List Handle) (t : τ) :
    Ahead b h (n + if (Workspace.store sink held w t log).modifies h then 1 else 0) l
      (Workspace.store sink held w t log).workspace where
  hosting := .stored held t hsink hlog hl.hosting
  valid := keepsIds_store hl.ready hsink hlog t h hl.valid
  connected := hl.connected
  count := by
    rw [modCount_store hl.ready hsink hlog hl.valid, hl.count]
    omega

/-- Connecting to the instance once more changes nothing. -/
theorem reconnect (hl : Ahead b h n l w) (hc : l.connect w.heap h = .ok l') : l' = l := by
  simp only [LocalItem.connect, hl.connected, if_true] at hc
  cases hc
  rfl

/-- What refreshing tells. -/
theorem refreshStatus_eq (hl : Ahead b h n l w) : l.refreshStatus w.heap =
    if (w.heap.read h).status.isTerminal then { l with state := l.state.withStatus .staleDestroyed }
    else if 0 < n then { l with state := l.state.withStatus .staleModified }
    else l := by
  have hahead : ((w.heap.read h).modCount ≠ l.baseModCount) = (0 < n) := by
    rw [hl.count]
    exact propext ⟨fun hne => by omega, fun hlt => by omega⟩
  simp only [LocalItem.refreshStatus, hl.connected, hahead]

end Ahead

/-- Whatever is done, the instance of an overlay is ahead by the number of modifications. -/
theorem Follows.ahead {n : Nat} {l : LocalItem} (hl : Follows b h n l w) : Ahead b h n l w := by
  induction hl with
  | overlaying hw hv => exact ⟨hw, hv, rfl, rfl⟩
  | @connected w l l' hw hv hnone hc =>
    refine ⟨hw, hv, LocalItem.overlayed_connect hc, ?_⟩
    simp only [LocalItem.connect, hnone] at hc
    split at hc <;> cases hc
    rfl
  | @pulled w l l' hw hv hover hp =>
    simp only [LocalItem.pull, LocalItem.shared, hover] at hp
    cases hp
    exact ⟨hw, hv, rfl, rfl⟩
  | @settled w l l' hw hv hover hs =>
    simp only [LocalItem.settle, LocalItem.shared, hover] at hs
    cases hs
    exact ⟨hw, hv, rfl, rfl⟩
  | saved held t hw hsink hlog hok hl hover =>
    obtain ⟨hvalid, hbase⟩ := base_of_store_ok hw.host.ready hsink hlog hok hl hover
    exact ⟨.stored held t hsink hlog hw, hvalid, hover, hbase⟩
  | edited _ _ ih => exact ⟨ih.hosting, ih.valid, ih.connected, ih.count⟩
  | reconnected hc _ ih => exact ih.reconnect hc ▸ ih
  | asked hask _ ih => exact ih.ask hask
  | stored held t hsink hlog _ ih => exact ih.store hsink hlog held t
  | disposed _ ih => exact ⟨.disposed ih.hosting, ih.valid, ih.connected, ih.count⟩
  | switched storage notifier _ ih =>
    exact ⟨.switched storage (.observed notifier ih.hosting), ih.valid, ih.connected, ih.count⟩

/-- **An overlay has fallen behind exactly if its instance is gone or was modified.** The count of the
instance is that of the overlay and the number of these modifications, so it stays in its 64 bits as long as
they do not use them up. -/
theorem Follows.staleness {n : Nat} {l : LocalItem} (hl : Follows b h n l w) :
    (l.refreshStatus w.heap =
      if (w.heap.read h).status.isTerminal then { l with state := l.state.withStatus .staleDestroyed }
      else if 0 < n then { l with state := l.state.withStatus .staleModified }
      else l) ∧
    (w.heap.read h).modCount = l.baseModCount + n ∧
    ∀ {τ : Type} (sink : Sink σ τ) (held : List Handle) (t : τ) (log : ChangeLog LocalItem) (e : Error),
      sink.OnlyReads → log.Recorded → (store sink held w t log).result = .error e →
        l.refreshStatus (store sink held w t log).workspace.heap = l.refreshStatus w.heap ∨
          ((store sink held w t log).workspace.heap.read h).status = .discarded ∧
            ∃ s e s', b.load h.id s = .error e s' := by
  have hstep := hl.ahead
  refine ⟨hstep.refreshStatus_eq, hstep.count, fun sink held t log e hsink hlog hfail => ?_⟩
  refine (status_of_store_error hstep.ready hsink hlog hfail hstep.valid).imp_left fun hstatus => ?_
  refine LocalItem.refreshStatus_congr hstep.connected hstatus ?_
  rw [modCount_store hstep.ready hsink hlog hstep.valid, Outcome.modifies, hfail]
  rfl

/-! ### An item that another session modifies -/

namespace Sample

/-- An overlay of the known item. -/
def overlay : LocalItem :=
  .overlaying (workspace memory).heap ⟨1, known⟩

/-- The overlay follows the known instance before any commit. -/
theorem follows_overlay : Follows MemoryStore.backend ⟨1, known⟩ 0 overlay (workspace memory) := by
  refine .overlaying (.asked (.getItemState [] known _) (hosting_opened memory rfl)) ?_
  exact ⟨(workspace memory).heap.read ⟨1, known⟩, by decide +kernel, by decide +kernel⟩

/-- The workspace after another session gave the item another type. -/
def retypedWorkspace : Workspace MemoryStore :=
  (store (Sink.silent MemoryStore) [] (workspace memory) () retyped).workspace

/-- The overlay is one behind once the known instance was retyped. -/
theorem follows_retyped : Follows MemoryStore.backend ⟨1, known⟩ 1 overlay retypedWorkspace := by
  have hstored := follows_overlay.stored [] () Sink.onlyReads_silent recorded_retyped
  have hmodifies : (store (Sink.silent MemoryStore) [] (workspace memory) () retyped).modifies
      ⟨1, known⟩ = true := by decide +kernel
  rw [hmodifies] at hstored
  exact hstored

end Sample

/-- The overlay is found to have fallen behind. -/
theorem Follows.staleness_retyped :
    Follows MemoryStore.backend ⟨1, Sample.known⟩ 1 Sample.overlay Sample.retypedWorkspace ∧
      Sample.overlay.refreshStatus Sample.retypedWorkspace.heap =
        { Sample.overlay with state := Sample.overlay.state.withStatus .staleModified } :=
  ⟨Sample.follows_retyped, (Follows.staleness Sample.follows_retyped).1.trans (by decide +kernel)⟩

end Workspace

end ContentTree
