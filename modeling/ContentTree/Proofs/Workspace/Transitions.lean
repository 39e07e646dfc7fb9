import ContentTree.Proofs.Observation.Notifier
import ContentTree.Proofs.Workspace.Staleness

/-!
# What subscribers are told of a commit

A commit that succeeds tells of every item of its log, set by set and in the order of the log; one that
fails tells of the instances that it gives up, and of nothing else (`notifier_store`). No other part of
a commit tells the subscribers anything.
-/

namespace ContentTree

variable {σ τ : Type}

/-- What becomes of the items of a log once it is stored, in the order in which it is told. -/
def ChangeLog.transitions {α : Type} (log : ChangeLog α) : List Transition :=
  log.addedItems.keys.map (⟨·, .created⟩) ++ log.modifiedItems.keys.map (⟨·, .modified⟩) ++
    log.deletedItems.keys.map (⟨·, .destroyed⟩)

/-- Logs with the same keys tell of the same transitions. -/
theorem ChangeLog.transitions_congr {α β : Type} {log : ChangeLog α} {log' : ChangeLog β}
    (h : ∀ cls, (log.itemsOf cls).keys = (log'.itemsOf cls).keys) :
    log.transitions = log'.transitions := by
  rw [transitions, transitions, show log.addedItems.keys = _ from h .added,
    show log.modifiedItems.keys = _ from h .modified, show log.deletedItems.keys = _ from h .deleted]
  rfl

/-! ## The order of the shared log -/

namespace ChangeLog

/-- A new item comes last in the set of its class, and the other sets stay. -/
theorem keys_record {α : Type} [Tracked α] {log : ChangeLog α} {a : α}
    (hfresh : ∀ cls, Tracked.itemId a ∉ (log.itemsOf cls).keys) (cls cls' : Class) :
    ((log.record cls a).itemsOf cls').keys =
      (log.itemsOf cls').keys ++ if cls = cls' then [Tracked.itemId a] else [] := by
  rw [itemsOf_record hfresh]
  by_cases hcls : cls' = cls
  · subst hcls
    rw [if_pos rfl, if_pos rfl, OrderedMap.keys, OrderedMap.entries_insert_of_not_mem _ (hfresh cls'),
      List.map_append]
    rfl
  · rw [if_neg hcls, if_neg fun h => hcls h.symm, List.append_nil]

/-- The identities of one set come in the order of the log. -/
theorem filter_agenda (log : ChangeLog LocalItem) (cls : Class) :
    (log.agenda.filter fun a => a.1 = cls).map (fun a => a.2.1) = (log.itemsOf cls).keys := by
  cases cls <;>
    simp [agenda, itemsOf, OrderedMap.keys, List.filter_map, Function.comp_def]

end ChangeLog

namespace Commit

variable {sink : Sink σ τ}

/-- An overlay that could be connected is entered with an instance of its item. -/
theorem connectItem_ok {cls : ChangeLog.Class} {id : ItemId} {l : LocalItem} {c c' : Commit σ τ}
    (hl : l.Faithful) (h : connectItem cls id l c = .ok () c') :
    ∃ k : Handle, k.id = l.id ∧ c'.shared = c.shared.record cls k := by
  obtain ⟨w, hafter, -⟩ := counterpart_looked cls l c
  rw [connectItem_eq] at h
  cases hr : counterpart cls l c with
  | error e mid =>
    rw [hr] at h
    cases h
  | ok k mid =>
    rw [stateAfter_of_ok hr] at hafter
    subst hafter
    rw [hr] at h
    dsimp only at h
    cases hconnect : l.connect w.heap k with
    | error e =>
      rw [hconnect] at h
      cases h
    | ok l' =>
      rw [hconnect] at h
      cases h
      exact ⟨k, (LocalItem.connect_ok hl hconnect).1, rfl⟩

/-- The shared log takes up the overlays in the order in which they are connected. -/
theorem keys_connected (rest : List (ChangeLog.Class × ItemId × LocalItem)) :
    ∀ {c c' : Commit σ τ}, (∀ a ∈ rest, a.2.2.Faithful ∧ a.2.2.id = a.2.1) →
      (rest.map fun a => a.2.1).Nodup → (∀ a ∈ rest, ∀ cls, a.2.1 ∉ (c.shared.itemsOf cls).keys) →
      rest.forM connectNext c = .ok ⟨⟩ c' → ∀ cls, (c'.shared.itemsOf cls).keys =
        (c.shared.itemsOf cls).keys ++ (rest.filter fun a => a.1 = cls).map fun a => a.2.1 := by
  induction rest with
  | nil =>
    intro c c' _ _ _ h cls
    cases h
    exact (List.append_nil _).symm
  | cons a rest ih =>
    intro c c' hfaithful hnodup hfresh h cls
    obtain ⟨u, mid, hfirst, hrest⟩ := exists_of_bind_ok
      (show (connectNext a >>= fun _ => rest.forM connectNext) c = .ok ⟨⟩ c' from h)
    have hmem : a ∈ a :: rest := List.mem_cons_self ..
    obtain ⟨hl, hid⟩ := hfaithful a hmem
    obtain ⟨k, hk, hshared⟩ := connectItem_ok hl hfirst
    replace hk : Tracked.itemId k = a.2.1 := hk.trans hid
    have hkeys : ∀ cls, (mid.shared.itemsOf cls).keys =
        (c.shared.itemsOf cls).keys ++ if a.1 = cls then [a.2.1] else [] := by
      intro cls
      rw [hshared, ChangeLog.keys_record (fun cls' => hk ▸ hfresh a hmem cls'), hk]
    rw [List.map_cons, List.nodup_cons] at hnodup
    -- the identities are distinct, so the later ones are still new
    have hlater : ∀ b ∈ rest, ∀ cls, b.2.1 ∉ (mid.shared.itemsOf cls).keys := by
      intro b hb cls hmem'
      rw [hkeys] at hmem'
      rcases List.mem_append.1 hmem' with hold | hnew
      · exact hfresh b (List.mem_cons_of_mem a hb) cls hold
      · split at hnew
        · rw [List.mem_singleton] at hnew
          exact hnodup.1 (List.mem_map.2 ⟨b, hb, hnew⟩)
        · cases hnew
    rw [ih (fun b hb => hfaithful b (List.mem_cons_of_mem a hb)) hnodup.2 hlater hrest cls, hkeys,
      List.append_assoc, List.filter_cons]
    by_cases hcls : a.1 = cls
    · simp [hcls]
    · simp [hcls]

/-- A commit whose batch was stored has come to the items of its log in their order. -/
theorem keys_persist {c c' : Commit σ τ} (hlog : c.log.Recorded)
    (hempty : ∀ cls, c.shared.itemsOf cls = .empty) (h : persist sink c = .ok () c')
    (cls : ChangeLog.Class) : (c'.shared.itemsOf cls).keys = (c.log.itemsOf cls).keys := by
  rw [persist_eq, forM_steps] at h
  obtain ⟨u, mid, hconnected, hfinished⟩ := exists_of_bind_ok h
  have hshared : c'.shared = mid.shared := by
    have hkeeps := keepsShared_finishing sink mid
    rwa [stateAfter_of_ok hfinished] at hkeeps
  have hentry : ∀ a ∈ c.log.agenda, a.2.2.Faithful ∧ a.2.2.id = a.2.1 := by
    rintro ⟨cls', id, l⟩ ha
    have hget := ChangeLog.mem_agenda.1 ha
    exact ⟨hlog.faithful l (ChangeLog.mem_states.2 ⟨cls', OrderedMap.mem_values.2 ⟨id, hget⟩⟩),
      hlog.wellFormed.itemId_eq cls' hget⟩
  have hnone : ∀ cls', (c.shared.itemsOf cls').keys = [] := by
    intro cls'
    rw [hempty cls']
    rfl
  have hkeys := keys_connected c.log.agenda hentry
    (c.log.agenda_perm_scope.nodup_iff.2 hlog.wellFormed.nodup_scope)
    (fun a _ cls' hmem => by rw [hnone cls'] at hmem; cases hmem) hconnected cls
  rw [hshared, hkeys, hnone cls, List.nil_append, ChangeLog.filter_agenda]

/-- The instances among `hs` that cannot be loaded anew, one after the other. -/
def lost (b : Backend σ) : List Handle → σ → List Handle
  | [], _ => []
  | h :: rest, storage =>
    match b.load h.id storage with
    | .ok _ storage => lost b rest storage
    | .error _ storage => h :: lost b rest storage

/-- The instances that a commit gives up when it fails: those it cannot load anew, and all that it has
made for added items. -/
def givenUp (c : Commit σ τ) : List Handle :=
  lost c.workspace.backend c.touched c.workspace.storage ++ c.shared.addedItems.values

/-- The lost instances are some of those that were restored. -/
theorem lost_sublist (b : Backend σ) (hs : List Handle) (storage : σ) :
    (lost b hs storage).Sublist hs := by
  induction hs generalizing storage with
  | nil => exact List.Sublist.refl _
  | cons h rest ih =>
    rw [lost]
    cases b.load h.id storage with
    | ok s storage' => exact (ih storage').cons h
    | error e storage' => exact (ih storage').cons_cons h

/-- An instance is lost if it cannot be loaded after those before it. -/
theorem mem_lost {b : Backend σ} {hs : List Handle} {storage : σ} {h : Handle} :
    h ∈ lost b hs storage ↔ ∃ before after, hs = before ++ h :: after ∧
      ∃ e s', b.load h.id (Workspace.reloads b before storage) = .error e s' := by
  induction hs generalizing storage with
  | nil => simp [lost]
  | cons k rest ih =>
    have hlater : (∃ before after, rest = before ++ h :: after ∧ ∃ e s', b.load h.id
        (Workspace.reloads b (k :: before) storage) = .error e s') ↔
        h ∈ lost b rest (stateAfter (b.load k.id) storage) := ih.symm
    have hsplit : (∃ before after, k :: rest = before ++ h :: after ∧ ∃ e s', b.load h.id
        (Workspace.reloads b before storage) = .error e s') ↔
        (h = k ∧ ∃ e s', b.load k.id storage = .error e s') ∨
          h ∈ lost b rest (stateAfter (b.load k.id) storage) := by
      rw [← hlater]
      constructor
      · rintro ⟨before, after, heq, hfail⟩
        rcases List.cons_eq_append_iff.1 heq with ⟨rfl, hcons⟩ | ⟨before', rfl, hrest⟩
        · cases hcons
          exact Or.inl ⟨rfl, hfail⟩
        · exact Or.inr ⟨before', after, hrest, hfail⟩
      · rintro (⟨rfl, hfail⟩ | ⟨before, after, rfl, hfail⟩)
        · exact ⟨[], rest, rfl, hfail⟩
        · exact ⟨k :: before, after, rfl, hfail⟩
    rw [hsplit, lost]
    cases hload : b.load k.id storage with
    | ok s storage' => simp [stateAfter_of_ok hload]
    | error e storage' => simp [stateAfter_of_error hload]

end Commit

namespace Workspace

variable {w : Workspace σ} {b : Backend σ} {sink : Sink σ τ} {held : List Handle} {t : τ}
  {log : ChangeLog LocalItem}

/-! ## What each part of a commit tells -/

/-- A loop that tells of each instance tells of them in order. -/
theorem notifier_foldl {step : Workspace σ → Handle → Workspace σ} {kind : TransitionKind}
    (hstep : ∀ w h, (step w h).notifier = w.notifier.notify h.id kind) (hs : List Handle)
    (w : Workspace σ) :
    (hs.foldl step w).notifier = w.notifier.tell (hs.map fun h => ⟨h.id, kind⟩) := by
  induction hs generalizing w with
  | nil => rfl
  | cons h rest ih =>
    rw [List.foldl_cons, ih, hstep]
    rfl

/-- A commit that settles tells of the transitions of its log. -/
theorem notifier_persisted {shared : ChangeLog Handle} (hshared : shared.WellFormed)
    (w : Workspace σ) : (w.persisted shared).notifier = w.notifier.tell shared.transitions := by
  have hids : ∀ cls kind, ((shared.itemsOf cls).values.map fun h => Transition.mk h.id kind) =
      (shared.itemsOf cls).keys.map (⟨·, kind⟩) := by
    intro cls kind
    rw [← hshared.map_itemId_values cls, List.map_map]
    rfl
  show (shared.deletedItems.values.foldl settleDeleted _).notifier = _
  rw [notifier_foldl (fun _ _ => rfl), notifier_foldl (fun _ _ => rfl), notifier_foldl (fun _ _ => rfl),
    ← Notifier.tell_append, ← Notifier.tell_append, ← List.append_assoc]
  exact congrArg w.notifier.tell (congrArg₂ (· ++ ·) (congrArg₂ (· ++ ·) (hids .added .created)
    (hids .modified .modified)) (hids .deleted .destroyed))

/-- Restoring instances tells of those that were lost. -/
theorem notifier_foldl_restore (hs : List Handle) (w : Workspace σ) :
    (hs.foldl restore w).notifier = w.notifier.tell
      ((Commit.lost w.backend hs w.storage).map fun h => ⟨h.id, .discarded⟩) := by
  induction hs generalizing w with
  | nil => rfl
  | cons h rest ih =>
    rw [List.foldl_cons, ih, restore_eq, Commit.lost]
    cases w.backend.load h.id w.storage with
    | ok s storage => rfl
    | error e storage => rfl

/-- Rolling back tells of the instances given up. -/
theorem notifier_rollBack (c : Commit σ τ) : (c.workspace.rollBack c.shared).notifier =
    c.workspace.notifier.tell (c.givenUp.map fun h => ⟨h.id, .discarded⟩) := by
  rw [rollBack_eq, notifier_foldl (fun _ _ => rfl), notifier_foldl_restore, ← Notifier.tell_append,
    ← List.map_append]
  rfl

/-! ## What a commit tells -/

/-- The instances that a commit gives up: none if it succeeds, or if it fails before it comes to any. -/
def discards (sink : Sink σ τ) (held : List Handle) (w : Workspace σ) (t : τ)
    (log : ChangeLog LocalItem) : List Handle :=
  match partitionReferences log log.references.values w with
  | .error _ _ => []
  | .ok (records, _) w' =>
    match Commit.persist sink (begin w' t held log records) with
    | .error _ c => c.givenUp
    | .ok () _ => []

/-- The transitions of a commit. -/
def transitions (sink : Sink σ τ) (held : List Handle) (w : Workspace σ) (t : τ)
    (log : ChangeLog LocalItem) : List Transition :=
  match (store sink held w t log).result with
  | .ok () => log.transitions
  | .error _ => (discards sink held w t log).map fun h => ⟨h.id, .discarded⟩

/-- What holds of a commit that only read, of one that is abandoned and gives up its instances, and of
one that is concluded with all the items of its log, holds of every commit and what it gives up. -/
theorem discards_ends {motive : Outcome σ τ → List Handle → Prop} (hw : w.Ready b)
    (hsink : sink.OnlyReads) (hlog : log.Recorded)
    (hread : ∀ e w', (∀ held, w.LookedAt held w') → motive ⟨.error e, w', t, log⟩ [])
    (hstop : ∀ records e c, Commit.Underway (begin w t held log records) c →
      motive (abandon e c) c.givenUp)
    (hdone : ∀ records virtual c, Commit.Underway (begin w t held log records) c →
      (∀ cls, (c.shared.itemsOf cls).keys = (log.itemsOf cls).keys) →
      motive (conclude sink virtual c) []) :
    motive (store sink held w t log) (discards sink held w t log) := by
  have hcourse := store_course hw hsink hlog held t
  rw [discards]
  generalize store sink held w t log = out at hcourse ⊢
  cases hcourse with
  | refused hp =>
    rw [hp]
    refine hread _ _ fun held => ?_
    rw [← stateAfter_of_error hp]
    exact lookedAt_partitionReferences held log log.references.values w
  | abandoned hp hpersist hc =>
    rw [hp]
    dsimp only
    rw [hpersist]
    exact hstop _ _ _ (hc.underway hw.sound_begin)
  | concluded hp hpersist hc =>
    rw [hp]
    dsimp only
    rw [hpersist]
    exact hdone _ _ _ (hc.underway hw.sound_begin)
      (Commit.keys_persist hlog (Commit.itemsOf_shared_begin _ _ _ _ _) hpersist)

/-- Subscribers are told of the transitions of a commit, and of nothing else. -/
theorem notifier_store (hw : w.Ready b) (hsink : sink.OnlyReads) (hlog : log.Recorded)
    (held : List Handle) (t : τ) : (store sink held w t log).workspace.notifier =
      w.notifier.tell (transitions sink held w t log) := by
  have hends : (store sink held w t log).workspace.notifier =
      w.notifier.tell (if (store sink held w t log).result = .ok () then log.transitions
        else (discards sink held w t log).map fun h => ⟨h.id, .discarded⟩) := by
    apply discards_ends (motive := fun out hs => out.workspace.notifier = w.notifier.tell
      (if out.result = .ok () then log.transitions else hs.map fun h => ⟨h.id, .discarded⟩))
      hw hsink hlog
    · intro e w' hlook
      exact (hlook []).notifier
    · intro records e c hunder
      have hsame : c.workspace.notifier = w.notifier := hunder.notifier
      rw [← hsame]
      exact notifier_rollBack c
    · intro records virtual c hunder hkeys
      have hsame : (c.workspace.persisted c.shared).notifier = w.notifier.tell log.transitions := by
        rw [notifier_persisted hunder.wellFormed, ChangeLog.transitions_congr hkeys]
        exact congrArg (Notifier.tell · log.transitions) hunder.notifier
      exact (lookedAt_conclude hsink virtual c).notifier.trans hsame
  rw [hends, transitions]
  cases (store sink held w t log).result <;> rfl

/-- What a commit that fails gives up are different instances, they are discarded afterwards, and no
other instance that was there before is. -/
theorem discards_spec (hw : w.Ready b) (hsink : sink.OnlyReads) (hlog : log.Recorded)
    {e : Error} (hfail : (store sink held w t log).result = .error e) :
    (discards sink held w t log).Nodup ∧
      (∀ h ∈ discards sink held w t log,
        ((store sink held w t log).workspace.heap.read h).status = .discarded) ∧
      ∀ h, w.heap.Valid h → (w.heap.read h).status ≠ .discarded →
        ((store sink held w t log).workspace.heap.read h).status = .discarded →
        h ∈ discards sink held w t log := by
  revert hfail
  apply discards_ends (motive := fun out hs => out.result = .error e → hs.Nodup ∧
    (∀ h ∈ hs, (out.workspace.heap.read h).status = .discarded) ∧
    ∀ h, w.heap.Valid h → (w.heap.read h).status ≠ .discarded →
      (out.workspace.heap.read h).status = .discarded → h ∈ hs) hw hsink hlog
  · intro e' w' hlook _
    refine ⟨List.nodup_nil, fun h hh => absurd hh List.not_mem_nil, fun h hv hne hstatus => ?_⟩
    rw [(hlook []).heap.read hv] at hstatus
    exact absurd hstatus hne
  · intro records e' c hunder _
    have hback := rolledBack_abandon hw hunder e'
    have hbackend : c.workspace.backend = w.backend := hunder.backend
    refine ⟨?_, fun h hh => ?_, fun h hv hne hstatus => ?_⟩
    · have hstates : (c.touched ++ c.shared.addedItems.values).Nodup := by
        refine (List.perm_append_comm.nodup_iff).1 ?_
        rw [Commit.touched, ← List.append_assoc]
        exact hunder.nodup_states
      exact hstates.sublist ((Commit.lost_sublist _ _ _).append (List.Sublist.refl _))
    · rcases List.mem_append.1 hh with hlost | hadded
      · obtain ⟨before, after, hsplit, e'', s', hload⟩ := Commit.mem_lost.1 hlost
        have hreload := hback.recovered before h after hsplit
        rw [← hbackend, hload] at hreload
        exact hreload.1
      · exact (hback.discarded h hadded).2.1
    · refine List.mem_append_left _ ?_
      by_cases htouched : h ∈ c.touched
      · obtain ⟨before, after, hsplit⟩ := List.append_of_mem htouched
        have hreload := hback.recovered before h after hsplit
        rw [← hbackend] at hreload
        cases hload : c.workspace.backend.load h.id
            (reloads c.workspace.backend before c.workspace.storage) with
        | error e'' s' => exact Commit.mem_lost.2 ⟨before, after, hsplit, e'', s', hload⟩
        | ok s s' =>
          -- an instance that is loaded anew keeps its status
          rw [hload] at hreload
          rw [hreload.2.1 hv] at hstatus
          exact absurd hstatus hne
      · rw [hback.others h hv htouched] at hstatus
        exact absurd hstatus hne
  · intro records virtual c _ _ hfail
    cases hfail

end Workspace

end ContentTree
