import ContentTree.Proofs.Workspace.Coherence
import ContentTree.Proofs.Workspace.Lending

/-!
# Commits and virtual subtrees

A commit writes to an instance of a subtree that it was lent as to any other. Every other instance of
a subtree stays as it is, whether the commit succeeds or fails, and of the subtrees themselves no more
than the reference records change, and those on success only (`Hosting.store_sparing`).
-/

namespace ContentTree

namespace Workspace

variable {σ τ : Type} {b : Backend σ} {w w' : Workspace σ} {held : List Handle}
  {sink : Sink σ τ} {log : ChangeLog LocalItem} {t : τ}

/-! ## One commit -/

/-- What a commit of `log` to the workspace `w` does to the virtual subtrees. -/
structure Sparing (w : Workspace σ) (log : ChangeLog LocalItem) (out : Outcome σ τ) : Prop where
  /-- An instance of a subtree reads as before, unless it is lent and the log modifies or deletes its
  item. -/
  instances : ∀ p ∈ w.providers, ∀ id h, p.items.get? id = some h →
    ¬(w.Lends h ∧ (log.isModified h.id = true ∨ log.isDeleted h.id = true)) →
    out.workspace.heap.read h = w.heap.read h
  /-- A commit that fails leaves the subtrees. -/
  failed : ∀ e, out.result = .error e → out.workspace.providers = w.providers
  /-- One that succeeds hands them the reference records of the log whose targets they hold. -/
  delivered : out.result = .ok () → out.workspace.providers =
    (w.deliver (log.references.values.filter w.isVirtual)).providers
  /-- So only reference records change. -/
  records : ∀ n : Nat, ∀ p, w.providers[n]? = some p →
    ∃ records, out.workspace.providers[n]? = some { p with records }

/-- A reference record that is offered changes the records of one subtree at most. -/
theorem getElem?_offer (r : NodeReferences) (ns : List Nat) {providers : List Provider} {n : Nat}
    {p : Provider} (hp : providers[n]? = some p) :
    ∃ records, (offer r ns providers)[n]? = some { p with records } := by
  induction ns with
  | nil => exact ⟨p.records, hp⟩
  | cons m rest ih =>
    unfold offer
    split
    · exact ih
    · next q hq =>
      split
      · next q' hset =>
        have hrecords : ∃ records, q' = { q with records } := by
          simp only [Provider.setReferences] at hset
          split at hset
          · cases hset
          · split at hset <;> cases hset <;> exact ⟨_, rfl⟩
        obtain ⟨records, rfl⟩ := hrecords
        rw [List.getElem?_set]
        split
        · next hm =>
          subst hm
          rw [hq] at hp
          cases hp
          rw [if_pos (List.getElem?_eq_some_iff.1 hq).1]
          exact ⟨records, rfl⟩
        · exact ⟨p.records, hp⟩
      · exact ih

/-- Delivering records changes the records of a provider and nothing else of it. -/
theorem getElem?_deliver (records : List NodeReferences) {n : Nat} {p : Provider}
    (hp : w.providers[n]? = some p) :
    ∃ records', (w.deliver records).providers[n]? = some { p with records := records' } := by
  have hfold := List.foldlRecOn records (fun ps r => offer r w.overlays ps)
    (motive := fun ps => ∃ records', ps[n]? = some { p with records := records' })
    ⟨p.records, hp⟩ fun ps hps r _ => by
      obtain ⟨records', hps⟩ := hps
      obtain ⟨records'', hafter⟩ := getElem?_offer r w.overlays hps
      exact ⟨records'', hafter⟩
  exact hfold

/-- An instance in the shared log of a commit stands under an identity of the log. -/
theorem mem_keys_of_connecting {c₀ c : Commit σ τ} {done : List (ChangeLog.Class × ItemId)}
    (hc : Commit.Connecting c₀ done c) {cls : ChangeLog.Class} {h : Handle}
    (hh : h ∈ (c.shared.itemsOf cls).values) : h.id ∈ (c₀.log.itemsOf cls).keys := by
  obtain ⟨l, hl, -⟩ := (hc.entered_of_mem hh).connected
  have hkeys := congrArg (fun log => (log.itemsOf cls).keys) hc.states
  simp only [ChangeLog.itemsOf_mapStates, OrderedMap.keys_map] at hkeys
  rw [← hkeys]
  exact OrderedMap.mem_keys_iff.2 ⟨l, hl⟩

/-- An instance of a subtree that is not lent, or that the log does not name, is not written to before
a commit ends, and is none of those that the commit came to. -/
theorem untouched_of_borrows (hsound : w.Sound) {records : List NodeReferences} {c : Commit σ τ}
    (hunder : Commit.Underway (begin w t held log records) c)
    (hkeys : ∀ {cls h}, h ∈ (c.shared.itemsOf cls).values → h.id ∈ (log.itemsOf cls).keys)
    (hborrows : Commit.Borrows w c.shared) {h : Handle} (hh : w.Provides h)
    (hspare : ¬(w.Lends h ∧ (log.isModified h.id = true ∨ log.isDeleted h.id = true))) :
    h ∉ c.shared.states ∧ c.workspace.heap.read h = w.heap.read h := by
  have hv := hsound.valid_of_provides hh
  have hnot : ∀ cls, h ∉ (c.shared.itemsOf cls).values := by
    intro cls hcls
    have hlent := hborrows h (ChangeLog.mem_states.2 ⟨cls, hcls⟩) hh
    cases cls with
    | added =>
      -- an instance that the commit made is younger than those of the subtrees
      exact Nat.not_le_of_lt hv.index_lt (hunder.added hcls).1
    | modified => exact hspare ⟨hlent, Or.inl (ChangeLog.isModified_eq_true.2 (hkeys hcls))⟩
    | deleted => exact hspare ⟨hlent, Or.inr (ChangeLog.isDeleted_eq_true.2 (hkeys hcls))⟩
  refine ⟨fun hmem => ?_, hunder.untouched hv (hnot .modified) (hnot .deleted)⟩
  obtain ⟨cls, hcls⟩ := ChangeLog.mem_states.1 hmem
  exact hnot cls hcls

/-- What a workspace with subtrees keeps to between two commits. -/
structure Host (b : Backend σ) (w : Workspace σ) : Prop where
  ready : w.Ready b
  apart : w.Apart

namespace Host

/-- Looking at a workspace leaves it a host. -/
theorem look (hw : Host b w) (h : w.LookedAt held w') : Host b w' :=
  ⟨hw.ready.look h, hw.apart.look hw.ready.sound h⟩

/-- A commit that is abandoned. -/
theorem abandon (hw : Host b w) {records : List NodeReferences} {c : Commit σ τ}
    (hc : Commit.Stopped (begin w t held log records) c) (hborrows : Commit.Borrows w c.shared)
    (e : Error) :
    Host b (Workspace.abandon e c).workspace ∧ Sparing w log (Workspace.abandon e c) := by
  have hunder := hc.underway hw.ready.sound_begin
  have hundo := concerns_rollBack c.workspace c.shared
  obtain ⟨done, before, heap, storage, hbefore, -, -, rfl⟩ := hc
  have hproviders : (before.withData heap storage).workspace.providers = w.providers :=
    hunder.providers
  refine ⟨⟨hw.ready.abandon hunder e, hw.apart.congr hw.ready.sound ?_ ?_ (fun hv => ?_) ?_⟩,
    { instances := fun p hp id h hget hspare => ?_
      failed := fun _ _ => hundo.providers.trans hproviders
      delivered := fun hok => by cases hok
      records := fun n p hp => ⟨p.records, ?_⟩ }⟩
  · exact congrArg _ (hundo.providers.trans hproviders)
  · exact hundo.root.trans hunder.root
  · exact (hundo.valid _).2 (hunder.keepsIds _ hv)
  · intro id k hk
    exact (hbefore.looked.entry (hundo.cached hk)).imp_right fun hnew => hnew.fresh
  · obtain ⟨hnot, hread⟩ := untouched_of_borrows hw.ready.sound hunder
      (fun hh => mem_keys_of_connecting hbefore hh) hborrows ⟨p, hp, id, hget⟩ hspare
    have hv : w.heap.Valid h := hw.ready.sound.provided p hp id h hget
    exact (hundo.read_of_not_mem (hunder.keepsIds h hv) hunder.valid_states hnot).trans hread
  · show ((before.withData heap storage).workspace.rollBack before.shared).providers[n]? = _
    rw [show ((before.withData heap storage).workspace.rollBack before.shared).providers = _ from
      hundo.providers.trans hproviders, hp]

/-- A commit that is concluded. -/
theorem conclude (hw : Host b w) (hsink : sink.OnlyReads) {records : List NodeReferences}
    {c : Commit σ τ} (hc : Commit.Stored (begin w t held log records) c)
    (hborrows : Commit.Borrows w c.shared) :
    Host b (Workspace.conclude sink (log.references.values.filter w.isVirtual) c).workspace ∧
      Sparing w log (Workspace.conclude sink (log.references.values.filter w.isVirtual) c) := by
  have hunder := hc.underway hw.ready.sound_begin
  obtain ⟨before, heap, storage, hbefore, -, -, rfl⟩ := hc
  generalize hvirtual : log.references.values.filter w.isVirtual = virtual
  generalize hc : before.withData heap storage = c at hunder hborrows ⊢
  have hshared : c.shared = before.shared := by rw [← hc]; rfl
  have hcache : c.workspace.cache = before.workspace.cache := by rw [← hc]; rfl
  have hdispatch := lookedAt_conclude hsink virtual c
  have hsettled := hw.ready.settle hunder virtual
  have hafter := (subtrees_conclude hsink hunder virtual).1
  have hapart : Apart
      { (c.workspace.persisted c.shared).deliver virtual with locked := false } := by
    refine hw.apart.congr hw.ready.sound ?_ ?_ (fun hv => ?_) ?_
    · exact (congrArg _ (hdispatch.providers.symm.trans hafter)).trans (items_deliver w virtual)
    · exact (root_persisted _ _).trans hunder.root
    · show (c.workspace.persisted c.shared).heap.Valid w.root
      rw [valid_persisted]
      exact hunder.keepsIds _ hv
    · intro id k hk
      replace hk : (c.workspace.persisted c.shared).cache.peek? id = some k := hk
      rw [cache_persisted] at hk
      -- an added instance comes into the cache, and all others were there
      rcases peek?_settledCache_le hk with hold | hadded
      · rw [hcache] at hold
        exact (hbefore.looked.entry hold).imp_right fun hnew => hnew.fresh
      · exact Or.inr (hunder.added hadded).1
  refine ⟨⟨hsettled.look hdispatch, hapart.look hsettled.sound hdispatch⟩,
    { instances := fun p hp id h hget hspare => ?_
      failed := fun e herr => by cases herr
      delivered := fun _ => hvirtual ▸ hafter
      records := fun n p hp => by rw [hafter]; exact getElem?_deliver virtual hp }⟩
  obtain ⟨hnot, hread⟩ := untouched_of_borrows hw.ready.sound hunder
    (fun {cls k} hk => mem_keys_of_connecting hbefore (hshared ▸ hk)) hborrows ⟨p, hp, id, hget⟩ hspare
  have hv : c.workspace.heap.Valid h :=
    hunder.keepsIds h (hw.ready.sound.provided p hp id h hget)
  have hsettledRead : (c.workspace.persisted c.shared).heap.read h = c.workspace.heap.read h := by
    rw [heap_persisted]
    exact (read_settledHeap hunder.valid_states hunder.nodup_states hv).2 hnot
  have hvalid : (c.workspace.persisted c.shared).heap.Valid h := by
    rw [valid_persisted]
    exact hv
  exact (hdispatch.heap.read hvalid).trans (hsettledRead.trans hread)

/-- A commit whose reference records are not in order has only read. -/
theorem refused (hw : Host b w) (hlook : w.LookedAt held w') (e : Error) (t : τ)
    (log : ChangeLog LocalItem) : Host b w' ∧ Sparing w log ⟨.error e, w', t, log⟩ := by
  refine ⟨hw.look hlook,
    { instances := fun p hp id h hget _ => hlook.heap.read (hw.ready.sound.provided p hp id h hget)
      failed := fun _ _ => hlook.providers
      delivered := fun hok => by cases hok
      records := fun n p hp => ⟨p.records, ?_⟩ }⟩
  show w'.providers[n]? = _
  rw [hlook.providers, hp]

/-- What a commit comes to of the subtrees is lent. -/
theorem borrows_persist (hw : Host b w) (hlog : log.Recorded) (hlook : w.LookedAt [] w') (sink : Sink σ τ)
    (held : List Handle) (t : τ) (records : List NodeReferences) : Commit.Borrows w
      (stateAfter (Commit.persist sink) (begin w' t held log records)).shared := by
  have hempty : (begin w' t held log records).shared.states = [] := by
    refine List.eq_nil_iff_forall_not_mem.2 fun h hh => ?_
    obtain ⟨cls, hcls⟩ := ChangeLog.mem_states.1 hh
    rw [Commit.itemsOf_shared_begin] at hcls
    cases hcls
  have hborrows := Commit.borrows_persist (w := { w with locked := true }) sink
    ⟨hw.ready.sound.cached, hw.ready.sound.provided⟩
    ⟨hw.apart.cached, hw.apart.rootValid, hw.apart.root⟩
    (c := begin w' t held log records) hlog (hlook.lock true) hempty
  exact fun h hh hprovided => (hborrows h hh hprovided).unlock

/-- A commit leaves the workspace a host, and spares its subtrees. -/
theorem store (hw : Host b w) (hsink : sink.OnlyReads) (hlog : log.Recorded) :
    Host b (Workspace.store sink held w t log).workspace ∧
      Sparing w log (Workspace.store sink held w t log) := by
  have hlook := lookedAt_partitionReferences [] log log.references.values w
  have hcourse := store_course hw.ready hsink hlog held t
  generalize Workspace.store sink held w t log = out at hcourse ⊢
  cases hcourse with
  | refused hp =>
    rw [stateAfter_of_error hp] at hlook
    exact hw.refused hlook _ t log
  | @abandoned records _ _ _ _ hp hpersist hc =>
    rw [stateAfter_of_ok hp] at hlook
    have hborrows := hw.borrows_persist hlog hlook sink held t records
    rw [stateAfter_of_error hpersist] at hborrows
    exact hw.abandon hc hborrows _
  | @concluded records _ _ _ hp hpersist hc =>
    rw [stateAfter_of_ok hp] at hlook
    obtain ⟨-, rfl, -⟩ := partitionReferences_eq hp
    have hborrows := hw.borrows_persist hlog hlook sink held t records
    rw [stateAfter_of_ok hpersist] at hborrows
    exact hw.conclude hsink hc hborrows

/-- Subtrees may change as long as what they come to hold is new. -/
theorem subtrees (hw : Host b w) {heap : Heap} {providers : List Provider} (hgrows : w.heap.Grows heap)
    (hnew : ∀ p ∈ providers, ∀ id h, p.items.get? id = some h →
      w.Provides h ∨ w.heap.cells.size ≤ h.index ∧ heap.Valid h) (overlays : List Nat) :
    Host b { w with heap, providers, overlays } where
  ready :=
    { sound :=
        { cached := fun hid => hgrows.valid (hw.ready.sound.cached hid)
          provided := fun p hp id h hget => by
            rcases hnew p hp id h hget with hold | ⟨-, hv⟩
            · exact hgrows.valid (hw.ready.sound.valid_of_provides hold)
            · exact hv }
      unlocked := hw.ready.unlocked
      backend := hw.ready.backend }
  apart :=
    { cached := fun {id h} hid ⟨p, hp, id', hget⟩ => by
        rcases hnew p hp id' h hget with hold | ⟨hfresh, -⟩
        · exact hw.apart.cached hid hold
        · exact Nat.not_le_of_lt (hw.ready.sound.cached hid).index_lt hfresh
      rootValid := hgrows.valid hw.apart.rootValid
      root := fun ⟨p, hp, id, hget⟩ => by
        rcases hnew p hp id _ hget with hold | ⟨hfresh, -⟩
        · exact hw.apart.root hold
        · exact Nat.not_le_of_lt hw.apart.rootValid.index_lt hfresh }

/-- A workspace that is disposed keeps its root alone in the cache. -/
theorem dispose (hw : Host b w) : Host b w.dispose := by
  have hroot : ∀ {id h}, w.dispose.cache.peek? id = some h → h = w.root := by
    intro id h hid
    replace hid : (Cache.empty.put w.root).2.peek? id = some h := hid
    rw [Cache.peek?_put] at hid
    split at hid
    · exact (Option.some.inj hid).symm
    · cases hid
  refine ⟨⟨⟨fun hid => ?_, hw.ready.sound.provided⟩, hw.ready.unlocked, hw.ready.backend⟩,
    ⟨fun hid => ?_, hw.apart.rootValid, hw.apart.root⟩⟩
  · rw [hroot hid]
    exact hw.apart.rootValid
  · rw [hroot hid]
    exact hw.apart.root

/-- What is stored, and who is told of transitions, does not concern the subtrees. -/
theorem switch (hw : Host b w) (storage : σ) (notifier : Notifier) :
    Host b { w with storage, notifier } :=
  ⟨⟨⟨hw.ready.sound.cached, hw.ready.sound.provided⟩, hw.ready.unlocked, hw.ready.backend⟩,
    ⟨hw.apart.cached, hw.apart.rootValid, hw.apart.root⟩⟩

/-- A workspace that was opened is a host. -/
theorem openOver {config : Config} {registry : Registry} {s s' : Shared σ} (hs : SharedSound s)
    (h : Workspace.openOver config b registry s = .ok w s') : Host b w := by
  refine ⟨ready_openOver hs h, ?_⟩
  obtain ⟨asked, -, ⟨root, m, -, rfl⟩ | ⟨node, property, m, -, -, rfl⟩⟩ := openOver_ok h
  · have hfresh : ¬Provides (aroundLoaded config b { s with storage := m } root)
        (s.heap.alloc (root.withStatus .existing)).1 := by
      rintro ⟨p, hp, id, hget⟩
      exact Nat.lt_irrefl _ (hs p hp id _ hget).index_lt
    refine ⟨fun hid => ?_, Heap.valid_alloc _ _, hfresh⟩
    obtain ⟨-, rfl⟩ := peek?_aroundLoaded hid
    exact hfresh
  · -- the root and the property with its type were made, and nothing else is cached
    have hfresh : ∀ h, s.heap.cells.size ≤ h.index → ¬Provides
        ((aroundMade config b { s with storage := m } node property).persisted
          (rootLog config s.heap node property)) h := by
      rintro h hh ⟨p, hp, id, hget⟩
      rw [providers_persisted] at hp
      exact Nat.not_le_of_lt (hs p hp id h hget).index_lt hh
    refine ⟨fun {id h} hid => hfresh h ?_, ?_, hfresh _ ?_⟩
    · rw [cache_persisted] at hid
      rcases peek?_settledCache_le hid with hold | hadded
      · cases hold
      · exact fresh_rootLog _ _ _ _ h (ChangeLog.mem_states.2 ⟨.added, hadded⟩)
    · rw [heap_persisted, root_persisted, valid_settledHeap]
      exact (Heap.grows_alloc _ _).valid (Heap.valid_alloc _ _)
    · rw [root_persisted]
      exact Nat.le_refl _

end Host

/-! ## Runs -/

/-- A workspace over a backend after it was opened, read from and committed to in any order, while
subtrees are made and registered, and items are put into them and taken out, at any time. Between two
steps the storage may change in any way. -/
inductive Hosting (b : Backend σ) : Workspace σ → Prop where
  | opened (config : Config) (registry : Registry) {s s' : Shared σ} {w : Workspace σ} :
    SharedSound s → openOver config b registry s = .ok w s' → Hosting b w
  | asked {w w' : Workspace σ} : Asked w w' → Hosting b w → Hosting b w'
  | stored {τ : Type} {w : Workspace σ} {sink : Sink σ τ} {log : ChangeLog LocalItem}
    (held : List Handle) (t : τ) : sink.OnlyReads → log.Recorded → Hosting b w →
    Hosting b (store sink held w t log).workspace
  | provided {w : Workspace σ} {root : ItemState} {refuses : Bool} {p : Provider} {heap : Heap} :
    Provider.new w.heap root refuses = .ok (p, heap) → Hosting b w →
    Hosting b { w with heap, providers := w.providers ++ [p] }
  | registered {w : Workspace σ} (n : Nat) : Hosting b w → Hosting b (w.register n)
  | inserted {w : Workspace σ} {n : Nat} {p : Provider} (s : ItemState) :
    w.providers[n]? = some p → Hosting b w →
    Hosting b { w with
      heap := (p.insert w.heap s).2.2
      providers := w.providers.set n (p.insert w.heap s).2.1 }
  | removed {w : Workspace σ} {n : Nat} {p : Provider} (id : ItemId) :
    w.providers[n]? = some p → Hosting b w →
    Hosting b { w with providers := w.providers.set n (p.remove id).2 }
  | disposed {w : Workspace σ} : Hosting b w → Hosting b w.dispose
  | observed {w : Workspace σ} (notifier : Notifier) : Hosting b w → Hosting b { w with notifier }
  | switched {w : Workspace σ} (storage : σ) : Hosting b w → Hosting b { w with storage }

/-- A subtree takes in an item as a new instance. -/
theorem get?_insert_items {p : Provider} {heap : Heap} {s : ItemState} {id : ItemId} {h : Handle}
    (hget : (p.insert heap s).2.1.items.get? id = some h) :
    p.items.get? id = some h ∨ heap.cells.size ≤ h.index ∧ (p.insert heap s).2.2.Valid h := by
  replace hget : (p.items.insert s.id (heap.alloc (s.withStatus .existing)).1).get? id = some h := hget
  rw [OrderedMap.get?_insert] at hget
  split at hget
  · cases hget
    exact Or.inr ⟨Nat.le_refl _, Heap.valid_alloc _ _⟩
  · exact Or.inl hget

/-- A hosting workspace is a host. -/
theorem Hosting.host (hw : Hosting b w) : Host b w := by
  induction hw with
  | opened config registry hs h => exact .openOver hs h
  | asked h _ ih => exact ih.look h.lookedAt
  | stored held t hsink hlog _ ih => exact (ih.store hsink hlog).1
  | @provided w root refuses p heap hnew _ ih =>
    unfold Provider.new at hnew
    split at hnew
    · cases hnew
      refine ih.subtrees (Heap.grows_alloc _ _) (fun p hp id h hget => ?_) _
      -- a new provider holds its root only
      rcases List.mem_append.1 hp with hold | hmade
      · exact Or.inl ⟨p, hold, id, hget⟩
      · rw [List.mem_singleton.1 hmade] at hget
        exact (get?_insert_items hget).imp_left fun hnone => by cases hnone
    · cases hnew
  | registered n _ ih =>
    exact ih.subtrees (refl_of Heap.Grows _) (fun p hp id h hget => Or.inl ⟨p, hp, id, hget⟩) _
  | @inserted w n p s hn _ ih =>
    refine ih.subtrees (Heap.grows_alloc _ _) (fun q hq id h hget => ?_) _
    rcases List.mem_or_eq_of_mem_set hq with hold | rfl
    · exact Or.inl ⟨q, hold, id, hget⟩
    · exact (get?_insert_items hget).imp_left
        fun hold => ⟨p, List.mem_of_getElem? hn, id, hold⟩
  | @removed w n p id hn _ ih =>
    refine ih.subtrees (refl_of Heap.Grows _) (fun q hq id' h hget => Or.inl ?_) _
    rcases List.mem_or_eq_of_mem_set hq with hold | rfl
    · exact ⟨q, hold, id', hget⟩
    · replace hget : (p.items.erase id).get? id' = some h := hget
      rw [OrderedMap.get?_erase] at hget
      split at hget
      · cases hget
      · exact ⟨p, List.mem_of_getElem? hn, id', hget⟩
  | disposed _ ih => exact ih.dispose
  | @observed w notifier _ ih => exact ih.switch w.storage notifier
  | @switched w storage _ ih => exact ih.switch storage w.notifier

/-- **A commit leaves the virtual subtrees alone but for what they lend.** -/
theorem Hosting.store_sparing (hw : Hosting b w) (hsink : sink.OnlyReads) (hlog : log.Recorded)
    (held : List Handle) (t : τ) : Sparing w log (store sink held w t log) :=
  (hw.host.store hsink hlog).2

/-! ### A subtree with a root of its own and an item that is stored as well -/

namespace Sample

/-- A workspace with one more subtree, which is registered. -/
def withSubtree (root : ItemState) (w : Workspace MemoryStore) : Workspace MemoryStore :=
  match Provider.new w.heap root false with
  | .ok (p, heap) => register { w with heap, providers := w.providers ++ [p] } w.providers.length
  | .error _ => w

/-- Registering a subtree with a new root leaves the workspace hosting. -/
theorem hosting_withSubtree {w : Workspace MemoryStore} (root : ItemState)
    (hw : Hosting MemoryStore.backend w) : Hosting MemoryStore.backend (withSubtree root w) := by
  unfold withSubtree
  split
  · next p heap hnew => exact .registered _ (.provided hnew hw)
  · exact hw

/-- A workspace opened by default is hosting. -/
theorem hosting_opened (m : MemoryStore)
    (h : openOver ⟨"sample", default, 1, none, 1⟩ MemoryStore.backend Registry.default ⟨∅, [], m⟩ =
      .ok (opened m) (opened m).toShared) : Hosting MemoryStore.backend (opened m) :=
  .opened _ _ (fun p hp => by cases hp) h

/-- A workspace with a subtree over a memory that refuses the next batch. -/
def hostFailing : Workspace MemoryStore :=
  withSubtree (.empty fresh) (opened { memory with failNext := true })

/-- A workspace whose first subtree took in one more item. -/
def withItem (s : ItemState) (w : Workspace MemoryStore) : Workspace MemoryStore :=
  match w.providers[0]? with
  | some p =>
    { w with
      heap := (p.insert w.heap s).2.2
      providers := w.providers.set 0 (p.insert w.heap s).2.1 }
  | none => w

/-- Registering a subtree with a new item leaves the workspace hosting. -/
theorem hosting_withItem {w : Workspace MemoryStore} (s : ItemState)
    (hw : Hosting MemoryStore.backend w) : Hosting MemoryStore.backend (withItem s w) := by
  unfold withItem
  split
  · next p hp => exact .inserted s hp hw
  · exact hw

/-- A workspace with a subtree in which there is an item that the memory has, too. -/
def hostShadowing : Workspace MemoryStore :=
  withItem (.empty known) (withSubtree (.empty fresh) (opened memory))

/-- The workspace whose subtree shadows an item is hosting. -/
theorem hosting_hostShadowing : Hosting MemoryStore.backend hostShadowing :=
  hosting_withItem _ (hosting_withSubtree _ (hosting_opened memory rfl))

/-- A log that gives the root of the subtree another type. -/
def retypedRoot : ChangeLog LocalItem :=
  (ChangeLog.new (.node default)).record .modified
    (.new ⟨fresh, .existing, 0, .node (.new ⟨"retyped"⟩ none)⟩)

/-- The log that retypes the root of a subtree is recorded. -/
theorem recorded_retypedRoot : retypedRoot.Recorded :=
  (ChangeLog.Recorded.new _).record .modified (LocalItem.faithful_new _)

end Sample

/-- A commit that modifies items of the memory leaves the instance alone that a subtree has for one of
them. -/
theorem Hosting.store_sparing_shadowing :
    let out := store (Sink.silent MemoryStore) [] Sample.hostShadowing () Sample.retyped
    out.result = .ok () ∧
      (∃ p ∈ Sample.hostShadowing.providers, p.items.get? Sample.known = some ⟨2, Sample.known⟩) ∧
      out.workspace.heap.read ⟨2, Sample.known⟩ =
        Sample.hostShadowing.heap.read ⟨2, Sample.known⟩ := by
  have hsparing := Hosting.store_sparing Sample.hosting_hostShadowing
    Sink.onlyReads_silent Sample.recorded_retyped [] ()
  have hprovided : ∃ p ∈ Sample.hostShadowing.providers,
      p.items.get? Sample.known = some ⟨2, Sample.known⟩ := by
    decide +kernel
  refine ⟨by decide +kernel, hprovided, ?_⟩
  obtain ⟨p, hp, hget⟩ := hprovided
  refine hsparing.instances p hp _ _ hget fun ⟨hlent, _⟩ => ?_
  cases hlent with
  | claimed hclaim _ =>
    rw [show Sample.hostShadowing.claimant? Sample.known = none by decide +kernel] at hclaim
    cases hclaim
  | owned _ hasked hload _ _ _ =>
    -- the memory finds the item
    rw [show Sample.hostShadowing.backend = MemoryStore.backend from rfl] at hasked hload
    rw [MemoryStore.load_eq, MemoryStore.items_queried hasked] at hload
    have hstored : (Sample.hostShadowing.storage.items.get? Sample.known).isSome = true := by
      decide +kernel
    split at hload
    · cases hload
    · next hnone =>
      rw [show (⟨2, Sample.known⟩ : Handle).id = Sample.known from rfl] at hnone
      rw [hnone] at hstored
      cases hstored

/-- A commit that fails gives up the root of a subtree that its log modifies. -/
theorem lent_root_discarded :
    let out := store (Sink.silent MemoryStore) [] Sample.hostFailing () Sample.retypedRoot
    Hosting MemoryStore.backend Sample.hostFailing ∧ Sample.retypedRoot.Recorded ∧
      out.result = .error (.persistence .injected) ∧
      (∃ p ∈ Sample.hostFailing.providers, p.items.get? Sample.fresh = some ⟨1, Sample.fresh⟩) ∧
      (Sample.hostFailing.heap.read ⟨1, Sample.fresh⟩).status = .existing ∧
      (out.workspace.heap.read ⟨1, Sample.fresh⟩).status = .discarded :=
  ⟨Sample.hosting_withSubtree _ (Sample.hosting_opened _ rfl), Sample.recorded_retypedRoot,
    by decide +kernel, by decide +kernel, by decide +kernel, by decide +kernel⟩

end Workspace

end ContentTree
