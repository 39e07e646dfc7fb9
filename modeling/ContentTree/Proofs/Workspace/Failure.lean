import ContentTree.Persistence.Memory
import ContentTree.Proofs.Workspace.Reachable

/-!
# Commits that fail

A commit that fails after its reference records were found to be in order reports the error of the
first step that failed, and leaves nothing half done behind: the overlays are as they were and
disconnected, the instances that the commit had come to are loaded anew or given up one by one, and
everything else is as if there had been no commit (`store_error`).
-/

namespace ContentTree

variable {σ τ : Type}

/-- A list of steps stops at the first that fails, with its error. -/
def Commit.StopsAt (steps : List (Commit.Action σ τ Unit)) (c₀ : Commit σ τ) (e : Error)
    (c : Commit σ τ) : Prop :=
  ∃ done step rest mid, steps = done ++ step :: rest ∧ done.forM id c₀ = .ok ⟨⟩ mid ∧
    step mid = .error e c

/-- The instances in the modified and in the deleted set of the shared log. -/
def Commit.touched (c : Commit σ τ) : List Handle :=
  c.shared.modifiedItems.values ++ c.shared.deletedItems.values

namespace Workspace

/-- An instance that belongs to none of the registered virtual subtrees. -/
def Unserved (w : Workspace σ) (h : Handle) : Prop :=
  ∀ p ∈ w.subtrees, p.items.get? h.id ≠ some h

/-- Without overlays no instance comes from a subtree. -/
theorem unserved_of_overlays {w : Workspace σ} (hw : w.overlays = []) (h : Handle) : w.Unserved h := by
  intro p hp
  rw [subtrees_eq_nil hw] at hp
  cases hp

/-- What became of an instance that a commit had entered as modified or deleted: `u` is the workspace
when the commit failed, `u'` the one after undoing, and `result` what the backend answered to the
reload. -/
def Recovered (w u u' : Workspace σ) (h : Handle) : EStateM.Result Error σ ItemState → Prop
  | .ok s _ => u'.heap.read h = (u.heap.read h).copyFrom s ∧
      (w.heap.Valid h → u'.heap.read h = (w.heap.read h).copyFrom s) ∧
      (w.Unserved h → u.cache.peek? h.id = some h ∧ u'.cache.peek? h.id = some h)
  | .error _ _ => (u'.heap.read h).status = .discarded ∧ u'.cache.peek? h.id ≠ some h ∧
      (w.Unserved h → u'.cache.peek? h.id = none)

/-- How a commit of `log` to the workspace `w` ends that failed in the state `c`. -/
structure RolledBack (held : List Handle) (w : Workspace σ) (log : ChangeLog LocalItem)
    (c : Commit σ τ) (out : Outcome σ τ) : Prop where
  /-- Data and status of every overlay are as before, in the same sets and the same order. -/
  states : out.log.mapStates LocalItem.state = log.mapStates LocalItem.state
  disconnected : ∀ l ∈ out.log.states, l.overlayed = none
  /-- Each instance is decided by its own reload, after those of the instances before it. -/
  recovered : ∀ before h after, c.touched = before ++ h :: after →
    Recovered w c.workspace out.workspace h
      (w.backend.load h.id (reloads w.backend before c.workspace.storage))
  /-- Instances made for added items are given up; another instance of the identity is not. -/
  discarded : ∀ h ∈ c.shared.addedItems.values, ¬w.heap.Valid h ∧
    (out.workspace.heap.read h).status = .discarded ∧
    (∀ id, out.workspace.cache.peek? id ≠ some h) ∧
    ∀ k, k.id = h.id → c.workspace.cache.peek? h.id = some k →
      out.workspace.cache.peek? h.id = some k
  /-- Undoing takes no instance out of the cache but those that were to be reloaded. -/
  entries : ∀ id k, k ∉ c.touched →
    (out.workspace.cache.peek? id = some k ↔ c.workspace.cache.peek? id = some k)
  /-- What was cached before the commit and is held by somebody was still cached when it failed. -/
  kept : ∀ id k, w.cache.peek? id = some k → k ∈ held → c.workspace.cache.peek? id = some k
  /-- Every other instance keeps its data, its status and its count. -/
  others : ∀ h, w.heap.Valid h → h ∉ c.touched → out.workspace.heap.read h = w.heap.read h
  outline : out.workspace.outline = w.outline

/-! ## What undoing does -/

/-- An instance of the shared log was made for an added item, or was touched. -/
theorem mem_states_iff {c : Commit σ τ} {h : Handle} :
    h ∈ c.shared.states ↔ h ∈ c.shared.addedItems.values ∨ h ∈ c.touched := by
  rw [ChangeLog.states, List.append_assoc, List.mem_append]
  rfl

section Underway

variable {b : Backend σ} {w : Workspace σ} {held : List Handle} {t : τ} {log : ChangeLog LocalItem}
  {records : List NodeReferences} {c : Commit σ τ}

/-- What was there before the commit was not made by it. -/
theorem not_added_of_valid (hc : Commit.Underway (begin w t held log records) c) {h : Handle}
    (hv : w.heap.Valid h) : h ∉ c.shared.addedItems.values :=
  fun hh => Nat.not_le_of_lt hv.index_lt (hc.added hh).1

/-- An identity that stands in the set of added items stands in no other set. -/
theorem not_touched_of_added (hc : Commit.Underway (begin w t held log records) c) {h k : Handle}
    (hh : h ∈ c.shared.addedItems.values) (hid : k.id = h.id) : k ∉ c.touched := by
  have hkey : h.id ∈ (c.shared.itemsOf .added).keys := hc.wellFormed.mem_keys hh
  have hother : ∀ cls, cls ≠ .added → k ∉ (c.shared.itemsOf cls).values := by
    intro cls hcls hk
    have hkey' : k.id ∈ (c.shared.itemsOf cls).keys := hc.wellFormed.mem_keys hk
    exact hcls (hc.wellFormed.class_eq _ _ (hid ▸ hkey') hkey)
  intro hk
  rcases List.mem_append.1 hk with hm | hd
  · exact hother .modified (by decide) hm
  · exact hother .deleted (by decide) hd

/-- Undoing takes nothing out of the cache that was not touched, as what was made for an added item is
not in it. -/
theorem peek?_rollBack_iff (hc : Commit.Underway (begin w t held log records) c) {id : ItemId}
    {k : Handle} (hk : k ∉ c.touched) :
    (c.workspace.rollBack c.shared).cache.peek? id = some k ↔
      c.workspace.cache.peek? id = some k := by
  have hundo := concerns_rollBack c.workspace c.shared
  refine ⟨hundo.cached, fun hid => hundo.kept hid fun hs => ?_⟩
  rcases mem_states_iff.1 hs with ha | ht
  · exact (hc.added ha).2 id hid
  · exact hk ht

/-- A touched instance that no subtree has is the cached one. -/
theorem peek?_of_touched (hc : Commit.Underway (begin w t held log records) c) {h : Handle}
    (hh : h ∈ c.touched) (hun : w.Unserved h) : c.workspace.cache.peek? h.id = some h := by
  have hplace : c.workspace.cache.peek? h.id = some h ∨
      ∃ p ∈ w.subtrees, p.items.get? h.id = some h := by
    rcases List.mem_append.1 hh with hm | hd
    · exact hc.current .modified (by decide) hm
    · exact hc.current .deleted (by decide) hd
  rcases hplace with hpeek | ⟨p, hp, hget⟩
  · exact hpeek
  · exact absurd hget (hun p hp)

/-- A touched instance is recovered from what the backend loads for it when its turn comes. -/
theorem recovered_rollBack (hc : Commit.Underway (begin w t held log records) c)
    {before after : List Handle} {h : Handle} (htouched : c.touched = before ++ h :: after) :
    Recovered w c.workspace (c.workspace.rollBack c.shared) h
      (w.backend.load h.id (reloads w.backend before c.workspace.storage)) := by
  have hh : h ∈ c.touched := htouched ▸ List.mem_append_right _ (List.mem_cons_self ..)
  have hreload := reloaded_rollBack hc.valid_states hc.nodup_states htouched
  rw [show c.workspace.backend = w.backend from hc.backend] at hreload
  have hcurrent := peek?_of_touched hc hh
  cases hl : w.backend.load h.id (reloads w.backend before c.workspace.storage) with
  | ok s u =>
    rw [hl] at hreload
    refine ⟨hreload.1, fun hv => ?_, fun hun =>
      ⟨hcurrent hun, (hreload.2 h.id).2 (hcurrent hun)⟩⟩
    rw [hreload.1, hc.copied hv]
    rfl
  | error e' u =>
    rw [hl] at hreload
    exact ⟨hreload.1, hreload.2.1, fun hun => hreload.2.2 (hcurrent hun)⟩

/-- An instance that the commit did not touch reads as before it. -/
theorem read_rollBack_of_not_touched (hc : Commit.Underway (begin w t held log records) c) {h : Handle}
    (hv : w.heap.Valid h) (hh : h ∉ c.touched) :
    (c.workspace.rollBack c.shared).heap.read h = w.heap.read h := by
  have hnot : h ∉ c.shared.states :=
    fun hs => (mem_states_iff.1 hs).elim (not_added_of_valid hc hv) hh
  refine ((concerns_rollBack c.workspace c.shared).read_of_not_mem (hc.keepsIds h hv)
    hc.valid_states hnot).trans (hc.untouched hv ?_ ?_)
  · exact fun hm => hh (List.mem_append_left _ hm)
  · exact fun hd => hh (List.mem_append_right _ hd)

/-- Abandoning a commit leaves the outline of the workspace as it was. -/
theorem outline_abandon (hw : w.Ready b) (hc : Commit.Underway (begin w t held log records) c)
    (e : Error) : (abandon e c).workspace.outline = w.outline := by
  have houtline := (concerns_rollBack c.workspace c.shared).outline
  have hf := hc.fixture
  simp only [Workspace.outline, Workspace.fixture, Prod.mk.injEq] at houtline hf ⊢
  obtain ⟨h₁, h₂, h₃, h₄, h₅, -⟩ := houtline
  obtain ⟨f₁, f₂, f₃, f₄, f₅, -, -⟩ := hf
  exact ⟨h₁.trans f₁, h₂.trans f₂, h₃.trans f₃, h₄.trans f₄, h₅.trans f₅, hw.unlocked.symm⟩

/-- After a commit was abandoned no overlay of its log is connected. -/
theorem overlayed_abandon (e : Error) (c : Commit σ τ) :
    ∀ l ∈ (abandon e c).log.states, l.overlayed = none := by
  intro l hl
  rw [show (abandon e c).log = c.log.mapStates LocalItem.disconnect from rfl,
    ChangeLog.states_mapStates] at hl
  obtain ⟨l', -, rfl⟩ := List.mem_map.1 hl
  rfl

/-- An abandoned commit is rolled back. -/
theorem rolledBack_abandon (hw : w.Ready b) (hc : Commit.Underway (begin w t held log records) c)
    (e : Error) : RolledBack held w log c (abandon e c) where
  states := ChangeLog.mapStates_disconnect c.log ▸ hc.states
  disconnected := overlayed_abandon e c
  recovered _ _ _ htouched := recovered_rollBack hc htouched
  discarded _ hh :=
    ⟨fun hv => not_added_of_valid hc hv hh, discarded_rollBack hc.valid_states hh,
      fun id hid => (hc.added hh).2 id ((concerns_rollBack c.workspace c.shared).cached hid),
      fun _ hid hpeek => (peek?_rollBack_iff hc (not_touched_of_added hc hh hid)).2 hpeek⟩
  entries _ _ hk := peek?_rollBack_iff hc hk
  kept _ _ hid hk := hc.kept hid hk
  others _ hv hh := read_rollBack_of_not_touched hc hv hh
  outline := outline_abandon hw hc e

end Underway

/-- **Undoing a commit.** -/
theorem store_error {b : Backend σ} {w w' : Workspace σ} {sink : Sink σ τ} {held : List Handle}
    {t : τ} {log : ChangeLog LocalItem} {records virtual : List NodeReferences} {e : Error}
    (hw : Reachable b w) (hsink : sink.OnlyReads) (hlog : log.Recorded)
    (hvalidated : partitionReferences log log.references.values w = .ok (records, virtual) w')
    (herr : (store sink held w t log).result = .error e) :
    ∃ c, Commit.StopsAt (Commit.steps sink log) (begin w' t held log records) e c ∧
      RolledBack held w log c (store sink held w t log) := by
  have hcourse := store_course hw.ready hsink hlog held t
  generalize store sink held w t log = out at hcourse herr ⊢
  cases hcourse with
  | refused hp =>
    rw [hvalidated] at hp
    cases hp
  | @abandoned _ _ _ _ c hp hpersist hc =>
    cases hvalidated.symm.trans hp
    cases herr
    refine ⟨c, ?_, rolledBack_abandon hw.ready (hc.underway hw.ready.sound_begin) e⟩
    rw [Commit.persist_eq] at hpersist
    exact exists_of_forM_error hpersist
  | concluded => cases herr

/-! ### An instance that is swept

A workspace that keeps one entry besides those in use, an item that was read and let go, and a log
that adds an item of the same identity and modifies one that has to be loaded. -/

namespace Sample

/-- An item that is in the cache. -/
def known : ItemId := .node ⟨List.replicate 16 1, rfl⟩

/-- An item that is not in the cache. -/
def other : ItemId := .node ⟨List.replicate 16 2, rfl⟩

/-- A storage with the root and both items. -/
def memory : MemoryStore :=
  ((MemoryStore.empty.put (.empty (.node default))).put (.empty known)).put (.empty other)

/-- A workspace over a storage in memory, opened with little room in its cache. -/
def opened (m : MemoryStore) : Workspace MemoryStore :=
  let (h, cache, heap) := Cache.empty.putLoaded ∅ (.node default) (.empty (.node default))
  around ⟨"sample", default, 1, none, 1⟩ MemoryStore.backend cache h
    ⟨heap, [], { m with loads := m.loads + 1 }⟩

/-- The workspace after the known item was read. -/
def workspace (m : MemoryStore) : Workspace MemoryStore :=
  stateAfter (getItemState [] known) (opened m)

/-- A log that adds the known item once more and modifies the other one. -/
def log : ChangeLog LocalItem :=
  ((ChangeLog.new (.node default)).record .added (.new (.empty known))).record .modified
    (.new (.empty other))

/-- The log of the example is recorded. -/
theorem recorded_log : log.Recorded :=
  (((ChangeLog.Recorded.new _).record .added (LocalItem.faithful_new _)).record .modified
    (LocalItem.faithful_new _))

/-- The workspace whose next store fails can be reached. -/
theorem reachable_failing :
    Reachable MemoryStore.backend (workspace { memory with failNext := true }) :=
  .getItemState [] known (.opened ⟨"sample", default, 1, none, 1⟩ Registry.default
    (s := ⟨∅, [], { memory with failNext := true }⟩) (fun p hp => by cases hp) rfl)

end Sample

/-- A storage that fails at the commit: what the log had added is given up and the rest undone. -/
theorem store_error_failing :
    ∃ c, Commit.StopsAt (Commit.steps (Sink.silent MemoryStore) Sample.log)
        (begin (Sample.workspace { Sample.memory with failNext := true }) () [] Sample.log [])
        (.persistence .injected) c ∧
      RolledBack [] (Sample.workspace { Sample.memory with failNext := true }) Sample.log c
        (store (Sink.silent MemoryStore) []
          (Sample.workspace { Sample.memory with failNext := true }) () Sample.log) :=
  store_error Sample.reachable_failing Sink.onlyReads_silent Sample.recorded_log
    (show partitionReferences _ _ _ = .ok ([], []) _ from rfl) (by decide +kernel)

/-- The item that was cached under the identity of an added item need not be cached after a commit
that failed: nobody held it, and it made room for an item that the commit loaded. -/
theorem cached_twin_swept :
    let w := Sample.workspace { Sample.memory with failNext := true }
    let out := store (Sink.silent MemoryStore) [] w () Sample.log
    Reachable MemoryStore.backend w ∧ Sample.log.Recorded ∧
      out.result = .error (.persistence .injected) ∧ Sample.log.isAdded Sample.known = true ∧
      w.cache.peek? Sample.known = some ⟨1, Sample.known⟩ ∧
      out.workspace.cache.peek? Sample.known = none :=
  ⟨Sample.reachable_failing, Sample.recorded_log, by decide +kernel, by decide +kernel, by decide +kernel,
    by decide +kernel⟩

end Workspace

end ContentTree
