import ContentTree.Workspace.Collector
import ContentTree.Workspace.Probe
import ContentTree.Proofs.Workspace.Reading

/-!
# Sinks that only read

A sink is told of a commit while the lock is held, and again when it is free. What the theorems about
commits ask of a sink is that it only reads from the workspace; the sinks there are do.
-/

namespace ContentTree

variable {σ τ α : Type}

/-- A sink that does nothing to a workspace but read from it. -/
structure Sink.OnlyReads (sink : Sink σ τ) : Prop where
  create : ∀ (held : List Handle) root log (w : Workspace σ) t, w.locked = true →
    w.LookedAt held (stateAfter (sink.create held root log) (w, t)).1
  prepare : ∀ (held : List Handle) (w : Workspace σ) t,
    w.LookedAt held (stateAfter sink.prepare (w, t)).1
  dispatch : ∀ (held : List Handle) (w : Workspace σ) t,
    w.LookedAt held (sink.dispatch held (w, t)).1

/-- A sink that does nothing to a workspace but read from it, with the instance of the root held. -/
structure Sink.SparesRoot (sink : Sink σ τ) : Prop where
  create : ∀ (held : List Handle) root log (w : Workspace σ) t, w.locked = true →
    w.Rooted held (stateAfter (sink.create held root log) (w, t)).1
  prepare : ∀ (held : List Handle) (w : Workspace σ) t,
    w.Rooted held (stateAfter sink.prepare (w, t)).1
  dispatch : ∀ (held : List Handle) (w : Workspace σ) t,
    w.Rooted held (sink.dispatch held (w, t)).1

/-- A sink that spares the root only reads. -/
theorem Sink.SparesRoot.onlyReads {sink : Sink σ τ} (h : sink.SparesRoot) : sink.OnlyReads where
  create held root log w t hw := (h.create held root log w t hw).lookedAt
  prepare held w t := (h.prepare held w t).lookedAt
  dispatch held w t := (h.dispatch held w t).lookedAt

/-- The silent sink spares the root. -/
theorem Sink.sparesRoot_silent : (Sink.silent σ).SparesRoot where
  create held _ _ w _ _ := refl_of (Workspace.Rooted held) w
  prepare held w _ := refl_of (Workspace.Rooted held) w
  dispatch held w _ := refl_of (Workspace.Rooted held) w

/-- The silent sink only reads. -/
theorem Sink.onlyReads_silent : (Sink.silent σ).OnlyReads :=
  sparesRoot_silent.onlyReads

/-- Readers of the workspace among the actions on a workspace and something else. -/
def ReadsFirst (held : List Handle) (s s' : Workspace σ × τ) : Prop :=
  s.1.Rooted held s'.1

instance (held : List Handle) : IsPreorder (Workspace σ × τ) (ReadsFirst held) where
  refl s := refl_of (Workspace.Rooted held) s.1
  trans _ _ _ h h' := trans_of (Workspace.Rooted held) h h'

/-- A change of what goes along with a workspace. -/
theorem readsFirst_modify (held : List Handle) (f : τ → τ) :
    Tracks (ReadsFirst held)
      (modify fun (w, t) => (w, f t) : EStateM Error (Workspace σ × τ) PUnit) :=
  Tracks.modify fun s => refl_of (Workspace.Rooted held) s.1

/-! ## Event bundles -/

/-- Deriving events does to a state what asking for shared parents does. -/
theorem Event.tracks_ofLog {s : Type} {R : s → s → Prop} [IsPreorder s R]
    {sharedParent : ItemId → EStateM Error s (Option NodeId)} (h : ∀ id, Tracks R (sharedParent id))
    (log : ChangeLog LocalItem) : Tracks R (Event.ofLog sharedParent log) := by
  have hask : ∀ id, Tracks R (askParent sharedParent id) := by
    intro id
    cases id with
    | node n => exact h _
    | property n => exact Tracks.pure none
  refine (Tracks.mapM (fun l : LocalItem => (hask l.id).bind fun _ => Tracks.pure _) _).bind fun _ => ?_
  exact (Tracks.mapM (fun l : LocalItem => (hask l.id).bind fun _ => Tracks.pure _) _).bind fun _ => Tracks.pure _

namespace Collector

/-- Asking for the parent that is shared reads first. -/
theorem readsFirst_sharedParent (held : List Handle) (id : ItemId) :
    Tracks (ReadsFirst held) (sharedParent (σ := σ) held id) := by
  refine Tracks.onPart (fun _ _ => rfl) ?_
  refine Tracks.earlyReturn (Tracks.tryCatch ?_ fun _ => Tracks.pure _)
  exact (Workspace.rooted_itemState held id).bind fun h w => refl_of (Workspace.Rooted held) w

/-- The sink that collects events spares the root. -/
theorem sparesRoot_sink : (sink σ).SparesRoot where
  create held root log w c _ :=
    (Event.tracks_ofLog (readsFirst_sharedParent held) log).bind (fun events => readsFirst_modify held fun c : Collector =>
      { c with collection := c.collection.collect root events }) (w, c)
  prepare held w _ := refl_of (Workspace.Rooted held) w
  dispatch held w _ := refl_of (Workspace.Rooted held) w

/-- The sink that collects events only reads. -/
theorem onlyReads_sink : (sink σ).OnlyReads :=
  sparesRoot_sink.onlyReads

end Collector

/-! ## Probes -/

namespace Workspace

variable {held : List Handle} {R : Workspace σ → Workspace σ → Prop} [IsPreorder (Workspace σ) R]
  {item : ItemId → Action σ Handle} {has : ItemId → Action σ Bool}
  {record : NodeId → Action σ NodeReferences} {hasRecord : NodeId → Action σ Bool}

/-- An attempt goes as the action does. -/
theorem tracks_attempt {action : Action σ α} (h : Tracks R action) : Tracks R (attempt action) :=
  Tracks.earlyReturn ((h.bind fun _ => Tracks.pure _).tryCatch fun _ => Tracks.pure _)

/-- Looking around goes as each of its questions does. -/
theorem tracks_look (hitem : ∀ id, Tracks R (item id)) (hhas : ∀ id, Tracks R (has id))
    (hrecord : ∀ target, Tracks R (record target))
    (hhasRecord : ∀ target, Tracks R (hasRecord target)) (ids : List ItemId)
    (targets : List NodeId) : Tracks R (look item has record hasRecord ids targets) := by
  have hread : ∀ id, Tracks R (attempt (readItem item id)) := fun id =>
    tracks_attempt ((hitem id).bind fun h => Tracks.get.bind fun w => Tracks.pure _)
  refine Tracks.bind (Tracks.mapM (fun id => (hread id).bind fun _ =>
    (hhas id).bind fun _ => Tracks.pure _) ids) fun _ => ?_
  exact Tracks.bind (Tracks.mapM (fun target => (tracks_attempt (hrecord target)).bind fun _ =>
    (hhasRecord target).bind fun _ => Tracks.pure _) targets) fun _ => Tracks.pure _

/-- A reading goes as the action does. -/
theorem tracks_reading {action : Action σ α} (h : Tracks R action) : Tracks R (reading action) := by
  refine Tracks.get.bind fun w => ?_
  split
  · exact Tracks.throw _
  · exact h

/-- A question that counts as denied where it cannot be asked. -/
theorem tracks_orNo {question : Action σ Bool} (h : Tracks R question) :
    Tracks R (try question catch _ => return false : Action σ Bool) :=
  Tracks.earlyReturn ((h.bind fun _ => Tracks.pure _).tryCatch fun _ => Tracks.pure _)

/-- Looking around inside a commit keeps the root. -/
theorem rooted_lookInside (held : List Handle) (ids : List ItemId) (targets : List NodeId) :
    Tracks (Rooted held) (lookInside (σ := σ) held ids targets) :=
  tracks_look (rooted_itemState held)
    (fun id => rooted_of_lookedAt fun held => lookedAt_hasItem held id)
    (fun target => rooted_of_lookedAt fun held => lookedAt_references held target)
    (fun target => rooted_of_lookedAt fun held => lookedAt_hasReferences held target) ids targets

/-- Looking around outside a commit keeps the root. -/
theorem rooted_lookOutside (held : List Handle) (ids : List ItemId) (targets : List NodeId) :
    Tracks (Rooted held) (lookOutside (σ := σ) held ids targets) :=
  tracks_look (fun id => tracks_reading (rooted_itemState held id))
    (fun id => tracks_orNo (tracks_reading (rooted_of_lookedAt fun held => lookedAt_hasItem held id)))
    (fun target =>
      tracks_reading (rooted_of_lookedAt fun held => lookedAt_references held target))
    (fun target => tracks_orNo
      (tracks_reading (rooted_of_lookedAt fun held => lookedAt_hasReferences held target)))
    ids targets

/-- Checking that targets exist only looks at the workspace. -/
theorem lookedAt_checkTargetsExist (held : List Handle) (log : ChangeLog LocalItem) :
    Tracks (LookedAt held) (checkTargetsExist (σ := σ) log) :=
  tracks_reading
    ((lookedAt_partitionReferences held log log.references.values).bind fun _ => Tracks.pure _)

/-- Whoever tries to commit while the lock is held only reads. -/
theorem rooted_tryLock (held : List Handle) (log : ChangeLog LocalItem) (ids : List ItemId)
    (targets : List NodeId) {w : Workspace σ} (hw : w.locked = true) :
    Rooted held w (stateAfter (tryLock held log ids targets) w) := by
  refine Tracks.bindAt (rooted_lookOutside held ids targets w) fun view mid hmid => ?_
  have hlook := rooted_lookOutside held ids targets w
  rw [stateAfter_of_ok hmid] at hlook
  have hchecked : Rooted held mid (stateAfter (attempt (checkTargetsExist log)) mid) :=
    tracks_attempt (rooted_of_lookedAt fun held => lookedAt_checkTargetsExist held log) mid
  refine Tracks.bindAt hchecked fun check later hlater => ?_
  rw [stateAfter_of_ok hlater] at hchecked
  have hlocked : later.locked = true :=
    (hchecked.lookedAt.locked.trans hlook.lookedAt.locked).trans hw
  show Rooted held later (store (Sink.silent σ) held later () (.new log.target)).workspace
  rw [store, if_pos hlocked]
  exact refl_of (Rooted held) later

end Workspace

namespace Probe

/-- Checking a stage reads first. -/
theorem readsFirst_checkStage (held : List Handle) (stage : Stage) :
    Tracks (ReadsFirst held) (checkStage (σ := σ) stage) := by
  refine Tracks.get.bind fun s => ?_
  split
  · exact Tracks.throw _
  · exact Tracks.pure _

/-- Noting the view of a new log and checking the stage reads first. -/
theorem readsFirst_finish (held : List Handle) (root : NodeId) (log : ChangeLog LocalItem) (view : View)
    (locked : Option LockedView) : Tracks (ReadsFirst held) (do
      modify fun (w, p) => (w, note (.created root log.display view locked) p)
      checkStage (σ := σ) .create) :=
  (readsFirst_modify held _).bind fun _ => readsFirst_checkStage held .create

/-- The probing sink spares the root. -/
theorem sparesRoot_sink : (sink σ).SparesRoot where
  create held root log w p hw := by
    have hview : Tracks (ReadsFirst held) (onWorkspace (Workspace.lookInside (σ := σ) held p.ids
        p.targets)) := Tracks.onPart (fun _ _ => rfl) (Workspace.rooted_lookInside held _ _)
    show ReadsFirst held (w, p) (stateAfter (onWorkspace _ >>= _ : EStateM _ _ Unit) (w, p))
    refine Tracks.bindAt (hview (w, p)) fun view s hs => ?_
    have hlocked : s.1.locked = true := by
      have hlook := hview (w, p)
      rw [stateAfter_of_ok hs] at hlook
      exact (Workspace.Rooted.lookedAt hlook).locked.trans hw
    split
    · refine Tracks.bindAt ?_ fun locked s _ => readsFirst_finish held root log view locked s
      rw [stateAfter_map]
      have htry := Workspace.rooted_tryLock held log p.ids p.targets hlocked
      unfold ReadsFirst
      rw [onWorkspace, stateAfter_onPart]
      exact htry
    · exact readsFirst_finish held root log view none s
  prepare held w p :=
    (readsFirst_modify held _).bind (fun _ => readsFirst_checkStage held .prepare) (w, p)
  dispatch held w p := by
    have hlook := Workspace.rooted_lookOutside held p.ids p.targets w
    simp only [sink]
    split
    · next hs => rwa [stateAfter_of_ok hs] at hlook
    · next hs => rwa [stateAfter_of_error hs] at hlook

/-- The probing sink only reads. -/
theorem onlyReads_sink : (sink σ).OnlyReads :=
  sparesRoot_sink.onlyReads

end Probe

end ContentTree
