import ContentTree.Proofs.Persistence.Candid
import ContentTree.Proofs.Workspace.Succeeding

/-!
# Reference records without a target

A commit is turned down for a reference record exactly if the check that can be made beforehand finds
that record, and no later step of a commit says the same. A commit that is turned down so has asked
whether items are there and done nothing else (`danglingReference_iff`).
-/

namespace ContentTree

variable {σ τ κ : Type}

namespace Workspace

variable {w w' : Workspace σ} {log : ChangeLog LocalItem} {r : NodeReferences}
  {rs : List NodeReferences} {target : NodeId}

/-! ## Records that dangle -/

/-- A reference record is not for a subtree and carries references to a node that the log deletes, or
that nothing has: not the log, not a subtree as its root, not the cache, and not the backend as far as it
can tell. -/
structure Dangles (w : Workspace σ) (log : ChangeLog LocalItem) (r : NodeReferences) : Prop where
  unowned : w.owner? (.node r.target) = none
  carries : r.hasReferences = true
  missing : log.isDeleted (.node r.target) = true ∨
    log.isAdded (.node r.target) = false ∧ log.isModified (.node r.target) = false ∧
      w.claimant? (.node r.target) = none ∧ w.isCached (.node r.target) = false ∧
      ∀ s, w.backend.contains (.node r.target) w.storage ≠ .ok true s

/-- Nothing but the backend can tell whether the target of a record is there. -/
def asks (w : Workspace σ) (log : ChangeLog LocalItem) (r : NodeReferences) : Bool :=
  !w.isVirtual r && r.hasReferences && !log.has (.node r.target) &&
    !(w.claimant? (.node r.target)).isSome && !w.isCached (.node r.target)

/-- The workspace after its backend was asked for the target of a record, if it had to be. -/
def askedFor (w : Workspace σ) (log : ChangeLog LocalItem) (r : NodeReferences) : Workspace σ :=
  if w.asks log r then
    { w with storage := stateAfter (w.backend.contains (.node r.target)) w.storage }
  else w

/-- Nothing is asked for a record that needs no question. -/
theorem askedFor_of_not_asks (h : w.asks log r = false) : w.askedFor log r = w := by
  rw [askedFor, h, if_neg Bool.false_ne_true]

/-- The workspace after it was gone through records. -/
def asked (w : Workspace σ) (log : ChangeLog LocalItem) (rs : List NodeReferences) : Workspace σ :=
  rs.foldl (fun w r => w.askedFor log r) w

/-- The first record that dangles has this target. -/
def FirstDangling (w : Workspace σ) (log : ChangeLog LocalItem) (rs : List NodeReferences)
    (target : NodeId) : Prop :=
  ∃ before r after, rs = before ++ r :: after ∧ r.target = target ∧
    (w.asked log before).Dangles log r ∧
    ∀ earlier r' later, before = earlier ++ r' :: later → ¬(w.asked log earlier).Dangles log r'

/-- The first dangling record is the first of all if that dangles, and else the first of the others. -/
theorem firstDangling_cons : w.FirstDangling log (r :: rs) target ↔
    w.Dangles log r ∧ r.target = target ∨
      ¬w.Dangles log r ∧ (w.askedFor log r).FirstDangling log rs target := by
  constructor
  · rintro ⟨before, r', after, hsplit, htarget, hdangles, hfirst⟩
    cases before with
    | nil =>
      cases hsplit
      exact Or.inl ⟨hdangles, htarget⟩
    | cons first before =>
      obtain ⟨rfl, rfl⟩ := List.cons.inj hsplit
      refine Or.inr ⟨hfirst [] r before rfl, before, r', after, rfl, htarget, hdangles, ?_⟩
      exact fun earlier r'' later h => hfirst (r :: earlier) r'' later (congrArg (r :: ·) h)
  · rintro (⟨hdangles, htarget⟩ | ⟨hnot, before, r', after, rfl, htarget, hdangles, hfirst⟩)
    · refine ⟨[], r, rs, rfl, htarget, hdangles, fun earlier r' later h => ?_⟩
      cases earlier <;> cases h
    · refine ⟨r :: before, r', after, rfl, htarget, hdangles, fun earlier r'' later h => ?_⟩
      cases earlier with
      | nil =>
        cases h
        exact hnot
      | cons first earlier =>
        obtain ⟨rfl, hbefore⟩ := List.cons.inj h
        exact hfirst earlier r'' later hbefore

/-- Without records nothing dangles. -/
theorem not_firstDangling_nil : ¬w.FirstDangling log [] target := by
  rintro ⟨before, r, after, hsplit, -⟩
  cases before <;> cases hsplit

/-- There is but one first record that dangles. -/
theorem FirstDangling.unique {other : NodeId} (h : w.FirstDangling log rs target)
    (h' : w.FirstDangling log rs other) : target = other := by
  induction rs generalizing w with
  | nil => exact absurd h not_firstDangling_nil
  | cons r rest ih =>
    rcases firstDangling_cons.1 h with ⟨hr, rfl⟩ | ⟨hr, hrest⟩
    · rcases firstDangling_cons.1 h' with ⟨-, htarget⟩ | ⟨hnot, -⟩
      · exact htarget
      · exact absurd hr hnot
    · rcases firstDangling_cons.1 h' with ⟨hdangles, -⟩ | ⟨-, hrest'⟩
      · exact absurd hdangles hr
      · exact ih hrest hrest'

/-- Going through records changes the storage only, and nothing of it that is seen. -/
theorem asked_eq {view : σ → κ} (hb : w.backend.Candid view) (log : ChangeLog LocalItem)
    (rs : List NodeReferences) :
    ∃ s, w.asked log rs = { w with storage := s } ∧ view s = view w.storage := by
  induction rs generalizing w with
  | nil => exact ⟨w.storage, rfl, rfl⟩
  | cons r rest ih =>
    have hone : ∃ s, w.askedFor log r = { w with storage := s } ∧ view s = view w.storage := by
      unfold askedFor
      split
      · exact ⟨_, rfl, hb.contains _ _⟩
      · exact ⟨w.storage, rfl, rfl⟩
    obtain ⟨s, hs, hview⟩ := hone
    obtain ⟨t, ht, hview'⟩ := ih (w := w.askedFor log r) (by rw [hs]; exact hb)
    refine ⟨t, ht.trans ?_, hview'.trans ?_⟩
    · rw [hs]
    · rw [hs]
      exact hview

/-! ## Going through records -/

/-- A record whose target no subtree owns is not virtual. -/
theorem isVirtual_eq_false (h : w.owner? (.node r.target) = none) : w.isVirtual r = false := by
  rw [isVirtual, h]
  rfl

/-- What the backend answers, where it counts as a denial if it cannot tell. -/
theorem ask_eq (id : ItemId) : ∃ found,
    (tryCatch (onStorage (w.backend.contains id)) fun _ => pure false : Action σ Bool) w =
      .ok found { w with storage := stateAfter (w.backend.contains id) w.storage } ∧
    (found = false ↔ ∀ s, w.backend.contains id w.storage ≠ .ok true s) := by
  cases hc : w.backend.contains id w.storage with
  | ok found s =>
    refine ⟨found, ?_, ?_⟩
    · rw [stateAfter_of_ok hc]
      exact tryCatch_of_ok (onStorage_of_ok hc)
    · cases found <;> simp
  | error e s =>
    refine ⟨false, ?_, by simp⟩
    have hask : onStorage (w.backend.contains id) w = .error e { w with storage := s } := by
      rw [onStorage, Backend.onPart, hc]
    rw [stateAfter_of_error hc]
    exact tryCatch_of_error hask

/-- An item that no subtree holds is there if one claims it as its root, or it is cached, or the backend
says so. -/
theorem hasItem_eq {id : ItemId} (hnone : w.owner? id = none) : ∃ found,
    hasItem id w = .ok found (if (w.claimant? id).isSome || w.isCached id then w
      else { w with storage := stateAfter (w.backend.contains id) w.storage }) ∧
    (found = false ↔ w.claimant? id = none ∧ w.isCached id = false ∧
      ∀ s, w.backend.contains id w.storage ≠ .ok true s) := by
  have hrun : hasItem id w = (if (w.claimant? id).isSome || w.isCached id then pure true else
      (tryCatch (onStorage (w.backend.contains id)) fun _ => pure false) >>= fun persisted =>
        if persisted then pure true else get >>= fun w => pure (w.owner? id).isSome :
      Action σ Bool) w := rfl
  by_cases hknown : (w.claimant? id).isSome || w.isCached id
  · refine ⟨true, ?_, ?_⟩
    · rw [hrun, if_pos hknown, if_pos hknown]
      rfl
    · simp only [Bool.true_eq_false, false_iff]
      rintro ⟨hclaim, hcached, -⟩
      simp [hclaim, hcached] at hknown
  · obtain ⟨found, hask, hfound⟩ := ask_eq (w := w) id
    refine ⟨found, ?_, ?_⟩
    · rw [hrun, if_neg hknown, if_neg hknown, bind_of_ok hask]
      cases found with
      | true => rfl
      | false =>
        show EStateM.Result.ok (w.owner? id).isSome _ = _
        rw [hnone]
        rfl
    · simp only [Bool.or_eq_true, Option.isSome_iff_ne_none, not_or, ne_eq, not_not,
        Bool.not_eq_true] at hknown
      rw [hfound]
      exact ⟨fun h => ⟨hknown.1, hknown.2, h⟩, fun h => h.2.2⟩

/-- A record that is not for a subtree is found to dangle if it does. -/
theorem isDangling_eq (log : ChangeLog LocalItem) (hr : w.isVirtual r = false) : ∃ dangling,
    isDangling log r w = .ok dangling (w.askedFor log r) ∧ (dangling = true ↔ w.Dangles log r) := by
  have hnone : w.owner? (.node r.target) = none := by
    rw [isVirtual, Option.isSome_eq_false_iff, Option.isNone_iff_eq_none] at hr
    exact hr
  have hrun : isDangling log r w = (if (!r.hasReferences) = true then pure false
      else if log.isDeleted (.node r.target) then pure true
      else if (log.get? (.node r.target)).isSome then pure false
      else hasItem (.node r.target) >>= fun found => pure (!found) : Action σ Bool) w := rfl
  have hset := log.isSome_get? (.node r.target)
  rw [hrun]
  -- the cases follow the check: without content, deleted by the log, kept by the log, asked for
  cases hcarries : r.hasReferences with
  | false =>
    refine ⟨false, ?_, ?_⟩
    · rw [askedFor_of_not_asks (by simp [asks, hcarries])]
      rfl
    · simp only [Bool.false_eq_true, false_iff]
      exact fun h => Bool.false_ne_true (hcarries.symm.trans h.carries)
  | true =>
    cases hdeleted : log.isDeleted (.node r.target) with
    | true =>
      refine ⟨true, ?_, ?_⟩
      · rw [askedFor_of_not_asks (by simp [asks, ChangeLog.has, hdeleted])]
        rfl
      · exact ⟨fun _ => ⟨hnone, hcarries, Or.inl hdeleted⟩, fun _ => rfl⟩
    | false =>
      cases hget : (log.get? (.node r.target)).isSome with
      | true =>
        rw [hget] at hset
        refine ⟨false, ?_, ?_⟩
        · rw [askedFor_of_not_asks (by simp [asks, ChangeLog.has, ← hset])]
          rfl
        · simp only [Bool.false_eq_true, false_iff]
          intro h
          rcases h.missing with hdeleted' | ⟨hadded, hmodified, -⟩
          · exact Bool.false_ne_true (hdeleted.symm.trans hdeleted')
          · rw [hadded, hmodified] at hset
            cases hset
      | false =>
        obtain ⟨found, hitem, hfound⟩ := hasItem_eq hnone
        rw [hget, eq_comm, Bool.or_eq_false_iff] at hset
        refine ⟨!found, ?_, ?_⟩
        · show (hasItem (.node r.target) >>= fun found => pure (!found) : Action σ Bool) w = _
          rw [bind_of_ok hitem, askedFor, asks, hr, hcarries, ChangeLog.has, hset.1, hset.2, hdeleted]
          cases (w.claimant? (.node r.target)).isSome <;> cases w.isCached (.node r.target) <;> rfl
        · rw [Bool.not_eq_true', hfound]
          constructor
          · rintro ⟨hclaim, hcached, hdenied⟩
            exact ⟨hnone, hcarries, Or.inr ⟨hset.1, hset.2, hclaim, hcached, hdenied⟩⟩
          · intro h
            rcases h.missing with hdeleted' | ⟨-, -, hmissing⟩
            · exact absurd (hdeleted.symm.trans hdeleted') Bool.false_ne_true
            · exact hmissing

/-- Records are gone through up to the first that dangles. -/
theorem partitionReferences_cases (w : Workspace σ) (log : ChangeLog LocalItem)
    (rs : List NodeReferences) :
    (∃ target done, w.FirstDangling log rs target ∧
      partitionReferences log rs w = .error (.danglingReference target) (w.asked log done)) ∨
    (∀ target, ¬w.FirstDangling log rs target) ∧
      ∃ parts, partitionReferences log rs w = .ok parts (w.asked log rs) := by
  induction rs generalizing w with
  | nil => exact Or.inr ⟨fun _ => not_firstDangling_nil, _, rfl⟩
  | cons r rest ih =>
    have hrun : partitionReferences log (r :: rest) w = (if w.isVirtual r then
        (partitionReferences log rest >>= fun p => pure (p.1, r :: p.2))
      else (isDangling log r >>= fun dangling => if dangling = true
        then throw (.danglingReference r.target)
        else (partitionReferences log rest >>= fun p => pure (r :: p.1, p.2))) :
      Action σ (List NodeReferences × List NodeReferences)) w := rfl
    simp only [firstDangling_cons]
    cases hr : w.isVirtual r with
    | true =>
      -- a record for a subtree is not asked about, so nothing changes before the others
      have hnot : ¬w.Dangles log r := fun h => by rw [isVirtual_eq_false h.unowned] at hr; cases hr
      have hsame : w.askedFor log r = w := askedFor_of_not_asks (by simp [asks, hr])
      rw [hrun, hr, if_pos rfl]
      rcases ih w with ⟨target, done, hfirst, herr⟩ | ⟨hnone, parts, hok⟩
      · exact Or.inl ⟨target, done, Or.inr ⟨hnot, hsame.symm ▸ hfirst⟩, bind_of_error herr⟩
      · have hall : w.asked log (r :: rest) = w.asked log rest := by
          rw [asked, List.foldl_cons, hsame]
          rfl
        refine Or.inr ⟨fun target => ?_, (parts.1, r :: parts.2), ?_⟩
        · rw [hsame]
          exact fun h => h.elim (fun h => hnot h.1) fun h => hnone target h.2
        · rw [bind_of_ok hok, hall]
          rfl
    | false =>
      obtain ⟨dangling, hask, hiff⟩ := isDangling_eq log hr
      rw [hrun, hr, if_neg (by decide), bind_of_ok hask]
      cases dangling with
      | true => exact Or.inl ⟨r.target, [r], Or.inl ⟨hiff.1 rfl, rfl⟩, rfl⟩
      | false =>
        -- the answer leaves the workspace asked, which is where the others begin
        have hnot : ¬w.Dangles log r := fun h => Bool.false_ne_true (hiff.2 h)
        rw [if_neg (by decide)]
        rcases ih (w.askedFor log r) with ⟨target, done, hfirst, herr⟩ | ⟨hnone, parts, hok⟩
        · exact Or.inl ⟨target, r :: done, Or.inr ⟨hnot, hfirst⟩, bind_of_error herr⟩
        · refine Or.inr ⟨fun target h => h.elim (fun h => hnot h.1) fun h => hnone target h.2,
            (r :: parts.1, parts.2), ?_⟩
          rw [bind_of_ok hok]
          rfl

/-! ## The rest of a commit -/

section Committing

variable {b : Backend σ}

/-- A workspace over this backend while a commit is made. -/
structure Committing (b : Backend σ) (w : Workspace σ) : Prop where
  backend : w.backend = b
  locked : w.locked = true

/-- A workspace stays ready for committing while it is looked at. -/
theorem Committing.looked {held : List Handle} (h : Committing b w) (hlook : w.LookedAt held w') :
    Committing b w' :=
  ⟨hlook.backend.trans h.backend, hlook.locked.trans h.locked⟩

/-- Looking an item up reports no dangling reference. -/
theorem confined_cachedOrLoaded (hb : ∀ id, Unconcerned (b.load id)) (id : ItemId) :
    Confined (Committing b) Error.NotDangling (cachedOrLoaded id) := by
  rintro w ⟨rfl, hlocked⟩
  cases hc : w.cache.peek? id with
  | some h =>
    rw [cachedOrLoaded_of_cached hc]
    exact ⟨rfl, hlocked⟩
  | none =>
    rw [cachedOrLoaded_of_not_cached hc]
    cases hl : w.backend.load id w.storage with
    | ok s t => exact ⟨rfl, hlocked⟩
    | error e t => exact ⟨(hb id).error trivial hl, rfl, hlocked⟩

/-- Reading an item of a provider reports no dangling reference. -/
theorem confined_get (p : Provider) (id : ItemId) :
    Confined (Committing b) Error.NotDangling (ofExcept (p.get id) : Action σ Handle) := by
  unfold Provider.get
  split
  · exact .pure _
  · exact .throw trivial

/-- Reading an item reports no dangling reference. -/
theorem confined_itemState (hb : ∀ id, Unconcerned (b.load id)) (held : List Handle) (id : ItemId) :
    Confined (Committing b) Error.NotDangling (itemState held id) := by
  have hpersisted : Confined (Committing b) Error.NotDangling (persistedItem held id) := by
    refine (confined_cachedOrLoaded hb id).bind fun h => .bind (.modify fun w hw => ?_) fun _ => .pure h
    unfold sweep
    split
    · exact ⟨hw.backend, hw.locked⟩
    · exact hw
  refine .bind .get fun w => ?_
  split
  · exact confined_get _ id
  · refine hpersisted.tryCatch fun e he => ?_
    split
    · refine .bind .get fun w => ?_
      split
      · exact confined_get _ id
      · exact .throw trivial
    · exact .throw he

end Committing

end Workspace

/-- An overlay that cannot be connected reports no dangling reference. -/
theorem LocalItem.notDangling_of_connect {heap : Heap} {h : Handle} {l : LocalItem} {e : Error}
    (he : l.connect heap h = .error e) : e.NotDangling := by
  unfold connect at he
  split at he
  · split at he
    · cases he
    · cases he
      trivial
  · split at he
    · cases he
    · cases he
      trivial

/-- An overlay that cannot be pushed reports no dangling reference. -/
theorem LocalItem.notDangling_of_push {heap : Heap} {l : LocalItem} {e : Error}
    (he : l.push heap = .error e) : e.NotDangling := by
  refine Error.notDangling_of_bind he (fun e he => ?_) fun _ e he => ?_
  · unfold shared at he
    split at he
    · cases he
    · cases he
      trivial
  · cases he

namespace Commit

open Workspace (Committing)

variable {b : Backend σ}

/-- A step of a commit on a workspace over this backend. -/
abbrev Proper {α : Type} (b : Backend σ) (step : Action σ τ α) : Prop :=
  Confined (fun c : Commit σ τ => Committing b c.workspace) Error.NotDangling step

/-- A step of the workspace in a commit is proper if the step itself reports no dangling reference. -/
theorem proper_onWorkspace {α : Type} {step : Workspace.Action σ α}
    (h : Confined (Committing b) Error.NotDangling step) : Proper (τ := τ) b (onWorkspace step) :=
  h.onPart (fun _ hc => hc) fun _ _ _ hw => hw

/-- Finding a counterpart is proper. -/
theorem proper_counterpart (hb : ∀ id, Unconcerned (b.load id)) (cls : ChangeLog.Class) (l : LocalItem) :
    Proper (τ := τ) b (counterpart cls l) := by
  have hread : Proper (τ := τ) b
      (get >>= fun c => onWorkspace (Workspace.itemState c.holding l.id)) :=
    .bind .get fun c => proper_onWorkspace (Workspace.confined_itemState hb _ _)
  cases cls with
  | added => exact .withState fun c hc => ⟨hc.backend, hc.locked⟩
  | modified => exact hread
  | deleted => exact hread

/-- Connecting the items of one class is proper. -/
theorem proper_connectClass (hb : ∀ id, Unconcerned (b.load id)) (cls : ChangeLog.Class) :
    Proper (τ := τ) b (connectClass cls) := by
  refine .bind .get fun c => .forM fun entry _ => ?_
  refine (proper_counterpart hb cls entry.2).bind fun h => .withState fun c hc => ?_
  cases hl : entry.2.connect c.workspace.heap h with
  | ok l => exact hc
  | error e => exact ⟨LocalItem.notDangling_of_connect hl, hc⟩

/-- Pushing is proper. -/
theorem proper_push : Proper (τ := τ) b push := by
  refine .withState fun c hc => ?_
  have hpush : Confined (fun _ : Heap => True) Error.NotDangling c.log.push := by
    refine .forM fun l _ => .withState fun heap _ => ?_
    cases hl : l.push heap with
    | ok heap' => exact trivial
    | error e => exact ⟨LocalItem.notDangling_of_push hl, trivial⟩
  exact hpush.onPart (fun _ _ => trivial) (fun _ _ hc _ => ⟨hc.backend, hc.locked⟩) c hc

/-- Writing is proper. -/
theorem proper_write (hb : ∀ set, Unconcerned (b.store set)) : Proper (τ := τ) b write := by
  refine .withState fun c hc => ?_
  rw [hc.backend]
  refine proper_onWorkspace ?_ c hc
  exact (hb _).onPart (fun _ _ => trivial) fun _ _ hw _ => ⟨hw.backend, hw.locked⟩

/-- A sink that succeeds and only reads. -/
theorem proper_onSink {step : EStateM Error (Workspace σ × τ) Unit} {held : List Handle}
    (hstep : Succeeds step) (hlook : ∀ (w : Workspace σ) (t : τ), w.locked = true →
      w.LookedAt held (stateAfter step (w, t)).1) : Proper b (onSink step) := by
  have hsink : Confined (fun p : Workspace σ × τ => Committing b p.1) Error.NotDangling step := by
    rintro ⟨w, t⟩ hw
    obtain ⟨u, p, hp⟩ := hstep (w, t)
    have hlooked := hlook w t hw.locked
    rw [stateAfter_of_ok hp] at hlooked
    rw [hp]
    exact hw.looked hlooked
  exact hsink.onPart (fun _ hc => hc) fun _ _ _ hp => hp

/-- Once its reference records were gone through, a commit fails for other reasons only. -/
theorem proper_persist {sink : Sink σ τ} (hsink : sink.Calm) (hload : ∀ id, Unconcerned (b.load id))
    (hstore : ∀ set, Unconcerned (b.store set)) : Proper b (persist sink) := by
  refine .bind (proper_connectClass hload .modified) fun _ =>
    .bind (proper_connectClass hload .deleted) fun _ =>
      .bind (proper_connectClass hload .added) fun _ => .bind (.modify fun c hc => hc) fun _ =>
        .bind .get fun c => ?_
  refine .bind (proper_onSink (hsink.creates _ _ _) fun w t hw => hsink.create c.holding _ _ w t hw)
    fun _ => .bind (proper_onSink hsink.prepares fun w t _ => hsink.prepare c.holding w t) fun _ => ?_
  exact .bind proper_push fun _ => proper_write hstore

end Commit

namespace Workspace

variable {w : Workspace σ} {log : ChangeLog LocalItem} {held : List Handle} {sink : Sink σ τ} {t : τ}
  {target : NodeId} {view : σ → κ}

/-! ## Commits that are turned down -/

/-- Dividing the records fails for the first one that dangles. -/
theorem partitionReferences_of_firstDangling {rs : List NodeReferences}
    (h : w.FirstDangling log rs target) :
    ∃ done, partitionReferences log rs w = .error (.danglingReference target) (w.asked log done) := by
  rcases partitionReferences_cases w log rs with ⟨found, done, hfound, herr⟩ | ⟨hnone, -⟩
  · exact ⟨done, hfound.unique h ▸ herr⟩
  · exact absurd h (hnone target)

/-- Dividing the records fails for nothing but the first one that dangles. -/
theorem firstDangling_of_partitionReferences {rs : List NodeReferences} {w' : Workspace σ}
    (h : partitionReferences log rs w = .error (.danglingReference target) w') :
    w.FirstDangling log rs target := by
  rcases partitionReferences_cases w log rs with ⟨found, done, hfound, herr⟩ | ⟨-, parts, hok⟩
  · rw [h] at herr
    cases herr
    exact hfound
  · rw [h] at hok
    cases hok

/-- The check finds the first record that dangles. -/
theorem checkTargetsExist_error_iff :
    (∃ w', checkTargetsExist log w = .error (.danglingReference target) w') ↔
      w.locked = false ∧ w.FirstDangling log log.references.values target := by
  have hrun : checkTargetsExist log w = (if w.locked then throw (.lockInterrupted .read)
      else partitionReferences log log.references.values >>= fun _ => pure () : Action σ Unit) w := rfl
  rw [hrun]
  cases w.locked with
  | true =>
    constructor
    · rintro ⟨w', h⟩
      cases h
    · rintro ⟨h, -⟩
      cases h
  | false =>
    rw [if_neg (by decide)]
    constructor
    · rintro ⟨w', h⟩
      cases hp : partitionReferences log log.references.values w with
      | ok parts mid =>
        rw [bind_of_ok hp] at h
        cases h
      | error e mid =>
        rw [bind_of_error hp] at h
        cases h
        exact ⟨rfl, firstDangling_of_partitionReferences hp⟩
    · rintro ⟨-, h⟩
      obtain ⟨done, herr⟩ := partitionReferences_of_firstDangling h
      exact ⟨_, bind_of_error herr⟩

/-- A commit that is turned down for a record stops at that record, before anything else is done. -/
theorem store_of_firstDangling (hfree : w.locked = false)
    (h : w.FirstDangling log log.references.values target) (sink : Sink σ τ) (held : List Handle) (t : τ) :
    ∃ done, store sink held w t log = ⟨.error (.danglingReference target), w.asked log done, t, log⟩ := by
  obtain ⟨done, herr⟩ := partitionReferences_of_firstDangling h
  refine ⟨done, ?_⟩
  rw [store, hfree, if_neg (by decide), herr]

/-- And it is turned down so for no other record, and at no later step. -/
theorem firstDangling_of_store (hb : w.backend.Candid view) (hsink : sink.Calm)
    (h : (store sink held w t log).result = .error (.danglingReference target)) :
    w.locked = false ∧ w.FirstDangling log log.references.values target := by
  cases hlocked : w.locked with
  | true =>
    rw [store, hlocked, if_pos rfl] at h
    cases h
  | false =>
    refine ⟨rfl, ?_⟩
    rcases partitionReferences_cases w log log.references.values with
      ⟨found, done, hfound, herr⟩ | ⟨-, parts, hok⟩
    · rw [store, hlocked, if_neg (by decide), herr] at h
      cases h
      exact hfound
    · -- the records are in order, so that some later step would have to complain
      rw [store, hlocked, if_neg (by decide), hok] at h
      obtain ⟨s, hasked, -⟩ := asked_eq hb log log.references.values
      have hbegin : Committing w.backend
          (begin (w.asked log log.references.values) t held log parts.1).workspace := by
        rw [hasked]
        exact ⟨rfl, rfl⟩
      have hend := Commit.proper_persist hsink hb.load hb.store _ hbegin
      cases hpersist : Commit.persist sink
          (begin (w.asked log log.references.values) t held log parts.1) with
      | ok u c =>
        simp only [hpersist] at h
        cases h
      | error e c =>
        rw [hpersist] at hend
        simp only [hpersist] at h
        cases h
        exact hend.1.elim

/-- A commit reports a dangling reference if and only if the workspace is not locked and the reference is
the first that dangles. -/
theorem store_error_iff (hb : w.backend.Candid view) (hsink : sink.Calm) :
    (store sink held w t log).result = .error (.danglingReference target) ↔
      w.locked = false ∧ w.FirstDangling log log.references.values target := by
  refine ⟨firstDangling_of_store hb hsink, fun ⟨hfree, h⟩ => ?_⟩
  obtain ⟨done, hstore⟩ := store_of_firstDangling hfree h sink held t
  rw [hstore]

/-- A commit that is turned down for a record has asked its backend and done nothing else. -/
theorem store_eq_of_error (hb : w.backend.Candid view) (hsink : sink.Calm)
    (h : (store sink held w t log).result = .error (.danglingReference target)) :
    ∃ s, view s = view w.storage ∧
      store sink held w t log = ⟨.error (.danglingReference target), { w with storage := s }, t, log⟩ := by
  obtain ⟨hfree, hfirst⟩ := firstDangling_of_store hb hsink h
  obtain ⟨done, hstore⟩ := store_of_firstDangling hfree hfirst sink held t
  obtain ⟨s, hasked, hview⟩ := asked_eq hb log done
  exact ⟨s, hview, hasked ▸ hstore⟩

/-- **The check made beforehand and a commit agree on reference records without a target, and a commit
that is turned down for one leaves no trace**: the workspace, the sink and the log are as they were, but
for what a backend keeps for itself of being asked. -/
theorem danglingReference_iff (hb : w.backend.Candid view) (log : ChangeLog LocalItem)
    (held : List Handle) (c : Collector) (target : NodeId) :
    let checked := ∃ w', checkTargetsExist log w = .error (.danglingReference target) w'
    let silent := store (.silent σ) held w () log
    let observed := store (Collector.sink σ) held w c log
    (checked ↔ w.locked = false ∧ w.FirstDangling log log.references.values target) ∧
    (checked ↔ silent.result = .error (.danglingReference target)) ∧
    (checked ↔ observed.result = .error (.danglingReference target)) ∧
    (silent.result = .error (.danglingReference target) → ∃ s, view s = view w.storage ∧
      silent = ⟨.error (.danglingReference target), { w with storage := s }, (), log⟩) ∧
    (observed.result = .error (.danglingReference target) → ∃ s, view s = view w.storage ∧
      observed = ⟨.error (.danglingReference target), { w with storage := s }, c, log⟩) := by
  refine ⟨checkTargetsExist_error_iff, checkTargetsExist_error_iff.trans ?_,
    checkTargetsExist_error_iff.trans ?_, store_eq_of_error hb Sink.calm_silent,
    store_eq_of_error hb Collector.calm_sink⟩
  · exact (store_error_iff hb Sink.calm_silent).symm
  · exact (store_error_iff hb Collector.calm_sink).symm

/-- A workspace over a memory that has one node, and that cannot be read. -/
def unreadable : Workspace Depot :=
  around .default (Depot.backend 0) .empty ⟨0, .node default⟩
    ⟨∅, [], ⟨default, [⟨.memory (MemoryStore.empty.put default), { Faults.none with broken := true }⟩]⟩⟩

/-- A record that carries no reference. -/
def emptyRecord : NodeReferences :=
  ⟨⟨List.replicate 16 4, rfl⟩, []⟩

/-- A record that carries a reference to that node. -/
def fullRecord : NodeReferences :=
  ⟨default, [⟨default, ⟨"p"⟩⟩]⟩

/-- Both are to be written. -/
def emptyAndFull : ChangeLog LocalItem :=
  ((ChangeLog.new (.node default)).modifiedReferences emptyRecord).modifiedReferences fullRecord

/-- A collector for a listener with room for one bundle. -/
def attentive : Collector :=
  .new ⟨1, [], true⟩

/-- What the backend has but cannot tell is missing. -/
theorem danglingReference_of_unreadable :
    (∃ w', checkTargetsExist emptyAndFull unreadable = .error (.danglingReference default) w') ∧
    store (.silent Depot) [] unreadable () emptyAndFull =
      ⟨.error (.danglingReference default), unreadable, (), emptyAndFull⟩ ∧
    store (Collector.sink Depot) [] unreadable attentive emptyAndFull =
      ⟨.error (.danglingReference default), unreadable, attentive, emptyAndFull⟩ := by
  have hfirst : unreadable.FirstDangling emptyAndFull emptyAndFull.references.values default := by
    refine ⟨[emptyRecord], fullRecord, [], by decide, rfl, ?_, ?_⟩
    · refine ⟨rfl, rfl, Or.inr ⟨rfl, rfl, rfl, rfl, fun s h => ?_⟩⟩
      cases h
    · intro earlier r' later hsplit h
      cases earlier with
      | nil =>
        cases hsplit
        cases h.carries
      | cons first earlier => cases earlier <;> cases hsplit
  obtain ⟨hchecked, hsilent, hobserved, hsame, hsame'⟩ :=
    danglingReference_iff (Depot.candid_backend 0) emptyAndFull [] attentive default (w := unreadable)
  have herr := hchecked.2 ⟨rfl, hfirst⟩
  obtain ⟨s, rfl, hstore⟩ := hsame (hsilent.1 herr)
  obtain ⟨s', rfl, hstore'⟩ := hsame' (hobserved.1 herr)
  exact ⟨herr, hstore, hstore'⟩

end Workspace

end ContentTree
