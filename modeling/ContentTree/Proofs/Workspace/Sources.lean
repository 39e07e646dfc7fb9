import ContentTree.Proofs.Workspace.Hosting

/-!
# Reading back reference records

A reference record is written to one source: the first registered subtree that holds its target, or
the backend if there is none. It is read from the first source that has one, the backend before the
subtrees. A source that the target is not, or no longer, in keeps the record it once got. So a record is
read back as it was written unless such an older record stands in the way (`readBack_store`).
-/

namespace ContentTree.Workspace

/-- Where reference records are kept. -/
inductive Source where
  | storage
  /-- The subtree with a number. -/
  | subtree (n : Nat)
  deriving DecidableEq

section

variable {w w' : Workspace MemoryStore} {target : NodeId}

/-! ## Sources -/

/-- The sources of a workspace, in the order in which they are asked. -/
def sources (w : Workspace MemoryStore) : List Source :=
  .storage :: w.overlays.map .subtree

/-- The record that the subtree with a number has of a target. -/
def recordIn (providers : List Provider) (target : NodeId) (n : Nat) : Option NodeReferences :=
  providers[n]?.bind fun p => p.records.get? target

/-- The record that a source has of a target. -/
def kept (w : Workspace MemoryStore) (target : NodeId) : Source → Option NodeReferences
  | .storage => w.storage.records.get? target
  | .subtree n => recordIn w.providers target n

/-- The first of some numbers whose subtree holds a node. -/
def holder? (providers : List Provider) (target : NodeId) (ns : List Nat) : Option Nat :=
  ns.find? fun n => providers[n]?.any fun p => p.has (.node target)

/-- Where a commit puts the reference record of a target. -/
def destination (w : Workspace MemoryStore) (target : NodeId) : Source :=
  (holder? w.providers target w.overlays).elim .storage .subtree

/-- What is there of a record after it was written. -/
def written (r : NodeReferences) : Option NodeReferences :=
  if r.hasReferences then some r else none

/-- The record that some subtrees have of a target is that of the first one that has one. -/
theorem findSome?_recordIn (providers : List Provider) (target : NodeId) (ns : List Nat) :
    ns.findSome? (recordIn providers target) =
      ((ns.filterMap fun n => providers[n]?).find? (·.hasReferences target)).bind
        fun p => p.records.get? target := by
  induction ns with
  | nil => rfl
  | cons n rest ih =>
    rw [List.findSome?_cons, ih, recordIn]
    cases hp : providers[n]? with
    | none =>
      rw [List.filterMap_cons_none hp]
      rfl
    | some p =>
      rw [List.filterMap_cons_some hp, List.find?_cons, Provider.hasReferences,
        OrderedMap.contains_eq_isSome, Option.bind_some]
      cases hr : p.records.get? target with
      | none => rfl
      | some r => exact hr.symm

/-- The record of a target is that of the first source that has one. -/
theorem references_eq (hback : w.backend = MemoryStore.backend) (target : NodeId) :
    references target w = match w.sources.findSome? (w.kept target) with
      | some r => .ok r w
      | none => .error (.noSuchReferences ⟨target⟩) w := by
  -- the backend is asked whether it has the record before it is asked for it
  have hpersisted : persistedReferences target w = .ok (w.storage.records.get? target) w := by
    have hask : onStorage (MemoryStore.backend.containsReferences target) w =
        .ok (w.storage.records.get? target).isSome w := by
      rw [← OrderedMap.contains_eq_isSome]
      rfl
    have hload : onStorage (MemoryStore.backend.loadReferences target) w =
        match w.storage.records.get? target with
        | some r => .ok r w
        | none => .error (.noSuchReferences ⟨target⟩) w := by
      rw [onStorage, Backend.onPart, MemoryStore.loadReferences_eq]
      cases w.storage.records.get? target <;> rfl
    show (tryCatch (onStorage (w.backend.containsReferences target) >>= fun found => _) _ >>= _ :
      Action MemoryStore _) w = _
    rw [hback]
    cases hr : w.storage.records.get? target with
    | none =>
      rw [hr] at hask
      exact (bind_of_ok (a := .error none) (tryCatch_of_ok ((bind_of_ok hask).trans rfl))).trans rfl
    | some r =>
      rw [hr] at hask hload
      exact (bind_of_ok (a := .error (some r)) (tryCatch_of_ok ((bind_of_ok hask).trans
        ((bind_of_ok hload).trans rfl)))).trans rfl
  -- searching the subtrees is searching the sources that they are
  have hsubtrees : (w.overlays.map Source.subtree).findSome? (w.kept target) =
      (w.subtrees.find? (·.hasReferences target)).bind fun p => p.records.get? target := by
    rw [List.findSome?_map]
    exact findSome?_recordIn w.providers target w.overlays
  rw [references, bind_of_ok hpersisted, sources, List.findSome?_cons, hsubtrees, kept]
  cases w.storage.records.get? target with
  | some r => rfl
  | none =>
    dsimp only
    rw [get_bind]
    cases hp : w.subtrees.find? (·.hasReferences target) with
    | none => rfl
    | some p =>
      have hhas : p.hasReferences target = true := by simpa using List.find?_some hp
      rw [Provider.hasReferences, OrderedMap.contains_eq_isSome] at hhas
      obtain ⟨r, hr⟩ := Option.isSome_iff_exists.1 hhas
      show (ofExcept (p.references target) : Action MemoryStore NodeReferences) w = _
      rw [Provider.references, hr, Option.bind_some, hr]
      rfl

/-! ## Writing -/

/-- A subtree turns down a record of a node that it does not hold. -/
theorem setReferences_of_not_has {p : Provider} {r : NodeReferences}
    (hhas : p.has (.node r.target) = false) : p.setReferences r = (false, p) := by
  simp [Provider.setReferences, hhas]

/-- A subtree takes a record of a node that it holds. -/
theorem setReferences_of_has {p : Provider} {r : NodeReferences} (hrefuses : p.refuses = false)
    (hhas : p.has (.node r.target) = true) : ∃ records, p.setReferences r = (true, { p with records }) ∧
      ∀ target, records.get? target = if target = r.target then written r else p.records.get? target := by
  have hgoes : ¬(p.refuses || !p.has (.node r.target)) = true := by
    rw [hrefuses, hhas]
    decide
  rw [Provider.setReferences, if_neg hgoes]
  cases hr : r.hasReferences with
  | true =>
    refine ⟨_, rfl, fun target => ?_⟩
    rw [OrderedMap.get?_insert, written, if_pos hr]
  | false =>
    refine ⟨_, rfl, fun target => ?_⟩
    rw [OrderedMap.get?_erase, written, hr]
    rfl

/-- A source that has the target holds it. -/
theorem holder?_of_has {providers : List Provider} {p : Provider} {n : Nat} {target : NodeId}
    (hp : providers[n]? = some p) (hhas : p.has (.node target) = true) (ns : List Nat) :
    holder? providers target (n :: ns) = some n := by
  rw [holder?, List.find?_cons_of_pos (by rw [hp]; exact hhas)]

/-- A source that does not have the target is passed over. -/
theorem holder?_of_not_has {providers : List Provider} {n : Nat} {target : NodeId}
    (h : ∀ p, providers[n]? = some p → p.has (.node target) = false) (ns : List Nat) :
    holder? providers target (n :: ns) = holder? providers target ns := by
  rw [holder?, List.find?_cons_of_neg, holder?]
  cases hp : providers[n]? with
  | none => exact Bool.false_ne_true
  | some p => simpa using h p hp

/-- The subtree that holds a node is the first that takes a record of it. -/
theorem recordIn_offer (r : NodeReferences) (ns : List Nat) {providers : List Provider}
    (hrefuses : ∀ p ∈ providers, p.refuses = false) (target : NodeId) (m : Nat) :
    recordIn (offer r ns providers) target m =
      if target = r.target ∧ holder? providers r.target ns = some m then written r
      else recordIn providers target m := by
  induction ns with
  | nil => simp [offer, holder?]
  | cons n rest ih =>
    rw [offer]
    cases hp : providers[n]? with
    | none =>
      rw [holder?_of_not_has (fun p h => by rw [hp] at h; cases h)]
      exact ih
    | some p =>
      dsimp only
      cases hhas : p.has (.node r.target) with
      | true =>
        obtain ⟨records, hset, hget⟩ :=
          setReferences_of_has (hrefuses p (List.mem_of_getElem? hp)) hhas
        rw [hset, holder?_of_has hp hhas]
        show recordIn (providers.set n { p with records }) target m = _
        simp only [recordIn, List.getElem?_set, Option.some.injEq]
        by_cases hm : n = m
        · subst hm
          simp only [if_true, (List.getElem?_eq_some_iff.1 hp).1, Option.bind_some, hget, hp, and_true]
        · simp only [hm, if_false, and_false]
      | false =>
        rw [setReferences_of_not_has hhas,
          holder?_of_not_has (fun q h => by rw [hp] at h; cases h; exact hhas)]
        exact ih

/-- Subtrees that hold the same items as before are the first holders of the same nodes. -/
theorem holder?_congr {providers providers' : List Provider}
    (h : providers'.map Provider.items = providers.map Provider.items) (target : NodeId)
    (ns : List Nat) : holder? providers' target ns = holder? providers target ns := by
  have hany : ∀ (ps : List Provider) (n : Nat), (ps[n]?.any fun p => p.has (.node target)) =
      ((ps.map Provider.items)[n]?.any fun items => items.contains (.node target)) := by
    intro ps n
    rw [List.getElem?_map]
    cases ps[n]? <;> rfl
  simp only [holder?, hany, h]

/-- Offering a record makes no subtree refuse any. -/
theorem refuses_offer (r : NodeReferences) (ns : List Nat) {providers : List Provider}
    (hrefuses : ∀ p ∈ providers, p.refuses = false) : ∀ p ∈ offer r ns providers, p.refuses = false := by
  induction ns with
  | nil => exact hrefuses
  | cons n rest ih =>
    rw [offer]
    cases hp : providers[n]? with
    | none => exact ih
    | some p =>
      have hp' : p.refuses = false := hrefuses p (List.mem_of_getElem? hp)
      dsimp only
      cases hhas : p.has (.node r.target) with
      | false =>
        rw [setReferences_of_not_has hhas]
        exact ih
      | true =>
        obtain ⟨records, hset, -⟩ := setReferences_of_has hp' hhas
        rw [hset]
        intro q hq
        rcases List.mem_or_eq_of_mem_set hq with hold | rfl
        · exact hrefuses q hold
        · exact hp'

/-- Records of different targets that are handed to the subtrees each come to the first one that holds
their target. -/
theorem recordIn_deliver {w : Workspace MemoryStore} (hrefuses : ∀ p ∈ w.providers, p.refuses = false)
    {records : List NodeReferences} (hnodup : (records.map NodeReferences.target).Nodup)
    (target : NodeId) (m : Nat) :
    (∀ r ∈ records, recordIn (w.deliver records).providers r.target m =
      if w.destination r.target = .subtree m then written r else recordIn w.providers r.target m) ∧
    (target ∉ records.map NodeReferences.target →
      recordIn (w.deliver records).providers target m = recordIn w.providers target m) := by
  suffices h : ∀ (records : List NodeReferences) (ps : List Provider),
      (records.map NodeReferences.target).Nodup →
      ps.map Provider.items = w.providers.map Provider.items → (∀ p ∈ ps, p.refuses = false) →
      (∀ r ∈ records, recordIn (records.foldl (fun ps r => offer r w.overlays ps) ps) r.target m =
        if w.destination r.target = .subtree m then written r else recordIn ps r.target m) ∧
      ∀ target, target ∉ records.map NodeReferences.target →
        recordIn (records.foldl (fun ps r => offer r w.overlays ps) ps) target m =
          recordIn ps target m by
    obtain ⟨hin, hout⟩ := h records w.providers hnodup rfl hrefuses
    exact ⟨hin, hout target⟩
  intro records
  induction records with
  | nil => exact fun ps _ _ _ => ⟨fun r hr => (by cases hr), fun _ _ => rfl⟩
  | cons a rest ih =>
    intro ps hnodup hitems hrefuses
    rw [List.map_cons, List.nodup_cons] at hnodup
    obtain ⟨hin, hout⟩ := ih (offer a w.overlays ps) hnodup.2
      ((items_offer a w.overlays ps).trans hitems) (refuses_offer a w.overlays hrefuses)
    have hstep := fun target => recordIn_offer a w.overlays hrefuses target m
    -- where a record goes depends on the items, which delivering leaves alone
    have hdestination : w.destination a.target = .subtree m ↔
        holder? ps a.target w.overlays = some m := by
      rw [destination, holder?_congr hitems]
      cases holder? w.providers a.target w.overlays <;> simp
    refine ⟨fun r hr => ?_, fun target htarget => ?_⟩
    · rw [List.foldl_cons]
      rcases List.mem_cons.1 hr with rfl | hr
      · rw [hout _ hnodup.1, hstep]
        simp only [hdestination, true_and]
      · have hother : r.target ≠ a.target := fun heq => hnodup.1 (heq ▸ List.mem_map_of_mem hr)
        rw [hin r hr, hstep]
        simp only [hother, false_and, if_false]
    · rw [List.map_cons, List.mem_cons, not_or] at htarget
      rw [List.foldl_cons, hout target htarget.2, hstep, if_neg fun heq => htarget.1 heq.1]

/-- A record goes to the backend if no subtree holds its target. -/
theorem destination_eq_storage (w : Workspace MemoryStore) (r : NodeReferences) :
    w.destination r.target = .storage ↔ w.isVirtual r = false := by
  have hholder : (holder? w.providers r.target w.overlays).isSome = w.isVirtual r := by
    rw [isVirtual, owner?, subtrees, holder?, Bool.eq_iff_iff, List.find?_isSome, List.find?_isSome]
    constructor
    · rintro ⟨n, hn, hholds⟩
      cases hp : w.providers[n]? with
      | none =>
        rw [hp] at hholds
        cases hholds
      | some p =>
        rw [hp] at hholds
        exact ⟨p, List.mem_filterMap.2 ⟨n, hn, hp⟩, hholds⟩
    · rintro ⟨p, hp, hholds⟩
      obtain ⟨n, hn, hp⟩ := List.mem_filterMap.1 hp
      exact ⟨n, hn, by rw [hp]; exact hholds⟩
  rw [← hholder, destination]
  cases holder? w.providers r.target w.overlays <;> simp

variable {τ : Type} {sink : Sink MemoryStore τ} {held : List Handle} {t : τ}
  {log : ChangeLog LocalItem}

/-- A commit puts a record in its place, and leaves what other sources have of its target. -/
theorem kept_store (hw : w.Ready MemoryStore.backend) (hrefuses : ∀ p ∈ w.providers, p.refuses = false)
    (hsink : sink.OnlyReads) (hlog : log.Recorded) (hok : (store sink held w t log).result = .ok ())
    {r : NodeReferences} (hr : r ∈ log.references.values) (s : Source) :
    (store sink held w t log).workspace.kept r.target s =
      if w.destination r.target = s then written r else w.kept r.target s := by
  cases s with
  | storage =>
    rw [kept, (memory_of_store_ok hw hsink hlog hok).2, hlog.wellFormed.get?_references hr]
    simp only [destination_eq_storage]
    cases w.isVirtual r <;> rfl
  | subtree m =>
    obtain ⟨records, virtual, mid, c, hp, hc, hstore⟩ := exists_of_store_ok hw hsink hlog hok
    obtain ⟨-, rfl, -⟩ := partitionReferences_eq hp
    rw [kept, hstore, (subtrees_conclude hsink (hc.underway hw.sound_begin) _).1]
    obtain ⟨hin, hout⟩ :=
      recordIn_deliver hrefuses (hlog.wellFormed.nodup_targets w.isVirtual) r.target m
    cases hvirtual : w.isVirtual r with
    | true => exact hin r (List.mem_filter.2 ⟨hr, hvirtual⟩)
    | false =>
      have hnot : r.target ∉ (log.references.values.filter w.isVirtual).map NodeReferences.target := by
        intro hmem
        obtain ⟨r', hr', htarget⟩ := List.mem_map.1 hmem
        obtain ⟨hr', hvirtual'⟩ := List.mem_filter.1 hr'
        have hsame := hlog.wellFormed.get?_references hr'
        rw [htarget, hlog.wellFormed.get?_references hr] at hsame
        cases hsame
        rw [hvirtual] at hvirtual'
        cases hvirtual'
      rw [hout hnot, (destination_eq_storage w r).2 hvirtual]
      rfl

/-! ## Reading back -/

/-- How a record reads right after a commit of a log that carries it. -/
structure ReadBack (w : Workspace MemoryStore) (r : NodeReferences) (w' : Workspace MemoryStore) :
    Prop where
  /-- It reads as it was written if no source that is asked before its own has an older one. -/
  written : r.hasReferences = true →
    (w.sources.takeWhile (· ≠ w.destination r.target)).findSome? (w.kept r.target) = none →
    getReferences r.target w' = .ok r w'
  /-- Else the older one of the first such source is read. -/
  hidden : r.hasReferences = true → ∀ old,
    (w.sources.takeWhile (· ≠ w.destination r.target)).findSome? (w.kept r.target) = some old →
    getReferences r.target w' = .ok old w'
  /-- An empty one takes the record away if no other source has one. -/
  removed : r.hasReferences = false →
    (w.sources.filter (· ≠ w.destination r.target)).findSome? (w.kept r.target) = none →
    getReferences r.target w' = .error (.noSuchReferences ⟨r.target⟩) w'
  /-- Else the older one of the first such source is read. -/
  surviving : r.hasReferences = false → ∀ old,
    (w.sources.filter (· ≠ w.destination r.target)).findSome? (w.kept r.target) = some old →
    getReferences r.target w' = .ok old w'

/-- A record of a log comes to one of the sources. -/
theorem destination_mem_sources (w : Workspace MemoryStore) (target : NodeId) :
    w.destination target ∈ w.sources := by
  rw [destination, sources]
  cases h : holder? w.providers target w.overlays with
  | none => exact List.mem_cons_self ..
  | some n =>
    exact List.mem_cons_of_mem _ (List.mem_map_of_mem (List.mem_of_find?_eq_some h))

/-- A value put at one place of a list is found unless something before it is. -/
theorem findSome?_update {α β : Type} [DecidableEq α] (f : α → Option β) {a : α} (b : β) :
    ∀ {l : List α}, a ∈ l → l.findSome? (fun x => if a = x then some b else f x) =
      ((l.takeWhile (· ≠ a)).findSome? f).or (some b)
  | x :: l, hmem => by
    by_cases hx : a = x
    · simp [hx]
    · have hmem : a ∈ l := (List.mem_cons.1 hmem).resolve_left hx
      rw [List.findSome?_cons, if_neg hx, findSome?_update f b hmem,
        List.takeWhile_cons_of_pos (by simpa using Ne.symm hx), List.findSome?_cons]
      cases f x <;> rfl

/-- Passing over one value of a list is searching the list without it. -/
theorem findSome?_erase {α β : Type} [DecidableEq α] (f : α → Option β) (a : α) (l : List α) :
    l.findSome? (fun x => if a = x then none else f x) = (l.filter (· ≠ a)).findSome? f := by
  induction l with
  | nil => rfl
  | cons x l ih =>
    by_cases hx : a = x
    · subst hx
      simp [ih]
    · rw [List.findSome?_cons, if_neg hx, List.filter_cons_of_pos (by simpa using Ne.symm hx),
        List.findSome?_cons, ih]

/-- **Reading back a record.** -/
theorem readBack_store (hw : Hosting MemoryStore.backend w)
    (hrefuses : ∀ p ∈ w.providers, p.refuses = false) (hsink : sink.OnlyReads) (hlog : log.Recorded)
    (hok : (store sink held w t log).result = .ok ()) {r : NodeReferences}
    (hr : r ∈ log.references.values) :
    ReadBack w r (store sink held w t log).workspace := by
  have hready := hw.host.ready
  have hkept := kept_store hready hrefuses hsink hlog hok hr
  have hafter := hready.store hsink hlog held t
  have hoverlays : (store sink held w t log).workspace.overlays = w.overlays := by
    obtain ⟨records, virtual, mid, c, -, hc, hstore⟩ := exists_of_store_ok hready hsink hlog hok
    rw [hstore]
    exact (subtrees_conclude hsink (hc.underway hready.sound_begin) virtual).2
  generalize (store sink held w t log).workspace = w' at hkept hafter hoverlays ⊢
  have hread : getReferences r.target w' = match w.sources.findSome? (fun s =>
        if w.destination r.target = s then Workspace.written r else w.kept r.target s) with
      | some r => .ok r w'
      | none => .error (.noSuchReferences ⟨r.target⟩) w' := by
    have hsources : w'.sources = w.sources := by rw [sources, hoverlays, sources]
    have hfree : getReferences r.target w' = references r.target w' := by
      show (if w'.locked then throw _ else references r.target : Action MemoryStore _) w' = _
      rw [hafter.unlocked]
      rfl
    rw [hfree, references_eq hafter.backend, hsources, funext hkept]
  have hmem := destination_mem_sources w r.target
  constructor
  · intro hrefs hnone
    rw [hread, Workspace.written, if_pos hrefs, findSome?_update _ r hmem, hnone]
    rfl
  · intro hrefs old hsome
    rw [hread, Workspace.written, if_pos hrefs, findSome?_update _ r hmem, hsome]
    rfl
  · intro hrefs hnone
    rw [hread, Workspace.written, hrefs, if_neg (by decide), findSome?_erase, hnone]
  · intro hrefs old hsome
    rw [hread, Workspace.written, hrefs, if_neg (by decide), findSome?_erase, hsome]

end

/-! ### A node that a subtree takes in after a reference to it was stored -/

namespace Sample

/-- The record of a reference to the known node from a property of the root. -/
def citedBy (property : Name) : NodeReferences :=
  ⟨known.node?.getD default, [⟨default, property⟩]⟩

/-- A log that changes the reference of the node from that property. -/
def citationBy (property : Name) : ChangeLog LocalItem :=
  (ChangeLog.new (.node default)).modifiedReferences (citedBy property)

/-- The log that changes the reference is recorded. -/
theorem recorded_citationBy (property : Name) : (citationBy property).Recorded :=
  (ChangeLog.Recorded.new _).modifiedReferences _

/-- A workspace whose memory has a record of the known node, which a subtree took in later. -/
def hostCited : Workspace MemoryStore :=
  withItem (.empty known) (store (Sink.silent MemoryStore) []
    (withSubtree (.empty fresh) (opened memory)) () (citationBy Name.primaryType)).workspace

/-- The workspace whose cited node a subtree took in later is hosting. -/
theorem hosting_hostCited : Hosting MemoryStore.backend hostCited :=
  hosting_withItem _ (.stored [] () Sink.onlyReads_silent (recorded_citationBy _)
    (hosting_withSubtree _ (hosting_opened memory rfl)))

end Sample

/-- A record for a subtree reads as it was written if there was none of its target before. -/
theorem readBack_store_shadowing :
    let w' := (store (Sink.silent MemoryStore) [] Sample.hostShadowing ()
      (Sample.citationBy Name.primaryType)).workspace
    Sample.hostShadowing.destination (Sample.citedBy Name.primaryType).target = .subtree 0 ∧
      getReferences (Sample.citedBy Name.primaryType).target w' =
        .ok (Sample.citedBy Name.primaryType) w' :=
  ⟨by decide +kernel, (readBack_store Sample.hosting_hostShadowing (by decide +kernel)
    Sink.onlyReads_silent (Sample.recorded_citationBy _) (by decide +kernel)
    (by decide +kernel)).written (by decide +kernel) (by decide +kernel)⟩

/-- The record that the memory kept is read, not the one that was written to the subtree. -/
theorem older_record_read :
    let log := Sample.citationBy ⟨"second"⟩
    let out := store (Sink.silent MemoryStore) [] Sample.hostCited () log
    Hosting MemoryStore.backend Sample.hostCited ∧
      (∀ p ∈ Sample.hostCited.providers, p.refuses = false) ∧ log.Recorded ∧ out.result = .ok () ∧
      Sample.citedBy ⟨"second"⟩ ∈ log.references.values ∧
      (Sample.citedBy ⟨"second"⟩).hasReferences = true ∧
      (getReferences (Sample.citedBy ⟨"second"⟩).target).run' out.workspace =
        some (Sample.citedBy Name.primaryType) ∧
      Sample.citedBy Name.primaryType ≠ Sample.citedBy ⟨"second"⟩ :=
  ⟨Sample.hosting_hostCited, by decide +kernel, Sample.recorded_citationBy _, by decide +kernel,
    by decide +kernel, by decide +kernel, by decide +kernel, by decide +kernel⟩

end ContentTree.Workspace
