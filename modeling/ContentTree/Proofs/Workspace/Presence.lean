import ContentTree.Proofs.Workspace.Hosting

/-!
# Whether something is there, and what it is

A workspace is asked whether it has an item in one way and for the item itself in another, and the same
goes for reference records. Over a storage that answers every question the two agree
(`Hosting.agreeing`), but for an identity that a subtree claims as its root without holding the item:
it counts as there, and is not found.
-/

namespace ContentTree

/-- A storage that answers every question in its present state, and without contradiction. -/
structure Backend.Unfailing {σ : Type} (b : Backend σ) (s : σ) : Prop where
  /-- What is there can be loaded, and what is not there is not found. -/
  item : ∀ id,
    (∃ t state u, b.contains id s = .ok true t ∧ b.load id s = .ok state u) ∨
      ∃ t e u, b.contains id s = .ok false t ∧ b.load id s = .error e u ∧ e.isNotFound = true
  /-- A reference record that is there can be loaded. -/
  record : ∀ target,
    (∃ t r u, b.containsReferences target s = .ok true t ∧
      b.loadReferences target t = .ok r u) ∨
      ∃ t, b.containsReferences target s = .ok false t

/-- A memory never fails to answer whether it has an item. -/
theorem MemoryStore.unfailing (m : MemoryStore) : MemoryStore.backend.Unfailing m where
  item id := by
    have hcontains : MemoryStore.backend.contains id m = .ok (m.items.get? id).isSome m := by
      rw [← OrderedMap.contains_eq_isSome]
      rfl
    rw [hcontains, MemoryStore.load_eq]
    cases m.items.get? id with
    | some s => exact Or.inl ⟨_, _, _, rfl, rfl⟩
    | none => exact Or.inr ⟨_, _, _, rfl, rfl, rfl⟩
  record target := by
    have hcontains : MemoryStore.backend.containsReferences target m =
        .ok (m.records.get? target).isSome m := by
      rw [← OrderedMap.contains_eq_isSome]
      rfl
    rw [hcontains]
    cases hr : m.records.get? target with
    | some r =>
      refine Or.inl ⟨m, r, m, rfl, ?_⟩
      rw [MemoryStore.loadReferences_eq, hr]
    | none => exact Or.inr ⟨_, rfl⟩

/-- A subtree gives out the items that it has. -/
theorem Provider.exists_get {p : Provider} {id : ItemId} (h : p.has id = true) :
    ∃ k, p.get id = .ok k := by
  rw [has, OrderedMap.contains_eq_isSome] at h
  obtain ⟨k, hk⟩ := Option.isSome_iff_exists.1 h
  exact ⟨k, by rw [get, hk]⟩

/-- And the reference records that it has. -/
theorem Provider.exists_references {p : Provider} {target : NodeId} (h : p.hasReferences target = true) :
    ∃ r, p.references target = .ok r := by
  rw [hasReferences, OrderedMap.contains_eq_isSome] at h
  obtain ⟨r, hr⟩ := Option.isSome_iff_exists.1 h
  exact ⟨r, by rw [references, hr]⟩

namespace Workspace

variable {σ α : Type} {b : Backend σ} {w w' : Workspace σ} {held : List Handle} {id : ItemId}
  {target : NodeId}

/-! ## While the lock is free -/

/-- A question that can be asked is answered. -/
theorem orNo_of_ok {question : Action σ Bool} {answer : Bool} (h : question w = .ok answer w') :
    (try question catch _ => return false : Action σ Bool) w = .ok answer w' := by
  have htried : (tryCatch (question >>= fun answer => pure (Except.ok answer)) fun _ =>
      pure (Except.error false) : Action σ (Except Bool Bool)) w = .ok (.ok answer) w' := by
    refine tryCatch_of_ok ?_
    rw [bind_of_ok h]
    rfl
  exact (bind_of_ok htried).trans rfl

/-! ## Items -/

/-- The cache or the storage has an item. -/
def Keeps (w : Workspace σ) (id : ItemId) : Prop :=
  (w.cache.peek? id).isSome = true ∨ ∃ s t, w.backend.load id w.storage = .ok s t

/-- An item in the cache or the storage can be read. -/
theorem exists_persistedItem_ok (h : w.Keeps id) (held : List Handle) :
    ∃ h w', persistedItem held id w = .ok h w' := by
  have hfound : ∃ h w', cachedOrLoaded id w = .ok h w' := by
    cases hc : w.cache.peek? id with
    | some h => exact ⟨h, _, cachedOrLoaded_of_cached hc⟩
    | none =>
      obtain hcached | ⟨s, t, hload⟩ := h
      · rw [hc] at hcached
        cases hcached
      · rw [cachedOrLoaded_of_not_cached hc, hload]
        exact ⟨_, _, rfl⟩
  obtain ⟨h, w', hok⟩ := hfound
  exact ⟨h, _, bind_of_ok hok⟩

/-- An item in neither is not found. -/
theorem exists_persistedItem_error (hw : w.backend.Unfailing w.storage) (h : ¬w.Keeps id)
    (held : List Handle) :
    ∃ e w', persistedItem held id w = .error e w' ∧ e.isNotFound = true := by
  rw [Keeps, not_or] at h
  rcases hw.item id with ⟨_, s, t, -, hload⟩ | ⟨_, e, t, -, hload, he⟩
  · exact absurd ⟨s, t, hload⟩ h.2
  · have hc : w.cache.peek? id = none := Option.not_isSome_iff_eq_none.1 h.1
    have hmissing : cachedOrLoaded id w = .error e { w with storage := t } := by
      rw [cachedOrLoaded_of_not_cached hc, hload]
    exact ⟨e, _, bind_of_error hmissing, he⟩

/-- An item that no subtree claims is found where one of the sources has it. -/
theorem itemState_ok_iff (hw : w.backend.Unfailing w.storage) (hclaim : w.claimant? id = none)
    (held : List Handle) :
    (∃ h w', itemState held id w = .ok h w') ↔ w.Keeps id ∨ (w.owner? id).isSome = true := by
  rw [itemState, get_bind, hclaim]
  show (∃ h w', (tryCatch (persistedItem held id) _ : Action σ Handle) w = .ok h w') ↔ _
  by_cases hkeeps : w.Keeps id
  · obtain ⟨h, w', hok⟩ := exists_persistedItem_ok hkeeps held
    exact ⟨fun _ => Or.inl hkeeps, fun _ => ⟨h, w', tryCatch_of_ok hok⟩⟩
  · obtain ⟨e, w', herror, he⟩ := exists_persistedItem_error hw hkeeps held
    have hlook := lookedAt_persistedItem held id w
    rw [stateAfter_of_error herror] at hlook
    rw [tryCatch_of_error herror, if_pos he, get_bind, hlook.owner?]
    cases howner : w.owner? id with
    | none =>
      constructor
      · rintro ⟨h, w'', hok⟩
        cases hok
      · exact fun hfound => absurd hfound (not_or.2 ⟨hkeeps, by decide⟩)
    | some p =>
      -- the owner has the item, so it can give it out
      obtain ⟨h, hget⟩ := Provider.exists_get
        (List.find?_some (p := fun p : Provider => p.has id) howner)
      refine ⟨fun _ => Or.inr rfl, fun _ => ⟨h, w', ?_⟩⟩
      dsimp only
      rw [hget]
      rfl

/-- An item that no subtree claims counts as there where one of the sources has it. -/
theorem hasItem_ok (hw : w.backend.Unfailing w.storage) (hclaim : w.claimant? id = none) :
    ∃ answer w', hasItem id w = .ok answer w' ∧
      (answer = true ↔ w.Keeps id ∨ (w.owner? id).isSome = true) := by
  have heq : hasItem id w = (if (w.claimant? id).isSome || w.isCached id then pure true
    else (tryCatch (onStorage (w.backend.contains id)) fun _ => pure false) >>= fun persisted =>
      if persisted then pure true else get >>= fun u => pure (u.owner? id).isSome :
    Action σ Bool) w := rfl
  have hcached : w.isCached id = (w.cache.peek? id).isSome :=
    OrderedMap.contains_eq_isSome w.cache.entries id
  rw [heq, hclaim, hcached]
  cases hc : (w.cache.peek? id).isSome with
  | true => exact ⟨true, w, rfl, fun _ => Or.inl (Or.inl hc), fun _ => rfl⟩
  | false =>
    rw [Option.isSome_none, Bool.or_self, if_neg (by decide)]
    have hask : ∀ {answer : Bool} {t : σ}, w.backend.contains id w.storage = .ok answer t →
        (tryCatch (onStorage (w.backend.contains id)) fun _ => pure false : Action σ Bool) w =
          .ok answer { w with storage := t } := fun h => tryCatch_of_ok (onStorage_of_ok h)
    rcases hw.item id with ⟨t, s, u, hcontains, hload⟩ | ⟨t, e, u, hcontains, hload, -⟩
    · rw [bind_of_ok (hask hcontains)]
      exact ⟨true, _, rfl, fun _ => Or.inl (Or.inr ⟨s, u, hload⟩), fun _ => rfl⟩
    · have hkeeps : ¬w.Keeps id := by
        rintro (hcached | ⟨s, u', hok⟩)
        · rw [hc] at hcached
          cases hcached
        · rw [hload] at hok
          cases hok
      rw [bind_of_ok (hask hcontains)]
      exact ⟨(w.owner? id).isSome, _, rfl, Or.inr, fun hfound => hfound.resolve_left hkeeps⟩

/-! ## Reference records -/

/-- A reference record is there if and only if it can be read. -/
theorem hasReferences_ok (hw : w.backend.Unfailing w.storage) (target : NodeId) :
    ∃ answer w', hasReferences target w = .ok answer w' ∧
      (answer = true ↔ ∃ r w', references target w = .ok r w') := by
  have hhas : ∀ {answer : Bool} {t : σ},
      w.backend.containsReferences target w.storage = .ok answer t →
      hasReferences target w = .ok (answer || w.subtrees.any (·.hasReferences target))
        { w with storage := t } := fun {answer t} h => by
    refine (bind_of_ok (tryCatch_of_ok (onStorage_of_ok h))).trans ?_
    cases answer <;> rfl
  rcases hw.record target with ⟨t, r, u, hcontains, hload⟩ | ⟨t, hcontains⟩
  · -- the storage has the record, so it is read there
    have hread : onStorage (w.backend.loadReferences target) { w with storage := t } =
        .ok r { w with storage := u } := onStorage_of_ok hload
    have hkept : persistedReferences target w = .ok (some r) { w with storage := u } :=
      (bind_of_ok (a := .error (some r)) (tryCatch_of_ok
        ((bind_of_ok (onStorage_of_ok hcontains)).trans ((bind_of_ok hread).trans rfl)))).trans rfl
    exact ⟨_, _, hhas hcontains, fun _ => ⟨r, _, bind_of_ok hkept⟩, fun _ => rfl⟩
  · have hkept : persistedReferences target w = .ok none { w with storage := t } :=
      (bind_of_ok (a := .error none) (tryCatch_of_ok
        ((bind_of_ok (onStorage_of_ok hcontains)).trans rfl))).trans rfl
    refine ⟨_, _, hhas hcontains, ?_⟩
    -- the storage has none, so the subtrees are searched
    rw [Bool.false_or, references, bind_of_ok hkept, ← List.isSome_find?]
    dsimp only
    rw [get_bind, show subtrees { w with storage := t } = w.subtrees from rfl]
    cases hp : w.subtrees.find? (·.hasReferences target) with
    | none =>
      constructor
      · intro h
        cases h
      · rintro ⟨r, w', h⟩
        cases h
    | some p =>
      obtain ⟨r, hget⟩ := Provider.exists_references
        (List.find?_some (p := fun p : Provider => p.hasReferences target) hp)
      refine ⟨fun _ => ⟨r, { w with storage := t }, ?_⟩, fun _ => rfl⟩
      dsimp only
      rw [hget]
      rfl

/-! ## Asking and reading -/

/-- How asking whether something is there goes together with reading it. -/
structure Agreeing (held : List Handle) (w : Workspace σ) : Prop where
  /-- An item is there if and only if it can be read, unless a subtree without it claims its identity
  as its root. -/
  items : ∀ id, (∀ p, w.claimant? id = some p → p.has id = true) →
    ((∃ w', hasItemState id w = .ok true w') ↔ ∃ h w', getItemState held id w = .ok h w')
  /-- The root of a subtree counts as there when the subtree does not hold it, and is not found. -/
  vacant : ∀ id p, w.claimant? id = some p → p.has id = false →
    hasItemState id w = .ok true w ∧ getItemState held id w = .error (.noSuchItem id) w
  /-- A reference record is there if and only if it can be read. -/
  records : ∀ target,
    (∃ w', hasReferenceRecord target w = .ok true w') ↔ ∃ r w', getReferences target w = .ok r w'

/-- An answer of an unlocked workspace is the answer that its caller gets. -/
theorem hasItemState_of_ok (hw : w.locked = false) {answer : Bool} (h : hasItem id w = .ok answer w') :
    hasItemState id w = .ok answer w' :=
  orNo_of_ok ((reading_of_unlocked hw _).trans h)

/-- The root of a subtree counts as there. -/
theorem hasItem_of_claimant {p : Provider} (h : w.claimant? id = some p) :
    hasItem id w = .ok true w := by
  show (if (w.claimant? id).isSome || w.isCached id then pure true else _ : Action σ Bool) w = _
  rw [h]
  rfl

/-- The root of a subtree is asked of that subtree only. -/
theorem itemState_of_claimant {p : Provider} (h : w.claimant? id = some p) :
    itemState held id w = (ofExcept (p.get id) : Action σ Handle) w := by
  rw [itemState, get_bind, h]

/-- **What is there can be read.** -/
theorem Hosting.agreeing (hw : Hosting b w) (hstorage : b.Unfailing w.storage)
    (held : List Handle) : Agreeing held w := by
  have hready := hw.host.ready
  have hfree := hready.unlocked
  rw [← hready.backend] at hstorage
  have hask : ∀ {α : Type} {question : Action σ Bool} {answer : Bool} {w' : Workspace σ}
      {action : Action σ α}, question w = .ok answer w' →
      (answer = true ↔ ∃ a w', action w = .ok a w') →
      ((∃ w', (try reading question catch _ => return false : Action σ Bool) w = .ok true w') ↔
        ∃ a w', reading action w = .ok a w') := by
    intro α question answer w' action hquestion hiff
    rw [orNo_of_ok ((reading_of_unlocked hfree question).trans hquestion),
      reading_of_unlocked hfree, ← hiff]
    constructor
    · rintro ⟨_, h⟩
      cases h
      rfl
    · rintro rfl
      exact ⟨w', rfl⟩
  refine ⟨fun id hclaimed => ?_, fun id p hclaim hnot => ?_, fun target => ?_⟩
  · cases hclaim : w.claimant? id with
    | none =>
      obtain ⟨answer, w', hhas, hiff⟩ := hasItem_ok hstorage hclaim
      exact hask hhas (hiff.trans (itemState_ok_iff hstorage hclaim held).symm)
    | some p =>
      obtain ⟨h, hget⟩ := Provider.exists_get (hclaimed p hclaim)
      refine hask (hasItem_of_claimant hclaim) ⟨fun _ => ⟨h, w, ?_⟩, fun _ => rfl⟩
      rw [itemState_of_claimant hclaim, hget]
      rfl
  · rw [Provider.has, OrderedMap.contains_eq_isSome] at hnot
    have hget := Option.not_isSome_iff_eq_none.1 (Bool.eq_false_iff.1 hnot)
    refine ⟨hasItemState_of_ok hfree (hasItem_of_claimant hclaim), ?_⟩
    rw [getItemState, reading_of_unlocked hfree, itemState_of_claimant hclaim, Provider.get, hget]
    rfl
  · obtain ⟨answer, w', hhas, hiff⟩ := hasReferences_ok hstorage target
    exact hask hhas hiff

/-! ### A subtree that lost its root -/

namespace Sample

/-- A workspace whose first subtree gave up an item. -/
def withoutItem (id : ItemId) (w : Workspace MemoryStore) : Workspace MemoryStore :=
  match w.providers[0]? with
  | some p => { w with providers := w.providers.set 0 (p.remove id).2 }
  | none => w

/-- Registering a subtree whose item was removed leaves the workspace hosting. -/
theorem hosting_withoutItem {w : Workspace MemoryStore} (id : ItemId)
    (hw : Hosting MemoryStore.backend w) : Hosting MemoryStore.backend (withoutItem id w) := by
  unfold withoutItem
  split
  · next p hp => exact .removed id hp hw
  · exact hw

/-- A workspace with a subtree whose root was taken out. -/
def hostVacant : Workspace MemoryStore :=
  withoutItem fresh (withSubtree (.empty fresh) (opened memory))

/-- The workspace with the vacant subtree is hosting. -/
theorem hosting_hostVacant : Hosting MemoryStore.backend hostVacant :=
  hosting_withoutItem _ (hosting_withSubtree _ (hosting_opened memory rfl))

end Sample

/-- The root of a subtree that holds it is there, and can be read. -/
theorem Hosting.agreeing_shadowing :
    (∃ w', hasItemState Sample.fresh Sample.hostShadowing = .ok true w') ∧
      ∃ h w', getItemState [] Sample.fresh Sample.hostShadowing = .ok h w' := by
  have hiff := (Hosting.agreeing Sample.hosting_hostShadowing (MemoryStore.unfailing _) []).items
    Sample.fresh (by decide +kernel)
  have hhas : ∃ w', hasItemState Sample.fresh Sample.hostShadowing = .ok true w' := by
    obtain ⟨p, hclaim⟩ := Option.isSome_iff_exists.1
      (show (Sample.hostShadowing.claimant? Sample.fresh).isSome = true by decide +kernel)
    exact ⟨_, hasItemState_of_ok rfl (hasItem_of_claimant hclaim)⟩
  exact ⟨hhas, hiff.1 hhas⟩

/-- A root that was taken out counts as there, and is not found. -/
theorem vacant_root_counts :
    Hosting MemoryStore.backend Sample.hostVacant ∧
      MemoryStore.backend.Unfailing Sample.hostVacant.storage ∧
      (hasItemState Sample.fresh).run' Sample.hostVacant = some true ∧
      (getItemState [] Sample.fresh).run' Sample.hostVacant = none :=
  ⟨Sample.hosting_hostVacant, MemoryStore.unfailing _, by decide +kernel, by decide +kernel⟩

end Workspace

end ContentTree
