import ContentTree.ChangeLog
import ContentTree.Proofs.Collection.OrderedMap

/-!
# Well-formed change logs

A log built by recording keeps every state under its own identity, every identity in one of the three
sets only, and every reference record under its target. All recordings and the changes that a commit
makes to a log keep this.
-/

namespace ContentTree

namespace ChangeLog

variable {α β : Type}

/-- Replacing one set leaves the two other ones. -/
@[simp] theorem itemsOf_setItems (log : ChangeLog α) (items : OrderedMap ItemId α)
    (cls cls' : Class) :
    (log.setItems items cls).itemsOf cls' = if cls' = cls then items else log.itemsOf cls' := by
  cases cls <;> cases cls' <;> rfl

/-- Replacing a set of items leaves the reference records. -/
@[simp] theorem references_setItems (log : ChangeLog α) (items : OrderedMap ItemId α)
    (cls : Class) : (log.setItems items cls).references = log.references := by
  cases cls <;> rfl

/-- A log has the states of its three sets. -/
theorem mem_states {log : ChangeLog α} {a : α} :
    a ∈ log.states ↔ ∃ cls, a ∈ (log.itemsOf cls).values := by
  simp only [states, List.mem_append]
  constructor
  · rintro ((h | h) | h)
    · exact ⟨.added, h⟩
    · exact ⟨.modified, h⟩
    · exact ⟨.deleted, h⟩
  · rintro ⟨cls, h⟩
    cases cls with
    | added => exact Or.inl (Or.inl h)
    | modified => exact Or.inl (Or.inr h)
    | deleted => exact Or.inr h

/-- The identities of a log are those of its three sets. -/
theorem mem_scope {log : ChangeLog α} {id : ItemId} :
    id ∈ log.scope ↔ ∃ cls, id ∈ (log.itemsOf cls).keys := by
  simp only [scope, List.mem_append]
  constructor
  · rintro ((h | h) | h)
    · exact ⟨.added, h⟩
    · exact ⟨.modified, h⟩
    · exact ⟨.deleted, h⟩
  · rintro ⟨cls, h⟩
    cases cls with
    | added => exact Or.inl (Or.inl h)
    | modified => exact Or.inl (Or.inr h)
    | deleted => exact Or.inr h

/-- An item was added if its identity is a key of the added set. -/
theorem isAdded_eq_true {log : ChangeLog α} {id : ItemId} :
    log.isAdded id = true ↔ id ∈ (log.itemsOf .added).keys :=
  OrderedMap.contains_eq_true

/-- An item was modified if its identity is a key of the modified set. -/
theorem isModified_eq_true {log : ChangeLog α} {id : ItemId} :
    log.isModified id = true ↔ id ∈ (log.itemsOf .modified).keys :=
  OrderedMap.contains_eq_true

/-- An item was deleted if its identity is a key of the deleted set. -/
theorem isDeleted_eq_true {log : ChangeLog α} {id : ItemId} :
    log.isDeleted id = true ↔ id ∈ (log.itemsOf .deleted).keys :=
  OrderedMap.contains_eq_true

/-- What recording makes of the collections of a log. -/
structure WellFormed [Tracked α] (log : ChangeLog α) : Prop where
  /-- Every state stands under its own identity. -/
  itemId_eq : ∀ cls {id a}, (log.itemsOf cls).get? id = some a → Tracked.itemId a = id
  /-- No identity is in two sets. -/
  class_eq : ∀ {id} cls cls', id ∈ (log.itemsOf cls).keys → id ∈ (log.itemsOf cls').keys →
    cls = cls'
  /-- Every reference record stands under its target. -/
  target_eq : ∀ {target r}, log.references.get? target = some r → r.target = target

section Recording

variable [Tracked α]

/-- A new log is well formed. -/
theorem wellFormed_new (target : ItemId) : (new target : ChangeLog α).WellFormed where
  itemId_eq cls id a h := by cases cls <;> cases h
  class_eq cls cls' h := by cases cls <;> cases h
  target_eq h := by cases h

/-- A set whose entries are those of another one under their own identities. -/
theorem WellFormed.restrict {log log' : ChangeLog α} (hlog : log.WellFormed)
    (hitems : ∀ cls id a, (log'.itemsOf cls).get? id = some a → (log.itemsOf cls).get? id = some a)
    (hrefs : ∀ t r, log'.references.get? t = some r → log.references.get? t = some r) :
    log'.WellFormed where
  itemId_eq _ _ _ h := hlog.itemId_eq _ (hitems _ _ _ h)
  class_eq _ _ h h' := by
    obtain ⟨a, ha⟩ := OrderedMap.mem_keys_iff.1 h
    obtain ⟨b, hb⟩ := OrderedMap.mem_keys_iff.1 h'
    exact hlog.class_eq _ _ (OrderedMap.mem_keys_iff.2 ⟨a, hitems _ _ _ ha⟩)
      (OrderedMap.mem_keys_iff.2 ⟨b, hitems _ _ _ hb⟩)
  target_eq h := hlog.target_eq (hrefs _ _ h)

/-- A state put into a set keeps a log well-formed if its identity is in no other set. -/
theorem WellFormed.insert {log log' : ChangeLog α} (hlog : log.WellFormed) (cls : Class) {a : α}
    (hother : ∀ cls', cls' ≠ cls → Tracked.itemId a ∉ (log.itemsOf cls').keys)
    (hitems : ∀ cls', log'.itemsOf cls' =
      if cls' = cls then (log.itemsOf cls).insert (Tracked.itemId a) a else log.itemsOf cls')
    (hrefs : log'.references = log.references) : log'.WellFormed where
  itemId_eq cls' id b h := by
    rw [hitems] at h
    split at h
    · rw [OrderedMap.get?_insert] at h
      split at h
      · next hid => cases h; exact hid.symm
      · exact hlog.itemId_eq _ h
    · exact hlog.itemId_eq _ h
  class_eq c c' h h' := by
    rw [hitems] at h h'
    by_cases hc : c = cls <;> by_cases hc' : c' = cls <;>
      simp only [hc, hc', if_true, if_false, OrderedMap.mem_keys_insert] at h h' ⊢
    · rcases h with h | rfl
      · exact (hc' (hlog.class_eq _ _ h' h)).elim
      · exact (hother c' hc' h').elim
    · rcases h' with h' | rfl
      · exact (hc (hlog.class_eq _ _ h h')).elim
      · exact (hother c hc h).elim
    · exact hlog.class_eq _ _ h h'
  target_eq h := hlog.target_eq (hrefs ▸ h)

/-- An identity in one set is in none of the other ones. -/
theorem not_mem_keys_of_other (cls cls' : Class) {log : ChangeLog α} (hlog : log.WellFormed)
    {id : ItemId} (h : id ∈ (log.itemsOf cls).keys) (hne : cls' ≠ cls) :
    id ∉ (log.itemsOf cls').keys :=
  fun h' => hne (hlog.class_eq _ _ h' h)

/-- A state in a set stands under its own identity. -/
theorem WellFormed.mem_keys {log : ChangeLog α} (hlog : log.WellFormed) {cls : Class} {a : α}
    (h : a ∈ (log.itemsOf cls).values) : Tracked.itemId a ∈ (log.itemsOf cls).keys := by
  obtain ⟨id, hget⟩ := OrderedMap.mem_values.1 h
  rw [hlog.itemId_eq cls hget]
  exact OrderedMap.mem_keys_iff.2 ⟨a, hget⟩

/-- Each identity in a set has its state there. -/
theorem WellFormed.exists_of_mem_keys {log : ChangeLog α} (hlog : log.WellFormed) (cls : Class)
    {id : ItemId} (h : id ∈ (log.itemsOf cls).keys) :
    ∃ a ∈ (log.itemsOf cls).values, Tracked.itemId a = id := by
  obtain ⟨a, hget⟩ := OrderedMap.mem_keys_iff.1 h
  exact ⟨a, OrderedMap.mem_values.2 ⟨id, hget⟩, hlog.itemId_eq cls hget⟩

/-- A record stands under its target. -/
theorem WellFormed.get?_references {log : ChangeLog α} (hlog : log.WellFormed) {r : NodeReferences}
    (h : r ∈ log.references.values) : log.references.get? r.target = some r := by
  obtain ⟨target, hget⟩ := OrderedMap.mem_values.1 h
  rw [hlog.target_eq hget, hget]

/-- The targets of the records are their keys. -/
theorem WellFormed.map_target_values {log : ChangeLog α} (hlog : log.WellFormed) :
    log.references.values.map NodeReferences.target = log.references.keys := by
  simp only [OrderedMap.values, OrderedMap.keys, List.map_map]
  exact List.map_congr_left fun e he => hlog.target_eq (OrderedMap.get?_eq_some.2 he)

/-- No two chosen reference records have one target. -/
theorem WellFormed.nodup_targets {log : ChangeLog α} (hlog : log.WellFormed)
    (chosen : NodeReferences → Bool) :
    ((log.references.values.filter chosen).map NodeReferences.target).Nodup := by
  refine List.Nodup.sublist (List.filter_sublist.map _) ?_
  rw [hlog.map_target_values]
  exact log.references.nodup_keys

/-- No identity comes twice, as it is in one of the three sets only. -/
theorem WellFormed.nodup_scope {log : ChangeLog α} (hlog : log.WellFormed) : log.scope.Nodup := by
  have hdisjoint : ∀ cls cls' : Class, cls ≠ cls' → ∀ id ∈ (log.itemsOf cls).keys,
      ∀ id' ∈ (log.itemsOf cls').keys, id ≠ id' := by
    rintro cls cls' hne id hid _ hid' rfl
    exact hne (hlog.class_eq _ _ hid hid')
  rw [scope, List.append_assoc, List.nodup_append, List.nodup_append]
  refine ⟨log.addedItems.nodup_keys, ⟨log.modifiedItems.nodup_keys, log.deletedItems.nodup_keys,
    hdisjoint .modified .deleted (by decide)⟩, fun id hid id' hid' => ?_⟩
  rcases List.mem_append.1 hid' with h | h
  · exact hdisjoint .added .modified (by decide) id hid id' h
  · exact hdisjoint .added .deleted (by decide) id hid id' h

/-- The identities of the states in a set are its keys. -/
theorem WellFormed.map_itemId_values {log : ChangeLog α} (hlog : log.WellFormed) (cls : Class) :
    (log.itemsOf cls).values.map Tracked.itemId = (log.itemsOf cls).keys := by
  simp only [OrderedMap.values, OrderedMap.keys, List.map_map]
  exact List.map_congr_left fun e he => hlog.itemId_eq _ (OrderedMap.get?_eq_some.2 he)

/-- The identities of all states are those of the log. -/
theorem WellFormed.map_itemId_states {log : ChangeLog α} (hlog : log.WellFormed) :
    log.states.map Tracked.itemId = log.scope := by
  simp only [states, scope, List.map_append]
  exact congrArg₂ (· ++ ·) (congrArg₂ (· ++ ·) (hlog.map_itemId_values .added)
    (hlog.map_itemId_values .modified)) (hlog.map_itemId_values .deleted)

/-- Adding keeps a log well formed. -/
theorem WellFormed.added {log : ChangeLog α} (hlog : log.WellFormed) (a : α) :
    (log.added a).WellFormed := by
  unfold ChangeLog.added
  simp only [Bool.or_eq_true, isDeleted_eq_true, isModified_eq_true]
  split
  · next h =>
    -- the identity leaves the deleted set before it enters the modified one
    have herased : WellFormed { log with
        deletedItems := log.deletedItems.erase (Tracked.itemId a) } := by
      refine hlog.restrict (fun cls id b hb => ?_) fun _ _ hr => hr
      cases cls with
      | deleted =>
        simp only [itemsOf, OrderedMap.get?_erase] at hb ⊢
        split at hb
        · cases hb
        · exact hb
      | _ => exact hb
    refine herased.insert .modified (fun cls hne => ?_) (fun cls => by cases cls <;> rfl) rfl
    cases cls with
    | added =>
      rcases h with h | h
      · exact not_mem_keys_of_other .deleted .added hlog h (by decide)
      · exact not_mem_keys_of_other .modified .added hlog h (by decide)
    | modified => exact absurd rfl hne
    | deleted => exact fun hd => (OrderedMap.mem_keys_erase.1 hd).2 rfl
  · next h =>
    refine hlog.insert .added (fun cls hne => ?_) (fun cls => by cases cls <;> rfl) rfl
    cases cls with
    | added => exact absurd rfl hne
    | modified => exact fun hm => h (Or.inr hm)
    | deleted => exact fun hd => h (Or.inl hd)

/-- Modifying keeps a log well formed. -/
theorem WellFormed.modified {log : ChangeLog α} (hlog : log.WellFormed) (a : α) :
    (log.modified a).WellFormed := by
  unfold ChangeLog.modified
  simp only [Bool.or_eq_true, isAdded_eq_true, isDeleted_eq_true]
  split
  · exact hlog
  · next h =>
    refine hlog.insert .modified (fun cls hne => ?_) (fun cls => by cases cls <;> rfl) rfl
    cases cls with
    | added => exact fun ha => h (Or.inl ha)
    | modified => exact absurd rfl hne
    | deleted => exact fun hd => h (Or.inr hd)

/-- Deleting keeps a log well formed. -/
theorem WellFormed.deleted {log : ChangeLog α} (hlog : log.WellFormed) (a : α) :
    (log.deleted a).WellFormed := by
  have herase : ∀ {m : OrderedMap ItemId α} {id k b}, (m.erase k).get? id = some b →
      m.get? id = some b := by
    intro m id k b hb
    rw [OrderedMap.get?_erase] at hb
    split at hb
    · cases hb
    · exact hb
  unfold ChangeLog.deleted
  simp only [isAdded_eq_true]
  split
  · refine hlog.restrict (fun cls id b hb => ?_) fun _ _ hr => hr
    cases cls with
    | added => exact herase hb
    | _ => exact hb
  · next h =>
    have herased : WellFormed { log with
        modifiedItems := log.modifiedItems.erase (Tracked.itemId a) } := by
      refine hlog.restrict (fun cls id b hb => ?_) fun _ _ hr => hr
      cases cls with
      | modified => exact herase hb
      | _ => exact hb
    refine herased.insert .deleted (fun cls hne => ?_) (fun cls => by cases cls <;> rfl) rfl
    cases cls with
    | added => exact h
    | modified => exact fun hm => (OrderedMap.mem_keys_erase.1 hm).2 rfl
    | deleted => exact absurd rfl hne

/-- Recording a state in any set keeps a log well formed. -/
theorem WellFormed.record {log : ChangeLog α} (hlog : log.WellFormed) (cls : Class) (a : α) :
    (log.record cls a).WellFormed := by
  cases cls with
  | added => exact hlog.added a
  | modified => exact hlog.modified a
  | deleted => exact hlog.deleted a

/-- Recording an item brings in no other state than its own. -/
theorem mem_states_record {log : ChangeLog α} (cls : Class) {a k : α}
    (h : k ∈ (log.record cls a).states) : k = a ∨ k ∈ log.states := by
  obtain ⟨cls', hcls⟩ := mem_states.1 h
  obtain ⟨id, hget⟩ := OrderedMap.mem_values.1 hcls
  suffices hold : k = a ∨ (log.itemsOf cls').get? id = some k from
    hold.imp_right fun hget => mem_states.2 ⟨cls', OrderedMap.mem_values.2 ⟨id, hget⟩⟩
  -- a set gets the new state under its identity, or loses what is there
  have hinsert : ∀ {m : OrderedMap ItemId α}, (m.insert (Tracked.itemId a) a).get? id = some k →
      k = a ∨ m.get? id = some k := by
    intro m hm
    rw [OrderedMap.get?_insert] at hm
    split at hm
    · cases hm; exact Or.inl rfl
    · exact Or.inr hm
  have herase : ∀ {m : OrderedMap ItemId α}, (m.erase (Tracked.itemId a)).get? id = some k →
      k = a ∨ m.get? id = some k := by
    intro m hm
    rw [OrderedMap.get?_erase] at hm
    split at hm
    · cases hm
    · exact Or.inr hm
  cases cls with
  | added =>
    simp only [ChangeLog.record, ChangeLog.added] at hget
    split at hget
    · cases cls' with
      | added => exact Or.inr hget
      | modified => exact hinsert hget
      | deleted => exact herase hget
    · cases cls' with
      | added => exact hinsert hget
      | _ => exact Or.inr hget
  | modified =>
    simp only [ChangeLog.record, ChangeLog.modified] at hget
    split at hget
    · exact Or.inr hget
    · cases cls' with
      | modified => exact hinsert hget
      | _ => exact Or.inr hget
  | deleted =>
    simp only [ChangeLog.record, ChangeLog.deleted] at hget
    split at hget
    · cases cls' with
      | added => exact herase hget
      | _ => exact Or.inr hget
    · cases cls' with
      | added => exact Or.inr hget
      | modified => exact herase hget
      | deleted => exact hinsert hget

/-- An identity that no set has yet enters the set it is recorded in, at the end. -/
theorem itemsOf_record {log : ChangeLog α} {a : α}
    (hfresh : ∀ cls, Tracked.itemId a ∉ (log.itemsOf cls).keys) (cls cls' : Class) :
    (log.record cls a).itemsOf cls' =
      if cls' = cls then (log.itemsOf cls).insert (Tracked.itemId a) a else log.itemsOf cls' := by
  have ha : ¬log.isAdded (Tracked.itemId a) = true := fun h => hfresh .added (isAdded_eq_true.1 h)
  have hm : ¬log.isModified (Tracked.itemId a) = true :=
    fun h => hfresh .modified (isModified_eq_true.1 h)
  have hd : ¬log.isDeleted (Tracked.itemId a) = true :=
    fun h => hfresh .deleted (isDeleted_eq_true.1 h)
  cases cls <;>
    simp only [ChangeLog.record, ChangeLog.added, ChangeLog.modified, ChangeLog.deleted, ha, hm, hd,
      Bool.or_self]
  case deleted =>
    cases cls' with
    | modified => exact OrderedMap.erase_of_not_mem (hfresh .modified)
    | _ => rfl
  all_goals cases cls' <;> rfl

/-- Recording a state leaves the reference records. -/
@[simp] theorem references_record (log : ChangeLog α) (cls : Class) (a : α) :
    (log.record cls a).references = log.references := by
  cases cls <;> simp only [ChangeLog.record, ChangeLog.added, ChangeLog.modified, ChangeLog.deleted]
    <;> split <;> rfl

/-- Recording references keeps a log well formed. -/
theorem WellFormed.modifiedReferences {log : ChangeLog α} (hlog : log.WellFormed)
    (r : NodeReferences) : (log.modifiedReferences r).WellFormed where
  itemId_eq cls _ _ h := hlog.itemId_eq cls (by cases cls <;> exact h)
  class_eq c c' h h' := hlog.class_eq c c' (by cases c <;> exact h)
    (by cases c' <;> exact h')
  target_eq h := by
    simp only [ChangeLog.modifiedReferences, OrderedMap.get?_insert] at h
    split at h
    · next ht => cases h; exact ht.symm
    · exact hlog.target_eq h

/-- Recording an operation keeps a log well formed. -/
theorem WellFormed.addOperation {log : ChangeLog α} (hlog : log.WellFormed) (o : Operation) :
    (log.addOperation o).2.WellFormed := by
  unfold ChangeLog.addOperation
  split
  · exact hlog
  · exact hlog.restrict (fun cls _ _ h => by cases cls <;> exact h) fun _ _ h => h

/-- Removing another log keeps a log well formed. -/
theorem WellFormed.removeAll {log : ChangeLog α} (hlog : log.WellFormed) (sub : ChangeLog β) :
    (log.removeAll sub).WellFormed := by
  refine hlog.restrict (fun cls id a h => ?_) fun t r h => ?_
  · cases cls <;>
    · simp only [itemsOf, ChangeLog.removeAll, OrderedMap.get?_foldl_erase] at h
      split at h
      · cases h
      · exact h
  · simp only [ChangeLog.removeAll, OrderedMap.get?_foldl_erase] at h
    split at h
    · cases h
    · exact h

end Recording

/-- Mapping states maps each set. -/
theorem itemsOf_mapStates (f : α → β) (log : ChangeLog α) (cls : Class) :
    (log.mapStates f).itemsOf cls = (log.itemsOf cls).map fun _ => f := by
  cases cls <;> rfl

/-- Mapping states maps the states of each set, in their order. -/
theorem values_mapStates (f : α → β) (log : ChangeLog α) (cls : Class) :
    ((log.mapStates f).itemsOf cls).values = (log.itemsOf cls).values.map f := by
  rw [itemsOf_mapStates]
  simp [OrderedMap.values, OrderedMap.map, Function.comp_def]

/-- Mapping states maps all states, in their order. -/
theorem states_mapStates (f : α → β) (log : ChangeLog α) :
    (log.mapStates f).states = log.states.map f := by
  simp [states, mapStates, OrderedMap.values, OrderedMap.map, Function.comp_def]

/-- A new state that looks like the old one does not change what a log is seen as. -/
theorem mapStates_setItems {f : α → β} {log : ChangeLog α} {cls : Class} {id : ItemId} {a b : α}
    (h : (log.itemsOf cls).get? id = some a) (hf : f b = f a) :
    (log.setItems ((log.itemsOf cls).insert id b) cls).mapStates f = log.mapStates f := by
  have hmap := OrderedMap.map_insert_of_eq (f := fun _ => f) h hf
  cases cls <;> simp only [setItems, mapStates, itemsOf] at hmap ⊢ <;> rw [hmap]

/-- Changing states in place keeps a log well-formed if it leaves their identities alone. -/
theorem WellFormed.mapStates [Tracked α] [Tracked β] {log : ChangeLog α} (hlog : log.WellFormed)
    {f : α → β} (hf : ∀ a, Tracked.itemId (f a) = Tracked.itemId a) :
    (log.mapStates f).WellFormed where
  itemId_eq cls id b h := by
    rw [itemsOf_mapStates, OrderedMap.get?_map] at h
    obtain ⟨a, ha, rfl⟩ := Option.map_eq_some_iff.1 h
    exact (hf a).trans (hlog.itemId_eq _ ha)
  class_eq c c' h h' := by
    rw [itemsOf_mapStates, OrderedMap.keys_map] at h h'
    exact hlog.class_eq c c' h h'
  target_eq h := hlog.target_eq h

/-- A log is well formed if its states are mapped to those of a well formed one, with their identities.
-/
theorem WellFormed.of_mapStates [Tracked α] [Tracked β] {log : ChangeLog α} {f : α → β}
    (hlog : (log.mapStates f).WellFormed) (hf : ∀ a, Tracked.itemId (f a) = Tracked.itemId a) :
    log.WellFormed where
  itemId_eq cls id a h := by
    refine (hf a).symm.trans (hlog.itemId_eq cls ?_)
    rw [itemsOf_mapStates, OrderedMap.get?_map, h]
    rfl
  class_eq c c' h h' := by
    have hkeys : ∀ cls, ((log.mapStates f).itemsOf cls).keys = (log.itemsOf cls).keys := by
      intro cls
      rw [itemsOf_mapStates, OrderedMap.keys_map]
    exact hlog.class_eq c c' (hkeys c ▸ h) (hkeys c' ▸ h')
  target_eq h := hlog.target_eq h

end ChangeLog

end ContentTree
