import ContentTree.Proofs.ChangeLog.Classification

/-!
# Taking one log out of another

What another log holds is taken out key by key, in each of the five collections for itself. What remains of a
collection is what the other log does not have in the same collection, in its order and with its values
(`removeAll_without`), so that taking logs out obeys the laws of a set difference.
-/

namespace ContentTree

namespace OrderedMap

variable {κ ν μ ρ : Type} [DecidableEq κ]

/-- The entries whose keys another map does not have, in their order. -/
def without (m : OrderedMap κ ν) (sub : OrderedMap κ μ) : OrderedMap κ ν :=
  m.filter fun k _ => !sub.contains k

/-- Erasing the keys of another map one by one takes them all out. -/
theorem foldl_erase_keys (m : OrderedMap κ ν) (sub : OrderedMap κ μ) :
    sub.keys.foldl erase m = m.without sub := by
  apply ext
  rw [entries_foldl_erase, without, filter]
  refine List.filter_congr fun e _ => ?_
  rw [Bool.eq_iff_iff, decide_eq_true_eq, Bool.not_eq_true', Bool.eq_false_iff, ne_eq, contains_eq_true]

/-- Taking the same keys out again changes nothing. -/
theorem without_without (m : OrderedMap κ ν) (sub : OrderedMap κ μ) :
    (m.without sub).without sub = m.without sub := by
  apply ext
  simp only [without, filter, List.filter_filter, Bool.and_self]

/-- The order in which keys are taken out does not matter. -/
theorem without_comm (m : OrderedMap κ ν) (a : OrderedMap κ μ) (b : OrderedMap κ ρ) :
    (m.without a).without b = (m.without b).without a := by
  apply ext
  simp only [without, filter, List.filter_filter, Bool.and_comm]

/-- Nothing is left if all keys are taken out. -/
theorem without_eq_empty_iff {m : OrderedMap κ ν} {sub : OrderedMap κ μ} :
    m.without sub = empty ↔ m.keys ⊆ sub.keys := by
  constructor
  · intro h k hk
    obtain ⟨e, he, rfl⟩ := List.mem_map.1 hk
    have hnone : m.entries.filter (fun e => !sub.contains e.1) = [] := congrArg entries h
    have hkept := List.filter_eq_nil_iff.1 hnone e he
    rw [← contains_eq_true]
    simpa using hkept
  · intro h
    refine ext (List.filter_eq_nil_iff.2 fun e he => ?_)
    have hsub : sub.contains e.1 = true := contains_eq_true.2 (h (key_mem he))
    simp [hsub]

end OrderedMap

namespace ChangeLog

variable {α β γ : Type}

/-- Logs with the same target and the same five collections are the same. -/
theorem ext_collections {log log' : ChangeLog α} (htarget : log.target = log'.target)
    (hitems : ∀ cls, log.itemsOf cls = log'.itemsOf cls) (hoperations : log.operations = log'.operations)
    (hreferences : log.references = log'.references) : log = log' := by
  have hadded : log.addedItems = log'.addedItems := hitems .added
  have hmodified : log.modifiedItems = log'.modifiedItems := hitems .modified
  have hdeleted : log.deletedItems = log'.deletedItems := hitems .deleted
  cases log
  cases log'
  simp_all

section

variable (log : ChangeLog α) (sub : ChangeLog β)

/-- Removing another log takes the keys of its sets out of the sets. -/
theorem itemsOf_removeAll_without (cls : Class) :
    (log.removeAll sub).itemsOf cls = (log.itemsOf cls).without (sub.itemsOf cls) := by
  rw [itemsOf_removeAll, OrderedMap.foldl_erase_keys]

/-- Removing another log takes its operations out. -/
theorem operations_removeAll :
    (log.removeAll sub).operations = log.operations.without sub.operations :=
  OrderedMap.foldl_erase_keys _ _

/-- Removing another log takes its reference records out. -/
theorem references_removeAll :
    (log.removeAll sub).references = log.references.without sub.references :=
  OrderedMap.foldl_erase_keys _ _

end

/-- Removing the same log again changes nothing. -/
theorem removeAll_removeAll (log : ChangeLog α) (sub : ChangeLog β) :
    (log.removeAll sub).removeAll sub = log.removeAll sub := by
  refine ext_collections rfl (fun cls => ?_) ?_ ?_
  · rw [itemsOf_removeAll_without, itemsOf_removeAll_without, OrderedMap.without_without]
  · rw [operations_removeAll, operations_removeAll, OrderedMap.without_without]
  · rw [references_removeAll, references_removeAll, OrderedMap.without_without]

/-- The order in which logs are removed does not matter. -/
theorem removeAll_comm (log : ChangeLog α) (sub : ChangeLog β) (other : ChangeLog γ) :
    (log.removeAll sub).removeAll other = (log.removeAll other).removeAll sub := by
  refine ext_collections rfl (fun cls => ?_) ?_ ?_
  · simp only [itemsOf_removeAll_without]
    exact OrderedMap.without_comm _ _ _
  · simp only [operations_removeAll]
    exact OrderedMap.without_comm _ _ _
  · simp only [references_removeAll]
    exact OrderedMap.without_comm _ _ _

/-- The other log holds everything that a log holds, in the same collection. -/
structure Covers (sub : ChangeLog β) (log : ChangeLog α) : Prop where
  items : ∀ cls, (log.itemsOf cls).keys ⊆ (sub.itemsOf cls).keys
  operations : log.operations.keys ⊆ sub.operations.keys
  references : log.references.keys ⊆ sub.references.keys

/-- Nothing is left if the removed log covers the other one. -/
theorem removeAll_eq_reset_iff {log : ChangeLog α} {sub : ChangeLog β} :
    log.removeAll sub = log.reset ↔ sub.Covers log := by
  have hempty : ∀ cls, log.reset.itemsOf cls = OrderedMap.empty := by
    intro cls
    cases cls <;> rfl
  constructor
  · intro h
    refine ⟨fun cls => ?_, ?_, ?_⟩
    · rw [← OrderedMap.without_eq_empty_iff, ← itemsOf_removeAll_without, h, hempty]
    · rw [← OrderedMap.without_eq_empty_iff, ← operations_removeAll, h]
      rfl
    · rw [← OrderedMap.without_eq_empty_iff, ← references_removeAll, h]
      rfl
  · intro h
    refine ext_collections rfl (fun cls => ?_) ?_ ?_
    · rw [itemsOf_removeAll_without, OrderedMap.without_eq_empty_iff.2 (h.items cls), hempty]
    · rw [operations_removeAll, OrderedMap.without_eq_empty_iff.2 h.operations]
      rfl
    · rw [references_removeAll, OrderedMap.without_eq_empty_iff.2 h.references]
      rfl

/-- **Taking out a log is a set difference in each collection.** Each of the five collections keeps the
entries whose keys are not in the same collection of the other log, with their values and in their order.
So taking a log out twice is taking it out once, two logs can be taken out in either order, and what is left
is a log without contents just if the other one holds the same keys, or more, in the same collections. -/
theorem removeAll_without (log : ChangeLog α) (sub : ChangeLog β) (other : ChangeLog γ) :
    let rest := log.removeAll sub
    (rest.target = log.target ∧
      (∀ cls, (rest.itemsOf cls).entries =
        (log.itemsOf cls).entries.filter fun e => !(sub.itemsOf cls).contains e.1) ∧
      rest.operations.entries = log.operations.entries.filter (fun e => !sub.operations.contains e.1) ∧
      rest.references.entries = log.references.entries.filter fun e => !sub.references.contains e.1) ∧
    rest.removeAll sub = rest ∧
    rest.removeAll other = (log.removeAll other).removeAll sub ∧
    (rest = log.reset ↔ sub.Covers log) := by
  intro rest
  refine ⟨⟨rfl, fun cls => ?_, ?_, ?_⟩, removeAll_removeAll log sub, removeAll_comm log sub other,
    removeAll_eq_reset_iff⟩
  · rw [itemsOf_removeAll_without]
    rfl
  · rw [operations_removeAll]
    rfl
  · rw [references_removeAll]
    rfl

end ChangeLog

end ContentTree
