import ContentTree.Proofs.ChangeLog
import Mathlib.Data.List.Induction

/-!
# How a change log classifies items

Which set an item is in depends only on the calls that concern it: an automaton with a state for each set
tells it after every sequence of calls. A set lists its items in the order in which they last came in, and
one that is recorded again while it is in keeps its place (`Call.classified`).
-/

namespace ContentTree

/-! ## Orders that change at their end -/

/-- A list of which some elements are gone, and to whose end at most one has come. -/
def Shifted {κ : Type} [DecidableEq κ] (old new : List κ) : Prop :=
  ∃ last : List κ, new = old.filter (· ∈ new) ++ last ∧ last.length ≤ 1

namespace OrderedMap

variable {κ ν : Type} [DecidableEq κ]

/-- A filter keeps the order. -/
theorem shifted_filter (l : List κ) (p : κ → Bool) : Shifted l (l.filter p) := by
  refine ⟨[], ?_, Nat.zero_le 1⟩
  rw [List.append_nil]
  refine List.filter_congr fun a ha => ?_
  simp only [List.mem_filter, ha, true_and, Bool.decide_eq_true]

/-- Nothing moves where nothing changes. -/
theorem shifted_refl (l : List κ) : Shifted l l := by
  have h := shifted_filter l fun _ => true
  rwa [List.filter_true] at h

/-- Inserting keeps the keys in their order and adds at most one at the end. -/
theorem shifted_insert (m : OrderedMap κ ν) (k : κ) (v : ν) : Shifted m.keys (m.insert k v).keys := by
  rw [keys_insert]
  split
  · exact shifted_refl m.keys
  · refine ⟨[k], congrArg (· ++ [k]) ?_, Nat.le_refl 1⟩
    exact (List.filter_eq_self.2 fun a ha => decide_eq_true (List.mem_append_left _ ha)).symm

/-- Erasing keeps the order of the other keys. -/
theorem shifted_erase (m : OrderedMap κ ν) (k : κ) : Shifted m.keys (m.erase k).keys := by
  rw [keys_erase]
  exact shifted_filter m.keys _

/-- Erasing several keys takes out exactly these. -/
theorem keys_foldl_erase (ks : List κ) (m : OrderedMap κ ν) :
    (ks.foldl erase m).keys = m.keys.filter (· ∉ ks) := by
  rw [keys, keys, entries_foldl_erase, List.filter_map]
  rfl

/-- Erasing several keys keeps the order of the other ones. -/
theorem shifted_foldl_erase (ks : List κ) (m : OrderedMap κ ν) :
    Shifted m.keys (ks.foldl erase m).keys := by
  rw [keys_foldl_erase]
  exact shifted_filter m.keys _

end OrderedMap

namespace ChangeLog

/-! ## Calls that name no item -/

section Unclassified

variable {α β : Type} (log : ChangeLog α)

/-- An operation leaves the three sets alone. -/
theorem itemsOf_addOperation (o : Operation) (cls : Class) :
    (log.addOperation o).2.itemsOf cls = log.itemsOf cls := by
  unfold addOperation
  split
  · rfl
  · cases cls <;> rfl

/-- Operations that are collected leave the three sets alone. -/
theorem itemsOf_collectOperations (candidates : List Operation) (cls : Class) :
    (log.collectOperations candidates).itemsOf cls = log.itemsOf cls := by
  unfold collectOperations
  refine List.foldlRecOn candidates _
    (motive := fun later : ChangeLog α => later.itemsOf cls = log.itemsOf cls) rfl fun later h o _ => ?_
  split
  · exact (itemsOf_addOperation later o cls).trans h
  · exact h

/-- Reference records leave the three sets alone. -/
theorem itemsOf_modifiedReferences (r : NodeReferences) (cls : Class) :
    (log.modifiedReferences r).itemsOf cls = log.itemsOf cls := by
  cases cls <;> rfl

/-- Removing another log erases its keys, set by set. -/
theorem itemsOf_removeAll (sub : ChangeLog β) (cls : Class) :
    (log.removeAll sub).itemsOf cls =
      (sub.itemsOf cls).keys.foldl OrderedMap.erase (log.itemsOf cls) := by
  cases cls <;> rfl

/-- After a reset the sets are empty. -/
theorem keys_itemsOf_reset (cls : Class) : (log.reset.itemsOf cls).keys = [] := by
  cases cls <;> rfl

end Unclassified

variable {α : Type}

/-- What can be asked of a log. -/
inductive Call (α : Type) : Type 1 where
  | added (state : α)
  | modified (state : α)
  | deleted (state : α)
  | addOperation (o : Operation)
  | collectOperations (candidates : List Operation)
  | modifiedReferences (r : NodeReferences)
  | removeAll {β : Type} (sub : ChangeLog β)
  | reset

namespace Call

variable [Tracked α]

/-- A log after a call. -/
def run (log : ChangeLog α) : Call α → ChangeLog α
  | added a => log.added a
  | modified a => log.modified a
  | deleted a => log.deleted a
  | addOperation o => (log.addOperation o).2
  | collectOperations candidates => log.collectOperations candidates
  | modifiedReferences r => log.modifiedReferences r
  | removeAll sub => log.removeAll sub
  | reset => log.reset

/-- The automaton of one item: the set it is in after a call, if any. -/
def next (id : ItemId) (cls : Option Class) : Call α → Option Class
  | added a =>
    if Tracked.itemId a = id then
      match cls with
      | none | some .added => some .added
      | some .modified | some .deleted => some .modified
    else cls
  | modified a =>
    if Tracked.itemId a = id then
      match cls with
      | none => some .modified
      | some c => some c
    else cls
  | deleted a =>
    if Tracked.itemId a = id then
      match cls with
      | some .added => none
      | none | some .modified | some .deleted => some .deleted
    else cls
  | removeAll sub => cls.filter fun c => !(sub.itemsOf c).contains id
  | reset => none
  | addOperation _ | collectOperations _ | modifiedReferences _ => cls

/-- The set that an item is in after a sequence of calls on a log without contents. -/
def classAfter (id : ItemId) (calls : List (Call α)) : Option Class :=
  calls.foldl (next id) none

/-- An item comes into a set by the call with this number. -/
def Enters (calls : List (Call α)) (cls : Class) (id : ItemId) (n : Nat) : Prop :=
  classAfter id (calls.take n) ≠ some cls ∧ classAfter id (calls.take (n + 1)) = some cls

/-- The call by which an item came into a set for the last time. -/
structure LastEntry (calls : List (Call α)) (cls : Class) (id : ItemId) (n : Nat) : Prop where
  enters : Enters calls cls id n
  last : ∀ m, n < m → ¬Enters calls cls id m

/-! ## One call -/

/-- A call takes items out of a set, or puts one to its end. -/
theorem shifted_run (log : ChangeLog α) (call : Call α) (cls : Class) :
    Shifted (log.itemsOf cls).keys ((call.run log).itemsOf cls).keys := by
  cases call with
  -- which branch is taken is decided by the other two sets, which are erased from as well
  | added a =>
    unfold run ChangeLog.added
    dsimp only
    split <;> cases cls
    · exact OrderedMap.shifted_refl _
    · exact OrderedMap.shifted_insert _ _ _
    · exact OrderedMap.shifted_erase _ _
    · exact OrderedMap.shifted_insert _ _ _
    · exact OrderedMap.shifted_refl _
    · exact OrderedMap.shifted_refl _
  | modified a =>
    unfold run ChangeLog.modified
    dsimp only
    split
    · exact OrderedMap.shifted_refl _
    · cases cls
      · exact OrderedMap.shifted_refl _
      · exact OrderedMap.shifted_insert _ _ _
      · exact OrderedMap.shifted_refl _
  | deleted a =>
    unfold run ChangeLog.deleted
    dsimp only
    split <;> cases cls
    · exact OrderedMap.shifted_erase _ _
    · exact OrderedMap.shifted_refl _
    · exact OrderedMap.shifted_refl _
    · exact OrderedMap.shifted_refl _
    · exact OrderedMap.shifted_erase _ _
    · exact OrderedMap.shifted_insert _ _ _
  | addOperation o =>
    rw [run, itemsOf_addOperation]
    exact OrderedMap.shifted_refl _
  | collectOperations candidates =>
    rw [run, itemsOf_collectOperations]
    exact OrderedMap.shifted_refl _
  | modifiedReferences r =>
    rw [run, itemsOf_modifiedReferences]
    exact OrderedMap.shifted_refl _
  | removeAll sub =>
    rw [run, itemsOf_removeAll]
    exact OrderedMap.shifted_foldl_erase _ _
  | reset =>
    rw [run, keys_itemsOf_reset]
    refine ⟨[], ?_, Nat.zero_le 1⟩
    simp

variable {state : ItemId → Option Class} {log : ChangeLog α}

/-- A call changes the sets as the automata of the items say. -/
theorem mem_keys_run (h : ∀ id cls, id ∈ (log.itemsOf cls).keys ↔ state id = some cls) (call : Call α)
    (id : ItemId) (cls : Class) :
    id ∈ ((call.run log).itemsOf cls).keys ↔ next id (state id) call = some cls := by
  -- the sets as the three calls test them
  have hadded : ∀ id, id ∈ log.addedItems.keys ↔ state id = some .added := (h · .added)
  have hmodified : ∀ id, id ∈ log.modifiedItems.keys ↔ state id = some .modified := (h · .modified)
  have hdeleted : ∀ id, id ∈ log.deletedItems.keys ↔ state id = some .deleted := (h · .deleted)
  cases call with
  | added a =>
    simp only [run, ChangeLog.added, next, Bool.or_eq_true, isDeleted, isModified,
      OrderedMap.contains_eq_true, hdeleted, hmodified]
    by_cases hid : Tracked.itemId a = id
    · subst hid
      rcases hs : state (Tracked.itemId a) with _ | (_ | _ | _) <;> cases cls <;>
        simp [itemsOf, OrderedMap.mem_keys_insert, OrderedMap.mem_keys_erase, hs, hadded, hmodified, hdeleted]
    · split <;> cases cls <;>
        simp [itemsOf, OrderedMap.mem_keys_insert, OrderedMap.mem_keys_erase, Ne.symm hid, hadded, hmodified,
          hdeleted]
  | modified a =>
    simp only [run, ChangeLog.modified, next, Bool.or_eq_true, isDeleted, isAdded,
      OrderedMap.contains_eq_true, hdeleted, hadded]
    by_cases hid : Tracked.itemId a = id
    · subst hid
      rcases hs : state (Tracked.itemId a) with _ | (_ | _ | _) <;> cases cls <;>
        simp [itemsOf, OrderedMap.mem_keys_insert, hs, hadded, hmodified, hdeleted]
    · split <;> cases cls <;>
        simp [itemsOf, OrderedMap.mem_keys_insert, Ne.symm hid, hadded, hmodified, hdeleted]
  | deleted a =>
    simp only [run, ChangeLog.deleted, next, isAdded, OrderedMap.contains_eq_true, hadded]
    by_cases hid : Tracked.itemId a = id
    · subst hid
      rcases hs : state (Tracked.itemId a) with _ | (_ | _ | _) <;> cases cls <;>
        simp [itemsOf, OrderedMap.mem_keys_insert, OrderedMap.mem_keys_erase, hs, hadded, hmodified, hdeleted]
    · split <;> cases cls <;>
        simp [itemsOf, OrderedMap.mem_keys_insert, OrderedMap.mem_keys_erase, Ne.symm hid, hadded, hmodified,
          hdeleted]
  | addOperation o =>
    rw [run, itemsOf_addOperation]
    exact h id cls
  | collectOperations candidates =>
    rw [run, itemsOf_collectOperations]
    exact h id cls
  | modifiedReferences r =>
    rw [run, itemsOf_modifiedReferences]
    exact h id cls
  | removeAll sub =>
    rw [run, itemsOf_removeAll, OrderedMap.keys_foldl_erase, List.mem_filter, h, next,
      Option.filter_eq_some_iff, decide_eq_true_eq, ← OrderedMap.contains_eq_true, Bool.not_eq_true',
      Bool.not_eq_true]
  | reset =>
    rw [run, keys_itemsOf_reset, next]
    simp

/-! ## Sequences of calls -/

variable {calls : List (Call α)} {cls : Class} {id : ItemId} {n : Nat}

/-- The class of an item after one more call. -/
theorem classAfter_concat (id : ItemId) (calls : List (Call α)) (call : Call α) :
    classAfter id (calls ++ [call]) = next id (classAfter id calls) call :=
  List.foldl_concat ..

/-- An item comes into a class by one of the calls. -/
theorem Enters.lt (h : Enters calls cls id n) : n < calls.length := by
  by_contra hle
  obtain ⟨hout, hin⟩ := h
  rw [List.take_of_length_le (by omega)] at hout hin
  exact hout hin

/-- An item comes in by a further call, or as it did without it. -/
theorem enters_concat (call : Call α) :
    Enters (calls ++ [call]) cls id n ↔
      Enters calls cls id n ∨ n = calls.length ∧ classAfter id calls ≠ some cls ∧
        next id (classAfter id calls) call = some cls := by
  have hbefore : n ≤ calls.length → (calls ++ [call]).take n = calls.take n :=
    List.take_append_of_le_length
  rcases Nat.lt_trichotomy n calls.length with hlt | rfl | hgt
  · rw [Enters, hbefore (Nat.le_of_lt hlt), List.take_append_of_le_length hlt]
    exact ⟨Or.inl, fun h => h.resolve_right fun hn => Nat.ne_of_lt hlt hn.1⟩
  · rw [Enters, hbefore (Nat.le_refl _), List.take_length, List.take_of_length_le (by simp),
      classAfter_concat]
    refine ⟨fun h => Or.inr ⟨rfl, h⟩, fun h => h.elim (fun hold => ?_) And.right⟩
    exact absurd hold.lt (Nat.lt_irrefl _)
  · refine ⟨fun h => ?_, fun h => h.elim (fun hold => ?_) fun hn => ?_⟩
    · have hlt := h.lt
      rw [List.length_append, List.length_singleton] at hlt
      omega
    · exact absurd hold.lt (by omega)
    · exact absurd hn.1 (by omega)

/-- An item that stays in a set has come in when it had. -/
theorem LastEntry.concat (h : LastEntry calls cls id n) (hin : classAfter id calls = some cls)
    (call : Call α) : LastEntry (calls ++ [call]) cls id n where
  enters := (enters_concat call).2 (Or.inl h.enters)
  last m hm hlater := by
    rcases (enters_concat call).1 hlater with hold | ⟨-, hout, -⟩
    · exact h.last m hm hold
    · exact hout hin

/-- A call by which an item comes into a class is the last one that did. -/
theorem lastEntry_concat {call : Call α} (hout : classAfter id calls ≠ some cls)
    (hin : next id (classAfter id calls) call = some cls) :
    LastEntry (calls ++ [call]) cls id calls.length where
  enters := (enters_concat call).2 (Or.inr ⟨rfl, hout, hin⟩)
  last m hm hlater := by
    have hlt := hlater.lt
    rw [List.length_append, List.length_singleton] at hlt
    omega

/-- What a sequence of calls makes of the three sets. -/
structure Classified (calls : List (Call α)) (log : ChangeLog α) : Prop where
  mem_keys_iff : ∀ id cls, id ∈ (log.itemsOf cls).keys ↔ classAfter id calls = some cls
  ordered : ∀ cls, ∃ entry : ItemId → Nat,
    (∀ id ∈ (log.itemsOf cls).keys, LastEntry calls cls id (entry id)) ∧
      (log.itemsOf cls).keys.Pairwise fun a b => entry a < entry b

/-- A new log classifies nothing, as no calls do. -/
theorem classified_new (target : ItemId) : Classified ([] : List (Call α)) (new target) := by
  have hkeys : ∀ cls, ((new target : ChangeLog α).itemsOf cls).keys = [] :=
    keys_itemsOf_reset (new target)
  refine ⟨fun id cls => ?_, fun cls => ⟨fun _ => 0, ?_⟩⟩
  · rw [hkeys, classAfter, List.foldl_nil]
    simp
  · rw [hkeys]
    exact ⟨List.forall_mem_nil _, .nil⟩

/-- One more call classifies as it is told to. -/
theorem Classified.step {log : ChangeLog α} (h : Classified calls log) (call : Call α) :
    Classified (calls ++ [call]) (call.run log) where
  mem_keys_iff id cls := by
    rw [classAfter_concat]
    exact mem_keys_run h.mem_keys_iff call id cls
  ordered cls := by
    obtain ⟨last, hkeys, hone⟩ := shifted_run log call cls
    obtain ⟨entry, hentry, hordered⟩ := h.ordered cls
    have hnodup : ((call.run log).itemsOf cls).keys.Nodup := ((call.run log).itemsOf cls).nodup_keys
    have hafter := fun id => mem_keys_run h.mem_keys_iff call id cls
    have hbefore := fun id => h.mem_keys_iff id cls
    generalize ((call.run log).itemsOf cls).keys = keys at hkeys hnodup hafter ⊢
    generalize (log.itemsOf cls).keys = old at hkeys hentry hordered hbefore
    -- what comes to the end was not in the set before
    have hnew : ∀ id ∈ last, id ∉ old := by
      intro id hid hold
      have hmem : id ∈ keys := hkeys ▸ List.mem_append_right _ hid
      rw [hkeys, List.nodup_append] at hnodup
      exact hnodup.2.2 id (List.mem_filter.2 ⟨hold, decide_eq_true hmem⟩) id hid rfl
    have hcome : ∀ id ∈ last, LastEntry (calls ++ [call]) cls id calls.length := by
      intro id hid
      refine lastEntry_concat (fun hin => hnew id hid ((hbefore id).2 hin)) ((hafter id).1 ?_)
      exact hkeys ▸ List.mem_append_right _ hid
    have hstay : ∀ id ∈ old, LastEntry (calls ++ [call]) cls id (entry id) :=
      fun id hid => (hentry id hid).concat ((hbefore id).1 hid) call
    refine ⟨fun id => if id ∈ old then entry id else calls.length, fun id hid => ?_, ?_⟩
    · dsimp only
      split
      · next hold => exact hstay id hold
      · next hold =>
        rw [hkeys, List.mem_append, List.mem_filter] at hid
        exact hcome id (hid.resolve_left fun hid => hold hid.1)
    · rw [hkeys, List.pairwise_append]
      refine ⟨?_, ?_, fun a ha b hb => ?_⟩
      · refine (hordered.filter _).imp_of_mem fun ha hb hlt => ?_
        dsimp only
        rw [if_pos (List.mem_of_mem_filter ha), if_pos (List.mem_of_mem_filter hb)]
        exact hlt
      · match last, hone with
        | [], _ => exact .nil
        | [b], _ => exact List.pairwise_singleton _ b
      · have hold := List.mem_of_mem_filter ha
        dsimp only
        rw [if_pos hold, if_neg (hnew b hb)]
        exact (hentry a hold).enters.lt

/-- **The three sets are disjoint, an item is in the set that its automaton tells, and a set lists its
items in the order in which they last came in**, after every sequence of calls. -/
theorem classified (target : ItemId) (calls : List (Call α)) :
    let log := calls.foldl run (new target)
    (∀ id cls cls', id ∈ (log.itemsOf cls).keys → id ∈ (log.itemsOf cls').keys → cls = cls') ∧
    (∀ id cls, id ∈ (log.itemsOf cls).keys ↔ classAfter id calls = some cls) ∧
    ∀ cls, ∃ entry : ItemId → Nat,
      (∀ id ∈ (log.itemsOf cls).keys, LastEntry calls cls id (entry id)) ∧
        (log.itemsOf cls).keys.Pairwise fun a b => entry a < entry b := by
  intro log
  have hlog : Classified calls log := by
    induction calls using List.reverseRecOn with
    | nil => exact classified_new target
    | append_singleton calls call ih =>
      have hlast : log = call.run (calls.foldl run (new target)) := List.foldl_concat ..
      rw [hlast]
      exact ih.step call
  refine ⟨fun id cls cls' hid hid' => ?_, hlog.mem_keys_iff, hlog.ordered⟩
  rw [hlog.mem_keys_iff] at hid hid'
  exact Option.some.inj (hid.symm.trans hid')

-- an item that is recorded again stays where it is, and one that was taken out in between comes last
example :
    let a : Handle := ⟨0, .node default⟩
    let b : Handle := ⟨1, .property ⟨default, default⟩⟩
    let keysAfter calls := ((List.foldl run (new a.id) calls).itemsOf .added).keys
    keysAfter [added a, added b, added a] = [a.id, b.id] ∧
      keysAfter [added a, added b, deleted a, added a] = [b.id, a.id] := by
  decide

end Call

end ChangeLog

end ContentTree
