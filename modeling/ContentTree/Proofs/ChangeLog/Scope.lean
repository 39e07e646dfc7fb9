import ContentTree.Proofs.ChangeLog.Classification

/-!
# Operations and the items of a log

The scope of a log is what its three sets hold. Operations that are collected from a stream are those that
affect something in scope, each number once, and they do not change the scope, so that no operation is
collected because of another. A log is self-contained if its operations affect nothing outside its scope
(`operations_in_scope`).
-/

namespace ContentTree.ChangeLog

variable {α : Type} {log : ChangeLog α} {candidates : List Operation} {chosen : Nat → Bool}

/-- The item is in one of the three sets. -/
def InScope (log : ChangeLog α) (id : ItemId) : Prop :=
  ∃ cls, id ∈ (log.itemsOf cls).keys

/-- The operation affects an item in scope. -/
def Touches (log : ChangeLog α) (o : Operation) : Prop :=
  ∃ id ∈ o.affected, log.InScope id

/-- Every item that the operation affects is in scope. -/
def Contains (log : ChangeLog α) (o : Operation) : Prop :=
  ∀ id ∈ o.affected, log.InScope id

/-- The elements at the chosen places, in their order. -/
def picked (chosen : Nat → Bool) (candidates : List Operation) : List Operation :=
  (candidates.zipIdx.filter fun c => chosen c.2).map Prod.fst

/-- The places of the candidates that touch the scope under a number that is neither recorded nor that of a
chosen candidate before. These conditions leave no choice. -/
def Chooses (log : ChangeLog α) (candidates : List Operation) (chosen : Nat → Bool) : Prop :=
  ∀ i o, candidates[i]? = some o → (chosen i = true ↔
    log.Touches o ∧ o.id ∉ log.operations.keys ∧
      ∀ j p, j < i → candidates[j]? = some p → chosen j = true → p.id ≠ o.id)

/-- What collecting operations makes of a log: the chosen ones stand behind those that were there. -/
structure Collected (log : ChangeLog α) (candidates : List Operation) (chosen : Nat → Bool)
    (log' : ChangeLog α) : Prop where
  chooses : log.Chooses candidates chosen
  outline : log' = { log with operations := log'.operations }
  entries : log'.operations.entries =
    log.operations.entries ++ (picked chosen candidates).map fun o => (o.id, o)

/-- The first operation that affects an item outside the scope, with the first such item. -/
def FirstOutside (log : ChangeLog α) (o : Operation) (id : ItemId) : Prop :=
  (∃ before after, log.operations.values = before ++ o :: after ∧ ∀ p ∈ before, log.Contains p) ∧
    ∃ front back, o.affected = front ++ id :: back ∧ (∀ k ∈ front, log.InScope k) ∧ ¬log.InScope id

/-! ## Places in a stream -/

/-- The picked operations are the candidates at chosen positions. -/
theorem mem_picked {o : Operation} :
    o ∈ picked chosen candidates ↔ ∃ i, candidates[i]? = some o ∧ chosen i = true := by
  simp only [picked, List.mem_map, List.mem_filter, Prod.exists, exists_eq_right,
    List.mem_zipIdx_iff_getElem?, exists_and_right]

/-- One more candidate is picked if its position is chosen. -/
theorem picked_concat (chosen : Nat → Bool) (candidates : List Operation) (o : Operation) :
    picked chosen (candidates ++ [o]) =
      if chosen candidates.length then picked chosen candidates ++ [o] else picked chosen candidates := by
  rw [picked, List.zipIdx_append, List.filter_append, List.map_append]
  by_cases h : chosen candidates.length = true
  · simp [picked, h]
  · simp [picked, h]

/-- Only positions of candidates matter. -/
theorem picked_congr {chosen' : Nat → Bool} (h : ∀ i, i < candidates.length → chosen' i = chosen i) :
    picked chosen' candidates = picked chosen candidates := by
  refine congrArg (List.map Prod.fst) (List.filter_congr fun c hc => ?_)
  have hplace : candidates[c.2]? = some c.1 := List.mem_zipIdx_iff_getElem?.1 hc
  exact h c.2 (List.getElem?_eq_some_iff.1 hplace).1

/-! ## Collecting -/

/-- The scope of a log holds the items in one of its sets. -/
theorem mem_scope_iff {id : ItemId} : id ∈ log.scope ↔ log.InScope id :=
  mem_scope

/-- An operation touches a log if some item that it affects is in scope. -/
theorem any_affected_iff {o : Operation} :
    o.affected.any (fun id => id ∈ log.scope) = true ↔ log.Touches o := by
  simp only [List.any_eq_true, decide_eq_true_eq, mem_scope_iff, Touches]

instance (log : ChangeLog α) (o : Operation) : Decidable (log.Touches o) :=
  decidable_of_iff _ any_affected_iff

/-- What an operation touches depends on the three sets only. -/
theorem touches_congr {log' : ChangeLog α} (h : ∀ cls, log'.itemsOf cls = log.itemsOf cls)
    (o : Operation) : log'.Touches o ↔ log.Touches o := by
  simp only [Touches, InScope, h]

/-- Nothing is recorded under a number that is taken. -/
theorem addOperation_of_mem {o : Operation} (h : o.id ∈ log.operations.keys) :
    (log.addOperation o).2 = log := by
  rw [addOperation, if_pos (OrderedMap.contains_eq_true.2 h)]

/-- An operation with a new number is recorded behind the other ones. -/
theorem addOperation_of_not_mem {o : Operation} (h : o.id ∉ log.operations.keys) :
    (log.addOperation o).2 = { log with operations := log.operations.insert o.id o } := by
  rw [addOperation, if_neg (mt OrderedMap.contains_eq_true.1 h)]

/-- One more candidate is taken if it touches the log. -/
theorem collectOperations_concat (log : ChangeLog α) (candidates : List Operation) (o : Operation) :
    log.collectOperations (candidates ++ [o]) =
      if log.Touches o then ((log.collectOperations candidates).addOperation o).2
      else log.collectOperations candidates := by
  simp only [collectOperations, List.foldl_append, List.foldl_cons, List.foldl_nil, any_affected_iff]

section Collected

variable {log' : ChangeLog α}

/-- Without candidates nothing is collected. -/
theorem collected_nil (log : ChangeLog α) : Collected log [] (fun _ => false) log where
  chooses i o h := by simp at h
  outline := rfl
  entries := (List.append_nil _).symm

/-- A number is recorded that was recorded before, or that a chosen candidate has. -/
theorem Collected.mem_keys_iff (h : Collected log candidates chosen log') {number : Nat} :
    number ∈ log'.operations.keys ↔ number ∈ log.operations.keys ∨
      ∃ j p, candidates[j]? = some p ∧ chosen j = true ∧ p.id = number := by
  have hkeys : log'.operations.keys =
      log.operations.keys ++ (picked chosen candidates).map Operation.id := by
    simp [OrderedMap.keys, h.entries, Function.comp_def]
  rw [hkeys, List.mem_append, List.mem_map]
  refine or_congr_right ⟨?_, ?_⟩
  · rintro ⟨p, hp, hid⟩
    obtain ⟨j, hplace, hj⟩ := mem_picked.1 hp
    exact ⟨j, p, hplace, hj, hid⟩
  · rintro ⟨j, p, hplace, hj, hid⟩
    exact ⟨p, mem_picked.2 ⟨j, hplace, hj⟩, hid⟩

/-- The choice for a stream with one more candidate, of which is known whether it is chosen. -/
def chosenWith (chosen : Nat → Bool) (place : Nat) (last : Bool) (i : Nat) : Bool :=
  if i = place then last else chosen i

/-- The choice for one more candidate, after those before it. -/
theorem Collected.chooses_concat (h : Collected log candidates chosen log') {o : Operation}
    {last : Bool} (hlast : last = true ↔ log.Touches o ∧ o.id ∉ log'.operations.keys) :
    log.Chooses (candidates ++ [o]) (chosenWith chosen candidates.length last) := by
  -- what was chosen before does not depend on the last candidate
  have hbefore : ∀ {i}, i < candidates.length →
      (candidates ++ [o])[i]? = candidates[i]? ∧
        chosenWith chosen candidates.length last i = chosen i := fun hi =>
    ⟨List.getElem?_append_left hi, if_neg (Nat.ne_of_lt hi)⟩
  intro i p hplace
  rcases Nat.lt_trichotomy i candidates.length with hi | rfl | hi
  · rw [(hbefore hi).1] at hplace
    rw [(hbefore hi).2, h.chooses i p hplace]
    refine and_congr_right fun _ => and_congr_right fun _ => ?_
    refine forall_congr' fun j => forall_congr' fun q => forall_congr' fun hj => ?_
    rw [(hbefore (Nat.lt_trans hj hi)).1, (hbefore (Nat.lt_trans hj hi)).2]
  · obtain rfl : o = p := by simpa using hplace
    have hchosen : chosenWith chosen candidates.length last candidates.length = last := if_pos rfl
    rw [hchosen, hlast, h.mem_keys_iff, not_or]
    refine and_congr_right fun _ => and_congr_right fun _ => ⟨?_, ?_⟩
    · intro hnone j q hj hq hjq hid
      rw [(hbefore hj).1] at hq
      rw [(hbefore hj).2] at hjq
      exact hnone ⟨j, q, hq, hjq, hid⟩
    · rintro hnone ⟨j, q, hq, hjq, hid⟩
      have hj : j < candidates.length := (List.getElem?_eq_some_iff.1 hq).1
      refine hnone j q hj ?_ ?_ hid
      · rwa [(hbefore hj).1]
      · rwa [(hbefore hj).2]
  · rw [List.getElem?_eq_none (by simp; omega)] at hplace
    cases hplace

/-- One more candidate is chosen if it touches the scope and its number is not recorded by then. -/
theorem Collected.concat (h : Collected log candidates chosen log') (o : Operation) :
    ∃ chosen', Collected log (candidates ++ [o]) chosen'
      (if log.Touches o then (log'.addOperation o).2 else log') := by
  have hpicked : ∀ last, picked (chosenWith chosen candidates.length last) (candidates ++ [o]) =
      if last then picked chosen candidates ++ [o] else picked chosen candidates := by
    intro last
    have hsame : picked (chosenWith chosen candidates.length last) candidates =
        picked chosen candidates :=
      picked_congr fun i hi => if_neg (Nat.ne_of_lt hi)
    rw [picked_concat, hsame, chosenWith, if_pos rfl]
  by_cases hlast : log.Touches o ∧ o.id ∉ log'.operations.keys
  · refine ⟨chosenWith chosen candidates.length true, h.chooses_concat (by simp [hlast]), ?_, ?_⟩
    · rw [if_pos hlast.1, addOperation_of_not_mem hlast.2, h.outline]
    · rw [hpicked, if_pos hlast.1, addOperation_of_not_mem hlast.2,
        OrderedMap.entries_insert_of_not_mem o hlast.2, h.entries]
      simp
  · have hsame : (if log.Touches o then (log'.addOperation o).2 else log') = log' := by
      split
      · next htouches => exact addOperation_of_mem (by_contra fun hnew => hlast ⟨htouches, hnew⟩)
      · rfl
    refine ⟨chosenWith chosen candidates.length false, h.chooses_concat (by simp [hlast]), ?_, ?_⟩
    · rw [hsame]
      exact h.outline
    · rw [hsame, hpicked, h.entries]
      rfl

/-- What collecting does is a choice among the candidates. -/
theorem exists_collected (log : ChangeLog α) (candidates : List Operation) :
    ∃ chosen, Collected log candidates chosen (log.collectOperations candidates) := by
  induction candidates using List.reverseRecOn with
  | nil => exact ⟨_, collected_nil log⟩
  | append_singleton candidates o ih =>
    obtain ⟨chosen, hcollected⟩ := ih
    rw [collectOperations_concat]
    exact hcollected.concat o

/-- Whatever touches the scope is recorded afterwards, under its number. -/
theorem Collected.mem_keys_of_touches (h : Collected log candidates chosen log') {o : Operation}
    (ho : o ∈ candidates) (htouches : log.Touches o) : o.id ∈ log'.operations.keys := by
  obtain ⟨i, hplace⟩ := List.mem_iff_getElem?.1 ho
  by_contra hnew
  rw [h.mem_keys_iff, not_or, not_exists] at hnew
  have hchosen : chosen i = true := by
    refine (h.chooses i o hplace).2 ⟨htouches, hnew.1, fun j p _ hp hj hid => ?_⟩
    exact hnew.2 j ⟨p, hp, hj, hid⟩
  exact hnew.2 i ⟨o, hplace, hchosen, rfl⟩

end Collected

/-- Candidates that are recorded already change nothing. -/
theorem collectOperations_of_recorded
    (h : ∀ o ∈ candidates, log.Touches o → o.id ∈ log.operations.keys) :
    log.collectOperations candidates = log := by
  induction candidates using List.reverseRecOn with
  | nil => rfl
  | append_singleton candidates o ih =>
    have hfirst := ih fun p hp => h p (List.mem_append_left _ hp)
    rw [collectOperations_concat, hfirst]
    split
    · next htouches => exact addOperation_of_mem (h o (by simp) htouches)
    · rfl

/-- Collecting the same candidates again changes nothing. -/
theorem collectOperations_collectOperations (log : ChangeLog α) (candidates : List Operation) :
    (log.collectOperations candidates).collectOperations candidates =
      log.collectOperations candidates := by
  obtain ⟨chosen, hcollected⟩ := exists_collected log candidates
  refine collectOperations_of_recorded fun o ho htouches => ?_
  rw [touches_congr (itemsOf_collectOperations log candidates)] at htouches
  exact hcollected.mem_keys_of_touches ho htouches

/-! ## Being self-contained -/

/-- The first affected item that is out of scope, and where it stands. -/
theorem find?_affected_eq_some_iff {o : Operation} {id : ItemId} :
    o.affected.find? (fun id => id ∉ log.scope) = some id ↔
      ∃ front back, o.affected = front ++ id :: back ∧ (∀ k ∈ front, log.InScope k) ∧
        ¬log.InScope id := by
  rw [List.find?_eq_some_iff_append]
  simp only [decide_eq_true_eq, Bool.not_eq_true', decide_eq_false_iff_not, not_not, mem_scope_iff]
  constructor
  · rintro ⟨hout, front, back, hsplit, hfront⟩
    exact ⟨front, back, hsplit, hfront, hout⟩
  · rintro ⟨front, back, hsplit, hfront, hout⟩
    exact ⟨hout, front, back, hsplit, hfront⟩

/-- An operation has no affected item out of scope if the log contains it. -/
theorem find?_affected_eq_none_iff {o : Operation} :
    o.affected.find? (fun id => id ∉ log.scope) = none ↔ log.Contains o := by
  simp only [List.find?_eq_none, decide_eq_true_eq, not_not, mem_scope_iff, Contains]

/-- The search for what is outside finds the first operation and its first item. -/
theorem outside?_eq_some_iff {o : Operation} {id : ItemId} :
    log.outside? = some (o, id) ↔ log.FirstOutside o id := by
  rw [outside?, List.findSome?_eq_some_iff]
  simp only [Option.map_eq_some_iff, Option.map_eq_none_iff, Prod.mk.injEq,
    find?_affected_eq_none_iff, FirstOutside]
  constructor
  · rintro ⟨before, p, after, hsplit, ⟨k, hk, rfl, rfl⟩, hbefore⟩
    exact ⟨⟨before, after, hsplit, hbefore⟩, find?_affected_eq_some_iff.1 hk⟩
  · rintro ⟨⟨before, after, hsplit, hbefore⟩, hk⟩
    exact ⟨before, o, after, hsplit, ⟨id, find?_affected_eq_some_iff.2 hk, rfl, rfl⟩, hbefore⟩

/-- Nothing is outside if all recorded operations are contained. -/
theorem outside?_eq_none_iff :
    log.outside? = none ↔ ∀ o ∈ log.operations.values, log.Contains o := by
  simp only [outside?, List.findSome?_eq_none_iff, Option.map_eq_none_iff, find?_affected_eq_none_iff]

/-- A log is self-contained if nothing is outside. -/
theorem checkSelfContained_eq_ok_iff :
    log.checkSelfContained = .ok () ↔ log.outside? = none := by
  rw [checkSelfContained]
  split <;> simp_all

/-- A log is refused for the first thing that is outside. -/
theorem checkSelfContained_eq_error_iff {e : Error} :
    log.checkSelfContained = .error e ↔ ∃ o id, log.outside? = some (o, id) ∧
      e = .constraintViolation (.notSelfContained o.id id) := by
  rw [checkSelfContained]
  split
  · next o id h =>
    simp only [h, Except.error.injEq, Option.some.injEq, Prod.mk.injEq]
    constructor
    · rintro rfl
      exact ⟨o, id, ⟨rfl, rfl⟩, rfl⟩
    · rintro ⟨o', id', ⟨rfl, rfl⟩, rfl⟩
      rfl
  · next h => simp [h]

/-- The wording names the operation and the item. -/
theorem message_notSelfContained (number : Nat) (id : ItemId) :
    (Error.constraintViolation (.notSelfContained number id)).message =
      "Constraint violation: " ++ ("change log is not self contained: Op(" ++ toString number ++
        ") also affects " ++ id.display) :=
  rfl

/-- **Operations are collected by the scope that a log has when it is asked**: those candidates are put
behind the recorded operations that touch the scope under a number not yet taken, nothing else changes, and
the same stream changes nothing a second time. A log is self-contained if all that its operations affect is in
scope; if not, the error tells the first operation that reaches out of it, and the first item that it reaches. -/
theorem operations_in_scope (log : ChangeLog α) (candidates : List Operation) :
    ((∃ chosen, Collected log candidates chosen (log.collectOperations candidates)) ∧
      (log.collectOperations candidates).collectOperations candidates =
        log.collectOperations candidates) ∧
    (log.checkSelfContained = .ok () ↔ ∀ o ∈ log.operations.values, log.Contains o) ∧
    ∀ e, log.checkSelfContained = .error e ↔ ∃ o id, log.FirstOutside o id ∧
      e = .constraintViolation (.notSelfContained o.id id) ∧
      e.message = "Constraint violation: " ++ ("change log is not self contained: Op(" ++
        toString o.id ++ ") also affects " ++ id.display) := by
  refine ⟨⟨exists_collected log candidates, collectOperations_collectOperations log candidates⟩,
    checkSelfContained_eq_ok_iff.trans outside?_eq_none_iff, fun e => ?_⟩
  rw [checkSelfContained_eq_error_iff]
  constructor
  · rintro ⟨o, id, hout, rfl⟩
    exact ⟨o, id, outside?_eq_some_iff.1 hout, rfl, message_notSelfContained o.id id⟩
  · rintro ⟨o, id, hout, he, -⟩
    exact ⟨o, id, outside?_eq_some_iff.2 hout, he⟩

end ContentTree.ChangeLog
