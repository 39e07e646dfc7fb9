import ContentTree.Proofs.Collection.OrderedMap
import ContentTree.Proofs.Persistence.Entries
import Mathlib.Data.List.Induction
import Mathlib.Data.List.Sort

/-!
# Pending batches

A batch is outstanding if it is announced and nothing in the journal says what became of it; where a
number was announced more than once, the last announcement counts. Whatever the entries of a journal
are, the outstanding ones are what it has pending, in the order of their numbers (`allOutstanding_pending`).

The numbers of a journal that is only written by its own calls grow, so there no announcement takes the
place of another one (`mem_pending`).
-/

namespace ContentTree.JournalEntry

variable {e : JournalEntry} {es found : List JournalEntry}

/-- The entries that announce batches. -/
def announcements (es : List JournalEntry) : List JournalEntry :=
  es.filter fun e => e.status = .pending

/-- A mark announces nothing. -/
theorem announcements_concat_mark (es : List JournalEntry) {m : JournalEntry}
    (hm : m.status ≠ .pending) : announcements (es ++ [m]) = announcements es := by
  rw [announcements, List.filter_append, List.filter_cons_of_neg (by simpa using hm), List.filter_nil,
    List.append_nil]
  rfl

/-- An announcement comes behind the earlier ones. -/
theorem announcements_concat (es : List JournalEntry) (he : e.status = .pending) :
    announcements (es ++ [e]) = announcements es ++ [e] := by
  rw [announcements, List.filter_append, List.filter_cons_of_pos (by simpa using he), List.filter_nil]
  rfl

/-- The announcements are the pending entries among all. -/
theorem mem_announcements : e ∈ announcements es ↔ e ∈ es ∧ e.status = .pending := by
  rw [announcements, List.mem_filter, decide_eq_true_eq]

/-- What is kept under a number is replaced by what announces a batch under it. -/
theorem get?_announced_concat (es : List JournalEntry) (m : JournalEntry) (n : Nat) :
    (announced (es ++ [m])).get? n =
      if m.status = .pending ∧ m.seq = n then some m else (announced es).get? n := by
  have hfold : ∀ es, announced es =
      (announcements es).foldl (fun kept e => kept.insert e.seq e) .empty := fun _ => rfl
  by_cases hm : m.status = .pending
  · rw [hfold, hfold, announcements_concat es hm, List.foldl_concat, OrderedMap.get?_insert]
    simp only [hm, true_and, eq_comm]
  · rw [hfold, hfold, announcements_concat_mark es hm, if_neg fun h => hm h.1]

/-- A number is resolved if there is a mark with it. -/
theorem mem_resolved {seq : Nat} :
    seq ∈ resolved es ↔ ∃ m ∈ es, m.status ≠ .pending ∧ m.seq = seq := by
  simp only [resolved, List.mem_map, List.mem_filter, decide_eq_true_eq, and_assoc]

/-- An announcement resolves nothing. -/
theorem resolved_concat (es : List JournalEntry) (he : e.status = .pending) :
    resolved (es ++ [e]) = resolved es := by
  rw [resolved, List.filter_append, List.filter_cons_of_neg (by simpa using he), List.filter_nil,
    List.append_nil]
  rfl

/-- A mark resolves its number. -/
theorem resolved_concat_mark (es : List JournalEntry) {m : JournalEntry} (hm : m.status ≠ .pending) :
    resolved (es ++ [m]) = resolved es ++ [m.seq] := by
  rw [resolved, List.filter_append, List.filter_cons_of_pos (by simpa using hm), List.filter_nil,
    List.map_append, List.map_singleton]
  rfl

/-! ## Outstanding batches -/

/-- The batch is announced, and nothing says what became of it. -/
structure Unresolved (es : List JournalEntry) (e : JournalEntry) : Prop where
  mem : e ∈ es
  announces : e.status = .pending
  unmarked : ∀ m ∈ es, m.seq = e.seq → m.status = .pending

/-- An unresolved batch that was not announced anew under its number. -/
structure Outstanding (es : List JournalEntry) (e : JournalEntry) : Prop extends Unresolved es e where
  last : ∃ before after, es = before ++ e :: after ∧ ∀ a ∈ after, a.seq ≠ e.seq

/-- All outstanding entries, in the order of their numbers. -/
structure AllOutstanding (es found : List JournalEntry) : Prop where
  mem_iff : ∀ e, e ∈ found ↔ Outstanding es e
  sorted : found.Pairwise fun a b => a.seq < b.seq

/-- An entry stands last in a list that got one more, or it stood in the list before. -/
theorem exists_split_concat {m : JournalEntry} {P : List JournalEntry → Prop} :
    (∃ before after, es ++ [m] = before ++ e :: after ∧ P after) ↔
      e = m ∧ P [] ∨ ∃ before after, es = before ++ e :: after ∧ P (after ++ [m]) := by
  constructor
  · rintro ⟨before, after, hsplit, hafter⟩
    rcases List.eq_nil_or_concat after with rfl | ⟨after', x, hlast⟩
    · obtain ⟨-, heq⟩ := List.append_inj' hsplit rfl
      cases heq
      exact Or.inl ⟨rfl, hafter⟩
    · rw [List.concat_eq_append] at hlast
      subst hlast
      rw [← List.cons_append, ← List.append_assoc] at hsplit
      obtain ⟨rfl, heq⟩ := List.append_inj' hsplit rfl
      cases heq
      exact Or.inr ⟨before, after', rfl, hafter⟩
  · rintro (⟨rfl, hnil⟩ | ⟨before, after, rfl, hafter⟩)
    · exact ⟨es, [], rfl, hnil⟩
    · exact ⟨before, after ++ [m], by rw [List.append_assoc, List.cons_append], hafter⟩

/-- What is kept under a number is its last announcement. -/
theorem get?_announced {n : Nat} : (announced es).get? n = some e ↔ e.status = .pending ∧ e.seq = n ∧
    ∃ before after, es = before ++ e :: after ∧ ∀ a ∈ after, a.status = .pending → a.seq ≠ n := by
  induction es using List.reverseRecOn with
  | nil =>
    constructor
    · intro h
      cases h
    · rintro ⟨-, -, before, after, hsplit, -⟩
      exact absurd hsplit.symm (List.append_ne_nil_of_right_ne_nil _ (List.cons_ne_nil _ _))
  | append_singleton es m ih =>
    -- the last entry is the last announcement of its number, or tells nothing about it
    rw [exists_split_concat (P := fun after => ∀ a ∈ after, a.status = .pending → a.seq ≠ n),
      get?_announced_concat]
    by_cases hm : m.status = .pending ∧ m.seq = n
    · rw [if_pos hm, Option.some_inj]
      constructor
      · rintro rfl
        exact ⟨hm.1, hm.2, Or.inl ⟨rfl, List.forall_mem_nil _⟩⟩
      · rintro ⟨-, -, ⟨rfl, -⟩ | ⟨before, after, -, hafter⟩⟩
        · rfl
        · exact absurd hm.2 (hafter m (List.mem_append_right _ (List.mem_singleton.2 rfl)) hm.1)
    · rw [if_neg hm, ih]
      refine and_congr_right fun he => and_congr_right fun hseq => ?_
      constructor
      · rintro ⟨before, after, hsplit, hafter⟩
        refine Or.inr ⟨before, after, hsplit, fun a ha hpending heq => ?_⟩
        rcases List.mem_append.1 ha with ha | ha
        · exact hafter a ha hpending heq
        · rw [List.mem_singleton.1 ha] at hpending heq
          exact hm ⟨hpending, heq⟩
      · rintro (⟨rfl, -⟩ | ⟨before, after, hsplit, hafter⟩)
        · exact absurd ⟨he, hseq⟩ hm
        · exact ⟨before, after, hsplit, fun a ha => hafter a (List.mem_append_left _ ha)⟩

/-- An outstanding entry is kept under its number, and its number is not resolved. -/
theorem outstanding_iff :
    Outstanding es e ↔ (announced es).get? e.seq = some e ∧ e.seq ∉ resolved es := by
  rw [get?_announced, mem_resolved]
  constructor
  · rintro ⟨⟨-, he, hopen⟩, before, after, hsplit, hafter⟩
    exact ⟨⟨he, rfl, before, after, hsplit, fun a ha _ => hafter a ha⟩,
      fun ⟨m, hm, hmark, hseq⟩ => hmark (hopen m hm hseq)⟩
  · rintro ⟨⟨he, -, before, after, rfl, hafter⟩, hopen⟩
    have hunmarked : ∀ m ∈ before ++ e :: after, m.seq = e.seq → m.status = .pending := by
      intro m hm hseq
      by_contra hmark
      exact hopen ⟨m, hm, hmark, hseq⟩
    refine ⟨⟨List.mem_append_right _ (List.mem_cons_self ..), he, hunmarked⟩, before, after, rfl, ?_⟩
    intro a ha hseq
    have hmem : a ∈ before ++ e :: after := List.mem_append_right _ (List.mem_cons_of_mem e ha)
    exact hafter a ha (hunmarked a hmem hseq) hseq

/-- What is pending are the outstanding announcements. -/
theorem mem_pending_iff : e ∈ pending es ↔ Outstanding es e := by
  rw [pending, List.mem_mergeSort, List.mem_filter, OrderedMap.mem_values, decide_eq_true_eq,
    outstanding_iff]
  refine and_congr_left fun _ => ⟨fun ⟨n, hn⟩ => ?_, fun h => ⟨_, h⟩⟩
  rw [(get?_announced.1 hn).2.1]
  exact hn

/-- Entries that are kept under different numbers have different numbers. -/
theorem nodup_seqs_announced (es : List JournalEntry) :
    ((announced es).values.map JournalEntry.seq).Nodup := by
  have hseqs : (announced es).values.map JournalEntry.seq = (announced es).keys := by
    rw [OrderedMap.values, OrderedMap.keys, List.map_map]
    refine List.map_congr_left fun entry hentry => ?_
    exact (get?_announced.1 (OrderedMap.get?_eq_some.2 hentry)).2.1
  rw [hseqs]
  exact (announced es).nodup_keys

/-- Whatever the entries are, exactly the outstanding ones are pending, and their order is that of their
numbers. -/
theorem allOutstanding_pending (es : List JournalEntry) : AllOutstanding es (pending es) where
  mem_iff _ := mem_pending_iff
  sorted := by
    have hle : (pending es).Pairwise fun a b => a.seq ≤ b.seq := by
      have htrans (a b c : JournalEntry) (hab : decide (a.seq ≤ b.seq) = true)
          (hbc : decide (b.seq ≤ c.seq) = true) : decide (a.seq ≤ c.seq) = true :=
        decide_eq_true (Nat.le_trans (of_decide_eq_true hab) (of_decide_eq_true hbc))
      have htotal (a b : JournalEntry) : (decide (a.seq ≤ b.seq) || decide (b.seq ≤ a.seq)) = true := by
        simpa using Nat.le_total a.seq b.seq
      exact (List.pairwise_mergeSort htrans htotal _).imp of_decide_eq_true
    have hne : ((pending es).map JournalEntry.seq).Nodup := by
      refine ((List.mergeSort_perm _ _).map _).nodup_iff.2 ?_
      exact (nodup_seqs_announced es).sublist (List.filter_sublist.map _)
    refine (hle.and (List.pairwise_map.1 hne)).imp fun h => ?_
    exact Nat.lt_of_le_of_ne h.1 h.2

/-- There is only one list of all that is outstanding. -/
theorem AllOutstanding.eq_pending (h : AllOutstanding es found) : found = pending es := by
  have hanti : Std.Antisymm fun a b : JournalEntry => a.seq < b.seq :=
    ⟨fun _ _ hab hba => absurd hba (Nat.lt_asymm hab)⟩
  have hirrefl : Std.Irrefl fun a b : JournalEntry => a.seq < b.seq := ⟨fun _ => Nat.lt_irrefl _⟩
  exact h.sorted.eq_of_mem_iff (allOutstanding_pending es).sorted fun e =>
    (h.mem_iff e).trans mem_pending_iff.symm

/-- A mark takes its batch out of those that are pending. -/
theorem pending_concat_mark {m : JournalEntry} (es : List JournalEntry) (hm : m.status ≠ .pending) :
    pending (es ++ [m]) = (pending es).filter (·.seq ≠ m.seq) := by
  refine (AllOutstanding.eq_pending ⟨fun e => ?_, (allOutstanding_pending es).sorted.filter _⟩).symm
  rw [List.mem_filter, decide_eq_true_eq, mem_pending_iff, outstanding_iff, outstanding_iff,
    get?_announced_concat, if_neg fun h => hm h.1, resolved_concat_mark es hm, List.mem_append,
    List.mem_singleton, not_or, and_assoc]

/-- Marking the first pending batch leaves the other ones. -/
theorem pending_concat_first {m : JournalEntry} {rest : List JournalEntry} (h : pending es = e :: rest)
    (hm : m.status ≠ .pending) (hseq : m.seq = e.seq) : pending (es ++ [m]) = rest := by
  have hsorted := (allOutstanding_pending es).sorted
  rw [h] at hsorted
  rw [pending_concat_mark es hm, h, hseq, List.filter_cons_of_neg (by simp)]
  refine List.filter_eq_self.2 fun a ha => ?_
  have hlt := List.rel_of_pairwise_cons hsorted ha
  exact decide_eq_true (Nat.ne_of_gt hlt)

/-- A new batch comes behind those that are pending. -/
theorem pending_concat (he : e.status = .pending) (hnew : ∀ e' ∈ es, e'.seq < e.seq) :
    pending (es ++ [e]) = pending es ++ [e] := by
  have hlt : ∀ a ∈ pending es, a.seq < e.seq := fun a ha => hnew a (mem_pending_iff.1 ha).mem
  refine (AllOutstanding.eq_pending ⟨fun a => ?_, ?_⟩).symm
  · have hfresh : e.seq ∉ resolved es := fun hmark => by
      obtain ⟨m, hm, -, hseq⟩ := mem_resolved.1 hmark
      exact Nat.ne_of_lt (hnew m hm) hseq
    rw [outstanding_iff, get?_announced_concat, resolved_concat es he, List.mem_append,
      List.mem_singleton, mem_pending_iff, outstanding_iff]
    by_cases hseq : e.seq = a.seq
    · rw [if_pos ⟨he, hseq⟩, Option.some_inj]
      constructor
      · rintro (⟨hget, hopen⟩ | rfl)
        · have hlt := hnew a (outstanding_iff.2 ⟨hget, hopen⟩).mem
          omega
        · exact ⟨rfl, hfresh⟩
      · rintro ⟨rfl, -⟩
        exact Or.inr rfl
    · rw [if_neg fun h => hseq h.2]
      refine ⟨fun h => h.resolve_right fun heq => hseq (heq ▸ rfl), Or.inl⟩
  · refine List.pairwise_append.2 ⟨(allOutstanding_pending es).sorted, List.pairwise_singleton _ _,
      fun a ha b hb => ?_⟩
    rw [List.mem_singleton.1 hb]
    exact hlt a ha

/-- Entries of which nothing is pending change nothing for entries with higher numbers. -/
theorem pending_append_of_settled {old : List JournalEntry} (hold : pending old = [])
    (hlt : ∀ e ∈ old, ∀ e' ∈ es, e.seq < e'.seq) : pending (old ++ es) = pending es := by
  refine (AllOutstanding.eq_pending ⟨fun e => ?_, (allOutstanding_pending es).sorted⟩).symm
  rw [mem_pending_iff]
  constructor
  · intro h
    obtain ⟨before, after, rfl, hafter⟩ := h.last
    refine ⟨⟨List.mem_append_right _ h.mem, h.announces, fun m hm hseq => ?_⟩, old ++ before, after,
      (List.append_assoc ..).symm, hafter⟩
    rcases List.mem_append.1 hm with hm | hm
    · exact absurd hseq (Nat.ne_of_lt (hlt m hm e h.mem))
    · exact h.unmarked m hm hseq
  · intro h
    obtain ⟨before, after, hsplit, hafter⟩ := h.last
    rcases List.append_eq_append_iff.1 hsplit with ⟨front, -, rfl⟩ | ⟨back, rfl, hback⟩
    · exact ⟨⟨List.mem_append_right _ (List.mem_cons_self ..), h.announces,
        fun m hm => h.unmarked m (List.mem_append_right _ hm)⟩, front, after, rfl, hafter⟩
    cases back with
    | nil =>
      obtain rfl : e :: after = es := hback
      exact ⟨⟨List.mem_cons_self .., h.announces, fun m hm => h.unmarked m (List.mem_append_right _ hm)⟩,
        [], after, rfl, hafter⟩
    | cons e' back =>
      -- an announcement among the old entries would be outstanding there
      obtain ⟨rfl, rfl⟩ := List.cons.inj hback
      have hmem : e ∈ pending (before ++ e :: back) := mem_pending_iff.2
        ⟨⟨List.mem_append_right _ (List.mem_cons_self ..), h.announces,
          fun m hm => h.unmarked m (List.mem_append_left _ hm)⟩, before, back, rfl,
          fun a ha => hafter a (List.mem_append_left _ ha)⟩
      rw [hold] at hmem
      cases hmem

/-- Nothing is pending without entries. -/
theorem pending_nil : pending [] = [] := by
  refine (AllOutstanding.eq_pending ⟨fun e => ?_, List.Pairwise.nil⟩).symm
  exact ⟨fun h => (by cases h), fun h => h.mem⟩

/-- A batch that is only announced is pending. -/
theorem pending_announced (seq time : Nat) (batch : ChangeSet) :
    pending [⟨seq, .pending, some batch, time⟩] = [⟨seq, .pending, some batch, time⟩] := by
  have h := pending_concat (e := ⟨seq, .pending, some batch, time⟩) rfl (List.forall_mem_nil _)
  rw [pending_nil] at h
  exact h

/-- A batch that is marked is not pending. -/
theorem pending_marked (seq time time' : Nat) (batch : ChangeSet) :
    pending [⟨seq, .pending, some batch, time⟩, ⟨seq, .committed, none, time'⟩] = [] := by
  have h := pending_concat_mark (m := ⟨seq, .committed, none, time'⟩)
    [⟨seq, .pending, some batch, time⟩] fun hm => nomatch hm
  rw [pending_announced, List.filter_cons_of_neg (by simp), List.filter_nil] at h
  exact h

/-! ## Numbered entries -/

/-- Entries whose announcements are numbered in the order in which they stand. -/
def Numbered (es : List JournalEntry) : Prop :=
  (announcements es).Pairwise fun a b => a.seq < b.seq

/-- Without entries the numbers are in order. -/
theorem numbered_nil : Numbered [] := List.Pairwise.nil

/-- The first entries are numbered if all are. -/
theorem Numbered.take (h : Numbered es) (n : Nat) : Numbered (es.take n) :=
  List.Pairwise.sublist ((List.take_sublist n es).filter _) h

/-- A mark keeps the entries numbered. -/
theorem Numbered.concat_mark {m : JournalEntry} (h : Numbered es) (hm : m.status ≠ .pending) :
    Numbered (es ++ [m]) := by
  rw [Numbered, announcements_concat_mark es hm]
  exact h

/-- An announcement with a higher number keeps the entries numbered. -/
theorem Numbered.concat (h : Numbered es) (he : e.status = .pending)
    (hnew : ∀ e' ∈ es, e'.seq < e.seq) : Numbered (es ++ [e]) := by
  rw [Numbered, announcements_concat es he, List.pairwise_append]
  refine ⟨h, List.pairwise_singleton _ _, fun a ha b hb => ?_⟩
  rw [List.mem_singleton.1 hb]
  exact hnew a (mem_announcements.1 ha).1

/-- Numbered announcements are all the last ones under their numbers. -/
theorem Numbered.outstanding_iff (h : Numbered es) : Outstanding es e ↔ Unresolved es e := by
  refine ⟨fun he => he.toUnresolved, fun he => ⟨he, ?_⟩⟩
  obtain ⟨before, after, rfl⟩ := List.append_of_mem he.mem
  refine ⟨before, after, rfl, fun a ha hseq => ?_⟩
  have ha' : a.status = .pending :=
    he.unmarked a (List.mem_append_right _ (List.mem_cons_of_mem e ha)) hseq
  rw [Numbered, announcements, List.filter_append,
    List.filter_cons_of_pos (by simpa using he.announces)] at h
  have hlt := List.rel_of_pairwise_cons (List.pairwise_append.1 h).2.1
    (List.mem_filter.2 ⟨ha, by simpa using ha'⟩)
  exact Nat.ne_of_gt hlt hseq

/-- Among numbered entries, those are pending whose number is not resolved. -/
theorem mem_pending (h : Numbered es) : e ∈ pending es ↔ Unresolved es e :=
  mem_pending_iff.trans h.outstanding_iff

/-- What is pending is what is announced and not resolved, as it stands in the journal. -/
theorem pending_of_numbered (h : Numbered es) :
    pending es = (announcements es).filter fun e => e.seq ∉ resolved es := by
  refine (AllOutstanding.eq_pending ⟨fun e => ?_, List.Pairwise.filter _ h⟩).symm
  rw [h.outstanding_iff, List.mem_filter, mem_announcements, decide_eq_true_eq, mem_resolved]
  constructor
  · rintro ⟨⟨hmem, he⟩, hopen⟩
    refine ⟨hmem, he, fun m hm hseq => ?_⟩
    by_contra hmark
    exact hopen ⟨m, hm, hmark, hseq⟩
  · rintro ⟨hmem, he, hopen⟩
    exact ⟨⟨hmem, he⟩, fun ⟨m, hm, hmark, hseq⟩ => hmark (hopen m hm hseq)⟩

end ContentTree.JournalEntry
