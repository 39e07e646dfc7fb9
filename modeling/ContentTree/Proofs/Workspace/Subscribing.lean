import ContentTree.Proofs.Workspace.Commuting
import ContentTree.Proofs.Workspace.Indifference
import Mathlib.Logic.Function.Basic

/-!
# Subscribers along a run

A workspace is asked, committed to and subscribed to in any order, while its subscribers take
transitions out of their mailboxes when they like, or stop listening. The transitions of all commits
form one sequence, and every subscriber receives it from where it subscribed up to the first
notification that finds its mailbox full or unheard (`Watched.stream`). When the others take out theirs
makes no difference to it.
-/

namespace ContentTree

/-! ## Questions -/

/-- A question that a client asks between two commits. -/
inductive Question where
  | item (held : List Handle) (id : ItemId)
  | hasItem (id : ItemId)
  | references (target : NodeId)
  | hasReferences (target : NodeId)
  | targetsExist (log : ChangeLog LocalItem)

namespace Question

variable {σ : Type}

/-- The workspace after a question. -/
def ask (w : Workspace σ) : Question → Workspace σ
  | .item held id => stateAfter (Workspace.getItemState held id) w
  | .hasItem id => stateAfter (Workspace.hasItemState id) w
  | .references target => stateAfter (Workspace.getReferences target) w
  | .hasReferences target => stateAfter (Workspace.hasReferenceRecord target) w
  | .targetsExist log => stateAfter (Workspace.checkTargetsExist log) w

/-- A question asks the workspace. -/
theorem asked_ask (w : Workspace σ) (q : Question) : Workspace.Asked w (q.ask w) := by
  cases q with
  | item held id => exact .getItemState held id w
  | hasItem id => exact .hasItemState id w
  | references target => exact .getReferences target w
  | hasReferences target => exact .hasReferenceRecord target w
  | targetsExist log => exact .checkTargetsExist log w

/-- A question leaves the workspace hosting. -/
theorem hosting_ask {b : Backend σ} {w : Workspace σ} (hw : Workspace.Hosting b w) (q : Question) :
    Workspace.Hosting b (q.ask w) :=
  .asked (asked_ask w q) hw

/-- A question tells the subscribers nothing. -/
theorem notifier_ask (w : Workspace σ) (q : Question) : (q.ask w).notifier = w.notifier :=
  (asked_ask w q).lookedAt.notifier

/-- Questions are answered in the same way whoever has subscribed. -/
theorem ask_observed (w : Workspace σ) (n : Notifier) (q : Question) :
    q.ask (w.observed n) = (q.ask w).observed n := by
  have hkept := notifier_ask (w.observed n) q
  cases q with
  | item held id =>
    exact Workspace.stateAfter_observed (Workspace.respects_reading
      (Workspace.respects_itemState held id)) hkept
  | hasItem id =>
    exact Workspace.stateAfter_observed (Workspace.respects_orNo (Workspace.respects_reading
      (Workspace.respects_hasItem id))) hkept
  | references target =>
    exact Workspace.stateAfter_observed (Workspace.respects_reading
      (Workspace.respects_references target)) hkept
  | hasReferences target =>
    exact Workspace.stateAfter_observed (Workspace.respects_orNo (Workspace.respects_reading
      (Workspace.respects_hasReferences target))) hkept
  | targetsExist log =>
    exact Workspace.stateAfter_observed (Workspace.respects_reading
      ((Workspace.respects_partitionReferences log _).bind fun _ => .pure _)) hkept

end Question

/-! ## Runs -/

/-- Something that is done to a workspace, or by one of its subscribers. -/
inductive Request (σ : Type) where
  | ask (q : Question)
  /-- The storage changes behind the back of the workspace. -/
  | switch (storage : σ)
  | store {τ : Type} (sink : Sink σ τ) (held : List Handle) (t : τ) (log : ChangeLog LocalItem)
  | subscribe
  /-- A subscriber takes at most so many transitions out of its mailbox. -/
  | take (subscriber count : Nat)
  /-- A subscriber stops listening. -/
  | hangUp (subscriber : Nat)

namespace Request

variable {σ : Type}

/-- A request that clients can make: their sinks read, and their logs were recorded. -/
def Admissible : Request σ → Prop
  | .store sink _ _ log => sink.OnlyReads ∧ sink.Blind ∧ log.Recorded
  | _ => True

/-- Whether a request is one of subscriber `k`, or of nobody in particular. -/
def concerns (k : Nat) : Request σ → Bool
  | .take j _ | .hangUp j => j = k
  | _ => true

end Request

/-- What a subscriber knows: how many transitions there had been when it subscribed, what has happened
to its mailbox since, and what it has received. -/
structure Subscriber where
  start : Nat
  history : List Mailbox.Event
  received : List Transition
  deriving DecidableEq, Repr

namespace Subscriber

/-- A subscriber after some notifications. -/
def told (ts : List Transition) (s : Subscriber) : Subscriber :=
  { s with history := s.history ++ ts.map .told }

/-- A subscriber who has taken out the first of the waiting transitions. -/
def taken (count : Nat) (waiting : List Transition) (s : Subscriber) : Subscriber :=
  { s with history := s.history ++ [.taken count], received := s.received ++ waiting.take count }

/-- A subscriber who has stopped listening. -/
def hungUp (s : Subscriber) : Subscriber :=
  { s with history := s.history ++ [.hungUp] }

end Subscriber

/-- A workspace with the transitions of all commits so far, and with its subscribers by number. -/
structure Watched (σ : Type) where
  workspace : Workspace σ
  sequence : List Transition
  subscribers : Nat → Option Subscriber

namespace Watched

variable {σ : Type} {b : Backend σ}

/-- The mailbox of a subscriber. -/
def box? (v : Watched σ) (k : Nat) : Option Mailbox :=
  v.workspace.notifier.box? k

/-- What waits for a subscriber. -/
def waiting (v : Watched σ) (k : Nat) : List Transition :=
  ((v.box? k).map Mailbox.queue).getD []

/-- Changes what is known of one subscriber. -/
def modify (v : Watched σ) (k : Nat) (f : Subscriber → Subscriber) : Nat → Option Subscriber :=
  Function.update v.subscribers k ((v.subscribers k).map f)

/-- A workspace that nobody has subscribed to. -/
def unwatched (w : Workspace σ) : Watched σ :=
  ⟨w, [], fun _ => none⟩

/-- What one request makes of a workspace. -/
def step (v : Watched σ) : Request σ → Watched σ
  | .ask q => { v with workspace := q.ask v.workspace }
  | .switch storage => { v with workspace := { v.workspace with storage } }
  | .store sink held t log =>
    let ts := Workspace.transitions sink held v.workspace t log
    { workspace := (Workspace.store sink held v.workspace t log).workspace
      sequence := v.sequence ++ ts
      subscribers := fun k => (v.subscribers k).map (.told ts) }
  | .subscribe =>
    let (k, n) := v.workspace.notifier.subscribe
    { v with
      workspace := v.workspace.observed n
      subscribers := Function.update v.subscribers k (some ⟨v.sequence.length, [], []⟩) }
  | .take k count =>
    { v with
      workspace := v.workspace.observed (v.workspace.notifier.take k count)
      subscribers := v.modify k (.taken count (v.waiting k)) }
  | .hangUp k =>
    { v with
      workspace := v.workspace.observed (v.workspace.notifier.hangUp k)
      subscribers := v.modify k .hungUp }

/-- A run. -/
def run (v : Watched σ) (requests : List (Request σ)) : Watched σ :=
  requests.foldl step v

/-! ## What holds all along -/

/-- How a subscriber stands: it was told of everything since it subscribed, and what it has and what
waits for it is what its history makes of that. -/
structure Stands (capacity : Nat) (v : Watched σ) (k : Nat) (s : Subscriber) : Prop where
  start : s.start ≤ v.sequence.length
  told : Mailbox.told s.history = v.sequence.drop s.start
  reception : ∃ box, v.box? k = some box ∧ Reception.after capacity s.history = ⟨s.received, box⟩

/-- The invariant of a run. -/
structure Attended (b : Backend σ) (capacity : Nat) (v : Watched σ) : Prop where
  hosting : Workspace.Hosting b v.workspace
  room : v.workspace.notifier.capacity = capacity
  /-- Numbers of subscribers are not used again. -/
  fresh : ∀ k, v.workspace.notifier.next ≤ k → v.subscribers k = none
  stands : ∀ {k s}, v.subscribers k = some s → v.Stands capacity k s

variable {capacity : Nat} {v : Watched σ}

/-- A workspace that nobody watches is attended. -/
theorem attended_unwatched {w : Workspace σ} {size : Nat} (hw : Workspace.Hosting b w)
    (hnew : w.notifier = .new size) : (unwatched w).Attended b (max 1 size) where
  hosting := hw
  room := by
    show w.notifier.capacity = _
    rw [hnew]
    rfl
  fresh _ _ := rfl
  stands h := by cases h

/-- A workspace that was opened has no subscribers yet, and room as configured. -/
theorem notifier_openOver {config : Config} {registry : Registry} {s s' : Shared σ}
    {w : Workspace σ} (h : Workspace.openOver config b registry s = .ok w s') :
    w.notifier = .new config.eventBufferSize := by
  obtain ⟨asked, -, ⟨root, t, -, rfl⟩ | ⟨node, property, t, -, -, rfl⟩⟩ := Workspace.openOver_ok h
  · rfl
  · rw [Workspace.notifier_persisted (Workspace.wellFormed_rootLog ..)]
    exact Notifier.tell_new ..

/-- A change of the workspace that the subscribers do not notice. -/
theorem Attended.quiet (hv : v.Attended b capacity) {w : Workspace σ} (hw : Workspace.Hosting b w)
    (hsame : w.notifier = v.workspace.notifier) : Attended b capacity { v with workspace := w } where
  hosting := hw
  room := hsame ▸ hv.room
  fresh k hk := hv.fresh k (hsame ▸ hk)
  stands h := by
    obtain ⟨hstart, htold, box, hbox, hreception⟩ := hv.stands h
    exact ⟨hstart, htold, box, (congrArg (Notifier.box? · _) hsame).trans hbox, hreception⟩

/-- Something that happens to one mailbox. -/
theorem Attended.touch (hv : v.Attended b capacity) {k : Nat} {f : Mailbox → Mailbox}
    {g : Subscriber → Subscriber}
    (hg : ∀ s box, v.subscribers k = some s → v.box? k = some box →
      Reception.after capacity s.history = ⟨s.received, box⟩ → (g s).start = s.start ∧
        Mailbox.told (g s).history = Mailbox.told s.history ∧
        Reception.after capacity (g s).history = ⟨(g s).received, f box⟩) :
    Attended b capacity { v with
      workspace := v.workspace.observed (v.workspace.notifier.modifyBox k f)
      subscribers := v.modify k g } where
  hosting := .observed _ hv.hosting
  room := hv.room
  fresh j hj := by
    show Function.update v.subscribers k ((v.subscribers k).map g) j = none
    -- only the subscriber `k` is touched, so the others stand as they stood
    by_cases hjk : j = k
    · subst hjk
      rw [Function.update_self, hv.fresh j hj]
      rfl
    · rw [Function.update_of_ne hjk]
      exact hv.fresh j hj
  stands {j s} h := by
    replace h : Function.update v.subscribers k ((v.subscribers k).map g) j = some s := h
    have hboxes := Notifier.box?_modifyBox v.workspace.notifier k f j
    by_cases hjk : j = k
    · subst hjk
      rw [Function.update_self] at h
      obtain ⟨s, hs, rfl⟩ := Option.map_eq_some_iff.1 h
      obtain ⟨hstart, htold, box, hbox, hreception⟩ := hv.stands hs
      obtain ⟨hsame, htold', hreception'⟩ := hg s box hs hbox hreception
      rw [if_pos rfl, show v.workspace.notifier.box? j = some box from hbox] at hboxes
      exact ⟨hsame ▸ hstart, by rw [htold', htold, hsame], f box, hboxes, hreception'⟩
    · rw [Function.update_of_ne hjk] at h
      obtain ⟨hstart, htold, box, hbox, hreception⟩ := hv.stands h
      rw [if_neg hjk] at hboxes
      exact ⟨hstart, htold, box, hboxes.trans hbox, hreception⟩

/-- A change of the workspace that all subscribers are told of. -/
theorem Attended.told (hv : v.Attended b capacity) {w : Workspace σ} (hw : Workspace.Hosting b w)
    {ts : List Transition} (htell : w.notifier = v.workspace.notifier.tell ts) :
    Attended b capacity ⟨w, v.sequence ++ ts, fun k => (v.subscribers k).map (.told ts)⟩ := by
  obtain ⟨hnext, hcapacity, hboxes⟩ := v.workspace.notifier.tell_spec ts
  rw [← htell] at hnext hcapacity hboxes
  refine ⟨hw, hcapacity.trans hv.room, fun k hk => ?_, fun {k s} h => ?_⟩
  · show (v.subscribers k).map _ = none
    rw [hv.fresh k (hnext ▸ hk)]
    rfl
  · obtain ⟨s, hs, rfl⟩ := Option.map_eq_some_iff.1 h
    obtain ⟨hstart, htold, box, hbox, hreception⟩ := hv.stands hs
    refine ⟨?_, ?_, _, (hboxes k).trans (congrArg (Option.map _) hbox), ?_⟩
    · show s.start ≤ (v.sequence ++ _).length
      rw [List.length_append]
      exact Nat.le_add_right_of_le hstart
    · show Mailbox.told (s.history ++ _) = (v.sequence ++ _).drop s.start
      rw [Mailbox.told_append, Mailbox.told_map, htold, List.drop_append_of_le_length hstart]
    · show Reception.after capacity (s.history ++ _) = _
      rw [Reception.after_told, hreception, hv.room]
      rfl

/-- A new subscriber has missed all there was, and nothing waits for it. -/
theorem Attended.subscribe (hv : v.Attended b capacity) :
    (v.step .subscribe).Attended b capacity := by
  refine ⟨.observed _ hv.hosting, hv.room, fun k hk => ?_, fun {k s} h => ?_⟩
  · replace hk : v.workspace.notifier.next + 1 ≤ k := hk
    refine (Function.update_of_ne ?_ _ _).trans (hv.fresh k (by omega))
    show k ≠ v.workspace.notifier.next
    omega
  · replace h : Function.update v.subscribers v.workspace.notifier.next
      (some ⟨v.sequence.length, [], []⟩) k = some s := h
    have hboxes := v.workspace.notifier.box?_subscribe k
    by_cases hk : k = v.workspace.notifier.next
    · subst hk
      rw [Function.update_self] at h
      cases h
      rw [if_pos rfl] at hboxes
      exact ⟨Nat.le_refl _, List.drop_length.symm, _, hboxes, rfl⟩
    · rw [Function.update_of_ne hk] at h
      rw [if_neg hk] at hboxes
      obtain ⟨hstart, htold, box, hbox, hreception⟩ := hv.stands h
      exact ⟨hstart, htold, box, hboxes.trans hbox, hreception⟩

/-- An admissible request leaves the workspace attended. -/
theorem Attended.step (hv : v.Attended b capacity) {r : Request σ} (hr : r.Admissible) :
    (v.step r).Attended b capacity := by
  cases r with
  | ask q => exact hv.quiet (q.hosting_ask hv.hosting) (Question.notifier_ask _ q)
  | switch storage => exact hv.quiet (.switched storage hv.hosting) rfl
  | store sink held t log =>
    obtain ⟨hsink, -, hlog⟩ := hr
    exact hv.told (.stored held t hsink hlog hv.hosting)
      (Workspace.notifier_store hv.hosting.host.ready hsink hlog held t)
  | subscribe => exact hv.subscribe
  | take k count =>
    refine hv.touch fun s box _ hbox hreception => ⟨rfl, ?_, ?_⟩
    · show Mailbox.told (s.history ++ [.taken count]) = _
      rw [Mailbox.told_append]
      exact List.append_nil _
    · show Reception.after capacity (s.history ++ [.taken count]) =
        ⟨s.received ++ (v.waiting k).take count, box.take count⟩
      rw [Reception.after_concat, hreception, waiting, hbox]
      rfl
  | hangUp k =>
    refine hv.touch fun s box _ _ hreception => ⟨rfl, ?_, ?_⟩
    · show Mailbox.told (s.history ++ [.hungUp]) = _
      rw [Mailbox.told_append]
      exact List.append_nil _
    · show Reception.after capacity (s.history ++ [.hungUp]) = ⟨s.received, box.hangUp⟩
      rw [Reception.after_concat, hreception]
      rfl

/-- Admissible requests leave the workspace attended. -/
theorem Attended.run {requests : List (Request σ)} (hv : v.Attended b capacity)
    (hr : ∀ r ∈ requests, r.Admissible) : (v.run requests).Attended b capacity := by
  induction requests generalizing v with
  | nil => exact hv
  | cons r rest ih =>
    exact ih (hv.step (hr r (List.mem_cons_self ..))) fun r' hr' => hr r' (List.mem_cons_of_mem r hr')

/-! ## Other subscribers -/

/-- Two runs that look the same to subscriber `k`, and differ in other subscribers only. -/
structure SameFor (k : Nat) (v v' : Watched σ) : Prop where
  workspace : ∃ n, v'.workspace = v.workspace.observed n
  sequence : v'.sequence = v.sequence
  known : v'.subscribers k = v.subscribers k
  box : v'.box? k = v.box? k
  next : v'.workspace.notifier.next = v.workspace.notifier.next
  room : v'.workspace.notifier.capacity = v.workspace.notifier.capacity

variable {k : Nat} {v' : Watched σ}

/-- A workspace is the same for a subscriber as itself. -/
theorem SameFor.refl (k : Nat) (v : Watched σ) : v.SameFor k v :=
  ⟨⟨v.workspace.notifier, rfl⟩, rfl, rfl, rfl, rfl, rfl⟩

/-- What waits for a subscriber is the same. -/
theorem SameFor.waiting (h : v.SameFor k v') : v'.waiting k = v.waiting k := by
  rw [Watched.waiting, Watched.waiting, h.box]

/-- What the subscribers do not notice. -/
theorem SameFor.quiet (h : v.SameFor k v') {w w' : Workspace σ} (hsame : ∃ n, w' = w.observed n)
    (hw : w.notifier = v.workspace.notifier) (hw' : w'.notifier = v'.workspace.notifier) :
    SameFor k { v with workspace := w } { v' with workspace := w' } where
  workspace := hsame
  sequence := h.sequence
  known := h.known
  box := by
    show w'.notifier.box? k = w.notifier.box? k
    rw [hw, hw']
    exact h.box
  next := by
    show w'.notifier.next = w.notifier.next
    rw [hw, hw', h.next]
  room := by
    show w'.notifier.capacity = w.notifier.capacity
    rw [hw, hw', h.room]

/-- What all subscribers are told of. -/
theorem SameFor.told (h : v.SameFor k v') {w w' : Workspace σ} {ts : List Transition}
    (hsame : ∃ n, w' = w.observed n) (hw : w.notifier = v.workspace.notifier.tell ts)
    (hw' : w'.notifier = v'.workspace.notifier.tell ts) :
    SameFor k ⟨w, v.sequence ++ ts, fun k => (v.subscribers k).map (.told ts)⟩
      ⟨w', v'.sequence ++ ts, fun k => (v'.subscribers k).map (.told ts)⟩ := by
  obtain ⟨hnext, hroom, hbox⟩ := v.workspace.notifier.tell_spec ts
  obtain ⟨hnext', hroom', hbox'⟩ := v'.workspace.notifier.tell_spec ts
  rw [← hw] at hnext hroom hbox
  rw [← hw'] at hnext' hroom' hbox'
  refine ⟨hsame, congrArg (· ++ ts) h.sequence, congrArg (Option.map _) h.known, ?_,
    hnext'.trans (h.next.trans hnext.symm), hroom'.trans (h.room.trans hroom.symm)⟩
  show w'.notifier.box? k = w.notifier.box? k
  rw [hbox, hbox', show v'.workspace.notifier.box? k = v.workspace.notifier.box? k from h.box, h.room]

/-- What subscriber `k` does to its own mailbox looks the same in both runs. -/
theorem SameFor.touch (h : v.SameFor k v') (f : Mailbox → Mailbox) {g g' : Subscriber → Subscriber}
    (hg : g' = g) :
    SameFor k
      { v with
        workspace := v.workspace.observed (v.workspace.notifier.modifyBox k f)
        subscribers := v.modify k g }
      { v' with
        workspace := v'.workspace.observed (v'.workspace.notifier.modifyBox k f)
        subscribers := v'.modify k g' } := by
  obtain ⟨⟨n, hw⟩, hsequence, hknown, hbox, hnext, hroom⟩ := h
  refine ⟨⟨v'.workspace.notifier.modifyBox k f, ?_⟩, hsequence, ?_, ?_, hnext, hroom⟩
  · rw [hw]
    rfl
  · show Function.update v'.subscribers k _ k = Function.update v.subscribers k _ k
    rw [Function.update_self, Function.update_self, hknown, hg]
  · show (v'.workspace.notifier.modifyBox k f).box? k = (v.workspace.notifier.modifyBox k f).box? k
    rw [Notifier.box?_modifyBox, Notifier.box?_modifyBox, if_pos rfl, if_pos rfl]
    exact congrArg (Option.map f) hbox

/-- What another subscriber does to its mailbox does not show. -/
theorem SameFor.elsewhere (h : v.SameFor k v') {j : Nat} (hj : k ≠ j) (f : Mailbox → Mailbox)
    (g : Subscriber → Subscriber) :
    SameFor k { v with
      workspace := v.workspace.observed (v.workspace.notifier.modifyBox j f)
      subscribers := v.modify j g } v' := by
  obtain ⟨⟨n, hw⟩, hsequence, hknown, hbox, hnext, hroom⟩ := h
  refine ⟨⟨n, hw⟩, hsequence, ?_, ?_, hnext, hroom⟩
  · exact hknown.trans (Function.update_of_ne hj _ _).symm
  · refine hbox.trans ((Notifier.box?_modifyBox ..).trans ?_).symm
    rw [if_neg hj]
    rfl

/-- A new subscriber leaves the workspaces the same for an earlier one. -/
theorem SameFor.subscribe (h : v.SameFor k v') :
    (v.step .subscribe).SameFor k (v'.step .subscribe) := by
  obtain ⟨⟨n, hw⟩, hsequence, hknown, hbox, hnext, hroom⟩ := h
  refine ⟨⟨v'.workspace.notifier.subscribe.2, ?_⟩, hsequence, ?_, ?_, ?_, hroom⟩
  · show v'.workspace.observed _ = _
    rw [hw]
    rfl
  · show Function.update v'.subscribers v'.workspace.notifier.next _ k =
      Function.update v.subscribers v.workspace.notifier.next _ k
    rw [hnext, hsequence]
    by_cases hk' : k = v.workspace.notifier.next
    · subst hk'
      rw [Function.update_self, Function.update_self]
    · rw [Function.update_of_ne hk', Function.update_of_ne hk', hknown]
  · show v'.workspace.notifier.subscribe.2.box? k = v.workspace.notifier.subscribe.2.box? k
    rw [Notifier.box?_subscribe, Notifier.box?_subscribe, hnext]
    split
    · rfl
    · exact hbox
  · show v'.workspace.notifier.next + 1 = v.workspace.notifier.next + 1
    rw [hnext]

/-- A request that concerns the subscriber leaves the workspaces the same for it. -/
theorem SameFor.step (h : v.SameFor k v') (hv : v.Attended b capacity) {r : Request σ}
    (hr : r.Admissible) (hk : r.concerns k = true) : (v.step r).SameFor k (v'.step r) := by
  cases r with
  | take j count =>
    obtain rfl : j = k := of_decide_eq_true hk
    exact h.touch (.take count) (by rw [h.waiting])
  | hangUp j =>
    obtain rfl : j = k := of_decide_eq_true hk
    exact h.touch .hangUp rfl
  | ask q =>
    obtain ⟨n, hw⟩ := h.workspace
    exact h.quiet ⟨n, by rw [hw, Question.ask_observed]⟩ (Question.notifier_ask _ q)
      (Question.notifier_ask _ q)
  | switch storage =>
    obtain ⟨n, hw⟩ := h.workspace
    exact h.quiet ⟨n, by rw [hw]; rfl⟩ rfl rfl
  | store sink held t log =>
    obtain ⟨hsink, hblind, hlog⟩ := hr
    obtain ⟨n, hw⟩ := h.workspace
    -- a commit tells the subscribers the same in both workspaces
    obtain ⟨htransitions, hstore⟩ :=
      Workspace.store_observed hv.hosting.host.ready hsink hblind hlog held t n
    rw [← hw] at htransitions hstore
    have hnotifier := Workspace.notifier_store hv.hosting.host.ready hsink hlog held t
    show SameFor k _ ⟨_, v'.sequence ++ Workspace.transitions sink held v'.workspace t log, fun k =>
      (v'.subscribers k).map (.told (Workspace.transitions sink held v'.workspace t log))⟩
    rw [htransitions]
    refine h.told ⟨n.tell (Workspace.transitions sink held v.workspace t log), ?_⟩ hnotifier ?_
    · rw [hstore]
      rfl
    · rw [hstore, hw]
      rfl
  | subscribe => exact h.subscribe

/-- To subscriber `k` a run looks the same without what the others do to their mailboxes. -/
theorem SameFor.run (h : v.SameFor k v') (hv : v.Attended b capacity) {requests : List (Request σ)}
    (hr : ∀ r ∈ requests, r.Admissible) :
    (v.run requests).SameFor k (v'.run (requests.filter (·.concerns k))) := by
  induction requests generalizing v v' with
  | nil => exact h
  | cons r rest ih =>
    have hfirst := hr r (List.mem_cons_self ..)
    have hrest : ∀ r ∈ rest, r.Admissible := fun r' hr' => hr r' (List.mem_cons_of_mem r hr')
    cases hk : r.concerns k with
    | true =>
      rw [List.filter_cons_of_pos hk]
      exact ih (h.step hv hfirst hk) (hv.step hfirst) hrest
    | false =>
      rw [List.filter_cons_of_neg (by rw [hk]; decide)]
      refine ih ?_ (hv.step hfirst) hrest
      cases r with
      | take j count => exact h.elsewhere (fun hj => of_decide_eq_false hk hj.symm) _ _
      | hangUp j => exact h.elsewhere (fun hj => of_decide_eq_false hk hj.symm) _ _
      | ask | switch | store | subscribe => cases hk

/-! ## The stream of a subscriber -/

/-- What subscriber `k` has received, and what waits for it, at the end of a run. -/
structure Receives (capacity : Nat) (v : Watched σ) (s : Subscriber) (box : Mailbox) : Prop where
  /-- The notifications that went round since it subscribed are the rest of the sequence. -/
  told : Mailbox.told s.history = v.sequence.drop s.start
  /-- They and what it did itself decide what it has. -/
  reception : Reception.after capacity s.history = ⟨s.received, box⟩
  /-- What it has is the beginning of the rest of the sequence. -/
  segment : s.received ++ box.queue <+: v.sequence.drop s.start
  /-- It is all of it if no notification found the mailbox full or unheard. -/
  whole : Reception.Unrefused capacity s.history → s.received ++ box.queue = v.sequence.drop s.start
  /-- Nothing has been added since the first notification that did. -/
  stopped : ∀ before t later, s.history = before ++ .told t :: later →
    (Reception.after capacity before).box.Refuses capacity →
    s.received ++ box.queue = (Reception.after capacity before).stream

/-- A subscriber that stands receives what its box says. -/
theorem Stands.receives {s : Subscriber} (h : v.Stands capacity k s) :
    ∃ box, v.box? k = some box ∧ v.Receives capacity s box := by
  obtain ⟨-, htold, box, hbox, hreception⟩ := h
  have hstream : (Reception.after capacity s.history).stream = s.received ++ box.queue := by
    rw [hreception]
    rfl
  refine ⟨box, hbox, htold, hreception, ?_, fun hun => ?_, fun before t later heq hrefused => ?_⟩
  · rw [← hstream, ← htold]
    exact (Reception.stream_spec s.history).1
  · rw [← hstream, ← htold]
    exact Reception.stream_eq hun
  · rw [← hstream, heq]
    exact Reception.stream_of_refused hrefused

/-- A subscriber keeps its number and its start. -/
theorem Attended.start_step (hv : v.Attended b capacity) {s : Subscriber}
    (hs : v.subscribers k = some s) (r : Request σ) :
    ∃ s', (v.step r).subscribers k = some s' ∧ s'.start = s.start := by
  have hmodify : ∀ j g, (∀ s : Subscriber, (g s).start = s.start) →
      ∃ s', v.modify j g k = some s' ∧ s'.start = s.start := by
    intro j g hg
    by_cases hj : k = j
    · subst hj
      exact ⟨g s, by rw [modify, Function.update_self, hs]; rfl, hg s⟩
    · exact ⟨s, (Function.update_of_ne hj _ _).trans hs, rfl⟩
  cases r with
  | ask q => exact ⟨s, hs, rfl⟩
  | switch storage => exact ⟨s, hs, rfl⟩
  | store sink held t log => exact ⟨_, congrArg (Option.map _) hs, rfl⟩
  | take j count => exact hmodify j _ fun _ => rfl
  | hangUp j => exact hmodify j _ fun _ => rfl
  | subscribe =>
    -- the number is not given out again
    have hne : k ≠ v.workspace.notifier.next := by
      rintro rfl
      rw [hv.fresh _ (Nat.le_refl _)] at hs
      cases hs
    exact ⟨s, (Function.update_of_ne hne _ _).trans hs, rfl⟩

/-- A subscriber keeps its start through any admissible requests. -/
theorem Attended.start_run (hv : v.Attended b capacity) {s : Subscriber}
    (hs : v.subscribers k = some s) {requests : List (Request σ)}
    (hr : ∀ r ∈ requests, r.Admissible) :
    ∃ s', (v.run requests).subscribers k = some s' ∧ s'.start = s.start := by
  induction requests generalizing v s with
  | nil => exact ⟨s, hs, rfl⟩
  | cons r rest ih =>
    obtain ⟨s', hs', hstart⟩ := hv.start_step hs r
    obtain ⟨s'', hs'', hstart'⟩ := ih (hv.step (hr r (List.mem_cons_self ..))) hs' fun r' hr' =>
      hr r' (List.mem_cons_of_mem r hr')
    exact ⟨s'', hs'', hstart'.trans hstart⟩

/-- **Every subscriber receives the sequence of transitions without gaps**, from where it subscribed up
to the first notification that finds its mailbox full or unheard, however fast the others are. -/
theorem stream {w : Workspace σ} {size : Nat} (hw : Workspace.Hosting b w)
    (hnew : w.notifier = .new size) (before later : List (Request σ))
    (hr : ∀ r ∈ before ++ .subscribe :: later, r.Admissible) :
    let k := ((unwatched w).run before).workspace.notifier.next
    let v := (unwatched w).run (before ++ .subscribe :: later)
    ∃ s box, v.subscribers k = some s ∧ v.box? k = some box ∧
      s.start = ((unwatched w).run before).sequence.length ∧ v.Receives (max 1 size) s box ∧
      ∀ others : List (Request σ), (∀ r ∈ others, r.Admissible) →
        others.filter (·.concerns k) = (before ++ .subscribe :: later).filter (·.concerns k) →
        ((unwatched w).run others).sequence = v.sequence ∧
          ((unwatched w).run others).subscribers k = some s ∧
          ((unwatched w).run others).box? k = some box := by
  intro k v
  have hstart := attended_unwatched hw hnew
  have hbefore := hstart.run fun r hmem => hr r (List.mem_append_left _ hmem)
  have hsubscribed := hbefore.step (r := .subscribe) trivial
  have hv : v = (((unwatched w).run before).step .subscribe).run later := List.foldl_append
  obtain ⟨s, hs, hs'⟩ := hsubscribed.start_run (k := k) (Function.update_self ..) fun r hmem =>
    hr r (List.mem_append_right _ (List.mem_cons_of_mem _ hmem))
  rw [← hv] at hs
  obtain ⟨box, hbox, hreceives⟩ := ((hstart.run hr).stands hs).receives
  refine ⟨s, box, hs, hbox, hs', hreceives, fun others hothers hsame => ?_⟩
  -- both runs look the same as the one that they have in common
  have hcommon := (SameFor.refl k (unwatched w)).run hstart hr
  have hcommon' := (SameFor.refl k (unwatched w)).run hstart hothers
  rw [hsame] at hcommon'
  exact ⟨hcommon'.sequence.symm.trans hcommon.sequence,
    hcommon'.known.symm.trans (hcommon.known.trans hs),
    hcommon'.box.symm.trans (hcommon.box.trans hbox)⟩

/-! ### A subscriber who is too slow -/

/-- A commit retypes an item, of which a subscriber with room for one is told and takes note; another
one adds an item and deletes one, which is more than the mailbox holds. -/
def slow : List (Request MemoryStore) :=
  [.store (Sink.silent MemoryStore) [] () Workspace.Sample.retypedKnown, .take 1 1,
    .store (Sink.silent MemoryStore) [] () Workspace.Sample.replacement]

/-- The requests of the slow subscriber are admissible. -/
theorem admissible_slow : ∀ r ∈ [] ++ .subscribe :: slow, r.Admissible := by
  have hstore : ∀ {log : ChangeLog LocalItem}, log.Recorded →
      Request.Admissible (.store (Sink.silent MemoryStore) [] () log) :=
    fun hlog => ⟨Sink.onlyReads_silent, Sink.blind_silent, hlog⟩
  intro r hr
  simp only [slow, List.nil_append, List.mem_cons, List.not_mem_nil, or_false] at hr
  rcases hr with rfl | rfl | rfl | rfl
  · trivial
  · exact hstore Workspace.Sample.recorded_retypedKnown
  · trivial
  · exact hstore Workspace.Sample.recorded_replacement

/-- The subscriber has what it took, one transition waits for it, and the last one is lost on it. -/
theorem stream_slow :
    let w := Workspace.Sample.opened Workspace.Sample.memory
    let v := (unwatched w).run ([] ++ .subscribe :: slow)
    (∃ s box, v.subscribers 1 = some s ∧ v.box? 1 = some box ∧ s.start = 0 ∧
      v.Receives (max 1 1) s box) ∧
    v.sequence = [⟨Workspace.Sample.known, .modified⟩, ⟨Workspace.Sample.fresh, .created⟩,
      ⟨Workspace.Sample.other, .destroyed⟩] ∧
    (v.subscribers 1).map Subscriber.received = some [⟨Workspace.Sample.known, .modified⟩] ∧
    v.waiting 1 = [⟨Workspace.Sample.fresh, .created⟩] := by
  intro w v
  have hnew : w.notifier = .new 1 := rfl
  have hstream := stream (Workspace.Sample.hosting_opened Workspace.Sample.memory rfl) hnew [] slow
    admissible_slow
  obtain ⟨s, box, hs, hbox, hstart, hreceives, -⟩ := hstream
  exact ⟨⟨s, box, hs, hbox, hstart, hreceives⟩, by decide +kernel, by decide +kernel, by decide +kernel⟩

end Watched

end ContentTree
