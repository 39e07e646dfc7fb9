import ContentTree.Observation.Notifier
import ContentTree.Proofs.Collection.OrderedMap
import Mathlib.Data.List.Induction

/-!
# What a subscriber receives

The history of one mailbox is a list of notifications, of what the subscriber takes out, and of the
moment when it stops listening. It alone decides what the subscriber receives and what still waits for
it (`Reception.after`). Both together are the beginning of what was told, and all of it unless a
notification found the mailbox full or unheard (`Reception.stream_spec`, `Reception.stream_eq`), after
which nothing more is added (`Reception.stream_of_refused`). A notifier is a family of such mailboxes:
what is done with one of them does not concern the others.
-/

namespace ContentTree

/-! ## One mailbox -/

namespace Mailbox

/-- Something that happens to a mailbox. -/
inductive Event where
  /-- A notification goes round. -/
  | told (t : Transition)
  /-- The subscriber takes out at most so many transitions. -/
  | taken (count : Nat)
  /-- The subscriber stops listening. -/
  | hungUp
  deriving DecidableEq, Repr

/-- The transition of a notification. -/
def Event.transition? : Event → Option Transition
  | .told t => some t
  | .taken _ | .hungUp => none

/-- The transitions that a mailbox was told of. -/
def told (history : List Event) : List Transition :=
  history.filterMap Event.transition?

/-- The transitions that were told, in two parts. -/
theorem told_append (history later : List Event) : told (history ++ later) = told history ++ told later :=
  List.filterMap_append

/-- Events of transitions tell these. -/
theorem told_map (ts : List Transition) : told (ts.map .told) = ts := by
  rw [told, List.filterMap_map]
  exact List.filterMap_some

/-- The mailbox of a new subscriber. -/
def fresh : Mailbox :=
  ⟨[], true, true⟩

/-- A mailbox after its first transitions were taken out. -/
def take (count : Nat) (b : Mailbox) : Mailbox :=
  { b with queue := b.queue.drop count }

/-- A mailbox whose subscriber has stopped listening. -/
def hangUp (b : Mailbox) : Mailbox :=
  { b with isHeard := false }

/-- A notification finds the mailbox full, or nobody who listens. -/
def Refuses (capacity : Nat) (b : Mailbox) : Prop :=
  b.isHeard = false ∨ b.queue.length = capacity

variable {capacity : Nat} {b : Mailbox} {t : Transition}

/-- A mailbox that is not served takes nothing. -/
theorem deliver_of_unserved (h : b.isServed = false) : b.deliver capacity t = b := by
  simp [deliver, h]

/-- A mailbox that refuses a transition is not served any more. -/
theorem deliver_of_refuses (h : b.Refuses capacity) :
    b.deliver capacity t = { b with isServed := false } := by
  obtain ⟨queue, isServed, isHeard⟩ := b
  rcases h with h | h <;> cases isServed <;> simp_all [deliver]

/-- A served mailbox with room takes a transition. -/
theorem deliver_of_served (hserved : b.isServed = true) (h : ¬b.Refuses capacity)
    (hle : b.queue.length ≤ capacity) : b.deliver capacity t = { b with queue := b.queue ++ [t] } := by
  rw [Refuses, not_or, Bool.not_eq_false] at h
  have hroom : b.queue.length < capacity := Nat.lt_of_le_of_ne hle h.2
  simp [deliver, hserved, h.1, hroom]

end Mailbox

/-- What a subscriber has received, and the mailbox with what waits for it. -/
structure Reception where
  received : List Transition
  box : Mailbox

namespace Reception

open Mailbox (told)

/-- All that has come to a subscriber. -/
def stream (r : Reception) : List Transition :=
  r.received ++ r.box.queue

/-- What one event makes of a reception. -/
def next (capacity : Nat) (r : Reception) : Mailbox.Event → Reception
  | .told t => { r with box := r.box.deliver capacity t }
  | .taken count => ⟨r.received ++ r.box.queue.take count, r.box.take count⟩
  | .hungUp => { r with box := r.box.hangUp }

/-- What a subscriber has after a history. -/
def after (capacity : Nat) (history : List Mailbox.Event) : Reception :=
  history.foldl (next capacity) ⟨[], .fresh⟩

variable {capacity : Nat} {r : Reception}

/-- Later events go on from what the earlier ones left. -/
theorem after_append (history later : List Mailbox.Event) :
    after capacity (history ++ later) = later.foldl (next capacity) (after capacity history) :=
  List.foldl_append

/-- One more event goes on from what those before it left. -/
theorem after_concat (history : List Mailbox.Event) (e : Mailbox.Event) :
    after capacity (history ++ [e]) = (after capacity history).next capacity e :=
  after_append history [e]

/-- Taking something out only moves it from the mailbox to what was received. -/
theorem stream_next_taken (r : Reception) (count : Nat) :
    (r.next capacity (.taken count)).stream = r.stream := by
  show (r.received ++ r.box.queue.take count) ++ r.box.queue.drop count = _
  rw [List.append_assoc, List.take_append_drop]
  rfl

/-- A notification adds its transition to a mailbox that is served, unless it is refused. -/
theorem stream_next_told (hserved : r.box.isServed = true) (h : ¬r.box.Refuses capacity)
    (hle : r.box.queue.length ≤ capacity) (t : Transition) :
    (r.next capacity (.told t)).stream = r.stream ++ [t] := by
  show r.received ++ (r.box.deliver capacity t).queue = _
  rw [Mailbox.deliver_of_served hserved h hle]
  exact (List.append_assoc ..).symm

/-- A mailbox never holds more than it has room for. -/
theorem length_queue_next (hle : r.box.queue.length ≤ capacity) (e : Mailbox.Event) :
    (r.next capacity e).box.queue.length ≤ capacity := by
  cases e with
  | told t =>
    show (r.box.deliver capacity t).queue.length ≤ capacity
    unfold Mailbox.deliver
    split
    · exact hle
    · split
      · next h =>
        rw [Bool.and_eq_true, decide_eq_true_eq] at h
        show (r.box.queue ++ [t]).length ≤ capacity
        rw [List.length_append]
        exact h.2
      · exact hle
  | taken count => exact Nat.le_trans (List.drop_sublist ..).length_le hle
  | hungUp => exact hle

/-- A queue is never longer than its capacity. -/
theorem length_queue_after (history : List Mailbox.Event) :
    (after capacity history).box.queue.length ≤ capacity := by
  induction history using List.reverseRecOn with
  | nil => exact Nat.zero_le _
  | append_singleton history e ih =>
    rw [after_concat]
    exact length_queue_next ih e

/-- To a mailbox that is not served any more nothing is added, and it stays so. -/
theorem next_of_unserved (capacity : Nat) (h : r.box.isServed = false) (e : Mailbox.Event) :
    (r.next capacity e).box.isServed = false ∧ (r.next capacity e).stream = r.stream := by
  cases e with
  | told t =>
    have hsame : r.next capacity (.told t) = r := by
      rw [next, Mailbox.deliver_of_unserved h]
    rw [hsame]
    exact ⟨h, rfl⟩
  | taken count => exact ⟨h, stream_next_taken r count⟩
  | hungUp => exact ⟨h, rfl⟩

/-- A notification that is refused adds nothing, and is the last one for the mailbox. -/
theorem next_of_refused (h : r.box.Refuses capacity) (t : Transition) :
    (r.next capacity (.told t)).box.isServed = false ∧
      (r.next capacity (.told t)).stream = r.stream := by
  rw [next, Mailbox.deliver_of_refuses h]
  exact ⟨rfl, rfl⟩

/-- Once a mailbox is not served its stream does not grow. -/
theorem stream_foldl_of_unserved (h : r.box.isServed = false) (later : List Mailbox.Event) :
    (later.foldl (next capacity) r).stream = r.stream := by
  induction later generalizing r with
  | nil => rfl
  | cons e rest ih =>
    obtain ⟨hnext, hstream⟩ := next_of_unserved capacity h e
    exact (ih hnext).trans hstream

/-- Notifications touch the mailbox only. -/
theorem after_told (history : List Mailbox.Event) (ts : List Transition) :
    after capacity (history ++ ts.map .told) =
      { after capacity history with
        box := ts.foldl (fun b t => b.deliver capacity t) (after capacity history).box } := by
  rw [after_append]
  generalize after capacity history = r
  induction ts generalizing r with
  | nil => rfl
  | cons t rest ih => exact ih (r.next capacity (.told t))

/-- What has come to a subscriber is the beginning of what its mailbox was told of. -/
theorem stream_spec (history : List Mailbox.Event) :
    (after capacity history).stream <+: told history ∧
      ((after capacity history).box.isServed = true → (after capacity history).stream = told history) := by
  induction history using List.reverseRecOn with
  | nil => exact ⟨List.prefix_rfl, fun _ => rfl⟩
  | append_singleton history e ih =>
    obtain ⟨hbegins, hwhole⟩ := ih
    rw [after_concat, Mailbox.told_append]
    cases hserved : (after capacity history).box.isServed with
    | false =>
      obtain ⟨hnext, hstream⟩ := next_of_unserved capacity hserved e
      rw [hstream, hnext]
      exact ⟨hbegins.trans (List.prefix_append ..), fun h => by cases h⟩
    | true =>
      replace hwhole := hwhole hserved
      cases e with
      | taken count =>
        rw [stream_next_taken, hwhole]
        exact ⟨List.prefix_append .., fun _ => (List.append_nil _).symm⟩
      | hungUp =>
        show (after capacity history).stream <+: _ ∧ (_ → (after capacity history).stream = _)
        rw [hwhole]
        exact ⟨List.prefix_append .., fun _ => (List.append_nil _).symm⟩
      | told t =>
        by_cases hrefused : (after capacity history).box.Refuses capacity
        · obtain ⟨hnext, hstream⟩ := next_of_refused hrefused t
          rw [hstream, hnext]
          exact ⟨hbegins.trans (List.prefix_append ..), fun h => by cases h⟩
        · rw [stream_next_told hserved hrefused (length_queue_after history), hwhole]
          exact ⟨List.prefix_rfl, fun _ => rfl⟩

/-- No notification of a history is refused. -/
def Unrefused (capacity : Nat) (history : List Mailbox.Event) : Prop :=
  ∀ before t later, history = before ++ .told t :: later → ¬(after capacity before).box.Refuses capacity

/-- A mailbox that refused nothing is served. -/
theorem isServed_after {history : List Mailbox.Event} (h : Unrefused capacity history) :
    (after capacity history).box.isServed = true := by
  induction history using List.reverseRecOn with
  | nil => rfl
  | append_singleton history e ih =>
    have hserved := ih fun before t later heq => h before t (later ++ [e]) (by rw [heq]; simp)
    rw [after_concat]
    cases e with
    | taken count => exact hserved
    | hungUp => exact hserved
    | told t =>
      show ((after capacity history).box.deliver capacity t).isServed = true
      rw [Mailbox.deliver_of_served hserved (h history t [] rfl) (length_queue_after history)]
      exact hserved

/-- All that a mailbox was told of has come to its subscriber if nothing of it was refused. -/
theorem stream_eq {history : List Mailbox.Event} (h : Unrefused capacity history) :
    (after capacity history).stream = told history :=
  (stream_spec history).2 (isServed_after h)

/-- After a notification that was refused nothing comes to the subscriber any more. -/
theorem stream_of_refused {before later : List Mailbox.Event} {t : Transition}
    (h : (after capacity before).box.Refuses capacity) :
    (after capacity (before ++ .told t :: later)).stream = (after capacity before).stream := by
  obtain ⟨hnext, hstream⟩ := next_of_refused h t
  rw [after_append, List.foldl_cons, stream_foldl_of_unserved hnext, hstream]

/-- A subscriber with room for two who is told of three transitions and takes one out too late. -/
example (a b c d : Transition) :
    (after 2 [.told a, .told b, .told c, .taken 1, .told d]).stream = [a, b] := by
  rfl

end Reception

/-! ## All mailboxes -/

namespace Notifier

variable {n : Notifier}

/-- Tells every subscriber of some transitions. -/
def tell (n : Notifier) (ts : List Transition) : Notifier :=
  ts.foldl (fun n t => n.notify t.id t.kind) n

/-- A subscriber takes its first transitions out of its mailbox. -/
def take (n : Notifier) (subscriber count : Nat) : Notifier :=
  n.modifyBox subscriber (.take count)

/-- Transitions may be told in two parts. -/
theorem tell_append (n : Notifier) (ts us : List Transition) : n.tell (ts ++ us) = (n.tell ts).tell us :=
  List.foldl_append

/-- A transition is delivered to every mailbox. -/
theorem box?_notify (n : Notifier) (id : ItemId) (kind : TransitionKind) (k : Nat) :
    (n.notify id kind).box? k = (n.box? k).map (Mailbox.deliver n.capacity ⟨id, kind⟩) :=
  OrderedMap.get?_map ..

/-- What becomes of one subscriber when all are told, and of what there is once for all. -/
theorem tell_spec (n : Notifier) (ts : List Transition) :
    (n.tell ts).next = n.next ∧ (n.tell ts).capacity = n.capacity ∧
      ∀ k, (n.tell ts).box? k =
        (n.box? k).map fun b => ts.foldl (fun b t => b.deliver n.capacity t) b := by
  induction ts generalizing n with
  | nil => exact ⟨rfl, rfl, fun k => (Option.map_id' ..).symm⟩
  | cons t rest ih =>
    obtain ⟨hnext, hcapacity, hbox⟩ := ih (n.notify t.id t.kind)
    refine ⟨hnext, hcapacity, fun k => (hbox k).trans ?_⟩
    rw [box?_notify, Option.map_map]
    rfl

/-- Without subscribers there is nobody to tell. -/
theorem tell_new (size : Nat) (ts : List Transition) : (new size).tell ts = new size := by
  induction ts with
  | nil => rfl
  | cons t rest ih => exact ih

/-- A subscriber gets a fresh mailbox, and the other ones are as before. -/
theorem box?_subscribe (n : Notifier) (k : Nat) :
    n.subscribe.2.box? k = if k = n.next then some .fresh else n.box? k :=
  OrderedMap.get?_insert ..

/-- What is done to one mailbox does not concern the others. -/
theorem box?_modifyBox (n : Notifier) (subscriber : Nat) (f : Mailbox → Mailbox) (k : Nat) :
    (n.modifyBox subscriber f).box? k = if k = subscriber then (n.box? k).map f else n.box? k := by
  refine (OrderedMap.get?_map ..).trans ?_
  split
  · rfl
  · exact Option.map_id' ..

/-- Emptying a mailbox takes out all that is in it. -/
theorem receive_eq_take {subscriber : Nat} {b : Mailbox} (h : n.box? subscriber = some b) :
    n.receive subscriber = n.take subscriber b.queue.length := by
  have hmap : (n.boxes.map fun k b => if k = subscriber then { b with queue := [] } else b) =
      n.boxes.map fun k c => if k = subscriber then c.take b.queue.length else c := by
    unfold OrderedMap.map
    congr 1
    refine List.map_congr_left fun ⟨k, c⟩ hc => ?_
    by_cases hk : k = subscriber
    · subst hk
      obtain rfl : c = b := Option.some.inj ((OrderedMap.get?_eq_some.2 hc).symm.trans h)
      simp [Mailbox.take]
    · simp [hk]
  exact congrArg (fun boxes => { n with boxes }) hmap

end Notifier

end ContentTree
