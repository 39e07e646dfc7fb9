import ContentTree.Encoding.Identity
import ContentTree.Observation.Event
import ContentTree.Observation.Transition

/-!
# Written forms of what observers see

An event is a record whose first field, `type`, names its kind. In a table that field may stand
anywhere; the others are kept until the kind is known, so each of them has to be readable, whether
it is used or not.
-/

namespace ContentTree

namespace Event

/-- The words for the kinds of events. -/
def words : List String :=
  ["node_added", "node_removed", "node_moved", "property_added", "property_changed",
    "property_removed"]

/-- A record that begins with the kind. -/
def tagged (word : String) (fields : List (String × Document)) : Document :=
  .record (("type", .text word) :: fields)

/-- The event of a kind, given by its number, from the fields besides the kind. -/
def ofFields? (dialect : Dialect) (kind : Nat) (d : Datum) : Option Event :=
  match kind with
  | 0 => do
    let f ← d.record? dialect ["id", "parent"]
    return .nodeAdded (← f.required 0 (Portable.ofDatum? f.inner))
      (← f.optional 1 (Portable.ofDatum? f.inner))
  | 1 => do
    let f ← d.record? dialect ["id", "parent"]
    return .nodeRemoved (← f.required 0 (Portable.ofDatum? f.inner))
      (← f.optional 1 (Portable.ofDatum? f.inner))
  | 2 => do
    let f ← d.record? dialect ["id", "from", "to"]
    return .nodeMoved (← f.required 0 (Portable.ofDatum? f.inner))
      (← f.optional 1 (Portable.ofDatum? f.inner)) (← f.optional 2 (Portable.ofDatum? f.inner))
  | 3 => do
    let f ← d.record? dialect ["id"]
    return .propertyAdded (← f.required 0 (Portable.ofDatum? f.inner))
  | 4 => do
    let f ← d.record? dialect ["id"]
    return .propertyChanged (← f.required 0 (Portable.ofDatum? f.inner))
  | 5 => do
    let f ← d.record? dialect ["id"]
    return .propertyRemoved (← f.required 0 (Portable.ofDatum? f.inner))
  | _ => none

/-- The names inside what was kept: in a binary form fewer sizes of numbers count as names. -/
def keptDialect (dialect : Dialect) : Dialect :=
  if dialect.namesByNumber then .kept else dialect

/-- The number of the kind that a datum names. -/
def kind? (dialect : Dialect) (d : Datum) : Option Nat :=
  match d.naming dialect words with
  | .known i => some i
  | _ => none

/-- Whether a key is that of the kind. -/
def isKindKey : Datum → Bool
  | .text octets | .binary octets => octets = "type".toUTF8.toList
  | _ => false

/-- The deepest nesting of lists and tables that is kept, if the form has no limit of its own. -/
def maxDepth : Nat := 127

end Event

instance : Portable Event where
  document
    | .nodeAdded id parent =>
      Event.tagged "node_added"
        [("id", Portable.document id), ("parent", Portable.optionDocument parent)]
    | .nodeRemoved id parent =>
      Event.tagged "node_removed"
        [("id", Portable.document id), ("parent", Portable.optionDocument parent)]
    | .nodeMoved id source destination =>
      Event.tagged "node_moved"
        [("id", Portable.document id), ("from", Portable.optionDocument source),
          ("to", Portable.optionDocument destination)]
    | .propertyAdded id => Event.tagged "property_added" [("id", Portable.document id)]
    | .propertyChanged id => Event.tagged "property_changed" [("id", Portable.document id)]
    | .propertyRemoved id => Event.tagged "property_removed" [("id", Portable.document id)]
  ofDatum? dialect d :=
    let limits := { dialect with levels := some (dialect.levels.getD Event.maxDepth) }
    if !d.isReadable || !d.fits limits then none
    else
      match d with
      | .list (kind :: rest) => do
        Event.ofFields? (Event.keptDialect dialect) (← Event.kind? dialect kind) (.list rest)
      | .table entries =>
        match entries.filter fun e => Event.isKindKey e.1 with
        | [(_, kind)] => do
          Event.ofFields? (Event.keptDialect dialect) (← Event.kind? dialect kind)
            (.table (entries.filter fun e => !Event.isKindKey e.1))
        | _ => none
      | _ => none

namespace TransitionKind

/-- The word for a step. -/
def word : TransitionKind → String
  | created => "created"
  | modified => "modified"
  | destroyed => "destroyed"
  | discarded => "discarded"

/-- All steps in the order of their declaration. -/
def all : List TransitionKind :=
  [created, modified, destroyed, discarded]

end TransitionKind

instance : Portable TransitionKind where
  document k := .tag k.word
  ofDatum? dialect d := do
    TransitionKind.all[← d.tag? dialect (TransitionKind.all.map TransitionKind.word)]?

instance : Portable Transition where
  document t :=
    .record [("id", Portable.document t.id), ("transition", Portable.document t.kind)]
  ofDatum? dialect d := do
    let f ← d.record? dialect ["id", "transition"]
    return {
      id := ← f.required 0 (Portable.ofDatum? f.inner)
      kind := ← f.required 1 (Portable.ofDatum? f.inner) }

end ContentTree
