import ContentTree.Observation.Channel
import ContentTree.Workspace.Commit

/-!
# A sink that sends event bundles

Events are collected while the instances are as they were before the commit, and sent on a channel
after it.
-/

namespace ContentTree

/-- A channel, and the events of the commit that is being made. -/
structure Collector where
  channel : Channel
  collection : Collection
  deriving DecidableEq, Repr

namespace Collector

variable {σ : Type}

/-- A collector for a channel. -/
def new (channel : Channel) : Collector :=
  ⟨channel, .empty⟩

/-- The parent that the shared instance of an item records, if it can be read. -/
def sharedParent (held : List Handle) (id : ItemId) :
    EStateM Error (Workspace σ × Collector) (Option NodeId) :=
  Backend.onPart Prod.fst (fun t w => (w, t.2)) <| show Workspace.Action σ (Option NodeId) from
    try
      let h ← Workspace.itemState held id
      return Event.recordedParent ((← get).heap.read h)
    catch _ => return none

/-- Takes up the events of a log. -/
def collect (held : List Handle) (root : NodeId) (log : ChangeLog LocalItem) :
    EStateM Error (Workspace σ × Collector) Unit := do
  let events ← Event.ofLog (sharedParent held) log
  modify fun (w, c) => (w, { c with collection := c.collection.collect root events })

/-- The sink that sends event bundles. -/
def sink (σ : Type) : Sink σ Collector where
  start c := { c with collection := .empty }
  create := collect
  prepare := modify fun (w, c) => (w, { c with collection := { c.collection with isPrepared := true } })
  dispatch _ := fun (w, c) =>
    (w, { channel := c.collection.dispatch c.channel, collection := .empty })

end Collector

end ContentTree
