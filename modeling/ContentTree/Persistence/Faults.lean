import ContentTree.Persistence.Backend

/-!
# Backends that fail on demand

A backend together with a list of failures that are switched on: to try what happens to those who
use it.
-/

namespace ContentTree

/-- Failures that are switched on. -/
structure Faults where
  /-- Batches are turned down. -/
  store : Bool
  /-- Nothing can be read. -/
  broken : Bool
  /-- These items, and the reference records of these nodes, cannot be loaded. -/
  loads : List ItemId
  /-- New states of these items have data of the wrong kind. -/
  wrongNew : List ItemId
  deriving DecidableEq, Repr

namespace Faults

/-- No failures. -/
def none : Faults :=
  ⟨false, false, [], []⟩

/-- Fails if nothing can be read. -/
def checkDevice (f : Faults) : Except Error Unit :=
  if f.broken then .error (.io (.other "device unavailable")) else .ok ()

/-- Fails if an item cannot be loaded. -/
def checkLoad (f : Faults) (id : ItemId) (display : String) : Except Error Unit := do
  f.checkDevice
  if id ∈ f.loads then throw (.persistence (.stated ("cannot read " ++ display)))

/-- A state with data of the wrong kind. -/
def wrongData (id : ItemId) : ItemState :=
  match id with
  | .node _ => ⟨id, .new, 0, .property (.new .undefined false)⟩
  | .property _ => ⟨id, .new, 0, .node (.new ⟨""⟩ Option.none)⟩

end Faults

/-- A step after a check. -/
def Backend.guarded {σ α : Type} (check : Faults → Except Error Unit) (step : EStateM Error σ α) :
    EStateM Error (σ × Faults) α := do
  match check (← get).2 with
  | .ok () => Backend.onPart Prod.fst (fun t s => (s, t.2)) step
  | .error e => throw e

/-- A backend with failures that can be switched on. -/
def Backend.faulty {σ : Type} (b : Backend σ) : Backend (σ × Faults) where
  load id := guarded (·.checkLoad id id.display) (b.load id)
  contains id := guarded Faults.checkDevice (b.contains id)
  createNew t id := if id ∈ t.2.wrongNew then Faults.wrongData id else b.createNew t.1 id
  store set :=
    guarded (fun f => if f.store then .error (.persistence (.stated "disk full")) else .ok ())
      (b.store set)
  loadReferences target :=
    guarded (·.checkLoad (.node target) (ReferencesId.mk target).display) (b.loadReferences target)
  containsReferences target := guarded Faults.checkDevice (b.containsReferences target)

end ContentTree
