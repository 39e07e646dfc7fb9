import ContentTree.Collection.OrderedMap
import ContentTree.Item.Heap

/-!
# Cache of shared instances

The one shared instance of each loaded item, most recently used first. Instances that only the cache
holds can be swept, the least recently used first.
-/

namespace ContentTree

/-- Shared instances by identity, the most recently used first. -/
structure Cache where
  entries : OrderedMap ItemId Handle
  deriving DecidableEq

namespace Cache

/-- The cache without entries. -/
def empty : Cache :=
  ⟨.empty⟩

instance : EmptyCollection Cache := ⟨empty⟩

instance : Inhabited Cache := ⟨empty⟩

/-- The number of entries. -/
def size (c : Cache) : Nat :=
  c.entries.size

/-- Cached identities, the most recently used first. -/
def ids (c : Cache) : List ItemId :=
  c.entries.keys

/-- Whether an item is cached. -/
def contains (c : Cache) (id : ItemId) : Bool :=
  c.entries.contains id

/-- The instance of an item, without touching its place. -/
def peek? (c : Cache) (id : ItemId) : Option Handle :=
  c.entries.get? id

/-- Puts an instance in front under its identity; answers the one that it replaces. -/
def put (c : Cache) (h : Handle) : Option Handle × Cache :=
  (c.peek? h.id, ⟨c.entries.insertFront h.id h⟩)

/-- The instance of an item, which moves to the front. -/
def retrieve (c : Cache) (id : ItemId) : Option Handle × Cache :=
  match c.peek? id with
  | some h => (some h, ⟨c.entries.insertFront id h⟩)
  | none => (none, c)

/-- Puts a loaded state in front as a new instance that exists. -/
def putLoaded (c : Cache) (heap : Heap) (id : ItemId) (s : ItemState) : Handle × Cache × Heap :=
  let (h, heap) := heap.alloc (s.withStatus .existing)
  (h, ⟨c.entries.insertFront id h⟩, heap)

/-- Takes an item out; answers its instance. -/
def evict (c : Cache) (id : ItemId) : Option Handle × Cache :=
  (c.peek? id, ⟨c.entries.erase id⟩)

/-- Takes an item out if its cached instance is the given one; tells whether it was. -/
def evictInstance (c : Cache) (h : Handle) : Bool × Cache :=
  if c.peek? h.id = some h then (true, ⟨c.entries.erase h.id⟩) else (false, c)

/-- The number of handles to an instance: those of the cache, and those that others hold. -/
def handles (c : Cache) (held : List Handle) (h : Handle) : Nat :=
  c.entries.values.count h + held.count h

/-- Whether an entry may be swept: the cache has the only handle, and the instance is not new. -/
def isSweepable (c : Cache) (heap : Heap) (held : List Handle) (h : Handle) : Bool :=
  c.handles held h = 1 && (heap.read h).status != .new

/-- Items to sweep to come down to a number of entries, the least recently used first. -/
def sweepable (c : Cache) (heap : Heap) (held : List Handle) (target : Nat) : List ItemId :=
  ((c.entries.entries.reverse.filter fun e => c.isSweepable heap held e.2).map Prod.fst).take
    (c.size - target)

/-- Sweeps entries until a number of them remain, or none that may be swept; answers what was
swept. `held` lists the handles that others have. -/
def sweep (c : Cache) (heap : Heap) (held : List Handle) (target : Nat) : List ItemId × Cache :=
  let swept := c.sweepable heap held target
  (swept, ⟨swept.foldl OrderedMap.erase c.entries⟩)

/-- A line for each entry, after a line with their number. `locked` lists instances that somebody
is writing to. -/
def dump (c : Cache) (heap : Heap) (held locked : List Handle) : String :=
  "ItemStateCache (" ++ toString c.size ++ " entries)\n"
    ++ String.join (c.entries.entries.map fun (id, h) =>
      "  " ++ id.display ++ " status="
        ++ (if h ∈ locked then "<locked>" else (heap.read h).status.display)
        ++ " handles=" ++ toString (c.handles held h) ++ "\n")

end Cache

end ContentTree
