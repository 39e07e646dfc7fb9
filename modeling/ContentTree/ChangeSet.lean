import ContentTree.Item.State
import ContentTree.References

/-!
# Batches of changes

What a backend applies in one step: items to write, items to remove, and reference records to write
or, if they are empty, to remove.
-/

namespace ContentTree

/-- A batch of changes that stands on its own. -/
structure ChangeSet where
  added : List ItemState
  modified : List ItemState
  deleted : List ItemId
  references : List NodeReferences
  deriving DecidableEq, Repr

namespace ChangeSet

/-- The batch that changes nothing. -/
def empty : ChangeSet :=
  ⟨[], [], [], []⟩

instance : EmptyCollection ChangeSet := ⟨empty⟩

instance : Inhabited ChangeSet := ⟨empty⟩

/-- Whether nothing is changed. -/
def isEmpty (set : ChangeSet) : Bool :=
  set.added.isEmpty && set.modified.isEmpty && set.deleted.isEmpty && set.references.isEmpty

/-- The items to write, those added first. -/
def written (set : ChangeSet) : List ItemState :=
  set.added ++ set.modified

end ChangeSet

end ContentTree
