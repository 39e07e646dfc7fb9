import ContentTree.ChangeSet

/-!
# Journal entries

An entry announces a batch, or says what became of the batch with the same number.
-/

namespace ContentTree

/-- What an entry says of its batch. -/
inductive JournalStatus where
  /-- The batch is about to be applied. -/
  | pending
  /-- The batch is in place. -/
  | committed
  /-- The batch failed and its files were put back. -/
  | rolledBack
  deriving DecidableEq, Repr

/-- An entry of a journal. -/
structure JournalEntry where
  /-- Number of the batch. -/
  seq : Nat
  status : JournalStatus
  /-- The batch, unless the entry only marks one. -/
  batch : Option ChangeSet
  /-- Seconds since the start of 1970. -/
  timestamp : Nat
  deriving DecidableEq, Repr

end ContentTree
