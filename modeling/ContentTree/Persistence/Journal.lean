import ContentTree.Disk.Device
import ContentTree.Persistence.Record

/-!
# Journals

A journal is a file of entries behind a header. Each entry has its length in front and its checksum
behind it; reading stops at the first entry that is not whole. A batch is pending if an entry
announces it and none says that it was committed or rolled back.

Entries go through a buffer to the file, and what could not be written stays in the buffer. The
journal is closed while there is no buffer.
-/

namespace ContentTree

namespace JournalEntry

/-- The longest entry that is read. -/
def maxLength : Nat := 256 * 1024 * 1024

/-- The three pieces in which an entry is written: length, entry, checksum. -/
def pieces (e : JournalEntry) : List Bytes :=
  let encoded := Portable.toBytes e
  [Bytes.littleEndian 4 encoded.length, encoded,
    Bytes.littleEndian 4 (Crc32.checksum encoded).toNat]

/-- An entry as it stands in the file. -/
def write (e : JournalEntry) : Bytes :=
  e.pieces.flatten

/-- Reads an entry from the front of a byte string; answers what follows it. -/
def read (bytes : Bytes) : Except Error (JournalEntry × Bytes) := do
  let (stated, rest) ← Record.take 4 bytes
  let length := Bytes.ofLittleEndian stated
  if maxLength < length then throw (.corruption .entryTooLarge)
  let (encoded, rest) ← Record.take length rest
  let rest ← Record.checkSum encoded rest
  return (← Record.decode encoded, rest)

/-- What is taken from octets leaves the rest of them. -/
theorem length_of_take {n : Nat} {bytes front rest : Bytes}
    (h : Record.take n bytes = .ok (front, rest)) : bytes.length = n + rest.length := by
  unfold Record.take at h
  split at h
  · next parts hp =>
    cases h
    obtain ⟨rfl, rfl⟩ := Bytes.append_of_splitAt? hp
    simp
  · cases h

/-- A checksum takes four octets. -/
theorem length_of_checkSum {payload bytes rest : Bytes}
    (h : Record.checkSum payload bytes = .ok rest) : bytes.length = 4 + rest.length := by
  unfold Record.checkSum at h
  cases ht : Record.take 4 bytes with
  | error e => rw [ht] at h; cases h
  | ok parts =>
    obtain ⟨stated, tail⟩ := parts
    rw [ht] at h
    simp only [bind, Except.bind] at h
    split at h
    · cases h
    · cases h; exact length_of_take ht

/-- What follows an entry is shorter than what it was read from. -/
theorem length_of_read {bytes rest : Bytes} {e : JournalEntry}
    (h : read bytes = .ok (e, rest)) : rest.length < bytes.length := by
  unfold read at h
  -- each part that is read takes octets from the front
  cases ht : Record.take 4 bytes with
  | error e => rw [ht] at h; cases h
  | ok parts =>
    obtain ⟨stated, tail⟩ := parts
    have hl := length_of_take ht
    rw [ht] at h
    simp only [bind, Except.bind] at h
    split at h
    · cases h
    · cases hp : Record.take (Bytes.ofLittleEndian stated) tail with
      | error e => rw [hp] at h; cases h
      | ok parts =>
        obtain ⟨encoded, tail'⟩ := parts
        have hl' := length_of_take hp
        rw [hp] at h
        simp only at h
        cases hc : Record.checkSum encoded tail' with
        | error e => rw [hc] at h; cases h
        | ok tail'' =>
          have hl'' := length_of_checkSum hc
          rw [hc] at h
          simp only at h
          cases hd : (Record.decode encoded : Except Error JournalEntry) with
          | error e => rw [hd] at h; cases h
          | ok entry => rw [hd] at h; cases h; omega

/-- The entries at the front of a byte string, up to the first that is not whole. -/
def scan (bytes : Bytes) : List JournalEntry :=
  match _h : read bytes with
  | .ok (e, rest) => e :: scan rest
  | .error _ => []
termination_by bytes.length
decreasing_by exact length_of_read _h

/-- The numbers of the batches that entries resolve. -/
def resolved (entries : List JournalEntry) : List Nat :=
  (entries.filter fun e => e.status ≠ .pending).map JournalEntry.seq

/-- The last entry that announces a batch, by the number of the batch. -/
def announced (entries : List JournalEntry) : OrderedMap Nat JournalEntry :=
  (entries.filter fun e => e.status = .pending).foldl (fun m e => m.insert e.seq e) .empty

/-- The entries of pending batches, by number. -/
def pending (entries : List JournalEntry) : List JournalEntry :=
  ((announced entries).values.filter fun e => e.seq ∉ resolved entries).mergeSort
    fun a b => a.seq ≤ b.seq

end JournalEntry

/-- An open file that is written through a buffer. -/
structure Writer where
  inode : Nat
  /-- Octets that have not reached the file. -/
  buffered : Bytes
  deriving DecidableEq, Repr

/-- An append-only file of batches. -/
structure Journal where
  path : Path
  /-- Number of the next batch. It has 64 bits where it is stored. -/
  nextSeq : Nat
  /-- The open file, unless the journal is closed. -/
  writer : Option Writer
  deriving DecidableEq, Repr

namespace Journal

/-- The octets that begin a journal. -/
def magic : Bytes := [0x4a, 0x4e, 0x4c, 0x00]

/-- The one version of the format. -/
def version : UInt8 := 1

/-- Octets in front of the entries. -/
def headerLength : Nat := 5

/-- The number of octets that the buffer holds. -/
def capacity : Nat := 8192

/-- What follows the header. -/
def body (contents : Bytes) : Except Error Bytes := do
  let (found, rest) ← Record.take 4 contents
  if found ≠ magic then throw (.invalidFormat .journalMagic)
  let (found, rest) ← Record.take 1 rest
  if found ≠ [version] then
    throw (.invalidFormat (.journalVersion (Bytes.ofLittleEndian found)))
  return rest

/-- Something done with a journal on its device. -/
abbrev Action := EStateM Error (Hosted Journal)

/-- Writes a header into an empty file. -/
def writeHeader (inode : Nat) : Device.Action Unit := do
  Device.write inode magic
  Device.write inode [version]
  Device.sync inode

/-- The number of the first batch after these entries. -/
def seqAfter (entries : List JournalEntry) : Nat :=
  entries.foldl (fun n e => max n e.seq) 0 + 1

/-- Opens a journal, which is made if there is none. -/
def openAt (path : Path) : Device.Action Journal := do
  let nextSeq ←
    if (← get).disk.has path then
      match body (← Device.query (·.read path)) with
      | .ok rest => pure (seqAfter (JournalEntry.scan rest))
      | .error e => throw e
    else do
      writeHeader (← Device.create path)
      pure 1
  let inode ← Device.openEnd path
  return ⟨path, nextSeq, some ⟨inode, []⟩⟩

/-- Replaces the octets that wait in the buffer. -/
def setBuffered (buffered : Bytes) : Action Unit :=
  modify fun s =>
    { s with value := { s.value with writer := s.value.writer.map ({ · with buffered }) } }

/-- The open file. -/
def openWriter : Action Writer := do
  match (← get).value.writer with
  | some w => return w
  | none => throw (.persistence .journalClosed)

/-- Writes out the buffer. Octets that do not reach the file stay in it. -/
def flush : Action Unit := do
  let w ← openWriter
  if w.buffered.isEmpty then return ()
  let before := ((← get).device.disk.contentsOf w.inode).length
  try
    Hosted.onDevice (Device.write w.inode w.buffered)
    setBuffered []
  catch e =>
    let after := ((← get).device.disk.contentsOf w.inode).length
    setBuffered (w.buffered.drop (after - before))
    throw e

/-- Puts a piece into the buffer, which is written out first if the piece does not fit. A piece as
long as the buffer goes to the file at once. -/
def put (piece : Bytes) : Action Unit := do
  if capacity < (← openWriter).buffered.length + piece.length then flush
  let w ← openWriter
  if capacity ≤ piece.length then Hosted.onDevice (Device.write w.inode piece)
  else setBuffered (w.buffered ++ piece)

/-- Appends an entry and forces it to the medium. -/
def append (e : JournalEntry) : Action Unit := do
  let w ← openWriter
  e.pieces.forM put
  flush
  Hosted.onDevice (Device.sync w.inode)

/-- Announces a batch; answers its number, which is used up even if this fails. -/
def log (batch : ChangeSet) : Action Nat := do
  let s ← get
  let seq := s.value.nextSeq
  set { s with value := { s.value with nextSeq := seq + 1 } }
  append ⟨seq, .pending, some batch, s.device.time⟩
  return seq

/-- Says what became of a batch. -/
def mark (seq : Nat) (status : JournalStatus) : Action Unit := do
  append ⟨seq, status, none, (← get).device.time⟩

/-- The batch is in place. -/
def commit (seq : Nat) : Action Unit :=
  mark seq .committed

/-- The batch was undone. -/
def rollBack (seq : Nat) : Action Unit :=
  mark seq .rolledBack

/-- The entries of pending batches. A folder under the name of the journal has none. -/
def pendingEntries : Action (List JournalEntry) := do
  let path := (← get).value.path
  Hosted.onDevice <| Device.query fun disk => do
    match ← disk.lookup path with
    | (_, some (.file inode)) =>
      return JournalEntry.pending
        (JournalEntry.scan ((disk.contentsOf inode).drop headerLength))
    | (_, some .folder) => return []
    | (_, none) => throw .notFound

/-- Whether there is a pending batch. -/
def hasPending : Action Bool :=
  return !(← pendingEntries).isEmpty

/-- Writes out what is left in the buffer, as well as that goes, and closes the file. -/
def close : Action Unit := do
  try flush catch _ => pure ()
  modify fun s => { s with value := { s.value with writer := none } }

/-- Empties the journal; batches are numbered from 1 again. -/
def clear : Action Unit := do
  close
  let path := (← get).value.path
  let inode ← Hosted.onDevice do
    writeHeader (← Device.truncate path)
    Device.openEnd path
  modify fun s => { s with value := { s.value with nextSeq := 1, writer := some ⟨inode, []⟩ } }

end Journal

end ContentTree
