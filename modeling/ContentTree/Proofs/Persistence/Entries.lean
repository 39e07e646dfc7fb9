import ContentTree.Persistence.Journal
import ContentTree.Proofs.Encoding.Change

/-!
# Entries of a journal

An entry stands in a journal as a frame: its length, the octets that stand for it, and their checksum.
It is read back from the front of what was written, and of an entry that is not written to its end
nothing is read at all. So a scan finds the entries that are whole, in the order in which they were
written (`scan_append`, `scan_torn`).
-/

namespace ContentTree

namespace Bytes

/-- The number that octets stand for fits into them. -/
theorem ofLittleEndian_lt (bytes : Bytes) : ofLittleEndian bytes < 1 <<< (8 * bytes.length) := by
  induction bytes with
  | nil => exact Nat.one_pos
  | cons b rest ih =>
    have hb : b.toNat < 256 := b.toNat_lt
    rw [ofLittleEndian, List.length_cons, Nat.mul_add, Nat.shiftLeft_add, Nat.shiftLeft_eq _ (8 * 1)]
    omega

/-- Octets are those of the number that they denote. -/
theorem littleEndian_ofLittleEndian (bytes : Bytes) :
    littleEndian bytes.length (ofLittleEndian bytes) = bytes := by
  induction bytes with
  | nil => rfl
  | cons b rest ih =>
    have hb : b.toNat < 256 := b.toNat_lt
    have hlow : (b.toNat + 256 * ofLittleEndian rest) % 256 = b.toNat := by omega
    have hhigh : (b.toNat + 256 * ofLittleEndian rest) / 256 = ofLittleEndian rest := by omega
    rw [ofLittleEndian, List.length_cons, littleEndian, hlow, hhigh, ih, UInt8.ofNat_toNat]

end Bytes

/-- What a sequence of two steps that succeeds went through. -/
theorem exists_of_bind_eq_ok {α β : Type} {x : Except Error α} {f : α → Except Error β} {b : β}
    (h : x >>= f = .ok b) : ∃ a, x = .ok a ∧ f a = .ok b := by
  cases x with
  | error err => cases h
  | ok a => exact ⟨a, rfl, h⟩

namespace Record

/-- Taking as many octets as there are in front gives these. -/
theorem take_append (front rest : Bytes) : take front.length (front ++ rest) = .ok (front, rest) := by
  rw [take, Bytes.splitAt?_append]

/-- Too few octets are an unexpected end. -/
theorem take_of_lt {n : Nat} {bytes : Bytes} (h : bytes.length < n) :
    take n bytes = .error (.io .unexpectedEnd) := by
  rw [take, Bytes.splitAt?_of_lt h]

/-- What is taken stands in front of what is left. -/
theorem take_eq_ok {n : Nat} {bytes front rest : Bytes} (h : take n bytes = .ok (front, rest)) :
    bytes = front ++ rest ∧ front.length = n := by
  unfold take at h
  split at h
  · next parts hparts =>
    cases h
    exact Bytes.append_of_splitAt? hparts
  · cases h

/-- What a checksum was put behind passes. -/
theorem checkSum_append (payload rest : Bytes) :
    checkSum payload (Bytes.littleEndian 4 (Crc32.checksum payload).toNat ++ rest) = .ok rest := by
  have hlt : (Crc32.checksum payload).toNat < 1 <<< (8 * 4) := (Crc32.checksum payload).toNat_lt
  have htake := take_append (Bytes.littleEndian 4 (Crc32.checksum payload).toNat) rest
  rw [Bytes.length_littleEndian] at htake
  rw [checkSum, htake]
  simp only [bind, Except.bind, Bytes.ofLittleEndian_littleEndian hlt, UInt32.ofNat_toNat]
  rw [if_neg fun hne => hne rfl]
  rfl

/-- What passes has its checksum behind it. -/
theorem checkSum_eq_ok {payload bytes rest : Bytes} (h : checkSum payload bytes = .ok rest) :
    bytes = Bytes.littleEndian 4 (Crc32.checksum payload).toNat ++ rest := by
  obtain ⟨⟨stated, tail⟩, hstated, hmatch⟩ := exists_of_bind_eq_ok h
  obtain ⟨rfl, hlen⟩ := take_eq_ok hstated
  dsimp only at hmatch
  split at hmatch
  · cases hmatch
  · next heq =>
    cases hmatch
    rw [ne_eq, not_not] at heq
    have hlt := Bytes.ofLittleEndian_lt stated
    have hback := Bytes.littleEndian_ofLittleEndian stated
    rw [hlen] at hlt hback
    have hsum : (Crc32.checksum payload).toNat = Bytes.ofLittleEndian stated := by
      rw [← heq, UInt32.toNat_ofNat']
      exact Nat.mod_eq_of_lt hlt
    rw [hsum, hback]

end Record

namespace JournalEntry

/-- An entry that the reader takes: its numbers have their widths, and it is not too long. -/
structure Readable (e : JournalEntry) : Prop where
  fits : e.Fits
  length_le : (Portable.toBytes e).length ≤ maxLength

variable {e : JournalEntry}

/-- The octets that stand for an entry, with their length in front and their checksum behind them. -/
def frame (encoded : Bytes) : Bytes :=
  Bytes.littleEndian 4 encoded.length ++
    (encoded ++ Bytes.littleEndian 4 (Crc32.checksum encoded).toNat)

/-- A frame is eight octets longer than what it frames. -/
theorem length_frame (encoded : Bytes) : (frame encoded).length = encoded.length + 8 := by
  rw [frame, List.length_append, List.length_append, Bytes.length_littleEndian,
    Bytes.length_littleEndian]
  omega

/-- An entry is written as the frame of its encoding. -/
theorem write_eq (e : JournalEntry) : e.write = frame (Portable.toBytes e) := by
  simp only [write, pieces, frame, List.flatten_cons, List.flatten_nil, List.append_nil]

/-- A written entry is eight octets longer than its encoding. -/
theorem length_write (e : JournalEntry) : e.write.length = (Portable.toBytes e).length + 8 := by
  rw [write_eq, length_frame]

/-- A length that entries may have fits the four octets in front. -/
theorem length_lt_of_le {encoded : Bytes} (h : encoded.length ≤ maxLength) :
    encoded.length < 1 <<< (8 * 4) := by
  have hmax : maxLength = 0x10000000 := rfl
  show _ < 0x100000000
  omega

/-- What stands in a frame is decoded, whatever follows the frame. -/
theorem read_frame {encoded : Bytes} (h : encoded.length ≤ maxLength) (rest : Bytes) :
    read (frame encoded ++ rest) = (Record.decode encoded).map fun e => (e, rest) := by
  have hstated := Record.take_append (Bytes.littleEndian 4 encoded.length)
    (encoded ++ (Bytes.littleEndian 4 (Crc32.checksum encoded).toNat ++ rest))
  rw [Bytes.length_littleEndian] at hstated
  rw [frame, List.append_assoc, List.append_assoc, read, hstated]
  simp only [bind, Except.bind, Bytes.ofLittleEndian_littleEndian (length_lt_of_le h)]
  rw [if_neg (Nat.not_lt_of_le h)]
  simp only [Record.take_append, Record.checkSum_append]
  cases (Record.decode encoded : Except Error JournalEntry) <;> rfl

/-- An entry is read if and only if a frame stands in front that is not too long and from which the
entry is decoded. -/
theorem read_eq_ok_iff {bytes rest : Bytes} : read bytes = .ok (e, rest) ↔
    ∃ encoded, bytes = frame encoded ++ rest ∧ encoded.length ≤ maxLength ∧
      Portable.ofBytes? encoded = some e := by
  constructor
  · intro h
    obtain ⟨⟨stated, tail⟩, hstated, hlong⟩ := exists_of_bind_eq_ok h
    obtain ⟨rfl, hwidth⟩ := Record.take_eq_ok hstated
    have hback := Bytes.littleEndian_ofLittleEndian stated
    rw [hwidth] at hback
    dsimp only at hlong
    split at hlong
    · cases hlong
    · next hle =>
      obtain ⟨⟨encoded, tail'⟩, hencoded, hrest⟩ := exists_of_bind_eq_ok hlong
      obtain ⟨rfl, hlen⟩ := Record.take_eq_ok hencoded
      obtain ⟨tail'', hsum, hdecoded⟩ := exists_of_bind_eq_ok hrest
      obtain ⟨e', hdecode, hanswer⟩ := exists_of_bind_eq_ok hdecoded
      cases hanswer
      have htail : tail' = _ := Record.checkSum_eq_ok hsum
      refine ⟨encoded, ?_, by omega, ?_⟩
      · rw [frame, hlen, hback, htail, List.append_assoc, List.append_assoc]
      · rw [Record.decode] at hdecode
        split at hdecode
        · next hfound => exact hfound.trans (congrArg some (Except.ok.inj hdecode))
        · cases hdecode
  · rintro ⟨encoded, rfl, hle, hdecode⟩
    rw [read_frame hle, Record.decode, hdecode]
    rfl

/-- The length of a readable entry fits into its field. -/
theorem Readable.length_lt (h : e.Readable) : (Portable.toBytes e).length < 1 <<< (8 * 4) :=
  length_lt_of_le h.length_le

/-- Only the batch of an entry is long. -/
theorem length_le (e : JournalEntry) : (Portable.toBytes e).length ≤
    30 + (MessagePack.encode (Portable.optionDocument e.batch)).length := by
  have hbytes : Portable.toBytes e =
      0x94 :: (MessagePack.encode (.natural e.seq) ++ (MessagePack.encode (.tag e.status.word) ++
        (MessagePack.encode (Portable.optionDocument e.batch) ++
          (MessagePack.encode (.natural e.timestamp) ++ [])))) := rfl
  have hword : (MessagePack.encode (.tag e.status.word)).length ≤ 11 := by
    cases e.status <;> decide +kernel
  have hseq := MessagePack.length_encode_natural_le e.seq
  have htime := MessagePack.length_encode_natural_le e.timestamp
  rw [hbytes]
  simp only [List.length_cons, List.length_append, List.length_nil]
  omega

/-- An entry that only marks a batch is short. -/
theorem length_mark_le (seq time : Nat) (status : JournalStatus) :
    (Portable.toBytes (⟨seq, status, none, time⟩ : JournalEntry)).length ≤ 31 :=
  length_le ⟨seq, status, none, time⟩

/-- A mark can be read back. -/
theorem readable_mark {seq time : Nat} (status : JournalStatus) (hseq : seq ≤ maxUInt64)
    (htime : time ≤ maxUInt64) : Readable ⟨seq, status, none, time⟩ :=
  ⟨⟨hseq, htime, fun _ h => nomatch h⟩, Nat.le_trans (length_mark_le seq time status) (by decide)⟩

/-- The announcement of a batch without changes is read back. -/
theorem readable_announcement_empty {seq time : Nat} (hseq : seq ≤ maxUInt64)
    (htime : time ≤ maxUInt64) : Readable ⟨seq, .pending, some ∅, time⟩ := by
  have hfits : ChangeSet.Fits ∅ := fun _ h => nomatch h
  have hset : (MessagePack.encode (Portable.optionDocument (some (∅ : ChangeSet)))).length = 5 := by
    decide +kernel
  have hlen := length_le ⟨seq, .pending, some ∅, time⟩
  rw [hset] at hlen
  exact ⟨⟨hseq, htime, fun _ h => Option.some.inj h ▸ hfits⟩, Nat.le_trans hlen (by decide)⟩

/-- The encoding of a readable entry decodes to the entry. -/
theorem Readable.ofBytes? (h : e.Readable) : Portable.ofBytes? (Portable.toBytes e) = some e := by
  have hback := (told_journalEntry h.fits).ofBytes? (by decide)
    (MessagePack.lengthsFit_of_length _ h.length_lt) []
  rwa [List.append_nil] at hback

/-- A readable entry is read back, with what follows it left over. -/
theorem read_write (h : e.Readable) (rest : Bytes) : read (e.write ++ rest) = .ok (e, rest) := by
  rw [write_eq, read_frame h.length_le, Record.decode, h.ofBytes?]
  rfl

/-- However long an entry is, it is read as it was written if anything is read. -/
theorem read_write_or (hfits : e.Fits) (hl : MessagePack.LengthsFit (Portable.document e))
    (rest : Bytes) :
    read (e.write ++ rest) = .ok (e, rest) ∨ ∃ err, read (e.write ++ rest) = .error err := by
  by_cases hle : (Portable.toBytes e).length ≤ maxLength
  · exact Or.inl (read_write ⟨hfits, hle⟩ rest)
  refine Or.inr ?_
  have hstated := Record.take_append (Bytes.littleEndian 4 (Portable.toBytes e).length)
    (Portable.toBytes e ++ (Bytes.littleEndian 4 (Crc32.checksum (Portable.toBytes e)).toNat ++ rest))
  rw [Bytes.length_littleEndian] at hstated
  rw [write_eq, frame, List.append_assoc, List.append_assoc, read, hstated]
  simp only [bind, Except.bind]
  -- a length that does not fit its four octets may be stated as a small one
  generalize Bytes.ofLittleEndian (Bytes.littleEndian 4 (Portable.toBytes e).length) = stated
  split
  · exact ⟨_, rfl⟩
  · next hstated =>
    have hlt : stated < (Portable.toBytes e).length := by omega
    have hlen : ((Portable.toBytes e).take stated).length = stated := by
      rw [List.length_take]
      omega
    have hcut := Record.take_append ((Portable.toBytes e).take stated)
      ((Portable.toBytes e).drop stated ++
        (Bytes.littleEndian 4 (Crc32.checksum (Portable.toBytes e)).toNat ++ rest))
    rw [hlen, ← List.append_assoc, List.take_append_drop] at hcut
    obtain ⟨err, hdecode⟩ : ∃ err,
        (Record.decode ((Portable.toBytes e).take stated) : Except Error JournalEntry) = .error err := by
      rw [Record.decode, (told_journalEntry hfits).ofBytes?_of_part (by decide) hl
        (List.take_prefix ..) fun heq => Nat.ne_of_lt hlt (hlen.symm.trans (congrArg _ heq))]
      exact ⟨_, rfl⟩
    simp only [hcut]
    cases Record.checkSum ((Portable.toBytes e).take stated) ((Portable.toBytes e).drop stated ++
        (Bytes.littleEndian 4 (Crc32.checksum (Portable.toBytes e)).toNat ++ rest)) with
    | error err => exact ⟨err, rfl⟩
    | ok rest' =>
      simp only [hdecode]
      exact ⟨err, rfl⟩

/-- An entry that is not there to its end is not read. -/
theorem read_torn (h : e.Readable) {torn : Bytes} (hpart : torn <+: e.write)
    (hne : torn ≠ e.write) : ∃ err, read torn = .error err := by
  have hlen := h.length_lt
  have hlt : torn.length < e.write.length :=
    Nat.lt_of_le_of_ne hpart.length_le fun heq => hne (hpart.eq_of_length heq)
  rw [length_write] at hlt
  obtain ⟨missing, hmissing⟩ := hpart
  by_cases hshort : torn.length < 4
  · rw [read, Record.take_of_lt hshort]
    exact ⟨_, rfl⟩
  -- the length is there, and says more than what follows
  obtain ⟨rest, rfl⟩ : ∃ rest, torn = Bytes.littleEndian 4 (Portable.toBytes e).length ++ rest := by
    have hfront : Bytes.littleEndian 4 (Portable.toBytes e).length <+: torn := by
      refine List.prefix_of_prefix_length_le ?_ ⟨missing, hmissing⟩ ?_
      · rw [write_eq, frame]
        exact List.prefix_append _ _
      · rw [Bytes.length_littleEndian]
        omega
    obtain ⟨rest, hrest⟩ := hfront
    exact ⟨rest, hrest.symm⟩
  rw [List.length_append, Bytes.length_littleEndian] at hlt
  have hstated := Record.take_append (Bytes.littleEndian 4 (Portable.toBytes e).length) rest
  rw [Bytes.length_littleEndian] at hstated
  rw [read, hstated]
  simp only [bind, Except.bind, Bytes.ofLittleEndian_littleEndian hlen]
  rw [if_neg (Nat.not_lt_of_le h.length_le)]
  by_cases hcut : rest.length < (Portable.toBytes e).length
  · rw [Record.take_of_lt hcut]
    exact ⟨_, rfl⟩
  · obtain ⟨sum, rfl⟩ : ∃ sum, rest = Portable.toBytes e ++ sum := by
      rw [write_eq, frame, List.append_assoc] at hmissing
      have htail := List.append_cancel_left hmissing
      have hfront : Portable.toBytes e <+: rest :=
        List.prefix_of_prefix_length_le (List.prefix_append _ _) ⟨missing, htail⟩ (by omega)
      obtain ⟨sum, hsum⟩ := hfront
      exact ⟨sum, hsum.symm⟩
    rw [List.length_append] at hlt
    simp only [Record.take_append]
    rw [Record.checkSum, Record.take_of_lt (by omega)]
    exact ⟨_, rfl⟩

/-- An entry that can be read comes first in the scan. -/
theorem scan_of_ok {bytes rest : Bytes} (h : read bytes = .ok (e, rest)) :
    scan bytes = e :: scan rest := by
  rw [scan]
  split
  · next e' rest' h' =>
    rw [h] at h'
    cases h'
    rfl
  · next err h' =>
    rw [h] at h'
    cases h'

/-- The scan ends at what cannot be read. -/
theorem scan_of_error {bytes : Bytes} {err : Error} (h : read bytes = .error err) :
    scan bytes = [] := by
  rw [scan]
  split
  · next e' rest' h' =>
    rw [h] at h'
    cases h'
  · rfl

/-- Nothing is scanned from nothing. -/
theorem scan_nil : scan [] = [] :=
  scan_of_error (show read [] = .error (.io .unexpectedEnd) from rfl)

/-- Entries that are written to their ends are all found, and whatever follows them is scanned. -/
theorem scan_append {es : List JournalEntry} (h : ∀ e ∈ es, e.Readable) (rest : Bytes) :
    scan (es.flatMap write ++ rest) = es ++ scan rest := by
  induction es with
  | nil => rfl
  | cons e es ih =>
    rw [List.flatMap_cons, List.append_assoc, scan_of_ok (read_write (h e (List.mem_cons_self ..)) _),
      ih fun e' he' => h e' (List.mem_cons_of_mem e he'), List.cons_append]

/-- Readable entries written one after the other are all scanned. -/
theorem scan_flatMap {es : List JournalEntry} (h : ∀ e ∈ es, e.Readable) :
    scan (es.flatMap write) = es := by
  have hscan := scan_append h []
  rwa [List.append_nil, scan_nil, List.append_nil] at hscan

/-- An entry that is written to its end is found, or nothing is from there on. -/
theorem scan_write_or (hfits : e.Fits) (hl : MessagePack.LengthsFit (Portable.document e))
    (rest : Bytes) :
    scan (e.write ++ rest) = e :: scan rest ∨ scan (e.write ++ rest) = [] := by
  rcases read_write_or hfits hl rest with hread | ⟨err, herr⟩
  · exact Or.inl (scan_of_ok hread)
  · exact Or.inr (scan_of_error herr)

/-- Of an entry that is not there to its end nothing is found. -/
theorem scan_torn (h : e.Readable) {torn : Bytes} (hpart : torn <+: e.write)
    (hne : torn ≠ e.write) : scan torn = [] := by
  obtain ⟨err, herr⟩ := read_torn h hpart hne
  exact scan_of_error herr

end JournalEntry

end ContentTree
