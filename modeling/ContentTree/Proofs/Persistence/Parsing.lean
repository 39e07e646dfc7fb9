import ContentTree.Persistence.FileStore
import ContentTree.Proofs.Action
import ContentTree.Proofs.Encoding.RoundTrip
import ContentTree.Proofs.Persistence.Entries

/-!
# What is read from a record file

`Record.Parses` says of any octets what a reader makes of them as the contents of a record file, with one
case for each way in which reading can end. It is what the reader does (`Record.parses_iff`). The stated
length is compared with the size of the file before the payload is read, so a file never ends within a
payload. From this come the values that are found, the files that are found to be corrupt, and that no
part of a file that was written is taken for a whole one (`FileStore.parsesExactly_records`).
-/

namespace ContentTree

namespace Record

/-- The octets in front of a payload of this length. -/
def header (magic : Bytes) (length : Nat) : Bytes :=
  magic ++ [version] ++ Bytes.littleEndian 8 length

/-- What is read from the contents of a record file. -/
inductive Parses (magic : Bytes) (path : String) : Bytes → Except Error Bytes → Prop where
  | noMagic {contents : Bytes} (hlen : contents.length < 4) :
    Parses magic path contents (.error (.io .unexpectedEnd))
  | wrongMagic {found : Bytes} (rest : Bytes) (hlen : found.length = 4) (hne : found ≠ magic) :
    Parses magic path (found ++ rest) (.error (.invalidFormat (.recordMagic path)))
  | noVersion : Parses magic path magic (.error (.io .unexpectedEnd))
  | wrongVersion (found : UInt8) (rest : Bytes) (hne : found ≠ version) :
    Parses magic path (magic ++ found :: rest) (.error (.invalidFormat (.recordVersion found.toNat)))
  | noLength (rest : Bytes) (hlen : rest.length < 8) :
    Parses magic path (magic ++ version :: rest) (.error (.io .unexpectedEnd))
  | tooLong {length : Nat} {rest : Bytes} (hlen : length < 1 <<< (8 * 8))
    (hlong : (header magic length ++ rest).length - overhead < length) :
    Parses magic path (header magic length ++ rest) (.error (.corruption (.recordTooLong length path)))
  | noSum (rest : Bytes) (hlen : rest.length < 4) :
    Parses magic path (header magic 0 ++ rest) (.error (.io .unexpectedEnd))
  | mismatch {payload sum : Bytes} (rest : Bytes) (hlen : payload.length < 1 <<< (8 * 8))
    (hsum : sum.length = 4) (hne : sum ≠ Bytes.littleEndian 4 (Crc32.checksum payload).toNat) :
    Parses magic path (header magic payload.length ++ (payload ++ (sum ++ rest)))
      (.error (.checksumMismatch (UInt32.ofNat (Bytes.ofLittleEndian sum)) (Crc32.checksum payload)))
  | whole {payload : Bytes} (rest : Bytes) (hlen : payload.length < 1 <<< (8 * 8)) :
    Parses magic path (frame magic payload ++ rest) (.ok payload)

variable {magic contents bytes rest : Bytes} {path : String} {length : Nat}

/-! ## Frames and headers -/

/-- The header of a record has thirteen octets. -/
theorem length_header (hmagic : magic.length = 4) (length : Nat) : (header magic length).length = 13 := by
  simp [header, hmagic]

/-- A frame is its header, its payload and the check sum of it. -/
theorem frame_append (magic payload rest : Bytes) : frame magic payload ++ rest =
    header magic payload.length ++
      (payload ++ (Bytes.littleEndian 4 (Crc32.checksum payload).toNat ++ rest)) := by
  simp [frame, header]

/-- A frame is longer than its payload by the overhead. -/
theorem length_payload_frame (hmagic : magic.length = 4) (payload : Bytes) :
    (frame magic payload).length = payload.length + overhead := by
  simp [frame, hmagic, overhead]
  omega

/-- A header is of one length only. -/
theorem length_eq_of_header {length' : Nat} {rest' : Bytes} (h : length < 1 <<< (8 * 8))
    (h' : length' < 1 <<< (8 * 8)) (hmagic : magic.length = 4)
    (heq : header magic length ++ rest = header magic length' ++ rest') : length = length' := by
  have hfront : header magic length = header magic length' :=
    (List.append_inj heq (by rw [length_header hmagic, length_header hmagic])).1
  have hstated := List.append_cancel_left hfront
  rw [← Bytes.ofLittleEndian_littleEndian h, hstated, Bytes.ofLittleEndian_littleEndian h']

/-- Enough octets split after any number of them. -/
theorem exists_append_of_length_le {n : Nat} (h : n ≤ bytes.length) :
    ∃ front rest : Bytes, bytes = front ++ rest ∧ front.length = n :=
  ⟨bytes.take n, bytes.drop n, (List.take_append_drop n bytes).symm, List.length_take_of_le h⟩

/-- Eight octets are those of a length. -/
theorem exists_littleEndian (h : bytes.length = 8) :
    ∃ length, length < 1 <<< (8 * 8) ∧ bytes = Bytes.littleEndian 8 length := by
  have hlt := Bytes.ofLittleEndian_lt bytes
  have hback := Bytes.littleEndian_ofLittleEndian bytes
  rw [h] at hlt hback
  exact ⟨_, hlt, hback.symm⟩

/-! ## The reader, step by step -/

/-- Taking a known number of octets gives those in front. -/
theorem take_append_of_length {n : Nat} {front : Bytes} (h : front.length = n) (rest : Bytes) :
    take n (front ++ rest) = .ok (front, rest) := by
  subst h
  exact take_append front rest

/-- Octets of a number are those of no other one. -/
theorem ofLittleEndian_ne {sum : Bytes} {n : UInt32} (hsum : sum.length = 4)
    (hne : sum ≠ Bytes.littleEndian 4 n.toNat) : UInt32.ofNat (Bytes.ofLittleEndian sum) ≠ n := by
  intro heq
  have hlt := Bytes.ofLittleEndian_lt sum
  have hback := Bytes.littleEndian_ofLittleEndian sum
  rw [hsum] at hlt hback
  apply hne
  have hmod : Bytes.ofLittleEndian sum % 2 ^ 32 = Bytes.ofLittleEndian sum := Nat.mod_eq_of_lt hlt
  rw [← heq, UInt32.toNat_ofNat', hmod, hback]

/-- A check sum other than that of the payload is refused. -/
theorem checkSum_of_ne {payload sum : Bytes} (hsum : sum.length = 4)
    (hne : sum ≠ Bytes.littleEndian 4 (Crc32.checksum payload).toNat) (rest : Bytes) :
    checkSum payload (sum ++ rest) = .error
      (.checksumMismatch (UInt32.ofNat (Bytes.ofLittleEndian sum)) (Crc32.checksum payload)) := by
  rw [checkSum, take_append_of_length hsum]
  exact if_pos (ofLittleEndian_ne hsum hne)

/-- Behind a header it is the stated length that decides. -/
theorem payload_of_header (hmagic : magic.length = 4) (hlen : length < 1 <<< (8 * 8)) (rest : Bytes) :
    payload magic path (header magic length ++ rest) =
      if (header magic length ++ rest).length - overhead < length then
        .error (.corruption (.recordTooLong length path))
      else take length rest >>= fun parts => (checkSum parts.1 parts.2).map fun _ => parts.1 := by
  have hfront : header magic length ++ rest =
      magic ++ ([version] ++ (Bytes.littleEndian 8 length ++ rest)) := by
    simp only [header, List.append_assoc]
  rw [hfront, payload, take_append_of_length hmagic]
  simp only [bind, Except.bind, take_append_of_length (List.length_singleton),
    take_append_of_length (Bytes.length_littleEndian 8 length),
    Bytes.ofLittleEndian_littleEndian hlen, ne_eq, not_true_eq_false, if_false]
  split
  · rfl
  · cases take length rest with
    | error e => rfl
    | ok parts => cases checkSum parts.1 parts.2 <;> rfl

/-- There is room for a payload that is there. -/
theorem payload_of_room (hmagic : magic.length = 4) {found : Bytes} (hlen : found.length < 1 <<< (8 * 8))
    (hroom : 4 ≤ rest.length) :
    payload magic path (header magic found.length ++ (found ++ rest)) =
      (checkSum found rest).map fun _ => found := by
  rw [payload_of_header hmagic hlen, if_neg, take_append]
  · rfl
  · simp only [List.length_append, length_header hmagic, overhead]
    omega

/-- Every case is what the reader does. -/
theorem Parses.payload_eq (hmagic : magic.length = 4) {result : Except Error Bytes}
    (h : Parses magic path contents result) : payload magic path contents = result := by
  cases h with
  | noMagic hlen =>
    rw [payload, take_of_lt hlen]
    rfl
  | wrongMagic rest hlen hne =>
    rw [payload, take_append_of_length hlen]
    exact if_pos hne
  | noVersion =>
    have htake := take_append_of_length hmagic []
    rw [List.append_nil] at htake
    rw [payload, htake]
    simp only [bind, Except.bind, ne_eq, not_true_eq_false, if_false]
    rfl
  | wrongVersion found rest hne =>
    have hone : [found] ≠ [version] := fun heq => hne (List.cons.inj heq).1
    have htake : take 1 (found :: rest) = .ok ([found], rest) := take_append [found] rest
    rw [payload, take_append_of_length hmagic]
    simp only [bind, Except.bind, htake, ne_eq, not_true_eq_false, if_false]
    exact if_pos hone
  | noLength rest hlen =>
    have htake : take 1 (version :: rest) = .ok ([version], rest) := take_append [version] rest
    rw [payload, take_append_of_length hmagic]
    simp only [bind, Except.bind, htake, ne_eq, not_true_eq_false, if_false, take_of_lt hlen]
  | tooLong hlen hlong => rw [payload_of_header hmagic hlen, if_pos hlong]
  | noSum rest hlen =>
    have htake : take 0 rest = .ok ([], rest) := take_append [] rest
    rw [payload_of_header hmagic (by decide), if_neg (Nat.not_lt_zero _), htake]
    show (checkSum [] rest).map _ = _
    rw [checkSum, take_of_lt hlen]
    rfl
  | mismatch rest hlen hsum hne =>
    rw [payload_of_room hmagic hlen (by rw [List.length_append]; omega), checkSum_of_ne hsum hne]
    rfl
  | whole rest hlen =>
    rw [frame_append, payload_of_room hmagic hlen (by simp), checkSum_append]
    rfl

/-- There is a case for all contents. -/
theorem exists_parses (hmagic : magic.length = 4) (path : String) (contents : Bytes) :
    ∃ result, Parses magic path contents result := by
  -- the cases are split in the order in which the parts of a record are read
  by_cases hshort : contents.length < 4
  · exact ⟨_, .noMagic hshort⟩
  obtain ⟨found, rest, rfl, hfound⟩ := exists_append_of_length_le (Nat.le_of_not_lt hshort)
  by_cases heq : found = magic
  swap
  · exact ⟨_, .wrongMagic rest hfound heq⟩
  subst heq
  cases rest with
  | nil =>
    rw [List.append_nil]
    exact ⟨_, .noVersion⟩
  | cons v rest =>
    by_cases hversion : v = version
    swap
    · exact ⟨_, .wrongVersion v rest hversion⟩
    subst hversion
    by_cases hcut : rest.length < 8
    · exact ⟨_, .noLength rest hcut⟩
    obtain ⟨stated, rest, rfl, hstated⟩ := exists_append_of_length_le (Nat.le_of_not_lt hcut)
    obtain ⟨length, hlen, rfl⟩ := exists_littleEndian hstated
    have hfront : found ++ version :: (Bytes.littleEndian 8 length ++ rest) =
        header found length ++ rest := by
      simp [header]
    rw [hfront]
    by_cases hlong : (header found length ++ rest).length - overhead < length
    · exact ⟨_, .tooLong hlen hlong⟩
    rw [List.length_append, length_header hmagic, overhead] at hlong
    by_cases hroom : rest.length < length + 4
    · -- a length that is not too large has room for a checksum behind it, unless it is zero
      obtain rfl : length = 0 := by omega
      exact ⟨_, .noSum rest (by omega)⟩
    have hpayload : length ≤ rest.length := by omega
    obtain ⟨payload, rest, rfl, rfl⟩ := exists_append_of_length_le hpayload
    rw [List.length_append] at hroom
    have hfour : 4 ≤ rest.length := by omega
    obtain ⟨sum, rest, rfl, hsum⟩ := exists_append_of_length_le hfour
    by_cases hmatch : sum = Bytes.littleEndian 4 (Crc32.checksum payload).toNat
    · rw [hmatch, ← frame_append]
      exact ⟨_, .whole rest hlen⟩
    · exact ⟨_, .mismatch rest hlen hsum hmatch⟩

/-- The cases are what a reader makes of a record file, and there is one for all contents. -/
theorem parses_iff (hmagic : magic.length = 4) {result : Except Error Bytes} :
    Parses magic path contents result ↔ payload magic path contents = result := by
  refine ⟨Parses.payload_eq hmagic, fun h => ?_⟩
  obtain ⟨result', hparses⟩ := exists_parses hmagic path contents
  rwa [← h, hparses.payload_eq hmagic]

/-! ## Values -/

section Values

variable {α : Type} [Portable α] {a : α}

/-- What stands in the frame of a payload is found, whatever follows. -/
theorem payload_frame (hmagic : magic.length = 4) (hlen : bytes.length < 1 <<< (8 * 8)) (path : String)
    (rest : Bytes) : payload magic path (frame magic bytes ++ rest) = .ok bytes :=
  (parses_iff hmagic).1 (.whole rest hlen)

/-- What has a payload is a frame of it, with something behind. -/
theorem exists_frame_of_payload_eq_ok (hmagic : magic.length = 4)
    (h : payload magic path contents = .ok bytes) :
    ∃ rest, bytes.length < 1 <<< (8 * 8) ∧ contents = frame magic bytes ++ rest := by
  cases (parses_iff hmagic).2 h with
  | whole rest hlen => exact ⟨rest, hlen, rfl⟩

/-- A value is read if and only if a frame is in front from which it is decoded. -/
theorem read_eq_ok_iff (hmagic : magic.length = 4) : read magic path contents = .ok a ↔
    ∃ payload rest, payload.length < 1 <<< (8 * 8) ∧ contents = frame magic payload ++ rest ∧
      Portable.ofBytes? payload = some a := by
  constructor
  · intro h
    obtain ⟨bytes, hpayload, hdecode⟩ := exists_of_bind_eq_ok h
    obtain ⟨rest, hlen, hcontents⟩ := exists_frame_of_payload_eq_ok hmagic hpayload
    refine ⟨bytes, rest, hlen, hcontents, ?_⟩
    rw [decode] at hdecode
    split at hdecode
    · next hfound => exact hfound.trans (congrArg some (Except.ok.inj hdecode))
    · cases hdecode
  · rintro ⟨bytes, rest, hlen, rfl, hdecode⟩
    rw [read, payload_frame hmagic hlen]
    show decode bytes = .ok a
    rw [decode, hdecode]

/-- What fails is the frame, or the value in it. -/
theorem read_eq_error_iff {e : Error} : (read magic path contents : Except Error α) = .error e ↔
    payload magic path contents = .error e ∨ ∃ bytes, payload magic path contents = .ok bytes ∧
      (Portable.ofBytes? bytes : Option α) = none ∧ e = .deserialization "malformed value" := by
  cases hpayload : payload magic path contents with
  | error e' => simp [read, hpayload, bind, Except.bind]
  | ok bytes =>
    cases hdecode : (Portable.ofBytes? bytes : Option α) with
    | none => simp [read, hpayload, bind, Except.bind, decode, hdecode, eq_comm]
    | some a => simp [read, hpayload, bind, Except.bind, decode, hdecode]

/-- A file is corrupt if and only if it states a length that it has no room for. -/
theorem read_eq_corruption_iff (hmagic : magic.length = 4) {damage : Damage} :
    (read magic path contents : Except Error α) = .error (.corruption damage) ↔
      ∃ length rest, length < 1 <<< (8 * 8) ∧ contents = header magic length ++ rest ∧
        contents.length - overhead < length ∧ damage = .recordTooLong length path := by
  rw [read_eq_error_iff]
  constructor
  · rintro (h | ⟨-, -, -, h⟩)
    · cases (parses_iff hmagic).2 h with
      | tooLong hlen hlong => exact ⟨_, _, hlen, rfl, hlong, rfl⟩
    · cases h
  · rintro ⟨length, rest, hlen, rfl, hlong, rfl⟩
    exact Or.inl ((parses_iff hmagic).1 (.tooLong hlen hlong))

/-- A file ends too early if and only if it ends in what is in front of the length or in the length, or
in the checksum of a payload without octets. So none ends within its payload. -/
theorem read_eq_unexpectedEnd_iff (hmagic : magic.length = 4) :
    (read magic path contents : Except Error α) = .error (.io .unexpectedEnd) ↔
      contents.length < 4 ∨ contents = magic ∨
      (∃ rest, rest.length < 8 ∧ contents = magic ++ version :: rest) ∨
      ∃ rest, rest.length < 4 ∧ contents = header magic 0 ++ rest := by
  rw [read_eq_error_iff]
  constructor
  · rintro (h | ⟨-, -, -, h⟩)
    · cases (parses_iff hmagic).2 h with
      | noMagic hlen => exact Or.inl hlen
      | noVersion => exact Or.inr (Or.inl rfl)
      | noLength rest hlen => exact Or.inr (Or.inr (Or.inl ⟨rest, hlen, rfl⟩))
      | noSum rest hlen => exact Or.inr (Or.inr (Or.inr ⟨rest, hlen, rfl⟩))
    · cases h
  · rintro (hlen | rfl | ⟨rest, hlen, rfl⟩ | ⟨rest, hlen, rfl⟩)
    · exact Or.inl ((parses_iff hmagic).1 (.noMagic hlen))
    · exact Or.inl ((parses_iff hmagic).1 .noVersion)
    · exact Or.inl ((parses_iff hmagic).1 (.noLength rest hlen))
    · exact Or.inl ((parses_iff hmagic).1 (.noSum rest hlen))

/-- A value that is decoded from its own octets is read back from the file that is written of it. -/
theorem read_write (hmagic : magic.length = 4) (hlen : (Portable.toBytes a).length < 1 <<< (8 * 8))
    (hback : Portable.ofBytes? (Portable.toBytes a) = some a) (path : String) (rest : Bytes) :
    read magic path (write magic a ++ rest) = .ok a :=
  (read_eq_ok_iff hmagic).2 ⟨_, rest, hlen, rfl, hback⟩

/-- No proper part of a file is taken for one. -/
theorem read_torn (hmagic : magic.length = 4) (hlen : (Portable.toBytes a).length < 1 <<< (8 * 8))
    {part : Bytes} (hpart : part <+: write magic a) (hne : part ≠ write magic a) (path : String) :
    ∃ e, (read magic path part : Except Error α) = .error e := by
  cases hread : (read magic path part : Except Error α) with
  | error e => exact ⟨e, rfl⟩
  | ok b =>
    obtain ⟨bytes, rest, hbytes, rfl, -⟩ := (read_eq_ok_iff hmagic).1 hread
    -- the part states the length of the whole, and has as many octets
    obtain ⟨missing, hmissing⟩ := hpart
    have hsame : bytes.length = (Portable.toBytes a).length := by
      rw [write, List.append_assoc, frame_append, ← List.append_nil (frame magic (Portable.toBytes a)),
        frame_append] at hmissing
      exact length_eq_of_header hbytes hlen hmagic hmissing
    refine absurd (List.IsPrefix.eq_of_length_le ⟨missing, hmissing⟩ ?_) hne
    rw [write, List.length_append, length_payload_frame hmagic, length_payload_frame hmagic, hsame]
    omega

end Values

end Record

namespace FileStore

variable {α : Type} [Portable α] {magic contents : Bytes} {path : Path} {s : Hosted FileStore}

/-- What is loaded from a file that is there is what is read from its contents. -/
theorem loadRecord_of_file (h : s.device.disk.read path = .ok contents) (magic : Bytes) :
    loadRecord magic path s =
      match (Record.read magic path.display contents : Except Error α) with
      | .ok a => .ok (some a) s
      | .error e => .error e s := by
  rw [loadRecord, get_bind, h]
  dsimp only
  cases (Record.read magic path.display contents : Except Error α) <;> rfl

/-- A record is loaded if its file reads as one. -/
theorem loadRecord_eq_ok_iff (h : s.device.disk.read path = .ok contents) {a : α} :
    loadRecord magic path s = .ok (some a) s ↔ Record.read magic path.display contents = .ok a := by
  rw [loadRecord_of_file h]
  cases (Record.read magic path.display contents : Except Error α) <;> simp

/-- Loading a record fails as reading its file does. -/
theorem loadRecord_eq_error_iff (h : s.device.disk.read path = .ok contents) {e : Error} :
    (loadRecord magic path : Action (Option α)) s = .error e s ↔
      (Record.read magic path.display contents : Except Error α) = .error e := by
  rw [loadRecord_of_file h]
  cases (Record.read magic path.display contents : Except Error α) <;> simp

/-- How files are read that begin with `magic`, and from which the `sound` values come back. -/
structure ParsesExactly (sound : α → Prop) (magic : Bytes) : Prop where
  /-- A value is found if and only if its frame is in front, with whatever behind it. -/
  found : ∀ {s : Hosted FileStore} {path contents}, s.device.disk.read path = .ok contents → ∀ a : α,
    loadRecord magic path s = .ok (some a) s ↔
      ∃ payload rest, payload.length < 1 <<< (8 * 8) ∧ contents = Record.frame magic payload ++ rest ∧
        Portable.ofBytes? payload = some a
  /-- A file is corrupt if and only if it states a length that it has no room for. -/
  corrupt : ∀ {s : Hosted FileStore} {path contents}, s.device.disk.read path = .ok contents →
    ∀ damage, (loadRecord magic path : Action (Option α)) s = .error (.corruption damage) s ↔
      ∃ length rest, length < 1 <<< (8 * 8) ∧ contents = Record.header magic length ++ rest ∧
        contents.length - Record.overhead < length ∧ damage = .recordTooLong length path.display
  /-- No file ends within its payload. -/
  ended : ∀ {s : Hosted FileStore} {path contents}, s.device.disk.read path = .ok contents →
    ((loadRecord magic path : Action (Option α)) s = .error (.io .unexpectedEnd) s ↔
      contents.length < 4 ∨ contents = magic ∨
      (∃ rest, rest.length < 8 ∧ contents = magic ++ Record.version :: rest) ∨
      ∃ rest, rest.length < 4 ∧ contents = Record.header magic 0 ++ rest)
  /-- What is written is read back. -/
  back : ∀ a : α, sound a → (Portable.toBytes a).length < 1 <<< (8 * 8) →
    ∀ {s : Hosted FileStore} {path} rest,
      s.device.disk.read path = .ok (Record.write magic a ++ rest) →
      loadRecord magic path s = .ok (some a) s
  /-- No proper part of what is written is taken for it. -/
  torn : ∀ a : α, (Portable.toBytes a).length < 1 <<< (8 * 8) →
    ∀ {s : Hosted FileStore} {path part}, part <+: Record.write magic a → part ≠ Record.write magic a →
      s.device.disk.read path = .ok part →
      ∃ e, (loadRecord magic path : Action (Option α)) s = .error e s

/-- Contents parse exactly if their encoding decodes to them. -/
theorem parsesExactly {sound : α → Prop} (hmagic : magic.length = 4)
    (hback : ∀ a, sound a → Portable.ofBytes? (Portable.toBytes a) = some a) :
    ParsesExactly sound magic where
  found h _ := (loadRecord_eq_ok_iff h).trans (Record.read_eq_ok_iff hmagic)
  corrupt h _ := (loadRecord_eq_error_iff h).trans (Record.read_eq_corruption_iff hmagic)
  ended h := (loadRecord_eq_error_iff h).trans (Record.read_eq_unexpectedEnd_iff hmagic)
  back a ha hlen _ _ rest h :=
    (loadRecord_eq_ok_iff h).2 (Record.read_write hmagic hlen (hback a ha) _ rest)
  torn _ hlen _ path _ hpart hne h := by
    obtain ⟨e, he⟩ := Record.read_torn hmagic hlen hpart hne path.display
    exact ⟨e, (loadRecord_eq_error_iff h).2 he⟩

/-- **Record files are read exactly**, those of items and those of reference records. -/
theorem parsesExactly_records :
    ParsesExactly (fun s : ItemState => s.Fits ∧ Portable.Short s) Record.itemMagic ∧
    ParsesExactly (fun r : NodeReferences => Portable.Short r) Record.referencesMagic := by
  constructor
  · refine parsesExactly rfl fun s hs => ?_
    have hback := (told_itemState hs.1).ofBytes? (by decide) hs.2 []
    rwa [List.append_nil] at hback
  · refine parsesExactly rfl fun r hr => ?_
    have hback := (told_references r).ofBytes? (by decide) hr []
    rwa [List.append_nil] at hback

/-- A device with one file. -/
def holding (contents : Bytes) : Hosted FileStore :=
  ⟨.reliable ⟨OrderedMap.empty.insert ["r"] (.file 0), .insert .empty 0 contents, 1⟩ 0,
    ⟨[], false, 0, ⟨[], 1, none⟩⟩⟩

/-- A reference record is read in front of an octet, and not without its last one; and a header is not
believed that states the largest length. -/
theorem parsesExactly_records_holding :
    let r : NodeReferences := ⟨default, [⟨default, ⟨"p"⟩⟩]⟩
    let load (contents : Bytes) : EStateM.Result Error (Hosted FileStore) (Option NodeReferences) :=
      loadRecord Record.referencesMagic ["r"] (holding contents)
    let written := Record.write Record.referencesMagic r
    let header := Record.header Record.referencesMagic maxUInt64
    load (written ++ [0xff]) = .ok (some r) (holding (written ++ [0xff])) ∧
    (∃ e, load written.dropLast = .error e (holding written.dropLast)) ∧
    load header = .error (.corruption (.recordTooLong maxUInt64 "r")) (holding header) := by
  intro r load written header
  have hexact := parsesExactly_records.2
  have hshort : Portable.Short r := MessagePack.lengthsFit_of_length _ (by decide +kernel)
  have hlen : (Portable.toBytes r).length < 1 <<< (8 * 8) := by decide +kernel
  refine ⟨hexact.back r hshort hlen [0xff] rfl, ?_, ?_⟩
  · exact hexact.torn r hlen (List.dropLast_prefix _) (by decide +kernel) rfl
  · refine (hexact.corrupt rfl _).2 ⟨maxUInt64, [], by decide, ?_, by decide, rfl⟩
    exact (List.append_nil header).symm

end FileStore

end ContentTree
