import ContentTree.Identity
import ContentTree.Proofs.Format.Datum

/-!
# Reading hexadecimal text

Octets are written as two lower-case digits each, and different octets are written differently. A text is
read if it has an even number of digits of either case, and what is read is written as that text in lower
case. Any other text is refused, for the first of three reasons that applies (`NodeId.Refused`). So an
identity is read from 32 digits and from nothing else (`NodeId.reading`).
-/

namespace ContentTree

namespace Hex

/-! ## Digits that are written -/

/-- The size of a text is the size of its first character and of the others. -/
theorem utf8ByteSize_ofList_cons (c : Char) (cs : List Char) :
    (String.ofList (c :: cs)).utf8ByteSize = c.utf8Size + (String.ofList cs).utf8ByteSize := by
  rw [String.ofList_cons, String.utf8ByteSize_append, String.utf8ByteSize_singleton]

/-- A text is lowered character by character. -/
theorem toList_toLower (s : String) : s.toLower.toList = s.toList.map Char.toLower :=
  String.toList_map ..

/-- A lower-case digit. -/
def IsDigit (c : Char) : Prop := ∃ n < 16, c = digit n

/-- A digit takes one octet, and is neither a null nor a dot. -/
theorem IsDigit.plain {c : Char} (h : IsDigit c) : c.utf8Size = 1 ∧ c ≠ '\x00' ∧ c ≠ '.' := by
  obtain ⟨n, hn, rfl⟩ := h
  exact (by decide : ∀ n < 16, (digit n).utf8Size = 1 ∧ digit n ≠ '\x00' ∧ digit n ≠ '.') n hn

/-- Only digits are written. -/
theorem isDigit_of_mem {bytes : Bytes} {c : Char} (h : c ∈ encodeChars bytes) : IsDigit c := by
  obtain ⟨b, hb, hc⟩ := List.mem_flatMap.1 h
  have hlt : b.toNat < 256 := b.toNat_lt
  rcases List.mem_cons.1 hc with rfl | hc
  · exact ⟨b.toNat / 16, by omega, rfl⟩
  · rw [List.mem_singleton] at hc
    exact ⟨b.toNat % 16, by omega, hc⟩

/-- Each octet is written as two digits. -/
theorem length_encodeChars (bytes : Bytes) : (encodeChars bytes).length = 2 * bytes.length := by
  induction bytes with
  | nil => rfl
  | cons b rest ih =>
    rw [encodeChars] at ih
    rw [encodeChars, List.flatMap_cons, List.length_append, ih, List.length_cons]
    show 2 + 2 * rest.length = 2 * (rest.length + 1)
    omega

/-- An encoding takes twice as many octets as what it encodes. -/
theorem utf8ByteSize_encode (bytes : Bytes) : (encode bytes).utf8ByteSize = 2 * bytes.length := by
  rw [← length_encodeChars, encode]
  have hall : ∀ c ∈ encodeChars bytes, IsDigit c := fun c => isDigit_of_mem
  generalize encodeChars bytes = cs at hall ⊢
  induction cs with
  | nil => rfl
  | cons c cs ih =>
    rw [utf8ByteSize_ofList_cons, ih fun d hd => hall d (List.mem_cons_of_mem c hd),
      (hall c (List.mem_cons_self ..)).plain.1, List.length_cons]
    omega

/-- Different digits stand for different numbers. -/
theorem digit_inj {n m : Nat} (hn : n < 16) (hm : m < 16) (h : digit n = digit m) : n = m :=
  (by decide : ∀ n < 16, ∀ m < 16, digit n = digit m → n = m) n hn m hm h

/-- Different octets are written with different digits. -/
theorem encodeChars_injective : Function.Injective encodeChars := by
  intro as bs h
  induction as generalizing bs with
  | nil =>
    cases bs with
    | nil => rfl
    | cons b bs => cases h
  | cons a as ih =>
    cases bs with
    | nil => cases h
    | cons b bs =>
      have ha : a.toNat < 256 := a.toNat_lt
      have hb : b.toNat < 256 := b.toNat_lt
      obtain ⟨hhigh, htail⟩ := List.cons.inj h
      obtain ⟨hlow, hrest⟩ := List.cons.inj htail
      have hhigh' := digit_inj (by omega) (by omega) hhigh
      have hlow' := digit_inj (by omega) (by omega) hlow
      have hab : a = b := UInt8.toNat_inj.1 (by omega)
      rw [hab, ih hrest]

/-- Different octets are encoded as different texts. -/
theorem encode_injective : Function.Injective encode := fun _ _ h =>
  encodeChars_injective (String.ofList_injective h)

/-! ## Digits that are read -/

/-- The digits of either case. -/
def anyDigits : List Char :=
  ['0', '1', '2', '3', '4', '5', '6', '7', '8', '9', 'a', 'b', 'c', 'd', 'e', 'f', 'A', 'B', 'C', 'D',
    'E', 'F']

/-- A digit of either case. -/
def IsAnyDigit (c : Char) : Prop :=
  c ∈ anyDigits

instance (c : Char) : Decidable (IsAnyDigit c) :=
  inferInstanceAs (Decidable (c ∈ _))

/-- An octet that is a digit of either case. -/
def IsDigitOctet (octet : UInt8) : Prop :=
  ∃ c, IsAnyDigit c ∧ octet = c.toUInt8

/-- A digit stands for a number below 16, which is written as that digit in lower case. -/
theorem exists_value {c : Char} (h : IsAnyDigit c) :
    ∃ n < 16, value? c.toUInt8 = some n ∧ digit n = c.toLower := by
  have hall : anyDigits.all fun c =>
      (value? c.toUInt8).any fun n => decide (n < 16 ∧ digit n = c.toLower) := by
    decide +kernel
  obtain ⟨n, hn, hdigit⟩ := (Option.any_eq_true _ _).1 (List.all_eq_true.1 hall c h)
  obtain ⟨hlt, hlower⟩ := of_decide_eq_true hdigit
  exact ⟨n, hlt, hn, hlower⟩

/-- An octet that is no digit has no value. -/
theorem value?_eq_none {octet : UInt8} (h : ¬IsDigitOctet octet) : value? octet = none := by
  have hall : ∀ n < 256, value? (UInt8.ofNat n) = none ∨ UInt8.ofNat n ∈ anyDigits.map Char.toUInt8 := by
    decide +kernel
  rcases hall octet.toNat octet.toNat_lt with hnone | hdigit
  · rwa [UInt8.ofNat_toNat] at hnone
  · rw [UInt8.ofNat_toNat] at hdigit
    obtain ⟨c, hc, heq⟩ := List.mem_map.1 hdigit
    exact absurd ⟨c, hc, heq.symm⟩ h

variable {high low octet : UInt8} {index h l : Nat} {rest before after : Bytes}

/-- Two digits give an octet. -/
theorem decodePairs_of_values (hh : value? high = some h) (hl : value? low = some l) :
    decodePairs index (high :: low :: rest) =
      decodePairs (index + 2) rest >>= fun out => .ok (UInt8.ofNat (16 * h + l) :: out) := by
  rw [decodePairs, hh, hl]
  rfl

/-- A wrong first digit is refused where it stands. -/
theorem decodePairs_of_high (hh : value? high = none) :
    decodePairs index (high :: low :: rest) = .error (.badDigit high index) := by
  rw [decodePairs, hh]
  rfl

/-- A wrong second digit is refused where it stands. -/
theorem decodePairs_of_low (hh : value? high = some h) (hl : value? low = none) :
    decodePairs index (high :: low :: rest) = .error (.badDigit low (index + 1)) := by
  rw [decodePairs, hh, hl]
  rfl

/-- Pairs of digits are read as octets that are written as these digits in lower case. -/
theorem decodePairs_digits : ∀ (index : Nat) (cs : List Char), (∀ c ∈ cs, IsAnyDigit c) →
    cs.length % 2 = 0 → ∃ out, decodePairs index (cs.map Char.toUInt8) = .ok out ∧
      encodeChars out = cs.map Char.toLower
  | _, [], _, _ => ⟨[], rfl, rfl⟩
  | _, [_], _, heven => absurd heven (by simp)
  | index, c :: d :: cs, hcs, heven => by
    obtain ⟨h, hlt, hh, hhigh⟩ := exists_value (hcs c (List.mem_cons_self ..))
    obtain ⟨l, llt, hl, hlow⟩ := exists_value (hcs d (List.mem_cons_of_mem c (List.mem_cons_self ..)))
    obtain ⟨out, hout, hwritten⟩ := decodePairs_digits (index + 2) cs
      (fun e he => hcs e (List.mem_cons_of_mem c (List.mem_cons_of_mem d he)))
      (by simp only [List.length_cons] at heven; omega)
    have hoctet : (UInt8.ofNat (16 * h + l)).toNat = 16 * h + l := by
      rw [UInt8.toNat_ofNat']
      omega
    refine ⟨UInt8.ofNat (16 * h + l) :: out, ?_, ?_⟩
    · rw [List.map_cons, List.map_cons, decodePairs_of_values hh hl, hout]
      rfl
    · show digit (_ / 16) :: digit (_ % 16) :: encodeChars out = _
      rw [hoctet, hwritten, (by omega : (16 * h + l) / 16 = h), (by omega : (16 * h + l) % 16 = l),
        hhigh, hlow]
      rfl

/-- The first octet that is no digit is reported, with its position. -/
theorem decodePairs_of_first : ∀ (index : Nat) (before after : Bytes),
    (∀ b ∈ before, IsDigitOctet b) → ¬IsDigitOctet octet → (before ++ octet :: after).length % 2 = 0 →
    decodePairs index (before ++ octet :: after) = .error (.badDigit octet (index + before.length))
  | _, [], [], _, _, heven => absurd heven (by simp)
  | _, [], _ :: _, _, hbad, _ => decodePairs_of_high (value?_eq_none hbad)
  | _, [_], _, hbefore, hbad, _ => by
    obtain ⟨c, hc, rfl⟩ := hbefore _ (List.mem_cons_self ..)
    obtain ⟨h, -, hh, -⟩ := exists_value hc
    exact decodePairs_of_low hh (value?_eq_none hbad)
  | index, high :: low :: before, after, hbefore, hbad, heven => by
    obtain ⟨c, hc, rfl⟩ := hbefore high (List.mem_cons_self ..)
    obtain ⟨d, hd, rfl⟩ := hbefore low (List.mem_cons_of_mem _ (List.mem_cons_self ..))
    obtain ⟨h, -, hh, -⟩ := exists_value hc
    obtain ⟨l, -, hl, -⟩ := exists_value hd
    have hrest := decodePairs_of_first (index + 2) before after
      (fun b hb => hbefore b (List.mem_cons_of_mem _ (List.mem_cons_of_mem _ hb))) hbad
      (by simp only [List.length_append, List.length_cons] at heven ⊢; omega)
    rw [List.cons_append, List.cons_append, decodePairs_of_values hh hl, hrest, List.length_cons,
      List.length_cons, (by omega : index + (before.length + 1 + 1) = index + 2 + before.length)]
    rfl

/-- An odd number of octets is refused. -/
theorem decodeBytes_odd {octets : Bytes} (h : octets.length % 2 = 1) :
    decodeBytes octets = .error .oddLength := by
  rw [decodeBytes, if_pos h]
  rfl

/-- An even number of octets is decoded pair by pair. -/
theorem decodeBytes_even {octets : Bytes} (h : octets.length % 2 = 0) :
    decodeBytes octets = decodePairs 0 octets := by
  rw [decodeBytes, if_neg (by omega)]

/-! ## Octets of a text -/

/-- The octets of a text are those of its characters. -/
theorem toUTF8_toList (s : String) : s.toUTF8.toList = s.toList.flatMap String.utf8EncodeChar := by
  rw [toList_eq_data, String.toUTF8_eq_toByteArray]
  conv_lhs => rw [← String.ofList_toList (s := s)]
  rw [String.toByteArray_ofList, List.utf8Encode, List.data_toByteArray]

/-- A text has as many octets as its size says. -/
theorem length_toUTF8 (s : String) : s.toUTF8.toList.length = s.utf8ByteSize := by
  rw [toList_eq_data, String.toUTF8_eq_toByteArray]
  rfl

/-- A digit is one octet of a text. -/
theorem IsAnyDigit.utf8EncodeChar_eq {c : Char} (h : IsAnyDigit c) :
    String.utf8EncodeChar c = [c.toUInt8] := by
  have hall : anyDigits.all fun c => decide (String.utf8EncodeChar c = [c.toUInt8]) := by
    decide +kernel
  exact of_decide_eq_true (List.all_eq_true.1 hall c h)

/-- A text of digits has one octet for each character. -/
theorem toUTF8_toList_digits {s : String} (h : ∀ c ∈ s.toList, IsAnyDigit c) :
    s.toUTF8.toList = s.toList.map Char.toUInt8 := by
  rw [toUTF8_toList, List.map_eq_flatMap]
  exact List.flatMap_congr fun c hc => (h c hc).utf8EncodeChar_eq

/-- A text is of digits if its octets are. -/
theorem digits_of_octets {s : String} (h : ∀ b ∈ s.toUTF8.toList, IsDigitOctet b) :
    ∀ c ∈ s.toList, IsAnyDigit c := by
  obtain ⟨cs, hcs, hoctets⟩ : ∃ cs : List Char, (∀ c ∈ cs, IsAnyDigit c) ∧
      s.toUTF8.toList = cs.map Char.toUInt8 := by
    generalize s.toUTF8.toList = octets at h
    induction octets with
    | nil => exact ⟨[], by simp, rfl⟩
    | cons b octets ih =>
      obtain ⟨c, hc, rfl⟩ := h b (List.mem_cons_self ..)
      obtain ⟨cs, hcs, rfl⟩ := ih fun d hd => h d (List.mem_cons_of_mem _ hd)
      exact ⟨c :: cs, List.forall_mem_cons.2 ⟨hc, hcs⟩, rfl⟩
  have hs : s = String.ofList cs := by
    rw [← toUTF8_toList_inj, hoctets, toUTF8_toList_digits] <;> rw [String.toList_ofList]
    exact hcs
  rw [hs, String.toList_ofList]
  exact hcs

/-- A text of digits is as large as it is long. -/
theorem utf8ByteSize_digits {s : String} (h : ∀ c ∈ s.toList, IsAnyDigit c) : s.utf8ByteSize = s.length := by
  rw [← length_toUTF8, toUTF8_toList_digits h, List.length_map]
  rfl

/-- An even number of digits is read, as octets that are written as these digits in lower case. -/
theorem decode_digits {s : String} (hdigits : ∀ c ∈ s.toList, IsAnyDigit c) (heven : s.length % 2 = 0) :
    ∃ out, decode s = .ok out ∧ encodeChars out = s.toList.map Char.toLower ∧ 2 * out.length = s.length := by
  obtain ⟨out, hout, hwritten⟩ := decodePairs_digits 0 s.toList hdigits heven
  refine ⟨out, ?_, hwritten, ?_⟩
  · rw [decode, toUTF8_toList_digits hdigits, decodeBytes_even (by rw [List.length_map]; exact heven), hout]
  · rw [← length_encodeChars, hwritten, List.length_map]
    rfl

/-- The first octet that is no digit, if there is one. -/
theorem exists_first_or_digits (octets : Bytes) : (∀ b ∈ octets, IsDigitOctet b) ∨
    ∃ before octet after, octets = before ++ octet :: after ∧ (∀ b ∈ before, IsDigitOctet b) ∧
      ¬IsDigitOctet octet := by
  classical
  rcases hfind : octets.find? fun b => ¬IsDigitOctet b with _ | octet
  · exact Or.inl fun b hb => not_not.1 (by simpa using List.find?_eq_none.1 hfind b hb)
  · obtain ⟨hbad, before, after, rfl, hbefore⟩ := List.find?_eq_some_iff_append.1 hfind
    exact Or.inr ⟨before, octet, after, rfl, by simpa using hbefore, by simpa using hbad⟩

end Hex

namespace NodeId

/-- Why a text is not the identity of a node. It has an odd number of octets; or the first of them that is
no digit stands behind digits; or all are digits, and not 32. -/
inductive Refused (s : String) : Hex.Error → Prop
  | oddLength (h : s.utf8ByteSize % 2 = 1) : Refused s .oddLength
  | badDigit (heven : s.utf8ByteSize % 2 = 0) {before after : Bytes} {octet : UInt8}
      (hoctets : s.toUTF8.toList = before ++ octet :: after)
      (hbefore : ∀ b ∈ before, Hex.IsDigitOctet b) (hbad : ¬Hex.IsDigitOctet octet) :
      Refused s (.badDigit octet before.length)
  | badLength (heven : s.utf8ByteSize % 2 = 0) (hdigits : ∀ b ∈ s.toUTF8.toList, Hex.IsDigitOctet b)
      (hlength : s.utf8ByteSize ≠ 32) : Refused s .badLength

variable {s : String} {id : NodeId} {e : Hex.Error}

/-- Different identities have different digits. -/
theorem hex_injective : Function.Injective hex := by
  rintro ⟨as, _⟩ ⟨bs, _⟩ h
  obtain rfl : as = bs := Hex.encode_injective h
  rfl

/-- An identity has 32 digits. -/
theorem length_hex (id : NodeId) : id.hex.toList.length = 32 := by
  rw [hex, Hex.encode, String.toList_ofList, Hex.length_encodeChars, id.length_bytes]

/-- An identity is made from its own octets. -/
theorem ofBytes?_bytes (id : NodeId) : ofBytes? id.bytes = some id :=
  dif_pos id.length_bytes

/-- Reading an identity decodes its digits and checks their number. -/
theorem ofHex_of_decode {bytes : Bytes} (h : Hex.decode s = .ok bytes) :
    ofHex s = match ofBytes? bytes with
      | some id => .ok id
      | none => .error .badLength := by
  rw [ofHex, h]
  cases hid : ofBytes? bytes <;> simp only [bind, Except.bind, hid] <;> rfl

/-- 32 digits are read, as the identity that is written as these digits in lower case. -/
theorem ofHex_digits (hlength : s.length = 32) (hdigits : ∀ c ∈ s.toList, Hex.IsAnyDigit c) :
    ∃ id, ofHex s = .ok id ∧ id.hex = s.toLower := by
  obtain ⟨out, hout, hwritten, hsize⟩ := Hex.decode_digits hdigits (by omega)
  refine ⟨⟨out, by omega⟩, ?_, ?_⟩
  · rw [ofHex_of_decode hout, ofBytes?_bytes ⟨out, by omega⟩]
  · rw [hex, Hex.encode, hwritten]
    exact String.toList_injective ((String.toList_ofList ..).trans (Hex.toList_toLower s).symm)

/-- A refused text makes no identity. -/
theorem ofHex_refused (h : Refused s e) : ofHex s = .error e := by
  cases h with
  | oddLength h =>
    rw [← Hex.length_toUTF8] at h
    rw [ofHex, Hex.decode, Hex.decodeBytes_odd h]
    rfl
  | badDigit heven hoctets hbefore hbad =>
    rw [← Hex.length_toUTF8, hoctets] at heven
    rw [ofHex, Hex.decode, hoctets, Hex.decodeBytes_even heven,
      Hex.decodePairs_of_first 0 _ _ hbefore hbad heven, Nat.zero_add]
    rfl
  | badLength heven hdigits hlength =>
    have hall := Hex.digits_of_octets hdigits
    rw [Hex.utf8ByteSize_digits hall] at heven hlength
    obtain ⟨out, hout, -, hsize⟩ := Hex.decode_digits hall heven
    rw [ofHex_of_decode hout, ofBytes?, dif_neg (by omega)]

/-- A text is 32 digits, or there is a reason to refuse it. -/
theorem digits_or_refused (s : String) :
    (s.length = 32 ∧ ∀ c ∈ s.toList, Hex.IsAnyDigit c) ∨ ∃ e, Refused s e := by
  rcases Nat.mod_two_eq_zero_or_one s.utf8ByteSize with heven | hodd
  · rcases Hex.exists_first_or_digits s.toUTF8.toList with hdigits | ⟨_, _, _, hoctets, hbefore, hbad⟩
    · have hall := Hex.digits_of_octets hdigits
      by_cases hlength : s.length = 32
      · exact Or.inl ⟨hlength, hall⟩
      · exact Or.inr ⟨_, .badLength heven hdigits ((Hex.utf8ByteSize_digits hall).trans_ne hlength)⟩
    · exact Or.inr ⟨_, .badDigit heven hoctets hbefore hbad⟩
  · exact Or.inr ⟨_, .oddLength hodd⟩

/-- A digit that was written is a digit that is read, in lower case. -/
theorem isAnyDigit_of_isDigit {c : Char} (h : Hex.IsDigit c) : Hex.IsAnyDigit c ∧ c.toLower = c := by
  obtain ⟨n, hn, rfl⟩ := h
  exact (by decide +kernel :
    ∀ n < 16, Hex.IsAnyDigit (Hex.digit n) ∧ (Hex.digit n).toLower = Hex.digit n) n hn

/-- An identity is read from its own digits. -/
theorem ofHex_hex (id : NodeId) : ofHex id.hex = .ok id := by
  have hchars : ∀ c ∈ id.hex.toList, Hex.IsDigit c := fun c hc => by
    rw [hex, Hex.encode, String.toList_ofList] at hc
    exact Hex.isDigit_of_mem hc
  obtain ⟨other, hother, hwritten⟩ := ofHex_digits (length_hex id)
    fun c hc => (isAnyDigit_of_isDigit (hchars c hc)).1
  have hlower : id.hex.toLower = id.hex := by
    apply String.toList_injective
    rw [Hex.toList_toLower]
    conv_rhs => rw [← List.map_id id.hex.toList]
    exact List.map_congr_left fun c hc => (isAnyDigit_of_isDigit (hchars c hc)).2
  rw [hother, hex_injective (hwritten.trans hlower)]

/-- **What is read as the identity of a node.** Exactly the texts of 32 digits are, and such a text is the
written form of what was read, up to the case of its digits. Any other text is refused for the first reason
that applies. What an identity is written as is read as that identity. -/
theorem reading :
    (∀ s, ((∃ id, ofHex s = .ok id) ↔ s.length = 32 ∧ ∀ c ∈ s.toList, Hex.IsAnyDigit c) ∧
      (∀ id, ofHex s = .ok id → id.hex = s.toLower) ∧ ∀ e, ofHex s = .error e ↔ Refused s e) ∧
    ∀ id, ofHex (hex id) = .ok id := by
  refine ⟨fun s => ?_, ofHex_hex⟩
  rcases digits_or_refused s with ⟨hlength, hdigits⟩ | ⟨e, he⟩
  · obtain ⟨id, hid, hwritten⟩ := ofHex_digits hlength hdigits
    refine ⟨⟨fun _ => ⟨hlength, hdigits⟩, fun _ => ⟨id, hid⟩⟩, fun other hother => ?_,
      fun e => ⟨fun h => ?_, fun h => ?_⟩⟩
    · cases hid.symm.trans hother
      exact hwritten
    · cases hid.symm.trans h
    · cases hid.symm.trans (ofHex_refused h)
  · have hfails := ofHex_refused he
    refine ⟨⟨fun ⟨_, hid⟩ => ?_, fun ⟨hlength, hdigits⟩ => ?_⟩, fun _ hid => ?_,
      fun other => ⟨fun h => ?_, ofHex_refused⟩⟩
    · cases hfails.symm.trans hid
    · obtain ⟨id, hid, -⟩ := ofHex_digits hlength hdigits
      exact ⟨id, hid⟩
    · cases hfails.symm.trans hid
    · cases hfails.symm.trans h
      exact he

end NodeId

end ContentTree
