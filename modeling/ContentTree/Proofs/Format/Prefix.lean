import ContentTree.Proofs.Format.MessagePack

/-!
# Where a value ends

A reader stops where the value ends, and what follows does not change what it finds
(`steady_readWithin`). So the reader of a whole encoding never takes less of it for a value
(`read_of_prefix`).
-/

namespace ContentTree.MessagePack

/-- What a reader finds at the front of a byte string, it finds there whatever comes behind. -/
structure Steady {β : Type} (reader : Bytes → Option (β × Bytes)) : Prop where
  append : ∀ {bytes b rest}, reader bytes = some (b, rest) → ∀ more,
    reader (bytes ++ more) = some (b, rest ++ more)

namespace Steady

variable {β γ : Type} {f : Bytes → Option (β × Bytes)}

/-- A reader that takes nothing is steady. -/
theorem pure (b : β) : Steady fun bytes => some (b, bytes) where
  append h more := by
    cases h
    rfl

/-- A reader that never answers is steady. -/
theorem none : Steady fun _ => (Option.none : Option (β × Bytes)) where
  append h := by cases h

/-- Two steady readers are steady one after the other. -/
theorem bind {g : β → Bytes → Option (γ × Bytes)} (hf : Steady f) (hg : ∀ b, Steady (g b)) :
    Steady fun bytes => (f bytes).bind fun p => g p.1 p.2 where
  append h more := by
    obtain ⟨⟨b, mid⟩, hfirst, hsecond⟩ := Option.bind_eq_some_iff.1 h
    rw [hf.append hfirst more, Option.bind_some]
    exact (hg b).append hsecond more

/-- A steady reader stays steady when its answer is mapped. -/
theorem map (hf : Steady f) (build : β → γ) :
    Steady fun bytes => (f bytes).map fun p => (build p.1, p.2) where
  append h more := by
    obtain ⟨⟨b, mid⟩, hfirst, hpair⟩ := Option.map_eq_some_iff.1 h
    cases hpair
    rw [hf.append hfirst more]
    rfl

end Steady

/-! ## Readers -/

/-- Splitting octets off is steady. -/
theorem steady_splitAt? (n : Nat) : Steady (Bytes.splitAt? n) where
  append h more := by
    obtain ⟨rfl, rfl⟩ := Bytes.append_of_splitAt? h
    rw [List.append_assoc, Bytes.splitAt?_append]

/-- Reading a number is steady. -/
theorem steady_readNumber (size : Nat) : Steady (readNumber size) :=
  (steady_splitAt? size).map Bytes.ofBigEndian

/-- Reading a head is steady. -/
theorem steady_readHead : Steady readHead := by
  refine ⟨fun {bytes head rest} h more => ?_⟩
  cases bytes with
  | nil => cases h
  | cons marker tail =>
    -- the marker alone decides how it goes on
    have hwhole : ∀ {found : Head}, some (found, tail) = some (head, rest) →
        some (found, tail ++ more) = some (head, rest ++ more) :=
      fun hread => (Steady.pure _).append hread more
    simp only [readHead, List.cons_append] at h ⊢
    generalize marker.toNat = m at h ⊢
    split_ifs at h ⊢
    iterate 5 exact hwhole h
    split at h
    case h_32 => cases h
    all_goals first
      | exact hwhole h
      | -- a number follows
        obtain ⟨⟨n, mid⟩, hnumber, hpair⟩ := Option.map_eq_some_iff.1 h
        cases hpair
        rw [(steady_readNumber _).append hnumber more]
        rfl

/-- Reading some items is steady if reading one is. -/
theorem steady_readItems {item : ValueReader} (hitem : Steady item) (n : Nat) :
    Steady (readItems item n) := by
  induction n with
  | zero => exact Steady.pure []
  | succ n ih => exact hitem.bind fun d => ih.bind fun ds => Steady.pure (d :: ds)

/-- Reading some entries is steady if reading one is. -/
theorem steady_readEntries {item : ValueReader} (hitem : Steady item) (n : Nat) :
    Steady (readEntries item n) := by
  induction n with
  | zero => exact Steady.pure []
  | succ n ih =>
    exact hitem.bind fun k => hitem.bind fun v => ih.bind fun rest => Steady.pure ((k, v) :: rest)

/-- Reading a value is steady if what reads its parts is. -/
theorem steady_readValue {inner : Option ValueReader}
    (hinner : ∀ item, inner = some item → Steady item) : Steady (readValue inner) := by
  refine ⟨fun {bytes d rest} h more => ?_⟩
  obtain ⟨⟨head, mid⟩, hhead, hvalue⟩ := Option.bind_eq_some_iff.1 h
  show (readHead (bytes ++ more)).bind _ = _
  rw [steady_readHead.append hhead more, Option.bind_some]
  -- a head has told how many octets or items follow
  cases head with
  | value d => exact (Steady.pure d).append hvalue more
  | text n =>
    exact ((steady_splitAt? n).bind fun octets => Steady.pure (Datum.text octets)).append hvalue more
  | binary n =>
    exact ((steady_splitAt? n).bind fun octets => Steady.pure (Datum.binary octets)).append hvalue more
  | extension n =>
    exact ((steady_splitAt? n).bind fun _ => Steady.pure Datum.extension).append hvalue more
  | list n =>
    cases inner with
    | none => cases hvalue
    | some item =>
      exact ((steady_readItems (hinner item rfl) n).bind
        fun items => Steady.pure (Datum.list items)).append hvalue more
  | table n =>
    cases inner with
    | none => cases hvalue
    | some item =>
      exact ((steady_readEntries (hinner item rfl) n).bind
        fun entries => Steady.pure (Datum.table entries)).append hvalue more

/-- Reading within any depth is steady. -/
theorem steady_readWithin (depth : Nat) : Steady (readWithin depth) := by
  induction depth with
  | zero => exact steady_readValue fun item h => by cases h
  | succ depth ih => exact steady_readValue fun item h => by cases h; exact ih

/-- Of an encoding that is not there to its end no value is read. -/
theorem read_of_prefix {d : Document} (hn : NumbersFit d) (hl : LengthsFit d)
    (hdepth : (tree d).depth ≤ maxDepth) {part : Bytes} (hpart : part <+: encode d)
    (hne : part ≠ encode d) : read part = none := by
  obtain ⟨more, hmore⟩ := hpart
  cases hread : read part with
  | none => rfl
  | some found =>
    obtain ⟨datum, rest⟩ := found
    have hlonger := (steady_readWithin maxDepth).append hread more
    have hwhole := read_encode hn hl hdepth []
    rw [List.append_nil, ← hmore] at hwhole
    -- the whole encoding would be read with something left over
    have hrest : rest ++ more = [] := by
      rw [read, hlonger] at hwhole
      exact (Prod.mk.inj (Option.some.inj hwhole)).2
    rw [(List.append_eq_nil_iff.1 hrest).2, List.append_nil] at hmore
    exact absurd hmore hne

end ContentTree.MessagePack
