import ContentTree.Proofs.Persistence.Appending

/-!
# Entries that are too long

An entry is written however long it is, and its length is looked at when it is read. So it is read back
if and only if it is not longer than entries may be (`read_write_iff`). A longer one is announced like
any other, and neither it nor anything behind it is found again (`log_overlong`).
-/

namespace ContentTree

/-! ## Parts of what is written -/

namespace MessagePack

/-- An item of a list takes no more octets than the list. -/
theorem length_write_le_of_mem {d : Datum} {items : List Datum} (h : d ∈ items) :
    (write d).length ≤ (writeItems items).length := by
  induction items with
  | nil => cases h
  | cons first rest ih =>
    rw [writeItems, List.length_append]
    rcases List.mem_cons.1 h with rfl | h
    · omega
    · have hle := ih h
      omega

/-- A list is not shorter than it has items. -/
theorem length_le_encode_list (items : List Document) :
    items.length ≤ (encode (.list items)).length := by
  rw [encode, tree, write, List.length_append]
  have hle := length_le_writeItems (trees items)
  rw [trees_eq_map, List.length_map] at hle
  rw [trees_eq_map]
  omega

/-- A list is not shorter than an item of it. -/
theorem length_item_le {d : Document} {items : List Document} (h : d ∈ items) :
    (encode d).length ≤ (encode (.list items)).length := by
  rw [encode, encode, tree, write, List.length_append, trees_eq_map]
  have hle := length_write_le_of_mem (List.mem_map_of_mem (f := tree) h)
  omega

/-- A record is not shorter than a field of it. -/
theorem length_field_le (name : String) {d : Document} {fields : List (String × Document)}
    (h : (name, d) ∈ fields) : (encode d).length ≤ (encode (.record fields)).length := by
  rw [encode, encode, tree, write, List.length_append, fieldTrees_eq_map]
  have hle : (write (tree d)).length ≤ _ :=
    length_write_le_of_mem (List.mem_map_of_mem (f := fun f => tree f.2) h)
  omega

/-- An alternative is longer than its content. -/
theorem length_content_lt (name : String) (content : Document) :
    (encode content).length < (encode (.variant name content)).length := by
  have hname := length_write_pos (text name)
  rw [encode, encode, tree, write, writeEntries, List.length_append, List.length_append,
    List.length_append]
  omega

end MessagePack

namespace JournalEntry

variable {e : JournalEntry}

/-- An entry that is read back is no longer than the limit. -/
theorem length_le_of_read_write {tail : Bytes} (h : read (e.write ++ tail) = .ok (e, tail)) :
    (Portable.toBytes e).length ≤ maxLength := by
  obtain ⟨encoded, hfront, hle, -⟩ := read_eq_ok_iff.1 h
  have hlen := congrArg List.length (List.append_cancel_right hfront)
  rw [length_write, length_frame] at hlen
  omega

/-- **An entry that was written is read back, whatever follows it, if and only if it is not longer than
entries may be.** -/
theorem read_write_iff (h : e.Fits) (tail : Bytes) :
    read (e.write ++ tail) = .ok (e, tail) ↔ (Portable.toBytes e).length ≤ maxLength :=
  ⟨length_le_of_read_write, fun hle => read_write ⟨h, hle⟩ tail⟩

/-- An entry that is too long cannot be read back, whatever follows it. -/
theorem exists_read_write_eq_error (hfits : e.Fits)
    (hlengths : MessagePack.LengthsFit (Portable.document e))
    (hlong : maxLength < (Portable.toBytes e).length) (tail : Bytes) :
    ∃ err, read (e.write ++ tail) = .error err := by
  rcases read_write_or hfits hlengths tail with hread | herr
  · exact absurd (length_le_of_read_write hread) (Nat.not_le_of_lt hlong)
  · exact herr

/-- A mark is read back in front of an octet that begins nothing. -/
theorem read_write_iff_mark : Fits ⟨1, .committed, none, 0⟩ ∧
    read (write ⟨1, .committed, none, 0⟩ ++ [0xff]) = .ok (⟨1, .committed, none, 0⟩, [0xff]) := by
  have hfits : Fits ⟨1, .committed, none, 0⟩ := ⟨by decide, by decide, fun _ h => by cases h⟩
  exact ⟨hfits, (read_write_iff hfits [0xff]).2 (by decide +kernel)⟩

/-! ## A batch that is lost -/

/-- The batch that adds a property with these octets. -/
def adding (octets : Bytes) : ChangeSet where
  added := [⟨.property ⟨default, ⟨"p"⟩⟩, .new, 0, .property ⟨.binary, false, none, [.binary octets]⟩⟩]
  modified := []
  deleted := []
  references := []

/-- The entry that announces it first in a journal. -/
def announcing (octets : Bytes) : JournalEntry :=
  ⟨1, .pending, some (adding octets), 0⟩

/-- The announcement of any octets fits into its fields. -/
theorem fits_announcing (octets : Bytes) : (announcing octets).Fits := by
  refine ⟨show 1 ≤ maxUInt64 by decide, show 0 ≤ maxUInt64 by decide, fun set hset => ?_⟩
  cases hset
  intro s hs
  rw [List.mem_singleton.1 hs]
  exact ⟨show 0 ≤ maxUInt64 by decide, trivial⟩

open MessagePack in
/-- Each of the octets takes one at least. -/
theorem length_lt_announcing (octets : Bytes) :
    octets.length < (Portable.toBytes (announcing octets)).length := by
  let property : PropertyState := ⟨.binary, false, none, [.binary octets]⟩
  let state : ItemState := ⟨.property ⟨default, ⟨"p"⟩⟩, .new, 0, .property property⟩
  calc octets.length = (octets.map fun b => Document.natural b.toNat).length := by
        rw [List.length_map]
    _ ≤ (encode (.octets octets)).length := length_le_encode_list _
    _ < (encode (Portable.document (Value.binary octets))).length := length_content_lt "Binary" _
    _ ≤ (encode (Portable.listDocument property.values)).length :=
        length_item_le (List.mem_singleton.2 rfl)
    _ ≤ (encode (Portable.document property)).length :=
        length_field_le "values" (by simp)
    _ ≤ (encode (Portable.document state.data)).length :=
        Nat.le_of_lt (length_content_lt "Property" _)
    _ ≤ (encode (Portable.document state)).length := length_field_le "data" (by simp)
    _ ≤ (encode (Portable.listDocument [state])).length := length_item_le (List.mem_singleton.2 rfl)
    _ ≤ (encode (Portable.document (adding octets))).length :=
        length_field_le "added" (List.mem_cons_self ..)
    _ ≤ (Portable.toBytes (announcing octets)).length :=
        length_field_le "batch"
          (List.mem_cons_of_mem _ (List.mem_cons_of_mem _ (List.mem_cons_self ..)))

/-- Fewer than 2 ^ 32 octets have a length that fits. -/
theorem lengthsFit_octets {octets : Bytes} (h : octets.length < 4294967296) :
    MessagePack.LengthsFit (.octets octets) := by
  refine ⟨by rw [List.length_map]; exact h, ?_⟩
  clear h
  induction octets with
  | nil => exact trivial
  | cons b rest ih => exact ⟨trivial, ih⟩

/-- The announcement of such octets has lengths that fit. -/
theorem lengthsFit_announcing {octets : Bytes} (h : octets.length < 4294967296) :
    MessagePack.LengthsFit (Portable.document (announcing octets)) := by
  have hnone : 0 < 4294967296 := by decide
  have hone : 1 < 4294967296 := by decide
  have hfour : 4 < 4294967296 := by decide
  have hid : MessagePack.LengthsFit (Portable.document (ItemId.property ⟨default, ⟨"p"⟩⟩)) :=
    ⟨show "Property".toUTF8.toList.length < 4294967296 by decide +kernel,
      show 2 < 4294967296 by decide, lengthsFit_octets (by decide),
      show "p".toUTF8.toList.length < 4294967296 by decide +kernel, trivial⟩
  have hproperty : MessagePack.LengthsFit
      (Portable.document (PropertyState.mk .binary false none [.binary octets])) :=
    ⟨hfour, show "Binary".toUTF8.toList.length < 4294967296 by decide +kernel, trivial, trivial,
      ⟨hone, ⟨by decide +kernel, lengthsFit_octets h⟩, trivial⟩, trivial⟩
  have hstates : MessagePack.LengthsFit (Portable.listDocument (adding octets).added) :=
    ⟨hone, ⟨hfour, hid, lengthsFit_status .new, trivial, ⟨by decide +kernel, hproperty⟩, trivial⟩,
      trivial⟩
  have hset : MessagePack.LengthsFit (Portable.document (adding octets)) :=
    ⟨hfour, hstates, ⟨hnone, trivial⟩, ⟨hnone, trivial⟩, ⟨hnone, trivial⟩, trivial⟩
  exact ChangeSet.lengthsFit_announcement hset 1 0

/-- As many octets as an entry may have are too many for a value in it. -/
theorem exists_read_announcing_eq_error (tail : Bytes) :
    ∃ err, read ((announcing (.replicate maxLength 0)).write ++ tail) = .error err := by
  have hlen : (List.replicate maxLength (0 : UInt8)).length = maxLength := List.length_replicate
  have hlong := length_lt_announcing (.replicate maxLength 0)
  rw [hlen] at hlong
  have hlengths : MessagePack.LengthsFit (Portable.document (announcing (.replicate maxLength 0))) :=
    lengthsFit_announcing (by rw [hlen]; decide)
  exact exists_read_write_eq_error (fits_announcing _) hlengths hlong tail

end JournalEntry

open JournalEntry in
/-- A batch that is too long is logged and gets its number, but its announcement is not read back, and
it is not pending. -/
theorem Journal.log_overlong : ∃ s',
    log (adding (.replicate maxLength 0)) (openedWith []) = .ok 1 s' ∧
    (announcing (.replicate maxLength 0)).Fits ∧
    read ((announcing (.replicate maxLength 0)).write ++ []) ≠
      .ok (announcing (.replicate maxLength 0), []) ∧
    pendingEntries s' = .ok [] s' := by
  obtain ⟨s', hlog, hw⟩ := exists_log_openedWith [] (adding (.replicate maxLength 0))
  rw [scan_nil, show seqAfter [] = 1 from rfl] at hlog hw
  obtain ⟨err, herr⟩ := exists_read_announcing_eq_error []
  refine ⟨s', hlog, fits_announcing _, fun hread => ?_, ?_⟩
  · rw [herr] at hread
    cases hread
  · rw [List.append_nil, List.append_nil] at hw
    have hpending : pendingEntries s' =
        .ok (pending (scan (announcing (.replicate maxLength 0)).write)) s' :=
      pendingEntries_openedWith hw
    rw [List.append_nil] at herr
    rwa [scan_of_error herr, pending_nil] at hpending

end ContentTree
