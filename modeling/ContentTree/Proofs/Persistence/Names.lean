import ContentTree.Persistence.FileStore
import ContentTree.Proofs.Disk.Path
import ContentTree.Proofs.Text.Hex

/-!
# Names of record files

A record's path is that of its folder with three plain names behind it: the kind of the record, two
digits and 64 digits. The temporary file beside a record has a longer name than any record. Different
identities have different keys (`itemKey_injective`), and a path tells the hash of the key that it is for
(`recordPath_inj`).
-/

namespace ContentTree

/-! ## Identities in names -/

/-- The digits of a node have one length, so what follows them is told apart from them. -/
theorem PropertyId.display_injective : Function.Injective PropertyId.display := by
  rintro ⟨parent, ⟨name⟩⟩ ⟨parent', ⟨name'⟩⟩ h
  have hchars := congrArg String.toList h
  simp only [PropertyId.display, String.toList_append, List.append_assoc] at hchars
  obtain ⟨hparent, hrest⟩ := List.append_inj hchars
    ((NodeId.length_hex parent).trans (NodeId.length_hex parent').symm)
  obtain rfl := NodeId.hex_injective (String.toList_injective hparent)
  obtain rfl := String.toList_injective (List.append_cancel_left hrest)
  rfl

namespace Path

/-- A name of digits, with an ending. -/
theorem plain_encode {bytes : Bytes} {ending : String} (hne : bytes ≠ [])
    (hending : '\x00' ∉ ending.toList) (hshort : 2 * bytes.length + ending.utf8ByteSize ≤ Path.maxNameSize) :
    Path.Plain (Hex.encode bytes ++ ending) := by
  obtain ⟨b, rest, rfl⟩ := List.exists_cons_of_ne_nil hne
  have hlist : (Hex.encode (b :: rest) ++ ending).toList =
      Hex.encodeChars (b :: rest) ++ ending.toList := by
    rw [String.toList_append, Hex.encode, String.toList_ofList]
  have hhead : Hex.encodeChars (b :: rest) =
    Hex.digit (b.toNat / 16) :: Hex.digit (b.toNat % 16) :: Hex.encodeChars rest := rfl
  have hdot : Hex.digit (b.toNat / 16) ≠ '.' :=
    (Hex.isDigit_of_mem (hhead ▸ List.mem_cons_self ..)).plain.2.2
  have hne : ∀ s : String, s.toList.head? = none ∨ s.toList.head? = some '.' →
      Hex.encode (b :: rest) ++ ending ≠ s := by
    rintro s hs rfl
    rw [hlist, hhead] at hs
    rcases hs with hs | hs
    · cases hs
    · exact hdot (Option.some.inj hs)
  refine ⟨?_, hne ".." (Or.inr rfl), ?_, ?_⟩
  · rw [Path.staysHere, decide_eq_false_iff_not, not_or]
    exact ⟨hne "" (Or.inl rfl), hne "." (Or.inr rfl)⟩
  · rw [String.utf8ByteSize_append, Hex.utf8ByteSize_encode]
    exact hshort
  · rw [hlist, List.mem_append, not_or]
    exact ⟨fun h => (Hex.isDigit_of_mem h).plain.2.1 rfl, hending⟩

end Path

namespace FileStore

/-- The folders in which records are kept. -/
def kinds : List String := ["items", "refs"]

/-- The names of a record's folders and of its file. -/
structure Names (kind shard name : String) : Prop where
  kind_mem : kind ∈ kinds
  shard_plain : Path.Plain shard
  name_plain : Path.Plain name
  temporary_plain : Path.Plain (name ++ ".tmp")
  shard_size : shard.utf8ByteSize = 2
  name_size : name.utf8ByteSize = 64

/-- The kinds of records are plain names. -/
theorem plain_kind {kind : String} (h : kind ∈ kinds) : Path.Plain kind := by
  rcases List.mem_cons.1 h with rfl | h
  · exact ⟨by decide, by decide, by decide, by decide⟩
  · rw [List.mem_singleton] at h
    subst h
    exact ⟨by decide, by decide, by decide, by decide⟩

/-- A path at which a record is kept. -/
def IsRecord (folder path : Path) : Prop :=
  ∃ kind shard name, path = folder ++ [kind, shard, name] ∧ Names kind shard name

/-- The path under a kind and a key is the path of a record. -/
theorem isRecord_recordPath (folder : Path) {kind : String} (h : kind ∈ kinds) (key : String) :
    IsRecord folder (recordPath folder kind key) := by
  have hlen : (Sha256.hash key.toUTF8.toList).length = 32 := Sha256.length_hash _
  have htake : ((Sha256.hash key.toUTF8.toList).take 1).length = 1 := by
    rw [List.length_take, hlen]
    rfl
  have hne : Sha256.hash key.toUTF8.toList ≠ [] := List.ne_nil_of_length_pos (by omega)
  have hne' : (Sha256.hash key.toUTF8.toList).take 1 ≠ [] := List.ne_nil_of_length_pos (by omega)
  refine ⟨_, _, _, rfl, h, ?_, ?_, ?_, ?_, ?_⟩
  · rw [← String.append_empty (s := Hex.encode ((Sha256.hash key.toUTF8.toList).take 1))]
    exact Path.plain_encode hne' (by decide) (by rw [htake]; decide)
  · rw [← String.append_empty (s := Hex.encode (Sha256.hash key.toUTF8.toList))]
    exact Path.plain_encode hne (by decide) (by rw [hlen]; decide)
  · exact Path.plain_encode hne (by decide) (by rw [hlen]; decide)
  · rw [Hex.utf8ByteSize_encode, htake]
  · rw [Hex.utf8ByteSize_encode, hlen]

/-- The path of an item is the path of a record. -/
theorem isRecord_itemPath (folder : Path) (id : ItemId) : IsRecord folder (itemPath folder id) :=
  isRecord_recordPath folder (by decide) _

/-- The path of a reference record is the path of a record. -/
theorem isRecord_referencesPath (folder : Path) (target : NodeId) :
    IsRecord folder (referencesPath folder target) :=
  isRecord_recordPath folder (by decide) _

/-- The place of what stands behind a folder's path, when the folder is at `base`. -/
def placeOf (folder : Path) (base : Location) (path : Path) : Location :=
  (path.drop folder.length).reverse ++ base

/-- Names below the folder stand below the base. -/
theorem placeOf_append (folder : Path) (base : Location) (ns : Path) :
    placeOf folder base (folder ++ ns) = ns.reverse ++ base := by
  rw [placeOf, List.drop_left]

/-! ## Names of different identities -/

/-- Items with the same key are the same. -/
theorem itemKey_injective : Function.Injective itemKey := by
  intro a b h
  have hchars := congrArg String.toList h
  cases a <;> cases b <;> simp only [itemKey, String.toList_append] at hchars
  case node.node =>
    have hhex := String.toList_injective (List.append_cancel_left hchars)
    rw [NodeId.hex_injective hhex]
  case property.property =>
    have hdisplay := String.toList_injective (List.append_cancel_left hchars)
    rw [PropertyId.display_injective hdisplay]
  all_goals exact absurd (List.cons.inj hchars).1 (by decide)

/-- Nodes with the same key are the same. -/
theorem referencesKey_injective : Function.Injective referencesKey := by
  intro a b h
  have hchars := congrArg String.toList h
  simp only [referencesKey, String.toList_append] at hchars
  exact NodeId.hex_injective (String.toList_injective (List.append_cancel_left hchars))

/-- The path of a record tells its kind and the hash of its key. -/
theorem recordPath_inj {folder : Path} {kind kind' key key' : String}
    (h : recordPath folder kind key = recordPath folder kind' key') :
    kind = kind' ∧ Sha256.hash key.toUTF8.toList = Sha256.hash key'.toUTF8.toList := by
  have hnames := List.append_cancel_left h
  simp only [List.cons.injEq] at hnames
  exact ⟨hnames.1, Hex.encode_injective hnames.2.2.1⟩

/-- No item has the path of a reference record. -/
theorem itemPath_ne_referencesPath (folder : Path) (id : ItemId) (target : NodeId) :
    itemPath folder id ≠ referencesPath folder target := fun h =>
  absurd (recordPath_inj h).1 (by decide)

variable {folder path : Path} {base : Location}

/-- The temporary copy of a record stands beside it. -/
theorem withEnding_record (folder : Path) (kind shard name : String) :
    Path.withEnding (folder ++ [kind, shard, name]) ".tmp" = folder ++ [kind, shard, name ++ ".tmp"] := by
  have hsplit : folder ++ [kind, shard, name] = (folder ++ [kind, shard]) ++ [name] := by
    rw [List.append_assoc]
    rfl
  rw [hsplit, Path.withEnding_append, List.append_assoc]
  rfl

/-- The parent of a record is its shard. -/
theorem parent_record {kind shard name : String} (folder : Path) (h : Names kind shard name) :
    Path.parent (folder ++ [kind, shard, name]) = (folder ++ [kind]) ++ [shard] := by
  have hsplit : folder ++ [kind, shard, name] = (folder ++ [kind]) ++ [shard, name] := by
    rw [List.append_assoc]
    rfl
  rw [hsplit, Path.parent_append h.shard_plain h.name_plain]

/-- Records at different paths are kept at different places. -/
theorem IsRecord.eq_of_placeOf {other : Path} (h : IsRecord folder path) (h' : IsRecord folder other)
    (heq : placeOf folder base path = placeOf folder base other) : path = other := by
  obtain ⟨kind, shard, name, rfl, -⟩ := h
  obtain ⟨kind', shard', name', rfl, -⟩ := h'
  rw [placeOf_append, placeOf_append] at heq
  rw [List.reverse_inj.1 (List.append_cancel_right heq)]

/-- Writing a record may change the folder it is in, the file beside it, and the record. -/
def nearby (folder : Path) (base : Location) (path : Path) (place : Location) : Prop :=
  place = placeOf folder base path ∨ place = placeOf folder base (path.withEnding ".tmp") ∨
    place = (placeOf folder base path).tail

/-- Nearby a record are the record, its temporary copy and its shard. -/
theorem nearby_record {kind shard name : String} (l : Location) :
    nearby folder base (folder ++ [kind, shard, name]) l ↔ l = name :: shard :: kind :: base ∨
      l = (name ++ ".tmp") :: shard :: kind :: base ∨ l = shard :: kind :: base := by
  rw [nearby, withEnding_record, placeOf_append, placeOf_append]
  rfl

/-- The temporary file beside a record is not called like a record. -/
theorem Names.temporary_ne {kind shard name kind' shard' name' : String} (h : Names kind shard name)
    (h' : Names kind' shard' name') : name ++ ".tmp" ≠ name' := by
  rintro rfl
  have hsize := h'.name_size
  rw [String.utf8ByteSize_append, h.name_size] at hsize
  exact absurd hsize (by decide)

/-- What is near a record is not the place of another one. -/
theorem IsRecord.not_nearby {other : Path} (h : IsRecord folder path) (h' : IsRecord folder other)
    (hne : other ≠ path) : ¬nearby folder base path (placeOf folder base other) := by
  have hplace : placeOf folder base other ≠ placeOf folder base path := fun heq =>
    hne (h'.eq_of_placeOf h heq)
  obtain ⟨kind, shard, name, rfl, hn⟩ := h
  obtain ⟨kind', shard', name', rfl, hn'⟩ := h'
  rw [placeOf_append, placeOf_append] at hplace
  rw [placeOf_append, nearby_record]
  rintro (heq | heq | heq)
  · exact hplace heq
  · exact hn.temporary_ne hn' (List.cons.inj heq).1.symm
  · have hlen := congrArg List.length heq
    simp at hlen

end FileStore

end ContentTree
