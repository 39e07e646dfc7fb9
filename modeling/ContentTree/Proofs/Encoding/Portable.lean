import ContentTree.Encoding.Change
import ContentTree.Proofs.Format.Prefix

/-!
# Portable values come back

What is written of a value tells the value, in every dialect. A reader that is handed the octets of a
value finds it, whatever follows them, and finds nothing in less than all of them, if its texts and
lists are shorter than 2³² (`Portable.Told.ofBytes?`, `Portable.Told.ofBytes?_of_part`).
-/

namespace ContentTree

open MessagePack Datum

variable {α : Type}

/-- A document tells `a` to `read`: its numbers can be written, its lists and tables are not nested
deeper than `nesting`, and `a` is found in its tree. -/
structure Document.Tells (nesting : Nat) (d : Document) (read : Dialect → Datum → Option α) (a : α) :
    Prop where
  numbers : NumbersFit d
  depth_le : (tree d).depth ≤ nesting
  back : ∀ dialect, read dialect (tree d) = some a

/-- A value that its written form tells. -/
def Portable.Told [Portable α] (nesting : Nat) (a : α) : Prop :=
  (Portable.document a).Tells nesting Portable.ofDatum? a

namespace Document.Tells

/-- What is told in some depth is told in more. -/
theorem mono {n m : Nat} {d : Document} {read : Dialect → Datum → Option α} {a : α}
    (h : d.Tells n read a) (hle : n ≤ m) : d.Tells m read a :=
  { h with depth_le := Nat.le_trans h.depth_le hle }

end Document.Tells

/-- What is told is read back from its octets, whatever follows them. -/
theorem Portable.Told.ofBytes? [Portable α] {n : Nat} {a : α} (h : Portable.Told n a)
    (hn : n ≤ MessagePack.maxDepth) (hl : LengthsFit (Portable.document a)) (rest : Bytes) :
    Portable.ofBytes? (Portable.toBytes a ++ rest) = some a := by
  rw [Portable.ofBytes?, MessagePack.decode, Portable.toBytes,
    read_encode h.numbers hl (Nat.le_trans h.depth_le hn), Option.bind_eq_bind, Option.bind_some]
  exact h.back _

/-- Of less than all of its octets nothing is read. -/
theorem Portable.Told.ofBytes?_of_part [Portable α] {n : Nat} {a : α} (h : Portable.Told n a)
    (hn : n ≤ MessagePack.maxDepth) (hl : LengthsFit (Portable.document a)) {part : Bytes}
    (hpart : part <+: Portable.toBytes a) (hne : part ≠ Portable.toBytes a) :
    (Portable.ofBytes? part : Option α) = none := by
  rw [Portable.ofBytes?, MessagePack.decode,
    read_of_prefix h.numbers hl (Nat.le_trans h.depth_le hn) hpart hne]
  rfl

/-! ## Lists and missing values -/

/-- A list is as deep as its members. -/
theorem listDepth_le {ds : List Datum} {n : Nat} (h : ∀ d ∈ ds, d.depth ≤ n) :
    Datum.listDepth ds ≤ n := by
  induction ds with
  | nil => exact Nat.zero_le n
  | cons d rest ih =>
    rw [Datum.listDepth]
    exact Nat.max_le.2 ⟨h d (List.mem_cons_self ..), ih fun e he => h e (List.mem_cons_of_mem d he)⟩

/-- The numbers in a list fit if they do in each document. -/
theorem allNumbersFit {ds : List Document} (h : ∀ d ∈ ds, NumbersFit d) : AllNumbersFit ds := by
  induction ds with
  | nil => exact trivial
  | cons d rest ih =>
    exact ⟨h d (List.mem_cons_self ..), ih fun e he => h e (List.mem_cons_of_mem d he)⟩

/-- A list whose items are told is told. -/
theorem tells_list {β : Type} {n : Nat} {f : β → Document} {read : Dialect → Datum → Option β}
    {as : List β} (h : ∀ a ∈ as, (f a).Tells n read a) :
    (Document.list (as.map f)).Tells (n + 1)
      (fun dialect d => d.listOf? dialect (read dialect.deeper)) as where
  numbers := by
    refine allNumbersFit fun d hd => ?_
    obtain ⟨a, ha, rfl⟩ := List.mem_map.1 hd
    exact (h a ha).numbers
  depth_le := by
    rw [tree, Datum.depth, trees_eq_map]
    refine Nat.succ_le_succ (listDepth_le fun d hd => ?_)
    rw [List.map_map] at hd
    obtain ⟨a, ha, rfl⟩ := List.mem_map.1 hd
    exact (h a ha).depth_le
  back dialect := by
    show (trees (as.map f)).mapM (read dialect.deeper) = some as
    rw [trees_eq_map, List.map_map, List.mapM_map]
    -- the items are read one by one, each a level deeper
    have hback : ∀ l : List β, (∀ a ∈ l, a ∈ as) →
        l.mapM (read dialect.deeper ∘ tree ∘ f) = some l := by
      intro l hl
      induction l with
      | nil => rfl
      | cons a rest ih =>
        have ha := (h a (hl a (List.mem_cons_self ..))).back dialect.deeper
        have hrest := ih fun b hb => hl b (List.mem_cons_of_mem a hb)
        rw [List.mapM_cons, Function.comp_apply, Function.comp_apply, ha, hrest]
        rfl
    exact hback as fun a ha => ha

/-- A value that may be missing is told if the value is, which is not written as nothing. -/
theorem tells_optional {β : Type} {n : Nat} {f : β → Document} {read : Dialect → Datum → Option β}
    {o : Option β} (h : ∀ a, o = some a → (f a).Tells n read a) (hnull : ∀ a, tree (f a) ≠ .null) :
    (Document.optional f o).Tells n (fun dialect d => d.optional? (read dialect)) o where
  numbers := by
    cases o with
    | none => exact trivial
    | some a => exact (h a rfl).numbers
  depth_le := by
    cases o with
    | none => exact Nat.zero_le n
    | some a => exact (h a rfl).depth_le
  back dialect := by
    cases o with
    | none => rfl
    | some a =>
      have hback := (h a rfl).back dialect
      have hne := hnull a
      show Datum.optional? (read dialect) (tree (f a)) = some (some a)
      generalize tree (f a) = d at hback hne
      rw [Datum.optional?, hback]
      · rfl
      · exact hne

/-! ## Scalars -/

/-- A name is told by its document. -/
theorem told_name (n : Name) : Portable.Told 0 n where
  numbers := trivial
  depth_le := Nat.le_refl 0
  back _ := congrArg (Option.map Name.mk) (text?_text n.text)

/-- The identity of a definition is told by its document. -/
theorem told_definitionId (i : DefinitionId) : Portable.Told 0 i where
  numbers := trivial
  depth_le := Nat.le_refl 0
  back _ := congrArg (Option.map DefinitionId.mk) (text?_text i.text)

/-- An integer has no depth. -/
theorem depth_integer (n : Int) : (integer n).depth = 0 := by
  unfold integer
  split <;> rfl

/-- A number that is found within its bound. -/
theorem tells_natural {bound n : Nat} (h : n ≤ bound) (hbound : bound ≤ maxUInt64) :
    (Document.natural n).Tells 0 (fun _ => Datum.natural? bound) n where
  numbers := ⟨by omega, by
    have hmax : maxUInt64 = 0xffffffffffffffff := rfl
    omega⟩
  depth_le := Nat.le_of_eq (depth_integer n)
  back _ := natural?_integer h

/-- Octets are told by their document. -/
theorem tells_octets (bytes : Bytes) :
    (Document.octets bytes).Tells 1 (fun dialect d => d.octets? dialect) bytes := by
  have hoctet : ∀ b ∈ bytes, (Document.natural b.toNat).Tells 0
      (fun _ d => (d.natural? 255).map UInt8.ofNat) b := by
    intro b _
    have hb : b.toNat ≤ 255 := Nat.le_of_lt_succ b.toNat_lt
    have hn := tells_natural hb (by decide)
    exact
      { numbers := hn.numbers
        depth_le := hn.depth_le
        back := fun dialect => by
          show ((tree (Document.natural b.toNat)).natural? 255).map UInt8.ofNat = some b
          rw [hn.back dialect, Option.map_some, UInt8.ofNat_toNat] }
  exact tells_list hoctet

/-- The identity of a node is told by its document. -/
theorem told_nodeId (id : NodeId) : Portable.Told 1 id where
  numbers := (tells_octets id.bytes).numbers
  depth_le := (tells_octets id.bytes).depth_le
  back dialect := by
    have hback := (tells_octets id.bytes).back dialect
    show ((tree (Document.octets id.bytes)).octetsOf? dialect 16).bind NodeId.ofBytes? = some id
    obtain ⟨items, hitems⟩ : ∃ items, tree (Document.octets id.bytes) = .list items := ⟨_, rfl⟩
    rw [hitems] at hback ⊢
    rw [Datum.octetsOf?, hback, Option.bind_eq_bind, Option.bind_some]
    simp only [id.length_bytes, if_true, Option.bind_some, NodeId.ofBytes?, dif_pos]

/-! ## Records and alternatives -/

/-- The numbers in a table fit if they do in each field. -/
theorem fieldNumbersFit {fields : List (String × Document)} (h : ∀ f ∈ fields, NumbersFit f.2) :
    FieldNumbersFit fields := by
  induction fields with
  | nil => exact trivial
  | cons f rest ih =>
    exact ⟨h f (List.mem_cons_self ..), ih fun e he => h e (List.mem_cons_of_mem f he)⟩

/-- A document that may stand in a list or a record that is told. -/
def Document.Sound (nesting : Nat) (d : Document) : Prop :=
  NumbersFit d ∧ (tree d).depth ≤ nesting

/-- A document that tells a value is sound. -/
theorem Document.Tells.sound {n m : Nat} {d : Document} {read : Dialect → Datum → Option α} {a : α}
    (h : d.Tells n read a) (hle : n ≤ m) : d.Sound m :=
  ⟨h.numbers, Nat.le_trans h.depth_le hle⟩

/-- A record is told if its fields are, from which `build` makes the value. -/
theorem tells_record {n : Nat} {names : List String} {fields : List (String × Document)}
    {build : Datum.Fields → Option α} {a : α} (hlen : fields.length = names.length)
    (hfields : ∀ f ∈ fields, f.2.Sound n)
    (hback : ∀ inner, build ⟨inner, fields.map fun f => some (tree f.2), true⟩ = some a) :
    (Document.record fields).Tells (n + 1)
      (fun dialect d => (d.record? dialect names).bind build) a where
  numbers := fieldNumbersFit fun f hf => (hfields f hf).1
  depth_le := by
    rw [tree, Datum.depth, fieldTrees_eq_map]
    refine Nat.succ_le_succ (listDepth_le fun d hd => ?_)
    obtain ⟨f, hf, rfl⟩ := List.mem_map.1 hd
    exact (hfields f hf).2
  back dialect := by
    rw [record?_record hlen, Option.bind_some]
    exact hback dialect.deeper

/-- An alternative is told if its content is. -/
theorem tells_variant {n i : Nat} {names : List String} {name : String} {content : Document}
    {build : Dialect → Nat × Option Datum → Option α} {a : α} (hnodup : names.Nodup)
    (hi : names[i]? = some name) (hcontent : content.Sound n)
    (hback : ∀ dialect, build dialect (i, some (tree content)) = some a) :
    (Document.variant name content).Tells (n + 1)
      (fun dialect d => (d.variant? dialect names).bind (build dialect)) a where
  numbers := hcontent.1
  depth_le := by
    have hdepth := hcontent.2
    rw [tree, Datum.depth, Datum.tableDepth, Datum.tableDepth]
    have hname : (text name).depth = 0 := rfl
    omega
  back dialect := by
    rw [variant?_variant hnodup hi, Option.bind_some]
    exact hback dialect

/-- A word is told if it stands in the list of all words where its value stands among the values. -/
theorem tells_tag {values : List α} {word : α → String} {a : α} {i : Nat}
    (hnodup : (values.map word).Nodup) (hi : values[i]? = some a) :
    (Document.tag (word a)).Tells 0
      (fun dialect d => (d.tag? dialect (values.map word)).bind fun i => values[i]?) a where
  numbers := trivial
  depth_le := Nat.le_refl 0
  back dialect := by
    have hword : (values.map word)[i]? = some (word a) := by
      rw [List.getElem?_map, hi, Option.map_some]
    rw [tag?_tag hnodup hword, Option.bind_some, hi]

/-! ## Identities -/

/-- The identity of a property is told by its document. -/
theorem told_propertyId (id : PropertyId) : Portable.Told 2 id := by
  have hparent := told_nodeId id.parent
  have hname := told_name id.name
  refine tells_record (n := 1) rfl ?_ fun inner => ?_
  · simp only [List.forall_mem_cons]
    exact ⟨hparent.sound (by decide), hname.sound (by decide), List.forall_mem_nil _⟩
  · simp [Fields.required, Fields.get?, hparent.back, hname.back]

/-- The identity of an item is told by its document. -/
theorem told_itemId (id : ItemId) : Portable.Told 3 id := by
  cases id with
  | node id =>
    refine tells_variant (i := 0) (by decide) rfl ((told_nodeId id).sound (by decide))
      fun dialect => ?_
    show (Portable.ofDatum? dialect (tree (Portable.document id))).map ItemId.node = _
    rw [(told_nodeId id).back dialect]
    rfl
  | property id =>
    refine tells_variant (i := 1) (by decide) rfl ((told_propertyId id).sound (by decide))
      fun dialect => ?_
    show (Portable.ofDatum? dialect (tree (Portable.document id))).map ItemId.property = _
    rw [(told_propertyId id).back dialect]
    rfl

/-! ## Property values -/

/-- The type of a property is told by its document. -/
theorem told_propertyType (t : PropertyType) : Portable.Told 0 t := by
  cases t with
  | undefined => exact tells_tag (i := 0) (by decide) rfl
  | string => exact tells_tag (i := 1) (by decide) rfl
  | binary => exact tells_tag (i := 2) (by decide) rfl
  | long => exact tells_tag (i := 3) (by decide) rfl
  | double => exact tells_tag (i := 4) (by decide) rfl
  | date => exact tells_tag (i := 5) (by decide) rfl
  | boolean => exact tells_tag (i := 6) (by decide) rfl
  | name => exact tells_tag (i := 7) (by decide) rfl
  | reference => exact tells_tag (i := 8) (by decide) rfl

/-- A number of 64 bits with a sign. -/
theorem sound_int64 (n : Int64) : (Document.integer n.toInt).Sound 0 := by
  have hlow : -0x8000000000000000 ≤ n.toInt := n.minValue_le_toInt
  have hhigh : n.toInt < 0x8000000000000000 := n.toInt_lt
  exact ⟨⟨hlow, by omega⟩, Nat.le_of_eq (depth_integer _)⟩

/-- A value is told by its document. -/
theorem told_value (v : Value) : Portable.Told 2 v := by
  have hnodup : ["String", "Name", "Reference", "Long", "Double", "Boolean", "Date",
    "Binary"].Nodup := by decide
  have hsound : ∀ d : Document, d.Sound 0 → d.Sound 1 :=
    fun _ h => ⟨h.1, Nat.le_succ_of_le h.2⟩
  cases v with
  | string s =>
    refine tells_variant (i := 0) hnodup rfl ⟨trivial, Nat.zero_le 1⟩ fun dialect => ?_
    exact congrArg (Option.map Value.string) (text?_text s)
  | name n =>
    refine tells_variant (i := 1) hnodup rfl ((told_name n).sound (by decide)) fun dialect => ?_
    exact congrArg (Option.map Value.name) ((told_name n).back dialect)
  | reference id =>
    refine tells_variant (i := 2) hnodup rfl ((told_nodeId id).sound (by decide)) fun dialect => ?_
    exact congrArg (Option.map Value.reference) ((told_nodeId id).back dialect)
  | long n =>
    refine tells_variant (i := 3) hnodup rfl (hsound _ (sound_int64 n)) fun dialect => ?_
    exact congrArg (Option.map Value.long) (int64?_integer n)
  | double x =>
    exact tells_variant (i := 4) hnodup rfl ⟨trivial, Nat.zero_le 1⟩ fun dialect => rfl
  | boolean b =>
    exact tells_variant (i := 5) hnodup rfl ⟨trivial, Nat.zero_le 1⟩ fun dialect => rfl
  | date t =>
    refine tells_variant (i := 6) hnodup rfl (hsound _ (sound_int64 t)) fun dialect => ?_
    exact congrArg (Option.map Value.date) (int64?_integer t)
  | binary bytes =>
    refine tells_variant (i := 7) hnodup rfl ((tells_octets bytes).sound (by decide))
      fun dialect => ?_
    exact congrArg (Option.map Value.binary) ((tells_octets bytes).back dialect)

end ContentTree
