import ContentTree.Proofs.Encoding.Portable

/-!
# Written changes come back

Item states, reference records, batches and journal entries are read back as they were written. What
is asked of them is that their numbers have the width that they are declared with (`Fits`), and that
their texts and lists are shorter than 2³².
-/

namespace ContentTree

open MessagePack Datum

/-! ## Widths -/

/-- All indices of children have 32 bits. -/
def NodeState.Fits (n : NodeState) : Prop :=
  ∀ e ∈ n.children, e.index ≤ maxUInt32

/-- The numbers in the data of an item have their widths. -/
def ItemData.Fits : ItemData → Prop
  | .node n => n.Fits
  | .property _ => True

/-- The numbers in an item state have their widths. -/
structure ItemState.Fits (s : ItemState) : Prop where
  modCount : s.modCount ≤ maxUInt64
  data : s.data.Fits

/-- The numbers in a batch have their widths. -/
def ChangeSet.Fits (set : ChangeSet) : Prop :=
  ∀ s ∈ set.written, s.Fits

/-- The numbers in a journal entry have their widths. -/
structure JournalEntry.Fits (e : JournalEntry) : Prop where
  seq : e.seq ≤ maxUInt64
  timestamp : e.timestamp ≤ maxUInt64
  batch : ∀ set, e.batch = some set → set.Fits

/-! ## Item states -/

/-- A status is told by its document. -/
theorem told_status (s : ItemStatus) : Portable.Told 0 s := by
  cases s with
  | new => exact tells_tag (i := 0) (by decide) rfl
  | existing => exact tells_tag (i := 1) (by decide) rfl
  | existingModified => exact tells_tag (i := 2) (by decide) rfl
  | existingRemoved => exact tells_tag (i := 3) (by decide) rfl
  | staleModified => exact tells_tag (i := 4) (by decide) rfl
  | staleDestroyed => exact tells_tag (i := 5) (by decide) rfl
  | destroyed => exact tells_tag (i := 6) (by decide) rfl
  | discarded => exact tells_tag (i := 7) (by decide) rfl

/-- An ascending list of names is the list of its set. -/
theorem NameSet.ofList_names (s : NameSet) : NameSet.ofList s.names = s := by
  -- names in ascending order are inserted at the end, one after the other
  have hfold : ∀ (rest : List Name) (t : NameSet),
      (∀ a ∈ t.names, ∀ b ∈ rest, a.text < b.text) → rest.Pairwise (fun a b => a.text < b.text) →
      (rest.foldl NameSet.insert t).names = t.names ++ rest := by
    intro rest
    induction rest with
    | nil =>
      intro t _ _
      rw [List.foldl_nil, List.append_nil]
    | cons n rest ih =>
      intro t hbefore hasc
      obtain ⟨hn, hrest⟩ := List.pairwise_cons.1 hasc
      have hlast : ∀ l : List Name, (∀ a ∈ l, a.text < n.text) →
          NameSet.insertNames n l = l ++ [n] := by
        intro l hl
        induction l with
        | nil => rfl
        | cons m l ihl =>
          have hm := hl m (List.mem_cons_self ..)
          rw [NameSet.insertNames, if_neg (String.lt_asymm hm), if_neg, List.cons_append,
            ihl fun a ha => hl a (List.mem_cons_of_mem m ha)]
          rintro rfl
          exact String.lt_irrefl _ hm
      have hins : (t.insert n).names = t.names ++ [n] :=
        hlast t.names fun a ha => hbefore a ha n (List.mem_cons_self ..)
      rw [List.foldl_cons, ih (t.insert n) ?_ hrest, hins, List.append_assoc]
      · rfl
      · intro a ha b hb
        rw [hins] at ha
        rcases List.mem_append.1 ha with ha | ha
        · exact hbefore a ha b (List.mem_cons_of_mem n hb)
        · rw [List.mem_singleton.1 ha]
          exact hn b hb
  refine NameSet.ext ?_
  exact hfold s.names .empty (fun a ha => by cases ha) s.ascending

/-- A set of names is told by its document. -/
theorem told_nameSet (s : NameSet) : Portable.Told 1 s := by
  have hlist := tells_list (f := Portable.document) fun n (_ : n ∈ s.names) => told_name n
  exact
    { numbers := hlist.numbers
      depth_le := hlist.depth_le
      back := fun dialect => by
        show (Portable.listOfDatum? dialect (tree (Portable.listDocument s.names))).map
          NameSet.ofList = some s
        rw [show Portable.listOfDatum? dialect (tree (Portable.listDocument s.names)) =
          some s.names from hlist.back dialect, Option.map_some, s.ofList_names] }

/-- An entry for a child is told by its document. -/
theorem told_childEntry {e : ChildEntry} (h : e.index ≤ maxUInt32) : Portable.Told 2 e := by
  have hname := told_name e.name
  have hid := told_nodeId e.id
  have hindex := tells_natural h (by decide)
  refine tells_record (n := 1) rfl ?_ fun inner => ?_
  · simp only [List.forall_mem_cons]
    exact ⟨hname.sound (by decide), hid.sound (by decide), hindex.sound (by decide),
      List.forall_mem_nil _⟩
  · simp [Fields.required, Fields.get?, hname.back, hid.back, hindex.back inner]

/-- Identities and names of definitions are not written as nothing. -/
theorem tells_optionNodeId (o : Option NodeId) :
    (Portable.optionDocument o).Tells 1
      (fun dialect d => d.optional? (Portable.ofDatum? dialect)) o :=
  tells_optional (fun id _ => told_nodeId id) fun _ h => Datum.noConfusion h

/-- A definition that may be missing is told by its document. -/
theorem tells_optionDefinitionId (o : Option DefinitionId) :
    (Portable.optionDocument o).Tells 0
      (fun dialect d => d.optional? (Portable.ofDatum? dialect)) o :=
  tells_optional (fun i _ => told_definitionId i) fun _ h => Datum.noConfusion h

/-- The state of a node is told by its document. -/
theorem told_nodeState {n : NodeState} (h : n.Fits) : Portable.Told 4 n := by
  have hparent := tells_optionNodeId n.parent
  have htype := told_name n.type
  have hmixins := told_nameSet n.mixins
  have hdefinition := tells_optionDefinitionId n.definition
  have hchildren := tells_list (f := Portable.document) fun e he => told_childEntry (h e he)
  have hproperties := told_nameSet n.properties
  refine tells_record (n := 3) rfl ?_ fun inner => ?_
  · simp only [List.forall_mem_cons]
    exact ⟨hparent.sound (by decide), htype.sound (by decide), hmixins.sound (by decide),
      hdefinition.sound (by decide), hchildren.sound (by decide), hproperties.sound (by decide),
      List.forall_mem_nil _⟩
  · simp [Fields.required, Fields.optional, Fields.get?, hparent.back, htype.back, hmixins.back,
      hdefinition.back, Portable.listOfDatum?, Portable.listDocument, hchildren.back,
      hproperties.back]

/-- The state of a property is told by its document. -/
theorem told_propertyState (p : PropertyState) : Portable.Told 4 p := by
  have htype := told_propertyType p.type
  have hflag : (tree (.boolean p.multiValued)).boolean? = some p.multiValued := rfl
  have hdefinition := tells_optionDefinitionId p.definition
  have hvalues := tells_list (f := Portable.document) fun v (_ : v ∈ p.values) => told_value v
  refine tells_record (n := 3) rfl ?_ fun inner => ?_
  · simp only [List.forall_mem_cons]
    exact ⟨htype.sound (by decide), ⟨trivial, Nat.zero_le 3⟩, hdefinition.sound (by decide),
      hvalues.sound (by decide), List.forall_mem_nil _⟩
  · simp [Fields.required, Fields.optional, Fields.get?, htype.back, hflag,
      hdefinition.back, Portable.listOfDatum?, Portable.listDocument, hvalues.back]

/-- The data of an item are told by their document. -/
theorem told_itemData {d : ItemData} (h : d.Fits) : Portable.Told 5 d := by
  cases d with
  | node n =>
    refine tells_variant (i := 0) (by decide) rfl ((told_nodeState h).sound (by decide))
      fun dialect => ?_
    exact congrArg (Option.map ItemData.node) ((told_nodeState h).back dialect)
  | property p =>
    refine tells_variant (i := 1) (by decide) rfl ((told_propertyState p).sound (by decide))
      fun dialect => ?_
    exact congrArg (Option.map ItemData.property) ((told_propertyState p).back dialect)

/-- An item state is told by its document. -/
theorem told_itemState {s : ItemState} (h : s.Fits) : Portable.Told 6 s := by
  have hid := told_itemId s.id
  have hstatus := told_status s.status
  have hcount := tells_natural h.modCount (by decide)
  have hdata := told_itemData h.data
  refine tells_record (n := 5) rfl ?_ fun inner => ?_
  · simp only [List.forall_mem_cons]
    exact ⟨hid.sound (by decide), hstatus.sound (by decide), hcount.sound (by decide),
      hdata.sound (by decide), List.forall_mem_nil _⟩
  · simp [Fields.required, Fields.get?, hid.back, hstatus.back, hcount.back inner, hdata.back]

/-! ## Batches and journal entries -/

/-- A reference record is told by its document. -/
theorem told_references (r : NodeReferences) : Portable.Told 4 r := by
  have htarget := told_nodeId r.target
  have hproperties := tells_list (f := Portable.document)
    fun id (_ : id ∈ r.properties) => told_propertyId id
  refine tells_record (n := 3) rfl ?_ fun inner => ?_
  · simp only [List.forall_mem_cons]
    exact ⟨htarget.sound (by decide), hproperties.sound (by decide), List.forall_mem_nil _⟩
  · simp [Fields.required, Fields.get?, htarget.back, Portable.listOfDatum?,
      Portable.listDocument, hproperties.back]

/-- A batch is told by its document. -/
theorem told_changeSet {set : ChangeSet} (h : set.Fits) : Portable.Told 8 set := by
  have hadded := tells_list (f := Portable.document)
    fun s (hs : s ∈ set.added) => told_itemState (h s (List.mem_append_left _ hs))
  have hmodified := tells_list (f := Portable.document)
    fun s (hs : s ∈ set.modified) => told_itemState (h s (List.mem_append_right _ hs))
  have hdeleted := tells_list (f := Portable.document)
    fun id (_ : id ∈ set.deleted) => told_itemId id
  have hreferences := tells_list (f := Portable.document)
    fun r (_ : r ∈ set.references) => told_references r
  refine tells_record (n := 7) rfl ?_ fun inner => ?_
  · simp only [List.forall_mem_cons]
    exact ⟨hadded.sound (by decide), hmodified.sound (by decide), hdeleted.sound (by decide),
      hreferences.sound (by decide), List.forall_mem_nil _⟩
  · simp [Fields.required, Fields.get?, Portable.listOfDatum?, Portable.listDocument,
      hadded.back, hmodified.back, hdeleted.back, hreferences.back]

/-- The status of an entry is told by its document. -/
theorem told_journalStatus (s : JournalStatus) : Portable.Told 0 s := by
  cases s with
  | pending => exact tells_tag (i := 0) (by decide) rfl
  | committed => exact tells_tag (i := 1) (by decide) rfl
  | rolledBack => exact tells_tag (i := 2) (by decide) rfl

/-- A journal entry is told by its document. -/
theorem told_journalEntry {e : JournalEntry} (h : e.Fits) : Portable.Told 9 e := by
  have hseq := tells_natural h.seq (by decide)
  have hstatus := told_journalStatus e.status
  have hbatch : (Portable.optionDocument e.batch).Tells 8
      (fun dialect d => d.optional? (Portable.ofDatum? dialect)) e.batch :=
    tells_optional (fun set hset => told_changeSet (h.batch set hset))
      fun _ h => Datum.noConfusion h
  have htime := tells_natural h.timestamp (by decide)
  refine tells_record (n := 8) rfl ?_ fun inner => ?_
  · simp only [List.forall_mem_cons]
    exact ⟨hseq.sound (by decide), hstatus.sound (by decide), hbatch.sound (by decide),
      htime.sound (by decide), List.forall_mem_nil _⟩
  · simp [Fields.required, Fields.optional, Fields.get?, hseq.back inner, hstatus.back,
      hbatch.back, htime.back inner]

/-! ## Lengths -/

/-- The words for statuses are short. -/
theorem lengthsFit_status (s : ItemStatus) : LengthsFit (Portable.document s) := by
  show s.display.toUTF8.toList.length < 4294967296
  cases s <;> decide +kernel

/-- In a list in which all lengths fit, those in each value do. -/
theorem lengthsFit_of_mem {α : Type} [Portable α] {as : List α}
    (h : AllLengthsFit (as.map Portable.document)) {a : α} (ha : a ∈ as) :
    LengthsFit (Portable.document a) := by
  induction as with
  | nil => cases ha
  | cons b rest ih =>
    rcases List.mem_cons.1 ha with rfl | ha
    · exact h.1
    · exact ih h.2 ha

/-- With another status an item state is no longer than it was. -/
theorem lengthsFit_withStatus {s : ItemState} (h : LengthsFit (Portable.document s))
    (status : ItemStatus) : LengthsFit (Portable.document (s.withStatus status)) := by
  obtain ⟨hlen, hid, -, hcount, hdata, -⟩ := h
  exact ⟨hlen, hid, lengthsFit_status status, hcount, hdata, trivial⟩

/-- The lengths in what a batch writes fit if those in the batch do. -/
theorem ChangeSet.lengthsFit {set : ChangeSet} (h : LengthsFit (Portable.document set)) :
    (∀ s ∈ set.written, LengthsFit (Portable.document s)) ∧
      ∀ r ∈ set.references, LengthsFit (Portable.document r) := by
  obtain ⟨-, hadded, hmodified, -, hreferences, -⟩ := h
  refine ⟨fun s hs => ?_, fun r hr => lengthsFit_of_mem hreferences.2 hr⟩
  rcases List.mem_append.1 hs with hs | hs
  · exact lengthsFit_of_mem hadded.2 hs
  · exact lengthsFit_of_mem hmodified.2 hs

/-- The lengths in the entry of a batch fit if those in the batch do. -/
theorem ChangeSet.lengthsFit_announcement {set : ChangeSet} (h : LengthsFit (Portable.document set))
    (seq time : Nat) :
    LengthsFit (Portable.document (⟨seq, .pending, some set, time⟩ : JournalEntry)) :=
  ⟨show 4 < 4294967296 by decide, trivial,
    show JournalStatus.pending.word.toUTF8.toList.length < 4294967296 by decide +kernel, h, trivial,
    trivial⟩

end ContentTree
