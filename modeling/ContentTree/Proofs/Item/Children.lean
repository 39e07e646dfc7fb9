import ContentTree.Proofs.Encoding.Change

/-!
# Children of one name

An edit numbers anew the children of the names that it touches, and all other names keep their entries
and the order of these. So whatever edits are made to the child list of a new node, the children of each
name are numbered 1, 2, … in list order (`child?_after`).
-/

namespace ContentTree.NodeState

/-- The children of one name, in list order. -/
def named (name : Name) (children : List ChildEntry) : List ChildEntry :=
  children.filter fun e => e.name = name

/-- The children of one name are numbered 1, 2, … in list order. -/
def DenseAt (name : Name) (children : List ChildEntry) : Prop :=
  (named name children).map ChildEntry.index = List.range' 1 (named name children).length

/-- The children of every name are numbered in list order. -/
def Dense (children : List ChildEntry) : Prop :=
  ∀ name, DenseAt name children

/-- A change of a child list. -/
inductive Edit where
  | add (name : Name) (id : NodeId)
  | remove (id : NodeId)
  | rename (id : NodeId) (name : Name)
  | reorder (id : NodeId) (before : Option NodeId)
  deriving DecidableEq, Repr

/-- A node after an edit. -/
def Edit.run (n : NodeState) : Edit → NodeState
  | add name id => (n.addChild name id).2
  | remove id => (n.removeChild id).2
  | rename id name => (n.renameChild id name).2
  | reorder id before => (n.reorderChild id before).2

/-- A new node after edits. -/
def after (type : Name) (parent : Option NodeId) (edits : List Edit) : NodeState :=
  edits.foldl Edit.run (new type parent)

variable {name other : Name} {id : NodeId} {children : List ChildEntry} {e entry : ChildEntry}

/-- The children of a name, with one more entry in front. -/
theorem named_cons (name : Name) (e : ChildEntry) (children : List ChildEntry) :
    named name (e :: children) =
      if e.name = name then e :: named name children else named name children := by
  simp only [named, List.filter_cons, decide_eq_true_eq]

/-! ## Numbering anew -/

/-- Numbering anew gives the children of a name the numbers from there on. -/
theorem map_index_named_reindexFrom (name : Name) (count : Nat) (children : List ChildEntry) :
    (named name (reindexFrom name count children)).map ChildEntry.index =
      List.range' (count + 1) (named name children).length := by
  induction children generalizing count with
  | nil => rfl
  | cons e rest ih =>
    by_cases he : e.name = name
    · rw [reindexFrom, if_pos he, named_cons, named_cons, if_pos he, if_pos he, List.map_cons, ih,
        List.length_cons, List.range'_succ]
    · rw [reindexFrom, if_neg he, named_cons, named_cons, if_neg he, if_neg he, ih]

/-- Other names keep their entries. -/
theorem named_reindexFrom_of_ne (h : other ≠ name) (count : Nat) (children : List ChildEntry) :
    named other (reindexFrom name count children) = named other children := by
  induction children generalizing count with
  | nil => rfl
  | cons e rest ih =>
    by_cases he : e.name = name
    · have hother : e.name ≠ other := fun ho => h (ho.symm.trans he)
      rw [reindexFrom, if_pos he, named_cons, named_cons, if_neg hother, if_neg hother, ih]
    · rw [reindexFrom, if_neg he, named_cons, named_cons, ih]

/-- After numbering anew the numbers of that name are dense. -/
theorem denseAt_reindex (name : Name) (children : List ChildEntry) :
    DenseAt name (reindex name children) := by
  have hindices := map_index_named_reindexFrom name 0 children
  have hlength := congrArg List.length hindices
  rw [List.length_map, List.length_range'] at hlength
  rw [DenseAt, reindex, hindices, hlength]

/-- A list is in order once the one name that may be out of order is numbered anew. -/
theorem dense_reindex (h : ∀ other, other ≠ name → DenseAt other children) :
    Dense (reindex name children) := by
  intro other
  by_cases hother : other = name
  · exact hother ▸ denseAt_reindex name children
  · have hkept : named other (reindex name children) = named other children :=
      named_reindexFrom_of_ne hother 0 children
    rw [DenseAt, hkept]
    exact h other hother

/-! ## What an edit does to the other names -/

/-- An entry of another name at the end does not count. -/
theorem named_concat_of_ne (h : entry.name ≠ other) :
    named other (children ++ [entry]) = named other children := by
  simp [named, h]

/-- Taking out the first entry with an identity concerns its name only. -/
theorem named_eraseP_of_ne (hfound : children.find? (fun e => e.id = id) = some entry)
    (h : entry.name ≠ other) :
    named other (children.eraseP fun e => e.id = id) = named other children := by
  induction children with
  | nil => cases hfound
  | cons e rest ih =>
    by_cases he : e.id = id
    · obtain rfl : e = entry := by simpa [he] using hfound
      rw [List.eraseP_cons_of_pos (by simpa using he), named_cons, if_neg h]
    · have hfound' : rest.find? (fun e => e.id = id) = some entry := by simpa [he] using hfound
      rw [List.eraseP_cons_of_neg (by simpa using he), named_cons, named_cons, ih hfound']

/-- A new name concerns that name and the old one. -/
theorem named_renameFirst_of_ne (hfound : children.find? (fun e => e.id = id) = some entry)
    (h : entry.name ≠ other) (hname : name ≠ other) :
    named other (renameFirst id name children) = named other children := by
  induction children with
  | nil => cases hfound
  | cons e rest ih =>
    by_cases he : e.id = id
    · obtain rfl : e = entry := by simpa [he] using hfound
      rw [renameFirst, if_pos he, named_cons, named_cons, if_neg hname, if_neg h]
    · have hfound' : rest.find? (fun e => e.id = id) = some entry := by simpa [he] using hfound
      rw [renameFirst, if_neg he, named_cons, named_cons, ih hfound']

/-- An entry of another name that moves does not count. -/
theorem named_insertBefore?_of_ne {before : NodeId} {moved : List ChildEntry}
    (hmoved : insertBefore? entry before children = some moved) (h : entry.name ≠ other) :
    named other moved = named other children := by
  induction children generalizing moved with
  | nil => cases hmoved
  | cons e rest ih =>
    rw [insertBefore?] at hmoved
    split at hmoved
    · cases hmoved
      rw [named_cons, if_neg h]
    · obtain ⟨moved', hmoved', rfl⟩ := Option.map_eq_some_iff.1 hmoved
      rw [named_cons, named_cons, ih hmoved']

/-! ## Edits -/

/-- No children are densely numbered. -/
theorem dense_nil : Dense [] := fun _ => rfl

/-- Adding a child keeps the numbers dense. -/
theorem dense_addChild {n : NodeState} (h : Dense n.children) (name : Name) (id : NodeId) :
    Dense (n.addChild name id).2.children := by
  intro other
  by_cases hother : name = other
  · subst hother
    have hnamed : named name (n.addChild name id).2.children =
        named name n.children ++ [⟨name, id, (named name n.children).length + 1⟩] := by
      simp [addChild, named]
    rw [DenseAt, hnamed, List.map_append, h name, List.length_append, List.length_singleton,
      List.map_singleton, List.range'_concat]
    simp [Nat.add_comm]
  · have hkept : named other (n.addChild name id).2.children = named other n.children :=
      named_concat_of_ne hother
    rw [DenseAt, hkept]
    exact h other

/-- Removing a child keeps the numbers dense. -/
theorem dense_removeChild {n : NodeState} (h : Dense n.children) (id : NodeId) :
    Dense (n.removeChild id).2.children := by
  unfold removeChild
  split
  · exact h
  · next removed hfound =>
    refine dense_reindex fun other hother => ?_
    rw [DenseAt, named_eraseP_of_ne hfound (Ne.symm hother)]
    exact h other

/-- Renaming a child keeps the numbers dense. -/
theorem dense_renameChild {n : NodeState} (h : Dense n.children) (id : NodeId) (name : Name) :
    Dense (n.renameChild id name).2.children := by
  unfold renameChild
  split
  · exact h
  · next e hfound =>
    refine dense_reindex fun other hother => ?_
    by_cases hold : other = e.name
    · exact hold ▸ denseAt_reindex e.name _
    · have hkept : named other (reindex e.name (renameFirst id name n.children)) =
          named other n.children :=
        (named_reindexFrom_of_ne hold 0 _).trans
          (named_renameFirst_of_ne hfound (Ne.symm hold) (Ne.symm hother))
      rw [DenseAt, hkept]
      exact h other

/-- Moving a child keeps the numbers dense. -/
theorem dense_reorderChild {n : NodeState} (h : Dense n.children) (id : NodeId)
    (before : Option NodeId) : Dense (n.reorderChild id before).2.children := by
  unfold reorderChild
  split
  · exact h
  · next entry hfound =>
    split
    · exact h
    · dsimp only
      split
      · exact h
      · next moved hmoved =>
        refine dense_reindex fun other hother => ?_
        have hkept : named other moved = named other n.children := by
          rw [← named_eraseP_of_ne hfound (Ne.symm hother)]
          cases before with
          | none =>
            cases hmoved
            exact named_concat_of_ne (Ne.symm hother)
          | some before => exact named_insertBefore?_of_ne hmoved (Ne.symm hother)
        rw [DenseAt, hkept]
        exact h other

/-- Every edit keeps the numbers dense. -/
theorem Edit.dense_run {n : NodeState} (h : Dense n.children) (edit : Edit) :
    Dense (edit.run n).children := by
  cases edit with
  | add name id => exact dense_addChild h name id
  | remove id => exact dense_removeChild h id
  | rename id name => exact dense_renameChild h id name
  | reorder id before => exact dense_reorderChild h id before

/-- After any edits the numbers are dense. -/
theorem dense_after (type : Name) (parent : Option NodeId) (edits : List Edit) :
    Dense (after type parent edits).children :=
  List.foldlRecOn edits Edit.run (motive := fun n => Dense n.children) dense_nil
    fun _ h edit _ => edit.dense_run h

/-! ## Looking children up -/

/-- Where the indices are those of a range, an entry is found by its place. -/
theorem find?_index {start : Nat} (h : children.map ChildEntry.index = List.range' start children.length)
    (i : Nat) : children.find? (fun e => e.index = start + i) = children[i]? := by
  induction children generalizing start i with
  | nil => rfl
  | cons e rest ih =>
    rw [List.length_cons, List.range'_succ, List.map_cons, List.cons.injEq] at h
    obtain ⟨hfirst, hrest⟩ := h
    cases i with
    | zero => simp [hfirst]
    | succ i =>
      have hnext := ih hrest i
      have hplace : start + 1 + i = start + (i + 1) := by omega
      have hne : e.index ≠ start + (i + 1) := by omega
      rw [hplace] at hnext
      rw [List.find?_cons_of_neg (by simpa using hne), hnext, List.getElem?_cons_succ]

/-- A child is looked for among those of its name. -/
theorem child?_eq_find? (n : NodeState) (name : Name) (index : Nat) :
    n.child? name index = (named name n.children).find? fun e => e.index = index := by
  simp [child?, named, List.find?_filter, Bool.decide_and]

/-- Where the numbers are dense, the child of a number is the one at that position. -/
theorem child?_of_denseAt {n : NodeState} (h : DenseAt name n.children) :
    n.child? name 0 = none ∧ ∀ i, n.child? name (i + 1) = (named name n.children)[i]? := by
  constructor
  · rw [child?_eq_find?, List.find?_eq_none]
    intro e he
    have hindex : e.index ∈ (named name n.children).map ChildEntry.index := List.mem_map_of_mem he
    rw [h, List.mem_range'_1] at hindex
    simp
    omega
  · intro i
    rw [child?_eq_find?, Nat.add_comm]
    exact find?_index h i

/-- Indices do not exceed the number of children. -/
theorem Dense.index_le (h : Dense children) (he : e ∈ children) : e.index ≤ children.length := by
  have hmem : e ∈ named e.name children := List.mem_filter.2 ⟨he, decide_eq_true rfl⟩
  have hindex : e.index ∈ (named e.name children).map ChildEntry.index := List.mem_map_of_mem hmem
  have hle : (named e.name children).length ≤ children.length := List.length_filter_le ..
  rw [h e.name, List.mem_range'_1] at hindex
  omega

/-- **The children of each name are numbered 1, 2, … in list order after any edits**, so a name and an
index stand for the child of that name at that place, and for none if there are not so many. Indices
have 32 bits as long as the number of children has. -/
theorem child?_after (type : Name) (parent : Option NodeId) (edits : List Edit) :
    let n := after type parent edits
    (∀ name, let siblings := n.children.filter fun e => e.name = name
      siblings.map ChildEntry.index = List.range' 1 siblings.length ∧
      n.child? name 0 = none ∧ ∀ i, n.child? name (i + 1) = siblings[i]?) ∧
    (n.children.length ≤ maxUInt32 → n.Fits) := by
  intro n
  have hdense : Dense n.children := dense_after type parent edits
  refine ⟨fun name => ⟨hdense name, child?_of_denseAt (hdense name)⟩, fun hlen e he => ?_⟩
  exact Nat.le_trans (hdense.index_le he) hlen

/-- Edits with an identity that is there twice, one that is missing, and a child that gets the name of
others. -/
def shuffled : List Edit :=
  let id (octet : UInt8) : NodeId := ⟨List.replicate 16 octet, List.length_replicate⟩
  [.add ⟨"a"⟩ (id 1), .add ⟨"b"⟩ (id 2), .add ⟨"a"⟩ (id 3), .add ⟨"b"⟩ (id 1), .rename (id 2) ⟨"a"⟩,
    .reorder (id 3) (some (id 9)), .reorder (id 1) none, .remove (id 3)]

/-- Of the two children with one identity the first is moved behind the other. -/
theorem child?_after_shuffled :
    (after ⟨"t"⟩ none shuffled).children.map (fun e => (e.name, e.id.bytes.head?, e.index)) =
      [(⟨"a"⟩, some 2, 1), (⟨"b"⟩, some 1, 1), (⟨"a"⟩, some 1, 2)] ∧
    (after ⟨"t"⟩ none shuffled).children.length ≤ maxUInt32 ∧ (after ⟨"t"⟩ none shuffled).Fits :=
  ⟨by decide, by decide, (child?_after ⟨"t"⟩ none shuffled).2 (by decide)⟩

end ContentTree.NodeState
