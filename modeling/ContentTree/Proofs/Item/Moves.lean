import ContentTree.Proofs.Item.Children

/-!
# What edits do to a child list

In a list in which every identity stands once, an edit is told by what it does to the order of the
identities and to their names (`edits_move`). A child that is moved is taken out and put in front of another
or at the end, one that is renamed stays where it is, and what is removed leaves the others as they were but
for the indices of its later siblings. Indices follow the new order, as every list is numbered densely.
-/

namespace ContentTree.NodeState

/-- Identities of the children, in list order. -/
def childIds (n : NodeState) : List NodeId :=
  n.children.map ChildEntry.id

/-- The name of the child with an identity. -/
def childName? (n : NodeState) (id : NodeId) : Option Name :=
  (n.childById? id).map ChildEntry.name

/-- Orders that differ in the place of `id` only, which stands in front of `before` in the new one, or at
the end. In front of itself it stands where it stood. -/
def PutBefore (id : NodeId) (before : Option NodeId) (old new : List NodeId) : Prop :=
  match before with
  | none => new = old.filter (· ≠ id) ++ [id]
  | some b =>
    if b = id then new = old
    else ∃ front back, old.filter (· ≠ id) = front ++ b :: back ∧ new = front ++ id :: b :: back

/-- The entry with its index lowered, if it has this name. -/
def lowered (name : Name) (gap : Nat) (e : ChildEntry) : ChildEntry :=
  if e.name = name then { e with index := e.index - gap } else e

/-- What an edit leaves alone: all but the children, the numbering, and the entries of names that it does
not touch. -/
structure Bystanders (touched : Name → Prop) (n n' : NodeState) : Prop where
  outline : n' = { n with children := n'.children }
  numbered : Dense n'.children
  entries : ∀ e ∈ n.children, ¬touched e.name → e ∈ n'.children

/-- What moving a child does. -/
structure Reordered (n : NodeState) (id : NodeId) (before : Option NodeId) (answer : Bool)
    (n' : NodeState) : Prop where
  refused_iff : answer = false ↔ id ∉ n.childIds ∨ ∃ b, before = some b ∧ b ∉ n.childIds
  unchanged : answer = false → n' = n
  order : answer = true → PutBefore id before n.childIds n'.childIds
  names : ∀ k, n'.childName? k = n.childName? k
  bystanders : Bystanders (fun name => n.childName? id = some name) n n'

/-- What giving a child a name does. -/
structure Renamed (n : NodeState) (id : NodeId) (name : Name) (answer : Bool) (n' : NodeState) :
    Prop where
  refused_iff : answer = false ↔ id ∉ n.childIds
  unchanged : answer = false → n' = n
  order : n'.childIds = n.childIds
  renamed : answer = true → n'.childName? id = some name
  names : ∀ k, k ≠ id → n'.childName? k = n.childName? k
  bystanders : Bystanders (fun other => other = name ∨ n.childName? id = some other) n n'

/-- What removing a child does. -/
structure Removed (n : NodeState) (id : NodeId) (answer : Option ChildEntry) (n' : NodeState) :
    Prop where
  refused_iff : answer = none ↔ id ∉ n.childIds
  unchanged : answer = none → n' = n
  order : n'.childIds = n.childIds.filter (· ≠ id)
  names : ∀ k, k ≠ id → n'.childName? k = n.childName? k
  /-- What stood behind the removed entry under its name had a higher index, and moves down by one. -/
  later : ∀ front e back, n.children = front ++ e :: back → e.id = id →
    answer = some e ∧ n'.children = front ++ back.map (lowered e.name 1) ∧
      ∀ a ∈ back, a.name = e.name → e.index < a.index
  bystanders : Bystanders (fun name => n.childName? id = some name) n n'

variable {n : NodeState} {name : Name} {id : NodeId} {e b : ChildEntry}
  {children front back : List ChildEntry}

/-! ## Identities and names -/

/-- What an entry says beside its index. -/
def label (e : ChildEntry) : NodeId × Name :=
  (e.id, e.name)

/-- Numbering anew changes no names and no identities, from any number on. -/
theorem map_label_reindexFrom (name : Name) (count : Nat) (children : List ChildEntry) :
    (reindexFrom name count children).map label = children.map label := by
  induction children generalizing count with
  | nil => rfl
  | cons e rest ih =>
    rw [reindexFrom]
    split <;> simp [ih, label]

/-- Numbering anew changes no names and no identities. -/
theorem map_label_reindex (name : Name) (children : List ChildEntry) :
    (reindex name children).map label = children.map label :=
  map_label_reindexFrom name 0 children

/-- Numbering anew changes no identities. -/
theorem map_id_reindex (name : Name) (children : List ChildEntry) :
    (reindex name children).map ChildEntry.id = children.map ChildEntry.id := by
  have hlabels := congrArg (List.map Prod.fst) (map_label_reindex name children)
  rwa [List.map_map, List.map_map] at hlabels

/-- The identities of the children are those in their labels. -/
theorem childIds_eq (n : NodeState) : n.childIds = (n.children.map label).map Prod.fst := by
  simp [childIds, label]

/-- Where an identity stands once, its entry tells its name. -/
theorem childName?_eq_some_iff (hids : n.childIds.Nodup) {k : NodeId} {m : Name} :
    n.childName? k = some m ↔ (k, m) ∈ n.children.map label := by
  simp only [childName?, childById?, Option.map_eq_some_iff, List.mem_map]
  constructor
  · rintro ⟨e, hfound, rfl⟩
    have hid : e.id = k := by simpa using List.find?_some hfound
    exact ⟨e, List.mem_of_find?_eq_some hfound, by rw [label, hid]⟩
  · rintro ⟨e, he, hlabel⟩
    obtain ⟨rfl, rfl⟩ := Prod.mk.inj hlabel
    cases hfound : n.children.find? fun a => a.id = e.id with
    | none => simpa using List.find?_eq_none.1 hfound e he
    | some a =>
      have hid : a.id = e.id := by simpa using List.find?_some hfound
      have hsame : a = e := List.inj_on_of_nodup_map hids (List.mem_of_find?_eq_some hfound) he hid
      exact ⟨a, rfl, congrArg ChildEntry.name hsame⟩

/-- The name of a child depends on the labels only. -/
theorem childName?_congr {n' : NodeState} (hids : n.childIds.Nodup) (hids' : n'.childIds.Nodup)
    {k : NodeId} (h : ∀ m, (k, m) ∈ n'.children.map label ↔ (k, m) ∈ n.children.map label) :
    n'.childName? k = n.childName? k := by
  refine Option.ext fun m => ?_
  rw [childName?_eq_some_iff hids', childName?_eq_some_iff hids, h]

/-- Numbering one name anew leaves entries of other names. -/
theorem mem_reindex_of_ne (he : e ∈ children) (hname : e.name ≠ name) : e ∈ reindex name children := by
  have hkept : named e.name (reindex name children) = named e.name children :=
    named_reindexFrom_of_ne hname 0 children
  have hmem : e ∈ named e.name children := List.mem_filter.2 ⟨he, decide_eq_true rfl⟩
  rw [← hkept] at hmem
  exact List.mem_of_mem_filter hmem

/-! ## Where an entry stands -/

/-- The first entry of a child splits the children. -/
theorem exists_split (h : id ∈ n.childIds) :
    ∃ front e back, n.children = front ++ e :: back ∧ e.id = id ∧ ∀ a ∈ front, a.id ≠ id := by
  obtain ⟨x, hx, hxid⟩ := List.mem_map.1 h
  cases hfound : n.children.find? fun a => a.id = id with
  | none => exact absurd hxid (by simpa using List.find?_eq_none.1 hfound x hx)
  | some e =>
    obtain ⟨hid, front, back, hsplit, hfront⟩ := List.find?_eq_some_iff_append.1 hfound
    exact ⟨front, e, back, hsplit, by simpa using hid, by simpa using hfront⟩

/-- A split of the children has all of them. -/
theorem perm_of_split (hsplit : n.children = front ++ e :: back) :
    n.children.Perm (e :: (front ++ back)) :=
  hsplit ▸ List.perm_middle

/-- An identity that stands once stands neither in front of its entry nor behind it. -/
theorem ids_ne_of_split (hids : n.childIds.Nodup) (hsplit : n.children = front ++ e :: back) :
    ∀ a ∈ front ++ back, a.id ≠ e.id := by
  have hnodup : ((e :: (front ++ back)).map ChildEntry.id).Nodup :=
    ((perm_of_split hsplit).map ChildEntry.id).nodup_iff.1 hids
  intro a ha hid
  exact (List.nodup_cons.1 hnodup).1 (List.mem_map.2 ⟨a, ha, hid⟩)

/-- The first entry of an identity is found. -/
theorem childById?_of_split (hsplit : n.children = front ++ e :: back)
    (hfront : ∀ a ∈ front, a.id ≠ e.id) : n.childById? e.id = some e := by
  rw [childById?, hsplit]
  refine List.find?_eq_some_iff_append.2 ⟨by simp, front, back, rfl, ?_⟩
  simpa using hfront

/-- The name of a child is that of its entry. -/
theorem childName?_of_split (hids : n.childIds.Nodup) (hsplit : n.children = front ++ e :: back) :
    n.childName? e.id = some e.name := by
  refine (childName?_eq_some_iff hids).2 ?_
  rw [hsplit]
  simp [label]

/-- No entry is found for what is not a child. -/
theorem childById?_eq_none (h : id ∉ n.childIds) : n.childById? id = none := by
  refine List.find?_eq_none.2 fun a ha => ?_
  have hne : a.id ≠ id := fun hid => h (List.mem_map.2 ⟨a, ha, hid⟩)
  simpa using hne

/-- Taking the first entry out closes the gap. -/
theorem eraseP_of_split (hfront : ∀ a ∈ front, a.id ≠ e.id) :
    (front ++ e :: back).eraseP (fun a => a.id = e.id) = front ++ back := by
  rw [List.eraseP_append_right _ (by simpa using hfront), List.eraseP_cons_of_pos (by simp)]

/-- Renaming changes the first entry only. -/
theorem renameFirst_of_split (name : Name) (hfront : ∀ a ∈ front, a.id ≠ e.id) :
    renameFirst e.id name (front ++ e :: back) = front ++ { e with name := name } :: back := by
  induction front with
  | nil => simp [renameFirst]
  | cons a rest ih =>
    obtain ⟨ha, hrest⟩ := List.forall_mem_cons.1 hfront
    rw [List.cons_append, renameFirst, if_neg ha, ih hrest, List.cons_append]

/-- An entry is put right in front of the other one. -/
theorem insertBefore?_of_split (e : ChildEntry) (hfront : ∀ a ∈ front, a.id ≠ b.id) :
    insertBefore? e b.id (front ++ b :: back) = some (front ++ e :: b :: back) := by
  induction front with
  | nil => simp [insertBefore?]
  | cons a rest ih =>
    obtain ⟨ha, hrest⟩ := List.forall_mem_cons.1 hfront
    rw [List.cons_append, insertBefore?, if_neg ha, ih hrest, Option.map_some, List.cons_append]

/-- Nothing is moved in front of what is not there. -/
theorem insertBefore?_eq_none (e : ChildEntry) (h : ∀ a ∈ children, a.id ≠ id) :
    insertBefore? e id children = none := by
  induction children with
  | nil => rfl
  | cons a rest ih =>
    obtain ⟨ha, hrest⟩ := List.forall_mem_cons.1 h
    rw [insertBefore?, if_neg ha, ih hrest, Option.map_none]

/-! ## Each edit at its place -/

/-- What removing a child leaves. -/
theorem removeChild_of_split (hsplit : n.children = front ++ e :: back)
    (hfront : ∀ a ∈ front, a.id ≠ e.id) :
    n.removeChild e.id = (some e, { n with children := reindex e.name (front ++ back) }) := by
  rw [removeChild, childById?_of_split hsplit hfront, hsplit, eraseP_of_split hfront]

/-- What renaming a child leaves. -/
theorem renameChild_of_split (name : Name) (hsplit : n.children = front ++ e :: back)
    (hfront : ∀ a ∈ front, a.id ≠ e.id) :
    n.renameChild e.id name = (true,
      { n with
        children := reindex name (reindex e.name (front ++ { e with name := name } :: back)) }) := by
  rw [renameChild, childById?_of_split hsplit hfront, hsplit, renameFirst_of_split name hfront]

/-- What moving a child to the end leaves. -/
theorem reorderChild_last_of_split (hsplit : n.children = front ++ e :: back)
    (hfront : ∀ a ∈ front, a.id ≠ e.id) :
    n.reorderChild e.id none =
      (true, { n with children := reindex e.name (front ++ back ++ [e]) }) := by
  simp only [reorderChild, childById?_of_split hsplit hfront, hsplit, eraseP_of_split hfront,
    reduceCtorEq, if_false]

/-- What moving a child in front of another one leaves. -/
theorem reorderChild_before_of_split {before after : List ChildEntry}
    (hsplit : n.children = front ++ e :: back) (hfront : ∀ a ∈ front, a.id ≠ e.id)
    (hne : b.id ≠ e.id) (hothers : front ++ back = before ++ b :: after)
    (hbefore : ∀ a ∈ before, a.id ≠ b.id) :
    n.reorderChild e.id (some b.id) =
      (true, { n with children := reindex e.name (before ++ e :: b :: after) }) := by
  simp only [reorderChild, childById?_of_split hsplit hfront, hsplit, eraseP_of_split hfront,
    Option.some.injEq, hne, if_false, hothers, insertBefore?_of_split e hbefore]

/-! ## Numbering what is left -/

/-- Numbering goes on behind a first part. -/
theorem reindexFrom_append (name : Name) (count : Nat) (front back : List ChildEntry) :
    reindexFrom name count (front ++ back) =
      reindexFrom name count front ++ reindexFrom name (count + (named name front).length) back := by
  induction front generalizing count with
  | nil => rfl
  | cons e rest ih =>
    rw [List.cons_append, reindexFrom, reindexFrom, named_cons]
    split
    · rw [ih, List.cons_append, List.length_cons, Nat.add_right_comm, Nat.add_assoc]
    · rw [ih, List.cons_append]

/-- Numbering anew closes the gap in front of indices that stand behind it. -/
theorem reindexFrom_of_range' (gap : Nat) {count : Nat} (h : (named name children).map ChildEntry.index =
      List.range' (count + gap + 1) (named name children).length) :
    reindexFrom name count children = children.map (lowered name gap) := by
  induction children generalizing count with
  | nil => rfl
  | cons e rest ih =>
    rw [reindexFrom, List.map_cons, lowered]
    rw [named_cons] at h
    split
    · next hname =>
      rw [if_pos hname, List.map_cons, List.length_cons, List.range'_succ, List.cons.injEq] at h
      obtain ⟨hindex, hrest⟩ := h
      have hplace : count + gap + 1 + 1 = count + 1 + gap + 1 := by omega
      have hfirst : count + 1 = e.index - gap := by omega
      rw [hplace] at hrest
      rw [ih hrest, hfirst]
    · next hname =>
      rw [if_neg hname] at h
      rw [ih h]

/-- The indices around an entry of a list that is numbered in order. -/
theorem range'_of_denseAt (h : DenseAt e.name (front ++ e :: back)) :
    let count := (named e.name front).length
    (named e.name front).map ChildEntry.index = List.range' 1 count ∧ e.index = count + 1 ∧
      (named e.name back).map ChildEntry.index =
        List.range' (count + 2) (named e.name back).length := by
  intro count
  have hnamed : named e.name (front ++ e :: back) = named e.name front ++ e :: named e.name back := by
    simp [named]
  rw [DenseAt, hnamed, List.map_append, List.map_cons, List.length_append, List.length_cons,
    ← List.range'_append_1, List.range'_succ] at h
  obtain ⟨hfront, hrest⟩ := List.append_inj h (by simp)
  obtain ⟨hindex, hback⟩ := List.cons.inj hrest
  refine ⟨hfront, by omega, ?_⟩
  rw [hback, Nat.add_comm 1 count]

/-- Without an entry, its later siblings move down by one, and nothing else changes. -/
theorem reindex_of_split (h : DenseAt e.name (front ++ e :: back)) :
    reindex e.name (front ++ back) = front ++ back.map (lowered e.name 1) ∧
      ∀ a ∈ back, a.name = e.name → e.index < a.index := by
  obtain ⟨hfront, hindex, hback⟩ := range'_of_denseAt h
  have hkept : reindexFrom e.name 0 front = front := by
    have hsame : front.map (lowered e.name 0) = front :=
      List.map_id'' (fun a => by simp [lowered]) front
    rw [reindexFrom_of_range' 0 (by rw [hfront]), hsame]
  constructor
  · rw [reindex, reindexFrom_append, hkept]
    rw [reindexFrom_of_range' 1 (by rw [hback]; simp)]
  · intro a ha hname
    have hmem : a ∈ named e.name back := List.mem_filter.2 ⟨ha, decide_eq_true hname⟩
    have hrange : a.index ∈ (named e.name back).map ChildEntry.index := List.mem_map_of_mem hmem
    rw [hback, List.mem_range'_1] at hrange
    omega

/-! ## What each edit does -/

/-- An edit that changes nothing spares everything. -/
theorem bystanders_refl (h : Dense n.children) (touched : Name → Prop) : Bystanders touched n n :=
  ⟨rfl, h, fun _ he _ => he⟩

/-- A child of an untouched name is not the one at the split. -/
theorem mem_of_split (hsplit : n.children = front ++ e :: back) {a : ChildEntry} (ha : a ∈ n.children)
    (hname : e.name ≠ a.name) : a ∈ front ++ back := by
  rcases List.mem_cons.1 ((perm_of_split hsplit).mem_iff.1 ha) with rfl | ha
  · exact absurd rfl hname
  · exact ha

/-- Taking out what is not there leaves the identities. -/
theorem filter_ids_of_not_mem (h : id ∉ n.childIds) : n.childIds.filter (· ≠ id) = n.childIds := by
  refine List.filter_eq_self.2 fun k hk => ?_
  have hne : k ≠ id := fun hkid => h (hkid ▸ hk)
  simpa using hne

/-- Taking a child out leaves the identities of the other ones. -/
theorem filter_ids_of_split (hids : n.childIds.Nodup) (hsplit : n.children = front ++ e :: back) :
    n.childIds.filter (· ≠ e.id) = (front ++ back).map ChildEntry.id := by
  have hkept : ∀ k ∈ (front ++ back).map ChildEntry.id, k ≠ e.id := by
    intro k hk
    obtain ⟨a, ha, rfl⟩ := List.mem_map.1 hk
    exact ids_ne_of_split hids hsplit a ha
  rw [childIds, hsplit, List.map_append, List.map_cons, List.filter_append,
    List.filter_cons_of_neg (by simp), ← List.filter_append, ← List.map_append]
  exact List.filter_eq_self.2 fun k hk => by simpa using hkept k hk

/-! ### Removing -/

/-- Removing what is not a child changes nothing. -/
theorem removed_of_not_mem (hdense : Dense n.children) (hid : id ∉ n.childIds) :
    Removed n id (n.removeChild id).1 (n.removeChild id).2 := by
  have hrun : n.removeChild id = (none, n) := by rw [removeChild, childById?_eq_none hid]
  rw [hrun]
  refine
    { refused_iff := by simp [hid]
      unchanged := fun _ => rfl
      order := (filter_ids_of_not_mem hid).symm
      names := fun _ _ => rfl
      later := ?_
      bystanders := bystanders_refl hdense _ }
  intro front e back hsplit he
  refine absurd ?_ hid
  rw [childIds, hsplit, ← he]
  simp

/-- Removing does what is said of it. -/
theorem removed_removeChild (hdense : Dense n.children) (hids : n.childIds.Nodup) (id : NodeId) :
    Removed n id (n.removeChild id).1 (n.removeChild id).2 := by
  by_cases hid : id ∉ n.childIds
  · exact removed_of_not_mem hdense hid
  rw [not_not] at hid
  obtain ⟨front, e, back, hsplit, rfl, hfront⟩ := exists_split hid
  have hrun := removeChild_of_split hsplit hfront
  have horder : (n.removeChild e.id).2.childIds = n.childIds.filter (· ≠ e.id) := by
    rw [hrun, filter_ids_of_split hids hsplit]
    exact map_id_reindex e.name (front ++ back)
  refine
    { refused_iff := by simp [hrun, hid]
      unchanged := by simp [hrun]
      order := horder
      names := ?_
      later := ?_
      bystanders := ⟨by rw [hrun], dense_removeChild hdense e.id, ?_⟩ }
  · intro k hk
    refine childName?_congr hids (horder ▸ hids.filter _) fun m => ?_
    rw [hrun, hsplit, map_label_reindex]
    simp [label, hk]
  · intro front' e' back' hsplit' hid'
    have hfront' : ∀ a ∈ front', a.id ≠ e'.id := fun a ha =>
      ids_ne_of_split hids hsplit' a (List.mem_append_left _ ha)
    have hnumbers : DenseAt e'.name (front' ++ e' :: back') := hsplit' ▸ hdense e'.name
    obtain ⟨hchildren, hlater⟩ := reindex_of_split hnumbers
    rw [← hid', removeChild_of_split hsplit' hfront']
    exact ⟨rfl, hchildren, hlater⟩
  · intro a ha hname
    rw [childName?_of_split hids hsplit, Option.some.injEq] at hname
    rw [hrun]
    exact mem_reindex_of_ne (mem_of_split hsplit ha hname) (Ne.symm hname)

/-! ### Renaming -/

/-- Renaming does what is said of it. -/
theorem renamed_renameChild (hdense : Dense n.children) (hids : n.childIds.Nodup) (id : NodeId)
    (name : Name) : Renamed n id name (n.renameChild id name).1 (n.renameChild id name).2 := by
  by_cases hid : id ∉ n.childIds
  · have hrun : n.renameChild id name = (false, n) := by rw [renameChild, childById?_eq_none hid]
    rw [hrun]
    exact
      { refused_iff := by simp [hid]
        unchanged := fun _ => rfl
        order := rfl
        renamed := by simp
        names := fun _ _ => rfl
        bystanders := bystanders_refl hdense _ }
  rw [not_not] at hid
  obtain ⟨front, e, back, hsplit, rfl, hfront⟩ := exists_split hid
  have hrun := renameChild_of_split name hsplit hfront
  have hlabels : (n.renameChild e.id name).2.children.map label =
      front.map label ++ (e.id, name) :: back.map label := by
    rw [hrun, map_label_reindex, map_label_reindex, List.map_append, List.map_cons]
    rfl
  -- the entries keep their places, as only a label changes
  have horder : (n.renameChild e.id name).2.childIds = n.childIds := by
    rw [childIds_eq, childIds_eq n, hlabels, hsplit]
    simp [label]
  have hids' : (n.renameChild e.id name).2.childIds.Nodup := horder ▸ hids
  refine
    { refused_iff := by simp [hrun, hid]
      unchanged := by simp [hrun]
      order := horder
      renamed := fun _ => ?_
      names := fun k hk => childName?_congr hids hids' fun m => ?_
      bystanders := ⟨by rw [hrun], dense_renameChild hdense e.id name, ?_⟩ }
  · rw [childName?_eq_some_iff hids', hlabels]
    simp
  · rw [hlabels, hsplit]
    simp [label, hk]
  · intro a ha hname
    -- another child of the old or the new name would have been renumbered
    rw [childName?_of_split hids hsplit, Option.some.injEq, not_or] at hname
    rw [hrun]
    refine mem_reindex_of_ne (mem_reindex_of_ne ?_ (Ne.symm hname.2)) hname.1
    rcases List.mem_append.1 (mem_of_split hsplit ha hname.2) with hmem | hmem
    · exact List.mem_append_left _ hmem
    · exact List.mem_append_right _ (List.mem_cons_of_mem _ hmem)

/-! ### Reordering -/

/-- A move that is refused changes nothing. -/
theorem reordered_of_refused {before : Option NodeId} (hdense : Dense n.children)
    (h : id ∉ n.childIds ∨ ∃ b, before = some b ∧ b ∉ n.childIds) :
    Reordered n id before (n.reorderChild id before).1 (n.reorderChild id before).2 := by
  have hrun : n.reorderChild id before = (false, n) := by
    by_cases hid : id ∉ n.childIds
    · rw [reorderChild, childById?_eq_none hid]
    · obtain ⟨b, rfl, hb⟩ := h.resolve_left hid
      rw [not_not] at hid
      obtain ⟨front, e, back, hsplit, rfl, hfront⟩ := exists_split hid
      have hne : b ≠ e.id := fun hbe => hb (hbe ▸ hid)
      have hothers : ∀ a ∈ front ++ back, a.id ≠ b := by
        intro a ha hab
        have hmem : a ∈ n.children := (perm_of_split hsplit).mem_iff.2 (List.mem_cons_of_mem e ha)
        exact hb (List.mem_map.2 ⟨a, hmem, hab⟩)
      simp only [reorderChild, childById?_of_split hsplit hfront, hsplit, eraseP_of_split hfront,
        Option.some.injEq, hne, if_false, insertBefore?_eq_none e hothers]
  rw [hrun]
  exact
    { refused_iff := by simp [h]
      unchanged := fun _ => rfl
      order := by simp
      names := fun _ => rfl
      bystanders := bystanders_refl hdense _ }

/-- A list with the entries in another order has the same names, whatever is numbered anew. -/
theorem reordered_of_perm {before : Option NodeId} {moved : List ChildEntry}
    (hdense : Dense n.children) (hids : n.childIds.Nodup) (hmoved : moved.Perm n.children)
    (hname : n.childName? id = some name) (hbefore : ∀ b, before = some b → b ∈ n.childIds)
    (hrun : n.reorderChild id before = (true, { n with children := reindex name moved }))
    (horder : PutBefore id before n.childIds (moved.map ChildEntry.id)) :
    Reordered n id before (n.reorderChild id before).1 (n.reorderChild id before).2 := by
  have hid : id ∈ n.childIds := by
    by_contra h
    rw [childName?, childById?_eq_none h] at hname
    cases hname
  have hnewIds : (n.reorderChild id before).2.childIds = moved.map ChildEntry.id := by
    rw [hrun]
    exact map_id_reindex name moved
  have hids' : (n.reorderChild id before).2.childIds.Nodup := by
    rw [hnewIds, (hmoved.map ChildEntry.id).nodup_iff]
    exact hids
  refine
    { refused_iff := ?_
      unchanged := by simp [hrun]
      order := fun _ => hnewIds ▸ horder
      names := fun k => childName?_congr hids hids' fun m => ?_
      bystanders := ⟨by rw [hrun], dense_reorderChild hdense id before, fun a ha hother => ?_⟩ }
  · have haccepted : ¬(id ∉ n.childIds ∨ ∃ b, before = some b ∧ b ∉ n.childIds) := by
      rintro (h | ⟨b, hb, h⟩)
      · exact h hid
      · exact h (hbefore b hb)
    simp [hrun, haccepted]
  · rw [hrun, map_label_reindex]
    exact (hmoved.map label).mem_iff
  · rw [hname, Option.some.injEq] at hother
    -- only entries of the moved child's name are numbered anew
    rw [hrun]
    exact mem_reindex_of_ne (hmoved.mem_iff.2 ha) (Ne.symm hother)

/-- Moving does what is said of it. -/
theorem reordered_reorderChild (hdense : Dense n.children) (hids : n.childIds.Nodup) (id : NodeId)
    (before : Option NodeId) :
    Reordered n id before (n.reorderChild id before).1 (n.reorderChild id before).2 := by
  by_cases hrefused : id ∉ n.childIds ∨ ∃ b, before = some b ∧ b ∉ n.childIds
  · exact reordered_of_refused hdense hrefused
  obtain ⟨hid, hbefore⟩ := not_or.1 hrefused
  rw [not_not] at hid
  have hknown : ∀ b, before = some b → b ∈ n.childIds := fun b hb => by
    by_contra h
    exact hbefore ⟨b, hb, h⟩
  obtain ⟨front, e, back, hsplit, rfl, hfront⟩ := exists_split hid
  have hname : n.childName? e.id = some e.name := childName?_of_split hids hsplit
  have hfilter := filter_ids_of_split hids hsplit
  have hperm : (e :: (front ++ back)).Perm n.children := (perm_of_split hsplit).symm
  cases before with
  | none =>
    refine reordered_of_perm hdense hids ?_ hname hknown (reorderChild_last_of_split hsplit hfront) ?_
    · exact (List.perm_append_singleton e (front ++ back)).trans hperm
    · rw [PutBefore, hfilter, List.map_append, List.map_singleton]
  | some before =>
    by_cases hself : before = e.id
    · subst hself
      have hrun : n.reorderChild e.id (some e.id) = (true, n) := by
        rw [reorderChild, childById?_of_split hsplit hfront]
        exact if_pos rfl
      rw [hrun]
      exact
        { refused_iff := by simp [hid]
          unchanged := fun _ => rfl
          order := fun _ => by simp [PutBefore]
          names := fun _ => rfl
          bystanders := bystanders_refl hdense _ }
    · have hmem : before ∈ n.childIds.filter (· ≠ e.id) :=
        List.mem_filter.2 ⟨hknown before rfl, by simpa using hself⟩
      -- among the others, the entry in front of which the child is put
      obtain ⟨front', b, back', hothers, rfl, hfront'⟩ :
          ∃ front' b back', front ++ back = front' ++ b :: back' ∧ b.id = before ∧
            ∀ a ∈ front', a.id ≠ before :=
        exists_split (n := { n with children := front ++ back }) (hfilter ▸ hmem)
      refine reordered_of_perm hdense hids ?_ hname hknown
        (reorderChild_before_of_split hsplit hfront hself hothers hfront') ?_
      · refine List.Perm.trans ?_ hperm
        rw [hothers]
        exact List.perm_middle
      · rw [PutBefore, if_neg hself, hfilter, hothers]
        exact ⟨front'.map ChildEntry.id, back'.map ChildEntry.id, by simp, by simp⟩

/-! ## Lists that were built by edits -/

/-- **Edits move exactly what they say.** In a list that was built by edits and in which every identity
stands once, moving, renaming or removing a child is refused and changes nothing if the child is missing (or
the one that it is moved in front of), and else does to the order of identities, to their names and to the
entries of other names what `Reordered`, `Renamed` and `Removed` say. -/
theorem edits_move (type : Name) (parent : Option NodeId) (edits : List Edit)
    (hids : (after type parent edits).childIds.Nodup) :
    let n := after type parent edits
    (∀ id before, Reordered n id before (n.reorderChild id before).1 (n.reorderChild id before).2) ∧
    (∀ id name, Renamed n id name (n.renameChild id name).1 (n.renameChild id name).2) ∧
    ∀ id, Removed n id (n.removeChild id).1 (n.removeChild id).2 := by
  intro n
  have hdense : Dense n.children := dense_after type parent edits
  refine ⟨fun id before => ?_, fun id name => ?_, fun id => ?_⟩
  · exact reordered_reorderChild hdense hids id before
  · exact renamed_renameChild hdense hids id name
  · exact removed_removeChild hdense hids id

/-- An identity of one octet, sixteen times. -/
theorem length_uniform (octet : UInt8) : (List.replicate 16 octet).length = 16 :=
  List.length_replicate

/-- The identity of which all octets are the same. -/
def uniformId (octet : UInt8) : NodeId :=
  ⟨List.replicate 16 octet, length_uniform octet⟩

/-- Three siblings of one name, with a child of another name among them. -/
def siblings : NodeState :=
  after ⟨"t"⟩ none [.add ⟨"a"⟩ (uniformId 1), .add ⟨"b"⟩ (uniformId 2), .add ⟨"a"⟩ (uniformId 3),
    .add ⟨"a"⟩ (uniformId 4)]

/-- The last of the siblings is moved to the front, and the first one is removed. -/
theorem edits_move_siblings :
    siblings.childIds.Nodup ∧
    (siblings.reorderChild (uniformId 4) (some (uniformId 1))).1 = true ∧
    PutBefore (uniformId 4) (some (uniformId 1)) siblings.childIds
      (siblings.reorderChild (uniformId 4) (some (uniformId 1))).2.childIds ∧
    (siblings.removeChild (uniformId 1)).2.childIds =
      siblings.childIds.filter (· ≠ uniformId 1) := by
  have hids : siblings.childIds.Nodup := by decide
  have haccepted : (siblings.reorderChild (uniformId 4) (some (uniformId 1))).1 = true := by decide
  obtain ⟨hreordered, -, hremoved⟩ := edits_move _ _ _ hids
  exact ⟨hids, haccepted, (hreordered _ _).order haccepted, (hremoved _).order⟩

end ContentTree.NodeState
