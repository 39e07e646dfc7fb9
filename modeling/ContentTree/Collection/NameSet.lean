import ContentTree.Identity

/-!
# Sets of names

A finite set of names as a strictly ascending list, by code points. Two sets with the same members
are equal because there is one ascending list of them.
-/

namespace ContentTree

/-- A finite set of names. -/
structure NameSet where
  names : List Name
  ascending : names.Pairwise fun a b => a.text < b.text
  deriving DecidableEq, Repr

namespace NameSet

/-- A set is told by its names. -/
@[ext] theorem ext {a b : NameSet} (h : a.names = b.names) : a = b := by
  cases a; cases b; cases h; rfl

/-- The set without members. -/
def empty : NameSet :=
  ⟨[], List.Pairwise.nil⟩

instance : EmptyCollection NameSet := ⟨empty⟩

instance : Inhabited NameSet := ⟨empty⟩

/-- Whether a name is a member. -/
def contains (s : NameSet) (n : Name) : Bool :=
  n ∈ s.names

/-- A name put where it belongs in an ascending list, once. -/
def insertNames (n : Name) : List Name → List Name
  | [] => [n]
  | m :: rest =>
    if n.text < m.text then n :: m :: rest
    else if n = m then m :: rest
    else m :: insertNames n rest

/-- Exactly one name comes in. -/
theorem mem_insertNames {n a : Name} {l : List Name} : a ∈ insertNames n l ↔ a = n ∨ a ∈ l := by
  induction l with
  | nil => simp [insertNames]
  | cons m rest ih =>
    unfold insertNames
    split
    · simp
    · split
      · next h => subst h; simp
      · simp only [List.mem_cons, ih]; grind

/-- Names stay in ascending order when another one comes in. -/
theorem pairwise_insertNames {n : Name} {l : List Name}
    (h : l.Pairwise fun a b => a.text < b.text) :
    (insertNames n l).Pairwise fun a b => a.text < b.text := by
  induction l with
  | nil => simp [insertNames]
  | cons m rest ih =>
    rw [List.pairwise_cons] at h
    unfold insertNames
    split
    · next hnm =>
      refine List.pairwise_cons.2 ⟨fun a ha => ?_, List.pairwise_cons.2 h⟩
      rcases List.mem_cons.1 ha with rfl | ha
      · exact hnm
      · exact String.lt_trans hnm (h.1 a ha)
    · next hnm =>
      split
      · exact List.pairwise_cons.2 h
      · next hne =>
        refine List.pairwise_cons.2 ⟨fun a ha => ?_, ih h.2⟩
        rcases mem_insertNames.1 ha with rfl | ha
        · refine Classical.byContradiction fun hmn => hne ?_
          have := String.le_antisymm (String.not_lt.1 hmn) (String.not_lt.1 hnm)
          cases a; cases m; simp_all
        · exact h.1 a ha

/-- The set with one more name. -/
def insert (s : NameSet) (n : Name) : NameSet :=
  ⟨insertNames n s.names, pairwise_insertNames s.ascending⟩

/-- The set without a name. -/
def erase (s : NameSet) (n : Name) : NameSet :=
  ⟨s.names.filter (· ≠ n), s.ascending.sublist List.filter_sublist⟩

/-- The set of the names in a list. -/
def ofList (names : List Name) : NameSet :=
  names.foldl insert empty

end NameSet

end ContentTree
