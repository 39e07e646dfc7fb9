import ContentTree.Proofs.Disk.Tree

/-!
# Paths below a folder

A path made of a folder's path and plain names behind it leads to the place with these names in front
of the folder's, however the folder's path is spelled and whatever changes in the tree, as long as no
folder goes (`Anchored.leads`).
-/

namespace ContentTree

namespace Path

/-- The pieces of a path are those between the slashes. -/
theorem parse_eq (text : String) :
    parse text = (text.toList.splitOnP fun c => c = '/').map String.ofList := by
  rw [parse, String.toList_split_prop]

/-- A name that stands for itself, and is not too long. -/
structure Plain (name : String) : Prop where
  stays : staysHere name = false
  notAbove : name ≠ ".."
  short : name.utf8ByteSize ≤ maxNameSize
  sound : '\x00' ∉ name.toList

/-- A plain name is not empty. -/
theorem Plain.ne_empty {name : String} (h : Plain name) : name ≠ "" := by
  rintro rfl
  exact absurd h.stays (by decide)

/-- A plain name is not the dot. -/
theorem Plain.ne_dot {name : String} (h : Plain name) : name ≠ "." := by
  rintro rfl
  exact absurd h.stays (by decide)

/-- A plain name at the end stays. -/
theorem bare_append {p : Path} {name : String} (h : Plain name) :
    bare (p ++ [name]) = p ++ [name] := by
  rw [bare, List.reverse_append, List.reverse_singleton, List.singleton_append,
    List.dropWhile_cons_of_neg (by rw [h.stays]; decide), List.reverse_cons, List.reverse_reverse]

/-- The parent of a path with two plain names at its end. -/
theorem parent_append {p : Path} {a b : String} (ha : Plain a) (hb : Plain b) :
    parent (p ++ [a, b]) = p ++ [a] := by
  have hsplit : p ++ [a, b] = (p ++ [a]) ++ [b] := by rw [List.append_assoc]; rfl
  rw [parent, hsplit, bare_append hb, List.dropLast_concat, bare_append ha]

/-- An ending goes behind the last name. -/
theorem withEnding_append (p : Path) (name ending : String) :
    withEnding (p ++ [name]) ending = p ++ [name ++ ending] := by
  rw [withEnding, List.getLast?_concat]
  simp only [List.dropLast_concat]

/-- A path that ends with a plain name does not ask for a folder. -/
theorem asksForFolder_append {p : Path} {name : String} (h : Plain name) :
    asksForFolder (p ++ [name]) = false := by
  rw [asksForFolder, List.getLast?_concat]
  exact decide_eq_false fun heq => h.ne_empty (Option.some.inj heq)

/-- A path without its last dots is a first part of it. -/
theorem prefix_bare (p : Path) : bare p <+: p := by
  rw [bare, ← List.reverse_suffix, List.reverse_reverse]
  exact List.dropWhile_suffix _

/-- The folders on the way to a path are written with a first part of it. -/
theorem mem_containing {p q : Path} (h : q ∈ p.containing) : q <+: p.bare ∧ q.length < p.bare.length := by
  rw [containing, List.mem_filter] at h
  obtain ⟨n, hn, rfl⟩ := List.mem_map.1 h.1
  have hlt := List.mem_range.1 hn
  exact ⟨List.take_prefix n p.bare, by rw [List.length_take]; omega⟩

/-- What contains a path is a first part of it. -/
theorem prefix_of_mem_containing {p q : Path} (h : q ∈ p.containing ++ [p]) : q <+: p := by
  rcases List.mem_append.1 h with h | h
  · exact (mem_containing h).1.trans (prefix_bare p)
  · exact List.mem_singleton.1 h ▸ List.prefix_refl _

/-- The folder above is the last one on the way. -/
theorem containing_append {p : Path} {a b : String} (ha : Plain a) (hb : Plain b) :
    containing (p ++ [a] ++ [b]) = containing (p ++ [a]) ++ [p ++ [a]] := by
  have htake : ∀ n ∈ List.range (p ++ [a]).length,
      (p ++ [a] ++ [b]).take n = (p ++ [a]).take n := fun n hn =>
    List.take_append_of_le_length (Nat.le_of_lt (List.mem_range.1 hn))
  have hlast : [p ++ [a]].filter (fun q => decide (q.bare = q)) = [p ++ [a]] :=
    List.filter_cons_of_pos (decide_eq_true (bare_append ha))
  have hlength : (p ++ [a] ++ [b]).length = (p ++ [a]).length + 1 := List.length_append
  rw [containing, containing, bare_append hb, bare_append ha, hlength, List.range_succ,
    List.map_append, List.map_congr_left htake, List.filter_append, List.map_singleton,
    List.take_left, hlast]

/-! ### Length -/

/-- The empty path has no size. -/
theorem size_nil : size [] = 0 := rfl

/-- The size of a path in parts counts the slash between them. -/
theorem size_append {p q : Path} (hp : p ≠ []) (hq : q ≠ []) :
    size (p ++ q) = size p + 1 + size q := by
  rw [size, display, String.intercalate_append_of_ne_nil hp hq, String.utf8ByteSize_append,
    String.utf8ByteSize_append]
  rfl

/-- A path of one name has the size of the name. -/
theorem size_singleton (name : String) : size [name] = name.utf8ByteSize := rfl

/-- The size of a path counts its first name and the slash behind it. -/
theorem size_cons (name : String) {q : Path} (hq : q ≠ []) :
    size (name :: q) = name.utf8ByteSize + 1 + size q :=
  size_append (List.cons_ne_nil name []) hq

/-- The size of a path in parts is at most that of the parts and a slash. -/
theorem size_append_le (p q : Path) : size (p ++ q) ≤ size p + 1 + size q := by
  by_cases hp : p = []
  · subst hp
    rw [List.nil_append]
    omega
  by_cases hq : q = []
  · subst hq
    rw [List.append_nil]
    omega
  exact Nat.le_of_eq (size_append hp hq)

/-- A first part of a path is not larger than it. -/
theorem size_le_append (p q : Path) : size p ≤ size (p ++ q) := by
  by_cases hp : p = []
  · subst hp
    rw [size_nil]
    omega
  by_cases hq : q = []
  · subst hq
    exact Nat.le_of_eq (congrArg size (List.append_nil p).symm)
  rw [size_append hp hq]
  omega

/-- The system takes a folder's path with names behind it of up to `room` octets. -/
structure Roomy (room : Nat) (folder : Path) : Prop where
  sound : ∀ piece ∈ folder, '\x00' ∉ piece.toList
  size_le : folder.size + 1 + room ≤ maxSize

/-- A path without NUL that is not too long passes the check. -/
theorem check_eq_ok {p : Path} (hsound : ∀ piece ∈ p, '\x00' ∉ piece.toList)
    (hsize : p.size ≤ maxSize) : p.check = .ok () := by
  rw [check, if_neg, if_neg (Nat.not_lt_of_le hsize)]
  intro hany
  obtain ⟨piece, hmem, hpiece⟩ := List.any_eq_true.1 hany
  obtain ⟨c, hc, heq⟩ := List.any_eq_true.1 hpiece
  rw [of_decide_eq_true heq] at hc
  exact hsound piece hmem hc

/-- Behind a folder with enough room plain names pass the check. -/
theorem Roomy.check_append {room : Nat} {folder ns : Path} (h : Roomy room folder)
    (hplain : ∀ n ∈ ns, Plain n) (hsize : size ns ≤ room) : (folder ++ ns).check = .ok () := by
  refine check_eq_ok (fun piece hp => ?_) ?_
  · rcases List.mem_append.1 hp with hp | hp
    · exact h.sound piece hp
    · exact (hplain piece hp).sound
  · have hle := size_append_le folder ns
    have hroom := h.size_le
    omega

/-- A first part of a path that passes the check passes it too. -/
theorem check_of_prefix {p q : Path} (h : q.check = .ok ()) (hpq : p <+: q) : p.check = .ok () := by
  obtain ⟨r, rfl⟩ := hpq
  rw [check] at h
  split at h
  · cases h
  next hany =>
  split at h
  · cases h
  next hsize =>
  have hle := size_le_append p r
  rw [check, if_neg, if_neg (by omega)]
  intro hp
  refine hany ?_
  rw [List.any_append, hp]
  rfl

end Path

namespace Disk

variable {d d' : Disk}

/-- A check for a folder passes where there is one. -/
theorem checkFolder_eq_ok {place : Location} :
    d.checkFolder place = .ok () ↔ d.occupant? place = some .folder := by
  cases place with
  | nil => simp [checkFolder]
  | cons name above =>
    rw [occupant?_of_ne_nil (List.cons_ne_nil name above), checkFolder]
    split
    · next h => simp [h]
    · next h => simp [h]
    · next h =>
      rw [h]
      cases d.checkFolder above <;> simp [bind, Except.bind]

/-- The empty path leads to where one is. -/
theorem follow_nil (d : Disk) (here : Location) : d.follow here [] = .ok here := by
  rw [follow]

/-- A plain name leads to the place of that name. -/
theorem follow_plain {name : String} (h : Path.Plain name) (here : Location) (rest : Path) :
    d.follow here (name :: rest) = d.follow (name :: here) rest := by
  rw [follow, if_neg (Nat.not_lt_of_le h.short)]
  · exact fun heq => h.ne_empty heq
  · exact fun heq => h.ne_dot heq
  · exact fun heq => h.notAbove heq

/-- A path is followed in parts. -/
theorem follow_append (d : Disk) (here : Location) (p q : Path) :
    d.follow here (p ++ q) = d.follow here p >>= fun l => d.follow l q := by
  fun_induction follow d here p with
  | case1 here => rfl
  | case2 here rest ih => rw [List.cons_append, follow, ih]
  | case3 here rest ih =>
    rw [List.cons_append, follow]
    cases d.checkFolder here with
    | ok u => exact ih
    | error e => rfl
  | case4 here rest ih =>
    rw [List.cons_append, follow]
    cases d.checkFolder here with
    | ok u => exact ih
    | error e => rfl
  | case5 here name rest h₁ h₂ h₃ hlong =>
    rw [List.cons_append, follow, if_pos hlong]
    · cases d.checkFolder here <;> rfl
    all_goals assumption
  | case6 here name rest h₁ h₂ h₃ hshort ih =>
    rw [List.cons_append, follow, if_neg hshort]
    · exact ih
    all_goals assumption

/-- Plain names lead down. -/
theorem follow_names {ns : Path} (h : ∀ n ∈ ns, Path.Plain n) (here : Location) :
    d.follow here ns = .ok (ns.reverse ++ here) := by
  induction ns generalizing here with
  | nil => exact follow_nil d here
  | cons n rest ih =>
    rw [follow_plain (h n (List.mem_cons_self ..)), ih fun m hm => h m (List.mem_cons_of_mem n hm),
      List.reverse_cons, List.append_assoc]
    rfl

/-- A path leads to the same place as long as no folder goes. -/
theorem follow_kept (hkept : ∀ {p}, d.occupant? p = some .folder → d'.occupant? p = some .folder)
    {here l : Location} {p : Path} (h : d.follow here p = .ok l) : d'.follow here p = .ok l := by
  -- going down a path meets folders only, and these are kept
  have hcheck : ∀ {place}, d.checkFolder place = .ok () → d'.checkFolder place = .ok () :=
    fun hp => checkFolder_eq_ok.2 (hkept (checkFolder_eq_ok.1 hp))
  fun_induction follow d here p with
  | case1 here =>
    rw [follow]
    exact h
  | case2 here rest ih =>
    rw [follow]
    exact ih h
  | case3 here rest ih =>
    cases hc : d.checkFolder here with
    | ok u =>
      rw [hc] at h
      rw [follow, hcheck hc]
      exact ih h
    | error e => rw [hc] at h; cases h
  | case4 here rest ih =>
    cases hc : d.checkFolder here with
    | ok u =>
      rw [hc] at h
      rw [follow, hcheck hc]
      exact ih h
    | error e => rw [hc] at h; cases h
  | case5 here name rest h₁ h₂ h₃ hlong =>
    cases hc : d.checkFolder here with
    | ok u => rw [hc] at h; cases h
    | error e => rw [hc] at h; cases h
  | case6 here name rest h₁ h₂ h₃ hshort ih =>
    rw [follow, if_neg hshort]
    · exact ih h
    all_goals assumption

/-- A path that ends in a folder starts in one. -/
theorem folder_of_follow (hd : d.Sound) {here l : Location} {p : Path} (h : d.follow here p = .ok l)
    (hl : d.occupant? l = some .folder) : d.occupant? here = some .folder := by
  fun_induction follow d here p with
  | case1 here =>
    cases h
    exact hl
  | case2 here rest ih => exact ih h
  | case3 here rest ih | case4 here rest ih | case5 here name rest _ _ _ _ =>
    cases hc : d.checkFolder here with
    | ok u => exact checkFolder_eq_ok.1 hc
    | error e => rw [hc] at h; cases h
  | case6 here name rest _ _ _ _ ih =>
    exact hd.enclosed (by rw [ih h]; rfl)

/-- The path of a folder leads to a place where a folder stands. -/
structure Anchored (folder : Path) (base : Location) (d : Disk) : Prop where
  follow : d.follow [] folder = .ok base
  isFolder : d.occupant? base = some .folder

variable {folder : Path} {base : Location}

/-- A folder stays where it is as long as no folder goes away. -/
theorem Anchored.kept (h : Anchored folder base d)
    (hkept : ∀ {p}, d.occupant? p = some .folder → d'.occupant? p = some .folder) :
    Anchored folder base d' :=
  ⟨follow_kept hkept h.follow, hkept h.isFolder⟩

/-- Plain names behind a folder lead to places in it. -/
theorem Anchored.follow_append (h : Anchored folder base d) {ns : Path}
    (hplain : ∀ n ∈ ns, Path.Plain n) : d.follow [] (folder ++ ns) = .ok (ns.reverse ++ base) := by
  rw [Disk.follow_append, h.follow]
  exact follow_names hplain base

/-- Names behind the path of a folder lead to the place with these names in that folder. -/
theorem Anchored.leads (h : Anchored folder base d) (ns : Path) {name : String}
    (hplain : ∀ n ∈ ns ++ [name], Path.Plain n) (hcheck : (folder ++ (ns ++ [name])).check = .ok ())
    (habove : d.occupant? (ns.reverse ++ base) = some .folder) :
    d.Leads (folder ++ (ns ++ [name])) (name :: (ns.reverse ++ base)) := by
  have hfollow := h.follow_append hplain
  rw [List.reverse_append, List.reverse_singleton, List.singleton_append, List.cons_append]
    at hfollow
  have hname : Path.Plain name := hplain name (List.mem_append_right _ (List.mem_singleton.2 rfl))
  have hasks : (folder ++ (ns ++ [name])).asksForFolder = false := by
    rw [← List.append_assoc]
    exact Path.asksForFolder_append hname
  refine ⟨?_, hasks, List.cons_ne_nil _ _, habove⟩
  rw [lookup, hcheck]
  simp only [bind, Except.bind, hfollow]
  split
  · next inode hentry =>
    rw [hasks, hentry]
    rfl
  · next hentry => rw [hentry]; rfl
  · next hentry =>
    rw [hentry, List.tail_cons, checkFolder_eq_ok.2 habove]
    rfl

/-- One name behind the path of a folder. -/
theorem Anchored.leads_name (h : Anchored folder base d) {name : String} (hname : Path.Plain name)
    (hcheck : (folder ++ [name]).check = .ok ()) : d.Leads (folder ++ [name]) (name :: base) :=
  h.leads [] (fun _ hn => List.mem_singleton.1 hn ▸ hname) hcheck h.isFolder

/-- A folder is found where the path of something in it leads over it. -/
theorem hasFolder_of_prefix (hd : d.Sound) {p q : Path} {l : Location} (hcheck : q.check = .ok ())
    (hfollow : d.follow [] q = .ok l) (hl : d.occupant? l = some .folder) (hpq : p <+: q) :
    d.hasFolder p = true := by
  have hp := Path.check_of_prefix hcheck hpq
  obtain ⟨r, rfl⟩ := hpq
  rw [Disk.follow_append] at hfollow
  cases hm : d.follow [] p with
  | error e => rw [hm] at hfollow; cases hfollow
  | ok m =>
    rw [hm] at hfollow
    have hfolder := folder_of_follow hd hfollow hl
    rw [hasFolder, lookup, hp]
    simp only [bind, Except.bind, hm, hfolder]
    rfl

end Disk

end ContentTree
