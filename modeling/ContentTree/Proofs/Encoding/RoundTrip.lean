import ContentTree.Proofs.Encoding.Change

/-!
# The binary form of a change is self-delimiting

An item state, a reference record, a batch or a journal entry is found at the front of whatever starts
with its binary form. So different values have different forms, and none is the beginning of another one
(`Portable.selfDelimiting_changes`).
-/

namespace ContentTree

open MessagePack (LengthsFit)

namespace Portable

variable {α : Type} [Portable α]

/-- The texts, lists and byte strings in a value are shorter than 2³². -/
def Short (a : α) : Prop :=
  LengthsFit (document a)

/-- The binary form of a sound value ends where it ends, and tells the value. -/
structure SelfDelimiting (sound : α → Prop) : Prop where
  /-- The value is read from its form, whatever follows. -/
  back : ∀ a, sound a → ∀ rest, ofBytes? (toBytes a ++ rest) = some a
  /-- Different values have different forms. -/
  injective : ∀ a b, sound a → sound b → toBytes a = toBytes b → a = b
  /-- No form is a proper beginning of another one. -/
  prefix_free : ∀ a b, sound a → sound b → toBytes a <+: toBytes b → toBytes a = toBytes b

/-- What a reader finds whatever follows needs no other mark of its end. -/
theorem selfDelimiting_of_back {sound : α → Prop}
    (hback : ∀ a, sound a → ∀ rest, ofBytes? (toBytes a ++ rest) = some a) : SelfDelimiting sound := by
  -- both values are at the front of the longer form
  have heq : ∀ a b, sound a → sound b → toBytes a <+: toBytes b → a = b := by
    intro a b ha hb hprefix
    obtain ⟨rest, hrest⟩ := hprefix
    have hfirst : ofBytes? (toBytes b) = some a := hrest ▸ hback a ha rest
    have hsecond := hback b hb []
    rw [List.append_nil, hfirst] at hsecond
    exact Option.some.inj hsecond
  refine ⟨hback, fun a b ha hb hbytes => ?_, fun a b ha hb hprefix => ?_⟩
  · exact heq a b ha hb (hbytes ▸ List.prefix_refl _)
  · exact congrArg toBytes (heq a b ha hb hprefix)

/-- Values that are told have self-delimiting forms if they are short. -/
theorem selfDelimiting_of_told {sound : α → Prop} {n : Nat} (hn : n ≤ MessagePack.maxDepth)
    (h : ∀ a, sound a → Told n a) : SelfDelimiting fun a : α => sound a ∧ Short a :=
  selfDelimiting_of_back fun a ha => (h a ha.1).ofBytes? hn ha.2

/-- **What is written of a change is read back from the front of any byte string that starts with it**,
for everything that a batch or a journal entry is made of. -/
theorem selfDelimiting_changes :
    SelfDelimiting (fun s : ItemState => s.Fits ∧ Short s) ∧
    SelfDelimiting (fun r : NodeReferences => Short r) ∧
    SelfDelimiting (fun set : ChangeSet => set.Fits ∧ Short set) ∧
    SelfDelimiting (fun e : JournalEntry => e.Fits ∧ Short e) := by
  refine ⟨selfDelimiting_of_told (by decide) fun _ => told_itemState, ?_,
    selfDelimiting_of_told (by decide) fun _ => told_changeSet,
    selfDelimiting_of_told (by decide) fun _ => told_journalEntry⟩
  exact selfDelimiting_of_back fun r hr => (told_references r).ofBytes? (by decide) hr

/-- A property with a value of each kind, and a node. -/
def sampleEntry : JournalEntry where
  seq := 256
  status := .pending
  batch := some
    { added := [
        { id := .property ⟨default, ⟨"p"⟩⟩
          status := .new
          modCount := 0x100000000
          data := .property
            { type := .undefined
              multiValued := true
              definition := some ⟨"d"⟩
              values := [.string "ä", .name ⟨"n"⟩, .reference default, .long (-129),
                .double ⟨0x7ff8000000000001⟩, .boolean true, .date 65536, .binary [0, 127, 128, 255]] } }]
      modified := [
        { id := .node default
          status := .existingModified
          modCount := 128
          data := .node
            { parent := some default
              type := Name.root
              mixins := NameSet.ofList [⟨"b"⟩, ⟨"a"⟩]
              definition := none
              children := [⟨⟨"c"⟩, default, 4294967295⟩]
              properties := NameSet.ofList [⟨"p"⟩] } }]
      deleted := [.node default]
      references := [⟨default, [⟨default, ⟨"p"⟩⟩]⟩] }
  timestamp := 1700000000

/-- An entry with a batch of every kind is read back in front of another octet. -/
theorem sampleEntry_read_back :
    sampleEntry.Fits ∧ Short sampleEntry ∧ ofBytes? (toBytes sampleEntry ++ [0xc1]) = some sampleEntry := by
  have hfits : sampleEntry.Fits := by
    refine ⟨by decide, by decide, fun set hset s hs => ?_⟩
    cases hset
    rcases List.mem_cons.1 hs with rfl | hs
    · exact ⟨by decide, trivial⟩
    · rw [List.mem_singleton.1 hs]
      refine ⟨by decide, fun e he => ?_⟩
      rw [List.mem_singleton.1 he]
      decide
  have hshort : Short sampleEntry := MessagePack.lengthsFit_of_length _ (by decide +kernel)
  exact ⟨hfits, hshort, selfDelimiting_changes.2.2.2.back sampleEntry ⟨hfits, hshort⟩ [0xc1]⟩

end Portable

end ContentTree
