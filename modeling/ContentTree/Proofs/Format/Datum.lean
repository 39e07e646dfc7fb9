import Mathlib.Data.List.Nodup
import ContentTree.Format.MessagePack

/-!
# What is found in a tree

Texts, names and numbers are found in the trees they are written as, whatever the dialect.
-/

namespace ContentTree

/-- The octets of an array are those of its data. -/
theorem toList_eq_data (bytes : ByteArray) : bytes.toList = bytes.data.toList := by
  have hloop : ∀ n i r, bytes.size - i = n →
      ByteArray.toList.loop bytes i r = r.reverse ++ bytes.data.toList.drop i := by
    intro n
    induction n with
    | zero =>
      intro i r hi
      rw [ByteArray.toList.loop, if_neg (by omega), List.drop_eq_nil_of_le, List.append_nil]
      exact Nat.le_of_sub_eq_zero hi
    | succ n ih =>
      intro i r hi
      have hlt : i < bytes.data.toList.length := Nat.lt_of_sub_pos (hi ▸ Nat.succ_pos n)
      rw [ByteArray.toList.loop, if_pos (show i < bytes.size by omega), ih (i + 1) _ (by omega),
        List.drop_eq_getElem_cons hlt, List.reverse_cons, List.append_assoc, List.cons_append,
        List.nil_append]
      exact congrArg (fun b => r.reverse ++ b :: _) (getElem!_pos bytes.data i hlt)
  exact hloop _ 0 [] rfl

/-- The octets of a text tell the text. -/
theorem toUTF8_toList_inj {s t : String} : s.toUTF8.toList = t.toUTF8.toList ↔ s = t := by
  rw [toList_eq_data, toList_eq_data, Array.toList_inj, ← String.toByteArray_inj,
    String.toUTF8_eq_toByteArray, String.toUTF8_eq_toByteArray, ByteArray.ext_iff]

namespace Datum

/-- A text that was written in octets is read back. -/
theorem decodeText_toUTF8 (s : String) : decodeText s.toUTF8.toList = some s := by
  have hbytes : (⟨s.toUTF8.toList.toArray⟩ : ByteArray) = s.toUTF8 := by
    rw [toList_eq_data]
  rw [decodeText, hbytes, String.fromUTF8?, String.toUTF8_eq_toByteArray, dif_pos s.isValidUTF8]
  rfl

/-- A declared name is found under its number. -/
theorem nameIndex?_of_getElem? {names : List String} {i : Nat} {n : String} (hnodup : names.Nodup)
    (h : names[i]? = some n) : nameIndex? names n.toUTF8.toList = some i := by
  obtain ⟨hi, rfl⟩ := List.getElem?_eq_some_iff.1 h
  rw [nameIndex?, List.findIdx?_eq_some_iff_getElem]
  refine ⟨hi, by simp, fun j hj => ?_⟩
  have hne : names[j] ≠ names[i] := fun heq =>
    absurd ((List.Nodup.getElem_inj_iff hnodup).1 heq) (Nat.ne_of_lt hj)
  rw [decide_eq_true_iff, toUTF8_toList_inj]
  exact hne

end Datum

namespace MessagePack

open Datum

variable {dialect : Dialect}

/-- A text is found in its datum. -/
theorem text?_text (s : String) : (text s).text? = some s :=
  decodeText_toUTF8 s

/-- An integer is found in its datum. -/
theorem integer?_integer (n : Int) : (integer n).integer? = some n := by
  unfold integer
  split
  · next h => exact congrArg some (Int.toNat_of_nonneg h)
  · rfl

/-- A natural number below a bound is found in its datum. -/
theorem natural?_integer {bound n : Nat} (h : n ≤ bound) :
    (integer n).natural? bound = some n := by
  rw [natural?, integer?_integer, Option.bind_eq_bind, Option.bind_some, if_pos (by omega)]
  rfl

/-- A number of 64 bits with a sign is found in its datum. -/
theorem int64?_integer (n : Int64) : (integer n.toInt).int64? = some n := by
  have hlow : -0x8000000000000000 ≤ n.toInt := n.minValue_le_toInt
  have hhigh : n.toInt < 0x8000000000000000 := n.toInt_lt
  rw [int64?, integer?_integer, Option.bind_eq_bind, Option.bind_some, if_pos ⟨hlow, hhigh⟩,
    Int64.ofInt_toInt]

/-! ## Records and alternatives -/

/-- The trees of documents, one by one. -/
theorem trees_eq_map (ds : List Document) : trees ds = ds.map tree := by
  induction ds with
  | nil => rfl
  | cons d rest ih => rw [trees, ih, List.map_cons]

/-- The trees of fields, one by one. -/
theorem fieldTrees_eq_map (fields : List (String × Document)) :
    fieldTrees fields = fields.map fun f => tree f.2 := by
  induction fields with
  | nil => rfl
  | cons f rest ih =>
    obtain ⟨name, d⟩ := f
    rw [fieldTrees, ih, List.map_cons]

/-- The fields of a record that is written with all of them. -/
theorem record?_record {names : List String} {fields : List (String × Document)}
    (h : fields.length = names.length) :
    (tree (.record fields)).record? dialect names =
      some ⟨dialect.deeper, fields.map fun f => some (tree f.2), true⟩ := by
  rw [tree, fieldTrees_eq_map, record?, recordWith?, List.length_map, h, if_pos (Nat.le_refl _),
    Nat.sub_self, List.replicate_zero, List.append_nil, List.map_map]
  rfl

/-- An alternative with content is found under its number. -/
theorem variant?_variant {names : List String} {i : Nat} {name : String} (hnodup : names.Nodup)
    (h : names[i]? = some name) (content : Document) :
    (tree (.variant name content)).variant? dialect names = some (i, some (tree content)) := by
  have hindex := nameIndex?_of_getElem? hnodup h
  simp only [tree, text, variant?, naming, hindex]

/-- An alternative without content is found under its number. -/
theorem tag?_tag {names : List String} {i : Nat} {name : String} (hnodup : names.Nodup)
    (h : names[i]? = some name) : (tree (.tag name)).tag? dialect names = some i := by
  have hindex := nameIndex?_of_getElem? hnodup h
  simp only [tree, text, tag?, variant?, naming, hindex]

end MessagePack

end ContentTree
