/-
# Boundaries and slices

The offsets behind leading characters of a text are boundaries (`isBoundary_of_split`), and the
range between two of them holds the characters between them (`slice?_of_split`).
-/
import ScriptLexer.Reader.Offset
import ScriptLexer.Proofs.Position

namespace ScriptLexer

@[simp] lemma charIndices_cons (offset : Nat) (c : Char) (cs : List Char) :
    charIndices offset (c :: cs) = (offset, c) :: charIndices (offset + c.utf8Size) cs := rfl

lemma map_snd_charIndices (offset : Nat) (cs : List Char) :
    (charIndices offset cs).map Prod.snd = cs := by
  induction cs generalizing offset with
  | nil => rfl
  | cons c cs ih => rw [charIndices_cons, List.map_cons, ih]

/-- Without the first characters, the others stand where they stood. -/
lemma drop_charIndices (offset : Nat) (xs ys : List Char) :
    (charIndices offset (xs ++ ys)).drop xs.length = charIndices (offset + byteSize xs) ys := by
  induction xs generalizing offset with
  | nil => rfl
  | cons x xs ih =>
    rw [List.cons_append, charIndices_cons, List.length_cons, List.drop_succ_cons, ih,
      byteSize_cons, Nat.add_assoc]

lemma length_le_byteSize (cs : List Char) : cs.length ≤ byteSize cs := by
  induction cs with
  | nil => exact Nat.zero_le _
  | cons c cs ih =>
    have hc := c.utf8Size_pos
    rw [List.length_cons, byteSize_cons]
    omega

lemma size_toByteArray_ofList (cs : List Char) :
    (String.ofList cs).toByteArray.size = byteSize cs := String.size_toByteArray

section Split

variable {source : String} {xs ys zs : List Char}

/-- Behind leading characters of a text a character begins, or the text ends. -/
lemma isBoundary_of_split (h : source.toList = xs ++ ys) : IsBoundary source (byteSize xs) := by
  refine String.Pos.Raw.isValid_iff_exists_append.2
    ⟨String.ofList xs, String.ofList ys, ?_, String.Pos.Raw.ext rfl⟩
  rw [← String.ofList_append, ← h, String.ofList_toList]

lemma byteSize_le_of_split (h : source.toList = xs ++ ys) :
    byteSize xs ≤ source.utf8ByteSize := by
  rw [← byteSize_toList, h, byteSize_append]
  exact Nat.le_add_right _ _

lemma isSliceOf_of_split (h : source.toList = xs ++ ys ++ zs) :
    Span.IsSliceOf ⟨byteSize xs, byteSize (xs ++ ys)⟩ source where
  start_le := by
    rw [byteSize_append]
    exact Nat.le_add_right _ _
  stop_le := byteSize_le_of_split h
  start_boundary := isBoundary_of_split (h.trans (List.append_assoc ..))
  stop_boundary := isBoundary_of_split h

/-- The range between leading characters and more of them holds those in between. -/
lemma slice?_of_split (h : source.toList = xs ++ ys ++ zs) :
    slice? source ⟨byteSize xs, byteSize (xs ++ ys)⟩ = some (String.ofList ys) := by
  have hsource : source = String.ofList xs ++ (String.ofList ys ++ String.ofList zs) := by
    rw [← String.ofList_append, ← String.ofList_append, ← List.append_assoc, ← h,
      String.ofList_toList]
  have hbytes := congrArg String.toByteArray hsource
  rw [String.toByteArray_append, String.toByteArray_append] at hbytes
  rw [slice?, dif_pos (isSliceOf_of_split h), Option.some.injEq, ← String.toByteArray_inj,
    String.toByteArray_extract]
  calc source.toByteArray.extract (byteSize xs) (byteSize (xs ++ ys))
      = source.toByteArray.extract (byteSize xs + 0) (byteSize xs + byteSize ys) := by
        rw [byteSize_append, Nat.add_zero]
    _ = ((String.ofList ys).toByteArray ++ (String.ofList zs).toByteArray).extract 0
          (byteSize ys) := by
        rw [hbytes, ByteArray.extract_append_size_add' (size_toByteArray_ofList xs).symm]
    _ = (String.ofList ys).toByteArray :=
        ByteArray.extract_append_eq_left (size_toByteArray_ofList ys).symm

end Split

end ScriptLexer
