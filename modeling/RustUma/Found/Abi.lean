import RustUma.Found.Records

/-!
# Words, byte strings and arrays of the contract ABI

A buffer is read at positions that are natural numbers: nothing wraps around, and a reading lies
inside the buffer.
-/

namespace RustUma.Found

def wordAt (buffer : List UInt8) (position : ℕ) : List UInt8 := (buffer.drop position).take 32

def natAt (buffer : List UInt8) (position : ℕ) : ℕ := fromBeBytes (wordAt buffer position)

structure BytesAt (buffer : List UInt8) (position : ℕ) (value : List UInt8) : Prop where
  inside : position + 32 + natAt buffer position ≤ buffer.length
  eq : value = (buffer.drop (position + 32)).take (natAt buffer position)

structure ItemAt (buffer : List UInt8) (position i : ℕ) (value : List UInt8) : Prop where
  lt : i < natAt buffer position
  inside : position + 32 + 32 * i + 32 ≤ buffer.length
  item : BytesAt buffer (position + 32 + natAt buffer (position + 32 + 32 * i)) value

def padded (bytes : List UInt8) : List UInt8 :=
  bytes ++ List.replicate ((32 - bytes.length % 32) % 32) 0

def encodeBytes (bytes : List UInt8) : List UInt8 := toBeBytes 32 bytes.length ++ padded bytes

def itemOffset (items : List (List UInt8)) (i : ℕ) : ℕ :=
  32 * items.length + ((items.take i).flatMap encodeBytes).length

def encodeArray (items : List (List UInt8)) : List UInt8 :=
  toBeBytes 32 items.length ++
    ((List.range items.length).flatMap (fun i => toBeBytes 32 (itemOffset items i)) ++
      items.flatMap encodeBytes)

/-! ## Reading back -/

variable {before after : List UInt8} {position : ℕ}

lemma wordAt_append (hbefore : before.length = position) {word : List UInt8}
    (hword : word.length = 32) : wordAt (before ++ (word ++ after)) position = word := by
  unfold wordAt
  simp_all

lemma natAt_append (hbefore : before.length = position) {n : ℕ} (hn : n < 2 ^ 256) :
    natAt (before ++ (toBeBytes 32 n ++ after)) position = n := by
  unfold natAt
  rw [wordAt_append hbefore (length_toBeBytes 32 n), fromBeBytes_toBeBytes 32 n (by simpa using hn)]

lemma bytesAt_encodeBytes (hbefore : before.length = position) {bytes : List UInt8}
    (hbytes : bytes.length < 2 ^ 256) :
    BytesAt (before ++ (encodeBytes bytes ++ after)) position bytes := by
  have hlength : natAt (before ++ (encodeBytes bytes ++ after)) position = bytes.length := by
    unfold encodeBytes
    rw [List.append_assoc]
    exact natAt_append hbefore hbytes
  have hstart : (before ++ toBeBytes 32 bytes.length).length = position + 32 := by
    simp_all
  refine ⟨?_, ?_⟩
  · rw [hlength]
    simp only [encodeBytes, padded, List.length_append, length_toBeBytes, hbefore]
    omega
  · rw [hlength, encodeBytes, padded, List.append_assoc, ← List.append_assoc before,
      List.drop_left' hstart, List.append_assoc, List.take_left]

lemma flatMap_split {α : Type} (f : α → List UInt8) (l : List α) {i : ℕ} (hi : i < l.length) :
    l.flatMap f = (l.take i).flatMap f ++ (f l[i] ++ (l.drop (i + 1)).flatMap f) := by
  rw [← List.flatMap_cons, ← List.drop_eq_getElem_cons hi, ← List.flatMap_append,
    List.take_append_drop]

lemma length_flatMap_words {α : Type} {f : α → List UInt8} (hf : ∀ a, (f a).length = 32)
    (l : List α) : (l.flatMap f).length = 32 * l.length := by
  induction l with
  | nil => rfl
  | cons a l ih =>
    grind

section Array

variable {items : List (List UInt8)} {i : ℕ}

lemma encodeArray_offset (hi : i < items.length) :
    ∃ front back, front.length = 32 + 32 * i ∧
      encodeArray items = front ++ (toBeBytes 32 (itemOffset items i) ++ back) := by
  have hrange : i < (List.range items.length).length := by rwa [List.length_range]
  refine ⟨toBeBytes 32 items.length ++ ((List.range items.length).take i).flatMap
      (fun j => toBeBytes 32 (itemOffset items j)),
    ((List.range items.length).drop (i + 1)).flatMap
      (fun j => toBeBytes 32 (itemOffset items j)) ++ items.flatMap encodeBytes, ?_, ?_⟩
  · rw [List.length_append, length_toBeBytes, length_flatMap_words fun _ => length_toBeBytes 32 _,
      List.length_take_of_le hrange.le]
  · unfold encodeArray
    rw [flatMap_split _ _ hrange, List.getElem_range]
    simp

lemma encodeArray_item (hi : i < items.length) :
    ∃ front back, front.length = 32 + itemOffset items i ∧
      encodeArray items = front ++ (encodeBytes items[i] ++ back) := by
  refine ⟨toBeBytes 32 items.length ++ ((List.range items.length).flatMap
      (fun j => toBeBytes 32 (itemOffset items j)) ++ (items.take i).flatMap encodeBytes),
    (items.drop (i + 1)).flatMap encodeBytes, ?_, ?_⟩
  · rw [List.length_append, List.length_append, length_toBeBytes,
      length_flatMap_words fun _ => length_toBeBytes 32 _, List.length_range]
    rfl
  · unfold encodeArray
    rw [flatMap_split encodeBytes items hi]
    simp

lemma natAt_encodeArray (hbefore : before.length = position) (hitems : items.length < 2 ^ 256) :
    natAt (before ++ (encodeArray items ++ after)) position = items.length := by
  unfold encodeArray
  rw [List.append_assoc]
  exact natAt_append hbefore hitems

lemma itemAt_encodeArray (hi : i < items.length) (hbefore : before.length = position)
    (hsize : (before ++ (encodeArray items ++ after)).length < 2 ^ 256) :
    ItemAt (before ++ (encodeArray items ++ after)) position i items[i] := by
  obtain ⟨front, back, hfront, hoffset⟩ := encodeArray_offset hi
  obtain ⟨front', back', hfront', hitem⟩ := encodeArray_item hi
  -- the buffer cut before the offset, and before the item
  have hcut : before ++ (encodeArray items ++ after) =
      (before ++ front) ++ (toBeBytes 32 (itemOffset items i) ++ (back ++ after)) := by
    simp_all
  have hcut' : before ++ (encodeArray items ++ after) =
      (before ++ front') ++ (encodeBytes items[i] ++ (back' ++ after)) := by
    grind
  have hlength := congrArg List.length hcut
  have hlength' := congrArg List.length hcut'
  simp only [List.length_append, hbefore, hfront, length_toBeBytes] at hlength
  simp only [List.length_append, hbefore, hfront', encodeBytes, padded, length_toBeBytes]
    at hlength'
  simp only [List.length_append, hbefore] at hsize
  have hitems : items.length < 2 ^ 256 := by
    unfold itemOffset at hlength'
    omega
  have hnumber : natAt (before ++ (encodeArray items ++ after)) position = items.length :=
    natAt_encodeArray hbefore hitems
  have hat : natAt (before ++ (encodeArray items ++ after)) (position + 32 + 32 * i) =
      itemOffset items i := by
    rw [hcut]
    refine natAt_append ?_ (by omega)
    rw [List.length_append]
    omega
  refine ⟨by rwa [hnumber], ?_, ?_⟩
  · simp only [List.length_append, hbefore, hfront, length_toBeBytes]
    omega
  · rw [hat, hcut']
    refine bytesAt_encodeBytes ?_ (by omega)
    rw [List.length_append]
    omega

end Array

end RustUma.Found
