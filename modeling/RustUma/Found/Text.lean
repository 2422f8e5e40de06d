import Mathlib.Data.List.Basic
import Mathlib.Data.List.Range
import Mathlib.Tactic.Ring

/-!
# Text as characters and as bytes

A text is a list of characters; its UTF-8 form is what a program indexes. An index into the bytes
may fall inside a character.
-/

namespace RustUma.Found

/-! ## UTF-8 -/

def utf8 (text : List Char) : List UInt8 := text.flatMap String.utf8EncodeChar

def fromUtf8 (bytes : List UInt8) : Option (List Char) :=
  (ByteArray.mk bytes.toArray).utf8Decode?.map Array.toList

@[simp] lemma utf8_cons (c : Char) (text : List Char) :
    utf8 (c :: text) = String.utf8EncodeChar c ++ utf8 text := rfl

lemma mk_toArray_utf8 (text : List Char) : ByteArray.mk (utf8 text).toArray = text.utf8Encode := by
  apply ByteArray.ext
  rw [List.utf8Encode, List.data_toByteArray]
  rfl

lemma fromUtf8_utf8 (text : List Char) : fromUtf8 (utf8 text) = some text := by
  unfold fromUtf8
  rw [mk_toArray_utf8, List.utf8Decode?_utf8Encode, Option.map_some]

lemma utf8_of_fromUtf8 {bytes : List UInt8} {text : List Char} (h : fromUtf8 bytes = some text) :
    utf8 text = bytes := by
  obtain ⟨chars, hchars, rfl⟩ := Option.map_eq_some_iff.mp h
  have hvalid : (ByteArray.mk bytes.toArray).IsValidUTF8 := by
    rw [← ByteArray.isSome_utf8Decode?_iff, hchars]
    rfl
  obtain ⟨m, hm⟩ := hvalid
  rw [hm, List.utf8Decode?_utf8Encode, Option.some_inj] at hchars
  rw [← hchars]
  have hdata := congrArg ByteArray.data hm
  rw [List.utf8Encode, List.data_toByteArray] at hdata
  exact (List.toArray_inj hdata).symm

lemma utf8_append (a b : List Char) : utf8 (a ++ b) = utf8 a ++ utf8 b := List.flatMap_append

lemma length_le_utf8 (text : List Char) : text.length ≤ (utf8 text).length := by
  induction text with
  | nil => exact le_rfl
  | cons c text ih =>
    have hchar : 0 < (String.utf8EncodeChar c).length := by
      rw [String.length_utf8EncodeChar]
      exact c.utf8Size_pos
    rw [utf8_cons, List.length_append, List.length_cons]
    omega

lemma exists_rest_of_utf8 {a text : List Char} {b : List UInt8} (h : utf8 text = utf8 a ++ b) :
    ∃ rest, text = a ++ rest ∧ b = utf8 rest := by
  have hbytes : a.utf8Encode ++ ByteArray.mk b.toArray = text.utf8Encode := by
    rw [← mk_toArray_utf8, ← mk_toArray_utf8, h]
    apply ByteArray.ext
    simp
  obtain ⟨rest, rfl⟩ := List.isPrefix_of_utf8Encode_append_eq_utf8Encode _ hbytes
  rw [utf8_append] at h
  exact ⟨rest, rfl, (List.append_cancel_left h).symm⟩

lemma isSome_fromUtf8 (bytes : List UInt8) :
    (fromUtf8 bytes).isSome = (ByteArray.mk bytes.toArray).validateUTF8 := by
  unfold fromUtf8
  rw [Option.isSome_map, ByteArray.isSome_utf8Decode?_eq_validateUTF8]

lemma utf8EncodeChar_cases (c : Char) :
    (c.toNat < 128 ∧ String.utf8EncodeChar c = [UInt8.ofNat c.toNat]) ∨
      (128 ≤ c.toNat ∧ ∀ b ∈ String.utf8EncodeChar c, 128 ≤ b.toNat) := by
  rcases Nat.lt_or_ge c.toNat 128 with hascii | hwide
  · refine Or.inl ⟨hascii, ?_⟩
    exact if_pos (Nat.le_of_lt_succ hascii)
  · refine Or.inr ⟨hwide, ?_⟩
    have hv : ¬ c.val.toNat ≤ 127 := Nat.not_le.mpr hwide
    unfold String.utf8EncodeChar
    simp only [hv, if_false]
    intro b hb
    split_ifs at hb <;>
      simp only [List.mem_cons, List.not_mem_nil, or_false] at hb <;>
      rcases hb with rfl | rfl | rfl | rfl <;>
      simp only [UInt8.toNat_ofNat'] <;> omega

/-! ## Byte indices -/

def dropBytes : List Char → ℕ → Option (List Char)
  | text, 0 => some text
  | [], _ + 1 => none
  | c :: text, n + 1 => if c.utf8Size ≤ n + 1 then dropBytes text (n + 1 - c.utf8Size) else none

@[simp] lemma dropBytes_zero (text : List Char) : dropBytes text 0 = some text := by
  unfold dropBytes
  rfl

lemma dropBytes_succ {text : List Char} {i : ℕ} {b : UInt8} (h : (utf8 text)[i]? = some b)
    (hb : b.toNat < 128) :
    ∃ rest, dropBytes text (i + 1) = some rest ∧ utf8 rest = (utf8 text).drop (i + 1) := by
  induction text generalizing i with
  | nil => cases h
  | cons c text ih =>
    rw [utf8_cons] at h
    have hlength := String.length_utf8EncodeChar c
    rcases Nat.lt_or_ge i c.utf8Size with hi | hi
    · -- the byte is one of this character, which then has no other
      rw [List.getElem?_append_left (by omega)] at h
      rcases utf8EncodeChar_cases c with ⟨-, hone⟩ | ⟨-, hwide⟩
      · rw [hone, List.length_singleton] at hlength
        obtain rfl : i = 0 := by omega
        refine ⟨text, ?_, ?_⟩
        · rw [dropBytes, if_pos (by omega), ← hlength, dropBytes_zero]
        · rw [utf8_cons, hone]
          rfl
      grind
    · rw [List.getElem?_append_right (by omega)] at h
      obtain ⟨rest, hrest, hbytes⟩ := ih h
      refine ⟨rest, ?_, ?_⟩
      · rw [dropBytes, if_pos (by omega), ← hrest]
        congr 1
        omega
      · have hskip : (String.utf8EncodeChar c).drop (i + 1) = [] :=
          List.drop_of_length_le (by omega)
        rw [hbytes, utf8_cons, List.drop_append, hskip]
        congr 1
        omega

lemma dropBytes_of_ascii {text : List Char} {word : List UInt8} {i : ℕ}
    (h : word <+: (utf8 text).drop i) (hne : word ≠ []) (hascii : ∀ b ∈ word, b.toNat < 128) :
    ∃ rest, dropBytes text (i + word.length) = some rest ∧
      utf8 rest = (utf8 text).drop (i + word.length) := by
  obtain ⟨after, hafter⟩ := h
  have hpos : 0 < word.length := List.length_pos_iff.mpr hne
  have hlast : (utf8 text)[i + (word.length - 1)]? = some (word.getLast hne) := by
    rw [← List.getElem?_drop, ← hafter, List.getElem?_append_left (by omega),
      ← List.getLast?_eq_getElem?, List.getLast?_eq_getLast_of_ne_nil]
  have hdrop := dropBytes_succ hlast (hascii _ (List.getLast_mem hne))
  grind

lemma utf8_takeWhile {p : Char → Bool} {q : UInt8 → Bool}
    (hascii : ∀ c, p c = true → c.toNat < 128) (hlow : ∀ b, q b = true → b.toNat < 128)
    (hpq : ∀ c, c.toNat < 128 → p c = q (UInt8.ofNat c.toNat)) (text : List Char) :
    utf8 (text.takeWhile p) = (utf8 text).takeWhile q := by
  induction text with
  | nil => rfl
  | cons c text ih =>
    rcases utf8EncodeChar_cases c with ⟨hc, hone⟩ | ⟨hc, hwide⟩
    · rw [utf8_cons, hone, List.singleton_append, List.takeWhile_cons, List.takeWhile_cons,
        ← hpq c hc]
      split_ifs
      · simp_all
      · rfl
    · have hp : p c = false := by
        grind
      rw [List.takeWhile_cons, hp, utf8_cons]
      cases henc : String.utf8EncodeChar c with
      | nil => simp_all
      | cons b rest =>
        have hb : 128 ≤ b.toNat := hwide b (by simp_all)
        have hq : q b = false := by
          grind
        rw [List.cons_append, List.takeWhile_cons, hq]
        rfl

/-! ## Occurrences -/

section Occurrences

variable {α : Type*} [DecidableEq α]

def matchesFrom (needle : List α) : ℕ → ℕ → List α → List ℕ
  | _, _, [] => []
  | 0, i, b :: rest =>
    if needle.isPrefixOf (b :: rest) then i :: matchesFrom needle (needle.length - 1) (i + 1) rest
    else matchesFrom needle 0 (i + 1) rest
  | skip + 1, i, _ :: rest => matchesFrom needle skip (i + 1) rest

def matchIndices (needle text : List α) : List ℕ := matchesFrom needle 0 0 text

def occursAt (needle text : List α) (i : ℕ) : Bool := needle.isPrefixOf (text.drop i)

lemma occursAt_iff {needle text : List α} {i : ℕ} :
    occursAt needle text i = true ↔ needle <+: text.drop i := List.isPrefixOf_iff_prefix

lemma not_occursAt_of_overlap {first : α} {tail text : List α} {i j : ℕ} (hfirst : first ∉ tail)
    (hi : occursAt (first :: tail) text i = true) (hij : i < j) (hj : j < i + (tail.length + 1)) :
    occursAt (first :: tail) text j = false := by
  cases hcase : occursAt (first :: tail) text j with
  | false => rfl
  | true =>
    exfalso
    obtain ⟨after, hafter⟩ := occursAt_iff.mp hi
    obtain ⟨after', hafter'⟩ := occursAt_iff.mp hcase
    have hletter : text[j]? = some first := by
      have hzero := congrArg (·[0]?) hafter'
      simpa using hzero.symm
    have htail : text[j]? = tail[j - i - 1]? := by
      have hshift := congrArg (·[j - i]?) hafter
      grind
    grind

lemma matchIndices_eq_filter {first : α} {tail : List α} (hfirst : first ∉ tail) (text : List α) :
    matchIndices (first :: tail) text =
      (List.range text.length).filter (occursAt (first :: tail) text) := by
  have hfrom : ∀ rest i skip, text.drop i = rest →
      (∀ j, i ≤ j → j < i + skip → occursAt (first :: tail) text j = false) →
      matchesFrom (first :: tail) skip i rest =
        (List.range' i rest.length).filter (occursAt (first :: tail) text) := by
    intro rest
    induction rest with
    | nil =>
      intro i skip _ _
      cases skip <;> rfl
    | cons b rest ih =>
      intro i skip hrest hskip
      have hnext : text.drop (i + 1) = rest := by
        rw [← List.drop_drop, hrest]
        rfl
      rw [List.length_cons, List.range'_succ, List.filter_cons]
      cases skip with
      | zero =>
        have hoccurs : occursAt (first :: tail) text i =
            (first :: tail).isPrefixOf (b :: rest) := by
          unfold occursAt
          rw [hrest]
        rw [matchesFrom, ← hoccurs]
        split_ifs with hfound
        · congr 1
          refine ih (i + 1) tail.length hnext fun j hij hj => ?_
          exact not_occursAt_of_overlap hfirst hfound (by omega) (by omega)
        simp_all
      | succ skip =>
        rw [hskip i le_rfl (by omega)]
        exact ih (i + 1) skip hnext fun j hij hj => hskip j (by omega) (by omega)
  have hall := hfrom text 0 0 rfl fun j _ hj => absurd hj (by omega)
  rwa [← List.range_eq_range'] at hall

end Occurrences

/-! ## Decimal numbers of a fixed width -/

def zeroPadded (width n : ℕ) : List Char :=
  List.replicate (width - (Nat.toDigits 10 n).length) '0' ++ Nat.toDigits 10 n

section Padded

variable {width n n' : ℕ}

lemma length_zeroPadded (hpos : 0 < width) (h : n < 10 ^ width) : (zeroPadded width n).length = width := by
  have hle := (Nat.length_toDigits_le_iff (by decide) hpos).mpr h
  rw [zeroPadded, List.length_append, List.length_replicate, Nat.sub_add_cancel hle]

lemma ofDigitChars_zeroPadded : Nat.ofDigitChars 10 (zeroPadded width n) 0 = n := by
  rw [zeroPadded, Nat.ofDigitChars_append, Nat.ofDigitChars_replicate_zero, Nat.mul_zero,
    Nat.ofDigitChars_ten_toDigits]

lemma isDigit_of_mem_zeroPadded {c : Char} (h : c ∈ zeroPadded width n) : c.isDigit = true := by
  rcases List.mem_append.mp h with hzero | hdigit
  · simp_all
  · exact Nat.isDigit_of_mem_toDigits (by decide) (by decide) hdigit

lemma digit_bounds {c : Char} (h : c.isDigit = true) : 48 ≤ c.toNat ∧ c.toNat ≤ 57 := by
  rwa [Char.isDigit, Bool.and_eq_true, decide_eq_true_eq, decide_eq_true_eq] at h

lemma ofDigitChars_cons_zero (c : Char) (text : List Char) : Nat.ofDigitChars 10 (c :: text) 0 =
    10 ^ text.length * (c.toNat - '0'.toNat) + Nat.ofDigitChars 10 text 0 := by
  rw [Nat.ofDigitChars_cons, Nat.ofDigitChars_eq_ofDigitChars_zero, Nat.mul_zero, Nat.zero_add]

lemma ofDigitChars_lt {text : List Char} (h : ∀ c ∈ text, c.isDigit = true) :
    Nat.ofDigitChars 10 text 0 < 10 ^ text.length := by
  induction text with
  | nil => decide
  | cons c text ih =>
    have hc := (digit_bounds (h c List.mem_cons_self)).2
    have hzero : '0'.toNat = 48 := rfl
    have hrest := ih fun c hc => h c (List.mem_cons_of_mem _ hc)
    have hle : 10 ^ text.length * (c.toNat - '0'.toNat) ≤ 10 ^ text.length * 9 :=
      Nat.mul_le_mul_left _ (by omega)
    rw [ofDigitChars_cons_zero, List.length_cons, Nat.pow_succ]
    omega

lemma mul_add_lt_iff {P a a' v v' : ℕ} (hv : v < P) (hv' : v' < P) :
    P * a + v < P * a' + v' ↔ a < a' ∨ a = a' ∧ v < v' := by
  rcases Nat.lt_trichotomy a a' with h | rfl | h
  · have hle := Nat.mul_le_mul_left P (Nat.succ_le_of_lt h)
    grind
  · simp
  · have hle := Nat.mul_le_mul_left P (Nat.succ_le_of_lt h)
    grind

lemma lt_iff_ofDigitChars_lt {text text' : List Char} (hlen : text.length = text'.length)
    (h : ∀ c ∈ text, c.isDigit = true) (h' : ∀ c ∈ text', c.isDigit = true) :
    text < text' ↔ Nat.ofDigitChars 10 text 0 < Nat.ofDigitChars 10 text' 0 := by
  induction text generalizing text' with
  | nil =>
    grind
  | cons c text ih =>
    obtain _ | ⟨c', text'⟩ := text'
    · cases hlen
    rw [List.forall_mem_cons] at h h'
    have hlen' : text.length = text'.length := Nat.succ_inj.mp hlen
    have hc : c < c' ↔ c.toNat - '0'.toNat < c'.toNat - '0'.toNat :=
      (Nat.sub_lt_sub_iff_right (digit_bounds h.1).1).symm
    have heq : c = c' ↔ c.toNat - '0'.toNat = c'.toNat - '0'.toNat := by
      have hzero : '0'.toNat = 48 := rfl
      have hbounds := digit_bounds h.1
      have hbounds' := digit_bounds h'.1
      rw [← Char.toNat_inj]
      omega
    rw [List.cons_lt_cons_iff, ih hlen' h.2 h'.2, ofDigitChars_cons_zero, ofDigitChars_cons_zero,
      hlen', mul_add_lt_iff (hlen' ▸ ofDigitChars_lt h.2) (ofDigitChars_lt h'.2), hc, heq]

lemma append_lt_append_iff {text text' rest rest' : List Char}
    (hlen : text.length = text'.length) :
    text ++ rest < text' ++ rest' ↔ text < text' ∨ text = text' ∧ rest < rest' := by
  induction text generalizing text' with
  | nil =>
    grind
  | cons c text ih =>
    obtain _ | ⟨c', text'⟩ := text'
    · cases hlen
    rw [List.cons_append, List.cons_append, List.cons_lt_cons_iff, List.cons_lt_cons_iff,
      ih (Nat.succ_inj.mp hlen), List.cons_eq_cons, and_or_left, or_assoc, and_assoc]

lemma zeroPadded_append_lt (hpos : 0 < width) (h : n < 10 ^ width) (h' : n' < 10 ^ width)
    {rest rest' : List Char} : zeroPadded width n ++ rest < zeroPadded width n' ++ rest' ↔
      n < n' ∨ n = n' ∧ rest < rest' := by
  have hlen := (length_zeroPadded hpos h).trans (length_zeroPadded hpos h').symm
  have hinj : zeroPadded width n = zeroPadded width n' ↔ n = n' := by
    refine ⟨fun h => ?_, fun h => h ▸ rfl⟩
    rw [← ofDigitChars_zeroPadded (n := n), h, ofDigitChars_zeroPadded]
  rw [append_lt_append_iff hlen, hinj, lt_iff_ofDigitChars_lt hlen
    (fun _ => isDigit_of_mem_zeroPadded) fun _ => isDigit_of_mem_zeroPadded,
    ofDigitChars_zeroPadded, ofDigitChars_zeroPadded]

end Padded
end RustUma.Found
