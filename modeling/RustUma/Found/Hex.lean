import Mathlib.Data.List.Basic
import RustUma.Found.Records

/-!
# Hexadecimal text and slices of bytes
-/

namespace RustUma.Found

/-! ## Digits -/

def hexDigit? (c : Char) : Option ℕ :=
  if '0' ≤ c ∧ c ≤ '9' then some (c.toNat - 48)
  else if 'a' ≤ c ∧ c ≤ 'f' then some (c.toNat - 87)
  else if 'A' ≤ c ∧ c ≤ 'F' then some (c.toNat - 55)
  else none

lemma hexDigit?_digitChar {n : ℕ} (h : n < 16) : hexDigit? n.digitChar = some n := by
  have hall : ∀ n ∈ List.range 16, hexDigit? n.digitChar = some n := by decide
  simp_all

def ofHexDigits (text : List Char) : Option ℕ :=
  text.foldlM (fun n c => (hexDigit? c).map (16 * n + ·)) 0

lemma ofHexDigits_concat (text : List Char) (c : Char) :
    ofHexDigits (text ++ [c]) =
      (ofHexDigits text).bind fun n => (hexDigit? c).map (16 * n + ·) := by
  unfold ofHexDigits
  simp

lemma ofHexDigits_toDigits (n : ℕ) : ofHexDigits (Nat.toDigits 16 n) = some n := by
  induction n using Nat.strong_induction_on with
  | _ n ih =>
    rw [Nat.toDigits_eq_if (by decide)]
    split_ifs with hsmall
    · rw [show [n.digitChar] = [] ++ [n.digitChar] from rfl, ofHexDigits_concat,
        hexDigit?_digitChar hsmall]
      simp [ofHexDigits]
    · rw [ofHexDigits_concat, ih (n / 16) (by omega),
        hexDigit?_digitChar (Nat.mod_lt n (by decide))]
      grind

/-! ## Bytes -/

def hexEncode (bytes : List UInt8) : List Char :=
  bytes.flatMap fun b => [(b.toNat / 16).digitChar, (b.toNat % 16).digitChar]

def hexDecode : List Char → Option (List UInt8)
  | [] => some []
  | [_] => none
  | high :: low :: rest => do
      let h ← hexDigit? high
      let l ← hexDigit? low
      let bytes ← hexDecode rest
      return UInt8.ofNat (16 * h + l) :: bytes

lemma hexDecode_encode (bytes : List UInt8) : hexDecode (hexEncode bytes) = some bytes := by
  induction bytes with
  | nil => rfl
  | cons b bytes ih =>
    have hb : b.toNat < 256 := b.toNat_lt
    show hexDecode (_ :: _ :: hexEncode bytes) = _
    rw [hexDecode, hexDigit?_digitChar (by omega), hexDigit?_digitChar (by omega), ih]
    simp only [Option.bind_eq_bind, Option.bind_some, Option.pure_def, Option.some.injEq,
      List.cons.injEq, and_true]
    rw [Nat.div_add_mod, UInt8.ofNat_toNat]

lemma length_of_hexDecode {text : List Char} {bytes : List UInt8}
    (h : hexDecode text = some bytes) : text.length = 2 * bytes.length := by
  induction text using hexDecode.induct generalizing bytes with
  | case1 =>
    cases h
    rfl
  | case2 c => cases h
  | case3 high low rest ih =>
    obtain ⟨x, -, h⟩ := Option.bind_eq_some_iff.mp h
    obtain ⟨y, -, h⟩ := Option.bind_eq_some_iff.mp h
    obtain ⟨tail, htail, h⟩ := Option.bind_eq_some_iff.mp h
    grind

/-! ## Slices -/

def slice (bytes : List UInt8) (start stop : ℕ) : Option (List UInt8) :=
  if start ≤ stop ∧ stop ≤ bytes.length then some ((bytes.drop start).take (stop - start)) else none

lemma slice_eq_some_iff {bytes value : List UInt8} {start stop : ℕ} :
    slice bytes start stop = some value ↔
      start ≤ stop ∧ stop ≤ bytes.length ∧ value = (bytes.drop start).take (stop - start) := by
  unfold slice
  grind

lemma length_slice {bytes value : List UInt8} {start stop : ℕ}
    (h : slice bytes start stop = some value) : value.length = stop - start := by
  obtain ⟨hle, hstop, rfl⟩ := slice_eq_some_iff.mp h
  grind

lemma slice_append {before middle after : List UInt8} {start stop : ℕ}
    (hstart : before.length = start) (hstop : start + middle.length = stop) :
    slice (before ++ (middle ++ after)) start stop = some middle := by
  subst hstart hstop
  unfold slice
  simp

end RustUma.Found
