import Mathlib.Data.List.Basic
import Mathlib.Data.List.Induction
import Mathlib.Tactic.Ring

/-!
# Big-endian words and streams of checksummed records

A record is a length word, a checksum word and the payload; a stream is a concatenation of
records that may end in the middle of one.
-/

namespace RustUma.Found

/-! ## Big-endian numbers -/

def toBeBytes : (width : ℕ) → ℕ → List UInt8
  | 0, _ => []
  | w + 1, n => toBeBytes w (n / 256) ++ [UInt8.ofNat n]

def fromBeBytes (l : List UInt8) : ℕ := l.foldl (fun acc b => acc * 256 + b.toNat) 0

@[simp] lemma length_toBeBytes (width n : ℕ) : (toBeBytes width n).length = width := by
  induction width generalizing n with
  | zero => rfl
  | succ w ih => simp [toBeBytes, ih]

lemma fromBeBytes_concat (bytes : List UInt8) (b : UInt8) :
    fromBeBytes (bytes ++ [b]) = fromBeBytes bytes * 256 + b.toNat :=
  List.foldl_concat ..

lemma fromBeBytes_toBeBytes (width n : ℕ) (h : n < 256 ^ width) :
    fromBeBytes (toBeBytes width n) = n := by
  induction width generalizing n with
  | zero =>
    simp only [pow_zero, Nat.lt_one_iff] at h
    simp [toBeBytes, fromBeBytes, h]
  | succ w ih =>
    have hdiv : n / 256 < 256 ^ w := by
      omega
    rw [toBeBytes, fromBeBytes_concat, ih _ hdiv, UInt8.toNat_ofNat']
    omega

lemma fromBeBytes_append (high low : List UInt8) :
    fromBeBytes (high ++ low) = fromBeBytes high * 256 ^ low.length + fromBeBytes low := by
  induction low using List.reverseRecOn with
  | nil => simp [fromBeBytes]
  | append_singleton low b ih =>
    rw [← List.append_assoc, fromBeBytes_concat, fromBeBytes_concat, ih, List.length_append,
      List.length_singleton]
    ring

lemma fromBeBytes_cons (b : UInt8) (bytes : List UInt8) :
    fromBeBytes (b :: bytes) = b.toNat * 256 ^ bytes.length + fromBeBytes bytes := by
  rw [← List.singleton_append, fromBeBytes_append]
  simp [fromBeBytes]

lemma fromBeBytes_lt (bytes : List UInt8) : fromBeBytes bytes < 256 ^ bytes.length := by
  induction bytes using List.reverseRecOn with
  | nil => simp [fromBeBytes]
  | append_singleton bytes b ih =>
    have hb := b.toNat_lt
    rw [fromBeBytes_concat, List.length_append, List.length_singleton, pow_succ]
    omega

lemma fromBeBytes_injective {a b : List UInt8} (hlen : a.length = b.length)
    (h : fromBeBytes a = fromBeBytes b) : a = b := by
  induction a using List.reverseRecOn generalizing b with
  | nil => grind
  | append_singleton a x ih =>
    rcases List.eq_nil_or_concat b with rfl | ⟨b, y, rfl⟩
    · simp at hlen
    · have hx := x.toNat_lt
      have hy := y.toNat_lt
      rw [List.concat_eq_append, fromBeBytes_concat, fromBeBytes_concat] at h
      rw [List.concat_eq_append, ih (by simpa using hlen) (by omega),
        UInt8.toNat_inj.mp (by omega : x.toNat = y.toNat)]

lemma fromBeBytes_eq_zero_iff (bytes : List UInt8) :
    fromBeBytes bytes = 0 ↔ ∀ b ∈ bytes, b = 0 := by
  induction bytes using List.reverseRecOn with
  | nil => simp [fromBeBytes]
  | append_singleton bytes b ih =>
    rw [fromBeBytes_concat, Nat.add_eq_zero_iff, Nat.mul_eq_zero, ih, List.forall_mem_append,
      List.forall_mem_singleton, ← UInt8.toNat_inj (a := b)]
    simp

/-! ## Records -/

def frame (crc : List UInt8 → ℕ) (p : List UInt8) : List UInt8 :=
  toBeBytes 4 p.length ++ toBeBytes 4 (crc p) ++ p

inductive Split where
  | record (payload rest : List UInt8)
  | oversized
  | incomplete
  | mismatch
  deriving DecidableEq

def splitRecord (maxLen : ℕ) (crc : List UInt8 → ℕ) (s : List UInt8) : Split :=
  if s.length < 4 then .incomplete
  else if maxLen < fromBeBytes (s.take 4) then .oversized
  else if s.length < 8 then .incomplete
  else if (s.drop 8).length < fromBeBytes (s.take 4) then .incomplete
  else if crc ((s.drop 8).take (fromBeBytes (s.take 4))) ≠ fromBeBytes ((s.drop 4).take 4) then
    .mismatch
  else .record ((s.drop 8).take (fromBeBytes (s.take 4))) ((s.drop 8).drop (fromBeBytes (s.take 4)))

def scanFuel (maxLen : ℕ) (crc : List UInt8 → ℕ) : ℕ → List UInt8 → List (List UInt8)
  | 0, _ => []
  | fuel + 1, s =>
    match splitRecord maxLen crc s with
    | .record p rest => p :: scanFuel maxLen crc fuel rest
    | _ => []

def scan (maxLen : ℕ) (crc : List UInt8 → ℕ) (s : List UInt8) : List (List UInt8) :=
  scanFuel maxLen crc s.length s

variable {maxLen : ℕ} {crc : List UInt8 → ℕ}

@[simp] lemma length_frame (p : List UInt8) : (frame crc p).length = 8 + p.length := by
  simp [frame]
  omega

structure Writable (maxLen : ℕ) (crc : List UInt8 → ℕ) (p : List UInt8) : Prop where
  short : p.length ≤ maxLen
  word : p.length < 256 ^ 4
  check : crc p < 256 ^ 4

lemma splitRecord_frame_append {p : List UInt8} (hp : Writable maxLen crc p) (rest : List UInt8) :
    splitRecord maxLen crc (frame crc p ++ rest) = .record p rest := by
  have hlen : (frame crc p ++ rest).length = 8 + p.length + rest.length := by simp
  have htake : (frame crc p ++ rest).take 4 = toBeBytes 4 p.length := by
    simp [frame]
  have hcrc : ((frame crc p ++ rest).drop 4).take 4 = toBeBytes 4 (crc p) := by
    simp [frame]
  have hdrop : (frame crc p ++ rest).drop 8 = p ++ rest := by
    rfl
  have hword := fromBeBytes_toBeBytes 4 p.length hp.word
  have hcheck := fromBeBytes_toBeBytes 4 (crc p) hp.check
  unfold splitRecord
  rw [htake, hcrc, hdrop, hword, hcheck, List.take_left, List.drop_left]
  rw [if_neg (by omega), if_neg (by have := hp.short; omega), if_neg (by omega),
    if_neg (by simp), if_neg (by simp)]

lemma splitRecord_torn {p : List UInt8} (hp : Writable maxLen crc p) {t : List UInt8}
    (ht : t <+: frame crc p) (hlt : t.length < (frame crc p).length) :
    splitRecord maxLen crc t = .incomplete := by
  obtain ⟨rest, hrest⟩ := ht
  unfold splitRecord
  split_ifs with h4 hmax h8 hpay hcrc
  · rfl
  · have htake : t.take 4 = toBeBytes 4 p.length := by
      have hcut : (frame crc p).take 4 = toBeBytes 4 p.length := by simp [frame]
      grind
    rw [htake, fromBeBytes_toBeBytes 4 _ hp.word] at hmax
    have := hp.short
    omega
  · rfl
  · rfl
  all_goals
    have htake : t.take 4 = toBeBytes 4 p.length := by
      have hcut : (frame crc p).take 4 = toBeBytes 4 p.length := by simp [frame]
      grind
    rw [htake, fromBeBytes_toBeBytes 4 _ hp.word, List.length_drop] at hpay
    rw [length_frame] at hlt
    omega

lemma splitRecord_rest_length {s p rest : List UInt8}
    (h : splitRecord maxLen crc s = .record p rest) : rest.length + 8 ≤ s.length := by
  unfold splitRecord at h
  grind

lemma scanFuel_eq_scan (fuel : ℕ) (s : List UInt8) (h : s.length ≤ fuel) :
    scanFuel maxLen crc fuel s = scan maxLen crc s := by
  suffices H : ∀ n fuel s, s.length = n → n ≤ fuel →
      scanFuel maxLen crc fuel s = scanFuel maxLen crc n s from H _ fuel s rfl h
  intro n
  induction n using Nat.strong_induction_on with
  | _ n ih =>
    intro fuel s hs hle
    cases fuel with
    | zero =>
      simp_all
    | succ fuel =>
      cases n with
      | zero =>
        have : splitRecord maxLen crc s = .incomplete := by
          unfold splitRecord
          rw [if_pos (by omega)]
        simp [scanFuel, this]
      | succ n =>
        simp only [scanFuel]
        cases hsplit : splitRecord maxLen crc s with
        | record p rest =>
          have hrest := splitRecord_rest_length hsplit
          grind
        | oversized => rfl
        | incomplete => rfl
        | mismatch => rfl

lemma scan_eq (s : List UInt8) :
    scan maxLen crc s = match splitRecord maxLen crc s with
      | .record p rest => p :: scan maxLen crc rest
      | _ => [] := by
  rw [← scanFuel_eq_scan (s.length + 1) s (by omega)]
  simp only [scanFuel]
  cases hsplit : splitRecord maxLen crc s with
  | record p rest =>
    have hrest := splitRecord_rest_length hsplit
    simp only
    rw [scanFuel_eq_scan _ rest (by omega)]
  | oversized => rfl
  | incomplete => rfl
  | mismatch => rfl

theorem scan_frames_append {ps : List (List UInt8)} (hps : ∀ p ∈ ps, Writable maxLen crc p)
    (tail : List UInt8) :
    scan maxLen crc (ps.flatMap (frame crc) ++ tail) = ps ++ scan maxLen crc tail := by
  induction ps with
  | nil => rfl
  | cons p ps ih =>
    rw [List.flatMap_cons, List.append_assoc, scan_eq,
      splitRecord_frame_append (hps p List.mem_cons_self)]
    simp_all

lemma scan_of_incomplete {s : List UInt8} (h : splitRecord maxLen crc s = .incomplete) :
    scan maxLen crc s = [] := by
  rw [scan_eq, h]

end RustUma.Found
