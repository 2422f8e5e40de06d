import RustUma.Enrichment.Gamma
import RustUma.Found.Records

/-!
# 256-bit numbers in decimal (`src/enrichment.rs` `parse_uint256`, `src/model.rs` `uint256_decimal`)
-/

namespace RustUma.Enrichment

open RustUma.Found RustUma.Model

/-! ## Reading -/

def Checked.pushDigit (bytes : List UInt8) (digit : ℕ) : Option (List UInt8 × ℕ) :=
  bytes.foldr (fun byte acc => acc.bind fun acc =>
    let next := byte.toNat * 10 + acc.2
    if next < 2 ^ 16 then some (UInt8.ofNat next :: acc.1, next / 256) else none)
    (some ([], digit))

section Push

variable {digit : ℕ} (h : digit ≤ 9) (bytes : List UInt8)

include h

lemma carry_le : (pushDigit bytes digit).2 ≤ 9 := by
  induction bytes with
  | nil => exact h
  | cons byte bytes ih =>
    have hbyte := byte.toNat_lt
    show (byte.toNat * 10 + (pushDigit bytes digit).2) / 256 ≤ 9
    omega

lemma checked_pushDigit : Checked.pushDigit bytes digit = some (pushDigit bytes digit) := by
  induction bytes with
  | nil => rfl
  | cons byte bytes ih =>
    have hbyte := byte.toNat_lt
    have hcarry := carry_le h bytes
    have hfits : byte.toNat * 10 + (pushDigit bytes digit).2 < 2 ^ 16 := by omega
    unfold Checked.pushDigit at ih ⊢
    rw [List.foldr_cons, ih]
    exact if_pos hfits

omit h in
lemma fromBeBytes_pushDigit (digit : ℕ) :
    fromBeBytes (pushDigit bytes digit).1 + (pushDigit bytes digit).2 * 256 ^ bytes.length =
      fromBeBytes bytes * 10 + digit := by
  induction bytes with
  | nil => simp [pushDigit, fromBeBytes]
  | cons byte bytes ih =>
    have hpush : pushDigit (byte :: bytes) digit =
        (UInt8.ofNat (byte.toNat * 10 + (pushDigit bytes digit).2) :: (pushDigit bytes digit).1,
          (byte.toNat * 10 + (pushDigit bytes digit).2) / 256) := rfl
    generalize hnext : byte.toNat * 10 + (pushDigit bytes digit).2 = next at hpush
    have hsplit : next % 2 ^ 8 + 256 * (next / 256) = next := Nat.mod_add_div next 256
    rw [hpush, fromBeBytes_cons, fromBeBytes_cons, length_pushDigit, UInt8.toNat_ofNat',
      List.length_cons, pow_succ]
    calc next % 2 ^ 8 * 256 ^ bytes.length + fromBeBytes (pushDigit bytes digit).1 +
          next / 256 * (256 ^ bytes.length * 256)
        = (next % 2 ^ 8 + 256 * (next / 256)) * 256 ^ bytes.length +
          fromBeBytes (pushDigit bytes digit).1 := by ring
      _ = byte.toNat * 10 * 256 ^ bytes.length + (fromBeBytes (pushDigit bytes digit).1 +
          (pushDigit bytes digit).2 * 256 ^ bytes.length) := by
        rw [hsplit, ← hnext]
        ring
      _ = (byte.toNat * 256 ^ bytes.length + fromBeBytes bytes) * 10 + digit := by
        rw [ih]
        ring

end Push

lemma digit_le {c : Char} (h : c.isDigit = true) : c.toNat - 48 ≤ 9 := by
  rw [Char.isDigit, Bool.and_eq_true, decide_eq_true_eq, decide_eq_true_eq] at h
  have hle : c.toNat ≤ 57 := h.2
  omega

lemma parseDecimal256_eq_ok {bytes result : Bytes 32} {text : List Char} :
    parseDecimal256 bytes text = .ok result ↔ (∀ c ∈ text, c.isDigit = true) ∧
      Nat.ofDigitChars 10 text (fromBeBytes bytes.1) = fromBeBytes result.1 := by
  induction text generalizing bytes with
  | nil =>
    refine ⟨?_, fun h => ?_⟩
    · rintro ⟨⟩
      exact ⟨by simp, rfl⟩
    · exact congrArg _ (Subtype.ext (fromBeBytes_injective (bytes.2.trans result.2.symm) h.2))
  | cons c rest ih =>
    unfold parseDecimal256
    rw [List.forall_mem_cons, Nat.ofDigitChars_cons]
    split_ifs with hdigit
    · have hpush := fromBeBytes_pushDigit bytes.1 (c.toNat - 48)
      rw [bytes.2] at hpush
      dsimp only
      split_ifs with hcarry
      · -- the number is too large already, and only grows
        refine iff_of_false nofun fun h => ?_
        have hlt := fromBeBytes_lt result.1
        rw [result.2, ← h.2, Nat.ofDigitChars_eq_ofDigitChars_zero] at hlt
        have hpos : 1 * (256 ^ 32) ≤ (pushDigit bytes.1 (c.toNat - 48)).2 * 256 ^ 32 :=
          Nat.mul_le_mul_right _ (Nat.one_le_iff_ne_zero.mpr hcarry)
        have hgrow := Nat.le_mul_of_pos_left (10 * fromBeBytes bytes.1 + (c.toNat - '0'.toNat))
          (Nat.pow_pos (n := rest.length) (by decide : 0 < 10))
        grind
      grind
    simp_all

/-! ## Writing -/

def divTen (bytes : List UInt8) : List UInt8 × ℕ :=
  bytes.foldl (fun acc byte =>
    let current := acc.2 <<< 8 % 2 ^ 16 ||| byte.toNat
    (acc.1 ++ [UInt8.ofNat (current / 10)], current % 10)) ([], 0)

def decimalDigits : ℕ → List UInt8 → List Char → Option (List Char)
  | 0, _, _ => none
  | fuel + 1, working, digits =>
    if working.any (· ≠ 0) then
      decimalDigits fuel (divTen working).1 (digits ++ [Char.ofNat (48 + (divTen working).2)])
    else some digits

def uint256Decimal (fuel : ℕ) (value : Bytes 32) : Option (List Char) :=
  if value.1.all (· = 0) then some ['0']
  else (decimalDigits fuel value.1 []).map List.reverse

lemma divTen_spec (bytes : List UInt8) :
    fromBeBytes bytes = 10 * fromBeBytes (divTen bytes).1 + (divTen bytes).2 ∧
      (divTen bytes).2 < 10 := by
  induction bytes using List.reverseRecOn with
  | nil => simp [divTen, fromBeBytes]
  | append_singleton bytes byte ih =>
    obtain ⟨hvalue, hlt⟩ := ih
    have hbyte : byte.toNat < 2 ^ 8 := byte.toNat_lt
    have hcurrent : (divTen bytes).2 <<< 8 % 2 ^ 16 ||| byte.toNat =
        (divTen bytes).2 * 256 + byte.toNat := by
      rw [Nat.mod_eq_of_lt (by omega), ← Nat.shiftLeft_add_eq_or_of_lt hbyte,
        Nat.shiftLeft_eq]
    have hstep : divTen (bytes ++ [byte]) =
        ((divTen bytes).1 ++ [UInt8.ofNat (((divTen bytes).2 * 256 + byte.toNat) / 10)],
          ((divTen bytes).2 * 256 + byte.toNat) % 10) := by
      rw [← hcurrent]
      exact List.foldl_concat ..
    rw [hstep, fromBeBytes_concat, fromBeBytes_concat, UInt8.toNat_ofNat']
    omega

lemma any_ne_zero_iff {bytes : List UInt8} :
    bytes.any (· ≠ 0) = true ↔ fromBeBytes bytes ≠ 0 := by
  rw [Ne, fromBeBytes_eq_zero_iff]
  simp

lemma decimalDigits_eq {fuel : ℕ} {working : List UInt8} {digits : List Char}
    (h : fromBeBytes working < 10 ^ fuel) :
    decimalDigits (fuel + 1) working digits = some (digits ++
      if fromBeBytes working = 0 then [] else (Nat.toDigits 10 (fromBeBytes working)).reverse) := by
  induction fuel generalizing working digits with
  | zero =>
    have hzero : fromBeBytes working = 0 := Nat.lt_one_iff.mp h
    rw [decimalDigits, if_neg (mt any_ne_zero_iff.mp (not_not.mpr hzero)), if_pos hzero,
      List.append_nil]
  | succ fuel ih =>
    rw [decimalDigits]
    by_cases hzero : fromBeBytes working = 0
    · rw [if_neg (mt any_ne_zero_iff.mp (not_not.mpr hzero)), if_pos hzero, List.append_nil]
    · obtain ⟨hvalue, hlt⟩ := divTen_spec working
      have hchar : ∀ r < 10, Char.ofNat (48 + r) = r.digitChar := by decide
      rw [pow_succ] at h
      rw [if_pos (any_ne_zero_iff.mpr hzero), ih (by omega), if_neg hzero, List.append_assoc,
        hchar _ hlt]
      congr 2
      split_ifs with hlast
      · rw [hvalue, hlast, Nat.mul_zero, Nat.zero_add, Nat.toDigits_of_lt_base hlt]
        rfl
      · rw [hvalue, ← Nat.toDigits_append_toDigits (by decide) (Nat.pos_of_ne_zero hlast) hlt,
          List.reverse_append, Nat.toDigits_of_lt_base hlt]
        rfl

lemma uint256Decimal_eq (value : Bytes 32) :
    uint256Decimal 79 value = some (Nat.toDigits 10 (fromBeBytes value.1)) := by
  have hlt := fromBeBytes_lt value.1
  rw [value.2] at hlt
  unfold uint256Decimal
  split_ifs with hzero
  · rw [(fromBeBytes_eq_zero_iff _).mpr (by simpa using hzero)]
    rfl
  · have hne : fromBeBytes value.1 ≠ 0 := by
      rw [Ne, fromBeBytes_eq_zero_iff]
      simpa using hzero
    rw [decimalDigits_eq (hlt.trans (by decide)), if_neg hne, List.nil_append, Option.map_some,
      List.reverse_reverse]

theorem uint256_decimal_exact :
    (∀ (bytes : List UInt8) (c : Char), c.isDigit = true →
      Checked.pushDigit bytes (c.toNat - 48) = some (pushDigit bytes (c.toNat - 48))) ∧
    (∀ text : List Char, ¬['0', 'x'] <+: text → ¬['0', 'X'] <+: text → ∀ bytes : Bytes 32,
      parseUint256 text = .ok bytes ↔ text ≠ [] ∧ (∀ c ∈ text, c.isDigit = true) ∧
        Nat.ofDigitChars 10 text 0 < 2 ^ 256 ∧
        bytes.1 = toBeBytes 32 (Nat.ofDigitChars 10 text 0)) ∧
    ∀ value : Bytes 32, ∃ text, uint256Decimal 79 value = some text ∧
      text = Nat.toDigits 10 (fromBeBytes value.1) ∧ parseUint256 text = .ok value := by
  have hparse : ∀ text : List Char, ¬['0', 'x'] <+: text → ¬['0', 'X'] <+: text →
      ∀ bytes : Bytes 32, parseUint256 text = .ok bytes ↔ text ≠ [] ∧
        (∀ c ∈ text, c.isDigit = true) ∧ Nat.ofDigitChars 10 text 0 = fromBeBytes bytes.1 := by
    intro text hx hX bytes
    rw [parseUint256, if_neg (by simp [hx, hX])]
    split_ifs with hnil
    · simp_all
    · rw [parseDecimal256_eq_ok]
      have hfill : fromBeBytes (Bytes.fill 32 0).1 = 0 := by decide
      simp_all
  refine ⟨fun bytes c hc => checked_pushDigit (digit_le hc) bytes, fun text hx hX bytes => ?_,
    fun value => ⟨_, uint256Decimal_eq value, rfl, ?_⟩⟩
  · rw [hparse text hx hX bytes]
    refine and_congr_right fun _ => and_congr_right fun _ => ⟨fun h => ?_, fun ⟨hlt, h⟩ => ?_⟩
    · have hlt := fromBeBytes_lt bytes.1
      rw [bytes.2] at hlt
      refine ⟨h ▸ hlt.trans_eq (by decide), fromBeBytes_injective ?_ ?_⟩
      · rw [bytes.2, length_toBeBytes]
      · rw [h, fromBeBytes_toBeBytes _ _ hlt]
    · rw [h, fromBeBytes_toBeBytes _ _ (hlt.trans_eq (by decide))]
  · have hdigits : ∀ c ∈ Nat.toDigits 10 (fromBeBytes value.1), c.isDigit = true :=
      fun c => Nat.isDigit_of_mem_toDigits (by decide) (by decide)
    have hmark : ∀ mark : Char, mark.isDigit = false →
        ¬['0', mark] <+: Nat.toDigits 10 (fromBeBytes value.1) := by
      intro mark hmark hstarts
      have hmem := hdigits mark (hstarts.subset (by simp))
      simp_all
    simp_all

end RustUma.Enrichment
