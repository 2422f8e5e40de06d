import Mathlib.Data.List.Basic
import Mathlib.Tactic.Ring

/-!
# Varints

A number in base 128, the lowest digit first; every byte but the last has its eighth bit set.
-/

namespace RustUma.Found

inductive Varint : List UInt8 → ℕ → Prop
  | last {b : UInt8} (h : b.toNat < 128) : Varint [b] b.toNat
  | more {b : UInt8} {bytes : List UInt8} {n : ℕ} (h : 128 ≤ b.toNat) (hrest : Varint bytes n) :
      Varint (b :: bytes) (b.toNat % 128 + 128 * n)

lemma Varint.ne_nil {bytes : List UInt8} {n : ℕ} (h : Varint bytes n) : bytes ≠ [] := by
  cases h <;> exact List.cons_ne_nil _ _

lemma varint_ofNat {n : ℕ} (h : n < 128) : Varint [UInt8.ofNat n] n := by
  have hbyte : (UInt8.ofNat n).toNat = n := by
    rw [UInt8.toNat_ofNat']
    omega
  have hlast := Varint.last (b := UInt8.ofNat n) (by omega)
  rwa [hbyte] at hlast

lemma Varint.more_ofNat {n : ℕ} {bytes : List UInt8} (h : Varint bytes (n / 128)) :
    Varint (UInt8.ofNat (n % 128 + 128) :: bytes) n := by
  have hbyte : (UInt8.ofNat (n % 128 + 128)).toNat = n % 128 + 128 := by
    rw [UInt8.toNat_ofNat']
    omega
  have hmore := Varint.more (b := UInt8.ofNat (n % 128 + 128)) (by omega) h
  grind

lemma and_eighth_eq_zero_iff (b : UInt8) : b &&& 0x80 = 0 ↔ b.toNat < 128 := by
  have hall : ∀ n < 256, UInt8.ofNat n &&& 0x80 = 0 ↔ n < 128 := by decide +kernel
  simpa using hall b.toNat b.toNat_lt

lemma toNat_and_low (b : UInt8) : (b &&& 0x7f).toNat = b.toNat % 128 := by
  rw [UInt8.toNat_and]
  exact Nat.and_two_pow_sub_one_eq_mod b.toNat 7

lemma or_shiftLeft {shift value : ℕ} (h : value < 2 ^ shift) (digit : ℕ) :
    value ||| digit <<< shift = value + digit * 2 ^ shift := by
  rw [Nat.shiftLeft_eq, Nat.or_comm, Nat.mul_comm, ← Nat.two_pow_add_eq_or_of_lt h, Nat.add_comm]

lemma or_shiftLeft_mod {shift value : ℕ} (hvalue : value < 2 ^ 64)
    (hlow : shift < 64 → value < 2 ^ shift) (digit : ℕ) :
    (if shift < 64 then value ||| (digit <<< shift) % 2 ^ 64 else value) =
      (value + digit * 2 ^ shift) % 2 ^ 64 := by
  rw [Nat.shiftLeft_eq]
  split_ifs with hshift
  · have hsplit : 2 ^ 64 = 2 ^ (64 - shift) * 2 ^ shift := by
      rw [← Nat.pow_add, Nat.sub_add_cancel (Nat.le_of_lt hshift)]
    have hdigit := Nat.mod_lt digit (Nat.two_pow_pos (64 - shift))
    have hroom : value + digit % 2 ^ (64 - shift) * 2 ^ shift < 2 ^ 64 := by
      calc value + digit % 2 ^ (64 - shift) * 2 ^ shift
          < (digit % 2 ^ (64 - shift) + 1) * 2 ^ shift := by
            grind
        _ ≤ 2 ^ 64 := by
            rw [hsplit]
            exact Nat.mul_le_mul_right _ hdigit
    rw [hsplit, Nat.mul_mod_mul_right, ← hsplit, ← Nat.shiftLeft_eq, or_shiftLeft (hlow hshift),
      ← Nat.mod_eq_of_lt hroom, Nat.add_mod, Nat.add_mod value (digit * 2 ^ shift)]
    congr 2
    rw [hsplit, Nat.mul_mod_mul_right, Nat.mul_mod_mul_right, Nat.mod_mod]
  · obtain ⟨more, rfl⟩ := Nat.exists_eq_add_of_le (Nat.not_lt.mp hshift)
    rw [Nat.pow_add, Nat.mul_left_comm, Nat.add_mul_mod_self_left, Nat.mod_eq_of_lt hvalue]

end RustUma.Found
