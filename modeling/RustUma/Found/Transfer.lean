import Mathlib.Algebra.BigOperators.Group.Finset.Basic
import Mathlib.Algebra.Order.BigOperators.Group.Finset
import Mathlib.Tactic.Ring
import Mathlib.Tactic.Linarith

/-!
# Moving units between holders
-/

namespace RustUma.Found

variable {α : Type*} [DecidableEq α] {f : α → ℕ} {a b : α} {n : ℕ} {s : Finset α}

def move (f : α → ℕ) (a b : α) (n : ℕ) : α → ℕ :=
  let taken := Function.update f a (f a - n)
  Function.update taken b (taken b + n)

lemma move_of_ne (hab : a ≠ b) (x : α) :
    move f a b n x = if x = b then f b + n else if x = a then f a - n else f x := by
  simp [move, Function.update_apply, hab.symm]

@[simp] lemma move_zero : move f a b 0 = f := by
  simp [move]

lemma move_self (h : n ≤ f a) : move f a a n = f := by
  simp [move, Nat.sub_add_cancel h]

lemma sum_eq_pair_add (hab : a ≠ b) (ha : a ∈ s) (hb : b ∈ s) (g : α → ℕ) :
    ∑ x ∈ s, g x = g a + (g b + ∑ x ∈ (s.erase a).erase b, g x) := by
  rw [Finset.add_sum_erase _ g (Finset.mem_erase.mpr ⟨hab.symm, hb⟩), Finset.add_sum_erase _ g ha]

lemma sum_comp_move (hab : a ≠ b) (ha : a ∈ s) (hb : b ∈ s) (g : ℕ → ℕ) :
    ∑ x ∈ s, g (move f a b n x) =
      g (f a - n) + (g (f b + n) + ∑ x ∈ (s.erase a).erase b, g (f x)) := by
  rw [sum_eq_pair_add hab ha hb]
  congr 1
  · simp [move_of_ne hab, hab]
  · congr 1
    · simp [move_of_ne hab]
    · apply Finset.sum_congr rfl
      intro x hx
      simp only [Finset.mem_erase] at hx
      simp [move_of_ne hab, hx.1, hx.2.1]

theorem sum_move (ha : a ∈ s) (hb : b ∈ s) (h : n ≤ f a) :
    ∑ x ∈ s, move f a b n x = ∑ x ∈ s, f x := by
  by_cases hab : a = b
  · rw [← hab, move_self h]
  · have hmoved := sum_comp_move (f := f) (n := n) hab ha hb id
    simp only [id] at hmoved
    rw [hmoved, sum_eq_pair_add hab ha hb]
    omega

theorem sum_sq_move_lt (ha : a ∈ s) (hb : b ∈ s) (hn : 0 < n) (h : f b + n ≤ f a - n) :
    ∑ x ∈ s, move f a b n x ^ 2 < ∑ x ∈ s, f x ^ 2 := by
  have hab : a ≠ b := by
    rintro rfl
    omega
  rw [sum_comp_move hab ha hb (· ^ 2), sum_eq_pair_add hab ha hb (f · ^ 2)]
  obtain ⟨k, hk⟩ : ∃ k, f a = f b + n + k + n := ⟨f a - n - (f b + n), by omega⟩
  have hlt : (f b + n + k) ^ 2 + (f b + n) ^ 2 < (f b + n + k + n) ^ 2 + f b ^ 2 := by
    nlinarith
  grind

omit [DecidableEq α] in
theorem exists_quiet {g : ℕ → ℕ} {P : ℕ → Prop}
    (hle : ∀ k, g (k + 1) ≤ g k)
    (hlt : ∀ k, P k → g (k + 1) < g k) : ∃ N, ∀ k, N ≤ k → ¬P k := by
  obtain ⟨_, ⟨N, rfl⟩, hmin⟩ := wellFounded_lt.has_min (Set.range g) ⟨_, 0, rfl⟩
  refine ⟨N, fun k hk hP => ?_⟩
  have hanti : g k ≤ g N := antitone_nat_of_succ_le hle hk
  exact hmin _ ⟨k + 1, rfl⟩ ((hlt k hP).trans_le hanti)

end RustUma.Found
