import Mathlib.Order.Bounds.Basic
import RustUma.Rpc.Ingest

/-!
# The first block of a window (`src/uma/rpc.rs` `first_block_at_or_after`, `run_backfill`)

`Checked.firstBlockAtOrAfter` is the loop on `u64`s, turn by turn.
-/

namespace RustUma.Rpc

def Checked.firstBlockAtOrAfter (timestamp : ℕ → ℕ) (target : ℕ) : ℕ → ℕ → ℕ → Option ℕ
  | 0, _, _ => none
  | fuel + 1, low, high =>
    if low < high then
      let middle := low + (high - low) / 2
      if 2 ^ 64 ≤ middle then none
      else if timestamp middle < target then
        firstBlockAtOrAfter timestamp target fuel (satAdd middle 1) high
      else firstBlockAtOrAfter timestamp target fuel low middle
    else some low

variable {timestamp : ℕ → ℕ} {target low high : ℕ}

lemma Checked.firstBlockAtOrAfter_eq {fuel : ℕ} (hhigh : high < 2 ^ 64)
    (hfuel : high - low < fuel) : Checked.firstBlockAtOrAfter timestamp target fuel low high =
      some (Rpc.firstBlockAtOrAfter timestamp target low high) := by
  induction fuel generalizing low high with
  | zero => omega
  | succ fuel ih =>
    rw [Checked.firstBlockAtOrAfter, Rpc.firstBlockAtOrAfter]
    dsimp only
    split_ifs with hlow hover hbefore
    · omega
    · have hexact : satAdd (low + (high - low) / 2) 1 = low + (high - low) / 2 + 1 :=
        min_eq_left (by omega)
      grind
    · grind
    · rfl

structure Located (timestamp : ℕ → ℕ) (target low high block : ℕ) : Prop where
  low_le : low ≤ block
  le_high : block ≤ high
  before : ∀ b, low ≤ b → b < block → timestamp b < target
  reached : block < high → target ≤ timestamp block

lemma located_firstBlockAtOrAfter (hmono : Monotone timestamp) (h : low ≤ high) :
    Located timestamp target low high (firstBlockAtOrAfter timestamp target low high) := by
  fun_induction firstBlockAtOrAfter timestamp target low high with
  | case1 low high hlow middle hbefore ih =>
    obtain ⟨hle, hhigh, hall, hreached⟩ := ih (by omega)
    refine ⟨by omega, hhigh, fun b hb hblock => ?_, hreached⟩
    by_cases hmiddle : b ≤ middle
    · exact (hmono hmiddle).trans_lt hbefore
    grind
  | case2 low high hlow middle hbefore ih =>
    obtain ⟨hle, hhigh, hall, hreached⟩ := ih (by omega)
    refine ⟨hle, by omega, hall, fun _ => ?_⟩
    grind
  | case3 low high hlow => exact ⟨le_rfl, h, fun b _ _ => by omega, fun _ => by omega⟩

lemma Located.isLeast {block b : ℕ} (h : Located timestamp target low high block)
    (hb : low ≤ b ∧ b ≤ high ∧ target ≤ timestamp b) :
    IsLeast {b | low ≤ b ∧ b ≤ high ∧ target ≤ timestamp b} block := by
  have hfirst : ∀ c, low ≤ c ∧ c ≤ high ∧ target ≤ timestamp c → block ≤ c := by
    rintro c ⟨hlow, -, hc⟩
    by_contra hlt
    exact (h.before c hlow (by omega)).not_ge hc
  refine ⟨⟨h.low_le, h.le_high, ?_⟩, hfirst⟩
  rcases h.le_high.lt_or_eq with hlt | rfl
  · exact h.reached hlt
  grind

/-- **The search returns the first block** of `[low, head]` that is not before `target`, or the
head, and the backfill it starts skips no block of the window from `search_low` on. -/
theorem first_block_is_lower_bound (hmono : Monotone timestamp) (target : ℕ) {low head : ℕ}
    (hlow : low ≤ head) (hhead : head < 2 ^ 64) :
    (∃ block, Checked.firstBlockAtOrAfter timestamp target (head - low + 1) low head = some block ∧
      block = firstBlockAtOrAfter timestamp target low head ∧
      ((∃ b, low ≤ b ∧ b ≤ head ∧ target ≤ timestamp b) →
        IsLeast {b | low ≤ b ∧ b ≤ head ∧ target ≤ timestamp b} block) ∧
      ((∀ b, low ≤ b → b ≤ head → timestamp b < target) → block = head)) ∧
    ∀ env : Env, env.chain.timestamp = timestamp → env.rpc.startBlock = none →
      ∀ b, head - lookback env.rpc.initialBackfillDays ≤ b → b ≤ head →
        timestamp head - lookback env.rpc.initialBackfillDays ≤ timestamp b →
          backfillFrom env none head ≤ b := by
  have hlocated : Located timestamp target low head
      (firstBlockAtOrAfter timestamp target low head) := located_firstBlockAtOrAfter hmono hlow
  refine ⟨⟨_, Checked.firstBlockAtOrAfter_eq hhead (by omega), rfl, ?_, ?_⟩, ?_⟩
  · rintro ⟨b, hb⟩
    exact hlocated.isLeast hb
  · intro hnone
    by_contra hne
    have hlt : firstBlockAtOrAfter timestamp target low head < head :=
      hlocated.le_high.lt_of_ne hne
    exact (hnone _ hlocated.low_le hlt.le).not_ge (hlocated.reached hlt)
  · rintro env rfl hstart b hlow hb hwindow
    rw [backfillFrom, hstart]
    exact ((located_firstBlockAtOrAfter hmono (Nat.sub_le _ _)).isLeast ⟨hlow, hb, hwindow⟩).2
      ⟨hlow, hb, hwindow⟩

theorem first_block_is_lower_bound_of_pairs :
    Checked.firstBlockAtOrAfter (· / 2) 3 11 0 10 = some 6 := by
  have hmono : Monotone fun b : ℕ => b / 2 := fun a b h => Nat.div_le_div_right h
  obtain ⟨⟨block, hblock, -, hleast, -⟩, -⟩ :=
    first_block_is_lower_bound hmono 3 (Nat.zero_le 10) (by decide)
  have hfirst := hleast ⟨6, by decide⟩
  obtain rfl : block = 6 := le_antisymm (hfirst.2 (by decide)) (by have := hfirst.1.2.2; omega)
  exact hblock

end RustUma.Rpc
