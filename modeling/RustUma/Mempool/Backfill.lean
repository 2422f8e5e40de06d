import Mathlib.Order.Lattice
import Mathlib.Tactic.Ring
import RustUma.Found.Tiles

/-!
# The backfill of the confirmed feed (`src/mempool/feed.rs` `run_confirm_feed`)

The settings are any `u64`s (`src/bin/mempool-uma.rs` `run`) and `+`, `-` and `*` wrap. The shutdown
is not signalled, and every request is answered.
-/

namespace RustUma.Mempool

open RustUma.Found

def confirmWindow (head chunk lo : ℕ) : ℕ × ℕ :=
  (lo, min ((lo + chunk + (2 ^ 64 - 1)) % 2 ^ 64) head)

def confirmWindows (head chunk : ℕ) : ℕ → ℕ → Option (List (ℕ × ℕ))
  | 0, _ => none
  | fuel + 1, lo =>
    if lo ≤ head then
      let window := confirmWindow head chunk lo
      (confirmWindows head chunk fuel ((window.2 + 1) % 2 ^ 64)).map (window :: ·)
    else some []

def confirmBackfill (head backfillHours chunk fuel : ℕ) : Option (List (ℕ × ℕ)) :=
  confirmWindows head chunk fuel (head - backfillHours * 2400 % 2 ^ 64)

structure Fits (head chunk lo : ℕ) : Prop where
  head_lt : head + 1 < 2 ^ 64
  zero : chunk = 0 → lo = 0
  ends : ∀ k, lo + k * chunk ≤ head → lo + (k + 1) * chunk ≤ 2 ^ 64

section Loop

variable {head chunk lo : ℕ}

lemma confirmWindow_eq (hchunk : 0 < chunk) (hend : lo + chunk ≤ 2 ^ 64) :
    confirmWindow head chunk lo = (lo, min (lo + chunk - 1) head) := by
  unfold confirmWindow
  rw [show (lo + chunk + (2 ^ 64 - 1)) % 2 ^ 64 = lo + chunk - 1 by omega]

lemma end_le_of_nonempty (hlo : lo < 2 ^ 64) (hchunk : chunk < 2 ^ 64)
    (h : lo ≤ (lo + chunk + (2 ^ 64 - 1)) % 2 ^ 64) :
    chunk = 0 ∧ lo = 0 ∨ 0 < chunk ∧ lo + chunk ≤ 2 ^ 64 := by
  omega

lemma Fits.next (h : Fits head chunk lo) (hchunk : 0 < chunk) : Fits head chunk (lo + chunk) where
  head_lt := h.head_lt
  zero := fun hzero => absurd hzero hchunk.ne'
  ends := fun k hk => by
    have hend := h.ends (k + 1) (by rw [Nat.succ_mul]; omega)
    rw [Nat.succ_mul (k + 1)] at hend
    omega

lemma Fits.prev (h : Fits head chunk (lo + chunk)) (hchunk : 0 < chunk)
    (hend : lo + chunk ≤ 2 ^ 64) : Fits head chunk lo where
  head_lt := h.head_lt
  zero := fun hzero => absurd hzero hchunk.ne'
  ends := fun k hk => by
    cases k with
    | zero => simpa using hend
    | succ k =>
      have hnext := h.ends k (by rw [Nat.succ_mul] at hk; omega)
      rw [Nat.succ_mul (k + 1)]
      omega

lemma exists_tiles (h : Fits head chunk lo) (hlo : lo ≤ head + 1) :
    ∃ fuel windows, confirmWindows head chunk fuel lo = some windows ∧ Tiles lo head windows := by
  -- on the blocks that are left
  induction hleft : head + 1 - lo using Nat.strongRecOn generalizing lo with
  | ind left ih =>
    have hhead := h.head_lt
    by_cases hmore : lo ≤ head
    · -- the last request, or one more and the rest
      have hlast : confirmWindow head chunk lo = (lo, head) →
          ∃ fuel windows, confirmWindows head chunk fuel lo = some windows ∧
            Tiles lo head windows := by
        intro hwindow
        refine ⟨2, [(lo, head)], ?_, tiles_cons_iff.mpr
          ⟨rfl, hmore, le_rfl, tiles_nil_iff.mpr head.lt_succ_self⟩⟩
        simp only [confirmWindows, hwindow, if_pos hmore, Nat.mod_eq_of_lt hhead,
          if_neg head.lt_succ_self.not_ge]
        rfl
      rcases Nat.eq_zero_or_pos chunk with hzero | hchunk
      · apply hlast
        rw [h.zero hzero, hzero]
        exact congrArg (Prod.mk 0) (min_eq_right (by omega))
      · have hend : lo + chunk ≤ 2 ^ 64 := by simpa using h.ends 0 (by simpa using hmore)
        rcases le_or_gt head (lo + chunk - 1) with hreaches | hshort
        · exact hlast ((confirmWindow_eq hchunk hend).trans (by rw [min_eq_right hreaches]))
        · obtain ⟨fuel, windows, hrest, htiles⟩ :=
            ih _ (by omega) (h.next hchunk) (by omega) rfl
          refine ⟨fuel + 1, (lo, lo + chunk - 1) :: windows, ?_, tiles_cons_iff.mpr
            ⟨rfl, by omega, hshort.le, ?_⟩⟩
          · simp only [confirmWindows, if_pos hmore, confirmWindow_eq hchunk hend,
              min_eq_left hshort.le]
            rw [Nat.mod_eq_of_lt (by omega), Nat.sub_add_cancel (by omega), hrest]
            rfl
          · rwa [Nat.sub_add_cancel (by omega)]
    · refine ⟨1, [], ?_, tiles_nil_iff.mpr (by omega)⟩
      rw [confirmWindows, if_neg hmore]

lemma fits_of_tiles {fuel : ℕ} {windows : List (ℕ × ℕ)} (hhead : head < 2 ^ 64)
    (hchunk : chunk < 2 ^ 64) (hlo : lo ≤ head)
    (h : confirmWindows head chunk fuel lo = some windows) (htiles : Tiles lo head windows) :
    Fits head chunk lo := by
  induction fuel generalizing lo windows with
  | zero => cases h
  | succ fuel ih =>
    rw [confirmWindows, if_pos hlo] at h
    obtain ⟨rest, hrest, rfl⟩ := Option.map_eq_some_iff.mp h
    obtain ⟨-, hle, -, htiles⟩ := tiles_cons_iff.mp htiles
    have hnonempty := end_le_of_nonempty (by omega) hchunk (le_min_iff.mp hle).1
    have hlast : min ((lo + chunk + (2 ^ 64 - 1)) % 2 ^ 64) head = head → head + 1 < 2 ^ 64 := by
      intro heq
      by_contra hwraps
      rw [heq] at htiles
      rw [show (confirmWindow head chunk lo).2 = head from heq,
        show (head + 1) % 2 ^ 64 = 0 by omega] at hrest
      cases rest with
      | nil =>
        cases fuel with
        | zero => cases hrest
        | succ fuel =>
          rw [confirmWindows, if_pos (Nat.zero_le _)] at hrest
          obtain ⟨_, _, hcons⟩ := Option.map_eq_some_iff.mp hrest
          cases hcons
      | cons w rest =>
        obtain ⟨hfirst, hle, hlast, -⟩ := tiles_cons_iff.mp htiles
        omega
    rcases hnonempty with ⟨rfl, rfl⟩ | ⟨hpos, hend⟩
    · exact ⟨hlast (min_eq_right (by omega)), fun _ => rfl, by simp⟩
    · have hwindow : confirmWindow head chunk lo = _ := confirmWindow_eq hpos hend
      rcases le_or_gt head (lo + chunk - 1) with hreaches | hshort
      · refine ⟨hlast ?_, fun hzero => absurd hzero hpos.ne', fun k hk => ?_⟩
        · exact (congrArg Prod.snd hwindow).trans (min_eq_right hreaches)
        · cases k with
          | zero => simpa using hend
          | succ k =>
            rw [Nat.succ_mul] at hk
            omega
      · rw [hwindow, min_eq_left hshort.le, Nat.sub_add_cancel (by omega)] at hrest
        have hsnd : (min ((lo + chunk + (2 ^ 64 - 1)) % 2 ^ 64) head) = lo + chunk - 1 :=
          (congrArg Prod.snd hwindow).trans (min_eq_left hshort.le)
        rw [hsnd, Nat.sub_add_cancel (by omega)] at htiles
        rw [Nat.mod_eq_of_lt (by omega)] at hrest
        exact (ih (by omega) hrest htiles).prev hpos hend

end Loop

/-- **The backfill ends and covers its window** if and only if the product of the hours gives the
right start, whether or not it wraps, and the loop `Fits` from there on. -/
theorem backfill_covers_window {head backfillHours chunk : ℕ} (hhead : head < 2 ^ 64)
    (hchunk : chunk < 2 ^ 64) :
    (∃ fuel windows, confirmBackfill head backfillHours chunk fuel = some windows ∧
      Tiles (head - backfillHours * 2400) head windows) ↔
    head - backfillHours * 2400 % 2 ^ 64 = head - backfillHours * 2400 ∧
      Fits head chunk (head - backfillHours * 2400) := by
  unfold confirmBackfill
  constructor
  · rintro ⟨fuel, windows, hrun, htiles⟩
    have hstart : head - backfillHours * 2400 % 2 ^ 64 = head - backfillHours * 2400 := by
      cases fuel with
      | zero => cases hrun
      | succ fuel =>
        rw [confirmWindows, if_pos (Nat.sub_le _ _)] at hrun
        obtain ⟨rest, -, rfl⟩ := Option.map_eq_some_iff.mp hrun
        exact (tiles_cons_iff.mp htiles).1
    exact ⟨hstart, fits_of_tiles hhead hchunk (Nat.sub_le _ _) (hstart ▸ hrun) htiles⟩
  · rintro ⟨hstart, hfits⟩
    rw [hstart]
    exact exists_tiles hfits (by omega)

theorem backfill_covers_window_of_three :
    ∃ fuel windows, confirmBackfill 2405 1 2 fuel = some windows ∧ Tiles 5 2405 windows :=
  (backfill_covers_window (by decide) (by decide)).mpr
    ⟨by decide, by decide, by decide, fun k hk => by omega⟩

/-- With the chunk 0 a request for nothing is repeated for ever. -/
theorem backfill_stuck_on_empty_chunk :
    confirmWindow 5 0 5 = (5, 4) ∧ ¬∃ fuel, (confirmBackfill 5 0 0 fuel).isSome = true := by
  refine ⟨by decide, ?_⟩
  rintro ⟨fuel, h⟩
  have hstuck : confirmWindows 5 0 fuel 5 = none := by
    clear h
    induction fuel with
    | zero => rfl
    | succ fuel ih =>
      show (confirmWindows 5 0 fuel 5).map _ = none
      rw [ih]
      rfl
  rw [confirmBackfill, show 5 - 0 * 2400 % 2 ^ 64 = 5 from rfl, hstuck] at h
  cases h

end RustUma.Mempool
