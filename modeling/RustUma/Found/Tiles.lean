import Mathlib.Data.List.Basic
import Mathlib.Data.Nat.Basic

/-!
# Ranges cut into windows

A window is a pair of bounds, both included.

* `Tiles` — windows in ascending order, none empty, that together are a range. `tiles_nil_iff`,
  `tiles_cons_iff` — window by window.
-/

namespace RustUma.Found

structure Tiles (first last : ℕ) (windows : List (ℕ × ℕ)) : Prop where
  ascending : windows.Pairwise fun v w => v.2 < w.1
  nonempty : ∀ w ∈ windows, w.1 ≤ w.2
  covers : ∀ b, (∃ w ∈ windows, w.1 ≤ b ∧ b ≤ w.2) ↔ first ≤ b ∧ b ≤ last

variable {first last lo hi : ℕ} {windows : List (ℕ × ℕ)}

lemma tiles_nil_iff : Tiles first last [] ↔ last < first := by
  refine ⟨fun h => ?_, fun h => ⟨.nil, by simp, fun b => iff_of_false (by simp) (by omega)⟩⟩
  by_contra hle
  obtain ⟨w, hw, -⟩ := (h.covers first).mpr ⟨le_rfl, by omega⟩
  cases hw

lemma tiles_cons_iff : Tiles first last ((lo, hi) :: windows) ↔
    lo = first ∧ lo ≤ hi ∧ hi ≤ last ∧ Tiles (hi + 1) last windows := by
  constructor
  · intro h
    obtain ⟨hbelow, hascending⟩ := List.pairwise_cons.mp h.ascending
    obtain ⟨hle, hnonempty⟩ := List.forall_mem_cons.mp h.nonempty
    have hlo := (h.covers lo).mp ⟨_, List.mem_cons_self, le_rfl, hle⟩
    have hhi := (h.covers hi).mp ⟨_, List.mem_cons_self, hle, le_rfl⟩
    have hfirst : lo ≤ first := by
      obtain ⟨w, hw, hin⟩ := (h.covers first).mpr ⟨le_rfl, by omega⟩
      rcases List.mem_cons.mp hw with rfl | hw
      · exact hin.1
      · exact le_trans hle (le_trans (le_of_lt (hbelow w hw)) hin.1)
    refine ⟨by omega, hle, hhi.2, hascending, hnonempty, fun b => ⟨?_, fun hb => ?_⟩⟩
    · rintro ⟨w, hw, hin⟩
      exact ⟨lt_of_lt_of_le (hbelow w hw) hin.1,
        ((h.covers b).mp ⟨w, List.mem_cons_of_mem _ hw, hin⟩).2⟩
    · obtain ⟨w, hw, hin⟩ := (h.covers b).mpr ⟨by omega, hb.2⟩
      rcases List.mem_cons.mp hw with rfl | hw
      · exact absurd hin.2 (by omega)
      · exact ⟨w, hw, hin⟩
  · rintro ⟨rfl, hle, hlast, h⟩
    refine ⟨List.pairwise_cons.mpr ⟨fun w hw => ?_, h.ascending⟩,
      List.forall_mem_cons.mpr ⟨hle, h.nonempty⟩, fun b => ?_⟩
    · exact ((h.covers w.1).mp ⟨w, hw, le_rfl, h.nonempty w hw⟩).1
    · rw [List.exists_mem_cons_iff, h.covers]
      omega

end RustUma.Found
