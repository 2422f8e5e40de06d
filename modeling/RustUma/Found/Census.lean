import Mathlib.Data.Finset.Card
import Mathlib.Logic.Function.Basic

/-!
# How many entries of a table have a property

The parts of a concurrent system are the entries of a table, of which finitely many are at work.
Counters that all of them write are accounted for by how many stand where.
-/

namespace RustUma.Found

variable {ι α : Type*}

def Census (f : ι → α) (p : α → Bool) (n : ℕ) : Prop :=
  ∃ S : Finset ι, (∀ i, i ∈ S ↔ p (f i) = true) ∧ S.card = n

namespace Census

variable {f : ι → α} {p : α → Bool} {n : ℕ}

lemma zero (h : ∀ i, p (f i) = false) : Census f p 0 :=
  ⟨∅, fun i => by simp [h i], Finset.card_empty⟩

lemma eq_zero (h : Census f p n) (hnone : ∀ i, p (f i) = false) : n = 0 := by
  obtain ⟨S, hS, rfl⟩ := h
  rw [Finset.card_eq_zero, Finset.eq_empty_iff_forall_notMem]
  simp_all

theorem update [DecidableEq ι] (h : Census f p n) (i : ι) (x : α) :
    ∃ m, Census (Function.update f i x) p m ∧ m + (p (f i)).toNat = n + (p x).toNat := by
  obtain ⟨S, hS, rfl⟩ := h
  -- the other entries, and this one if it has the property now
  refine ⟨((S.erase i) ∪ if p x then {i} else ∅).card, ⟨_, fun j => ?_, rfl⟩, ?_⟩
  · grind
  · have herase : (S.erase i).card + (p (f i)).toNat = S.card := by
      cases hold : p (f i) with
      | true => grind
      | false => simp_all
    have hnew : ((S.erase i) ∪ if p x then {i} else ∅).card =
        (S.erase i).card + (p x).toNat := by
      cases p x with
      | true =>
        simp
      | false => simp
    omega

end Census

end RustUma.Found
