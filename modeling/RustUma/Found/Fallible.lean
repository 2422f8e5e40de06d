import Mathlib.Data.List.Basic

/-!
# Computations that return an error, and computations that abort
-/

namespace RustUma.Found

variable {ε σ α β : Type}

lemma bind_eq_ok_iff {x : Except ε α} {f : α → Except ε β} {b : β} :
    (x >>= f) = .ok b ↔ ∃ a, x = .ok a ∧ f a = .ok b := by
  cases x with
  | error e =>
    refine iff_of_false (fun h => by cases h) ?_
    simp
  | ok a =>
    refine ⟨fun h => ⟨a, rfl, h⟩, ?_⟩
    rintro ⟨a', h, hf⟩
    cases h
    exact hf

lemma exceptMap_eq_ok {x : Except ε α} {f : α → β} {b : β} (h : x.map f = .ok b) :
    ∃ a, x = .ok a ∧ f a = b := by
  cases x with
  | error e => cases h
  | ok a => exact ⟨a, rfl, Except.ok.inj h⟩

lemma foldlM_cons_eq_ok {step : σ → α → Except ε σ} {s s' : σ} {x : α} {xs : List α}
    (h : (x :: xs).foldlM step s = .ok s') :
    ∃ t, step s x = .ok t ∧ xs.foldlM step t = .ok s' := by
  exact bind_eq_ok_iff.mp h

/-! ## Aborting -/

abbrev Aborting (ε α : Type) := ExceptT ε Option α

def returns (x : Except ε α) : Aborting ε α := ExceptT.mk (some x)

def orAbort : Option α → Aborting ε α
  | some a => returns (.ok a)
  | none => ExceptT.mk none

@[simp] lemma orAbort_some (a : α) : (orAbort (some a) : Aborting ε α) = returns (.ok a) := rfl

@[simp] lemma returns_ok_bind (a : α) (f : α → Aborting ε β) : (returns (.ok a) >>= f) = f a := rfl

@[simp] lemma pure_eq_returns (a : α) : (pure a : Aborting ε α) = returns (.ok a) := rfl

@[simp] lemma run_returns (x : Except ε α) : (returns x).run = some x := rfl

lemma returns_bind {x : Except ε α} {f : α → Aborting ε β} {g : α → Except ε β}
    (h : ∀ a, x = .ok a → f a = returns (g a)) : (returns x >>= f) = returns (x >>= g) := by
  cases x with
  | error e => rfl
  | ok a => exact h a rfl

end RustUma.Found
