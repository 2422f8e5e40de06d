import Mathlib.Data.List.DropRight
import Mathlib.Data.List.TakeDrop

/-!
# Histories

What a system has recorded, the oldest entry first, and what can be said of it when more is
recorded.
-/

namespace RustUma.Found

variable {α : Type*} {Q : List α → α → Prop} {F K : α → Prop} {h : List α} {x : α} {n : ℕ}

def Once (Q : List α → α → Prop) (h : List α) (n : ℕ) : Prop := ∃ x ∈ h[n]?, Q (h.take n) x

def Every (Q : List α → α → Prop) (h : List α) : Prop := ∀ n, ∀ x ∈ h[n]?, Q (h.take n) x

def Since (F K : α → Prop) (h : List α) : Prop :=
  ∃ before x after, h = before ++ x :: after ∧ F x ∧ ∀ y ∈ x :: after, K y

lemma Once.lt_length (hQ : Once Q h n) : n < h.length := by
  obtain ⟨x, hx, -⟩ := hQ
  grind

lemma Once.concat (hQ : Once Q h n) (y : α) : Once Q (h ++ [y]) n := by
  have hlt := hQ.lt_length
  obtain ⟨x, hx, hQ⟩ := hQ
  refine ⟨x, ?_, ?_⟩
  · grind
  grind

lemma once_last (hQ : Q h x) : Once Q (h ++ [x]) h.length := by
  refine ⟨x, ?_, ?_⟩
  · simp
  simp_all

lemma every_nil : Every Q [] := by
  intro n x hx
  cases hx

lemma Every.concat (hQ : Every Q h) (hx : Q h x) : Every Q (h ++ [x]) := by
  intro n y hy
  rcases lt_trichotomy n h.length with hlt | rfl | hgt
  · rw [List.getElem?_append_left hlt] at hy
    rw [List.take_append_of_le_length hlt.le]
    exact hQ n y hy
  · simp_all
  grind

lemma Since.concat (hsince : Since F K h) (hx : K x) : Since F K (h ++ [x]) := by
  obtain ⟨before, y, after, rfl, hF, hK⟩ := hsince
  refine ⟨before, y, after ++ [x], ?_, hF, ?_⟩
  · simp
  grind

lemma since_last (hF : F x) (hK : K x) : Since F K (h ++ [x]) := by
  refine ⟨h, x, [], rfl, hF, fun y hy => ?_⟩
  simp_all

lemma Since.imp {F' : α → Prop} (hsince : Since F K h) (himp : ∀ x ∈ h, F x → F' x) :
    Since F' K h := by
  obtain ⟨before, y, after, rfl, hF, hK⟩ := hsince
  exact ⟨before, y, after, rfl, himp y (List.mem_append_right _ List.mem_cons_self) hF, hK⟩

end RustUma.Found
