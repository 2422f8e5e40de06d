import Mathlib.Data.List.Sort

/-!
# Stable sorting has one outcome
-/

namespace RustUma.Found

variable {α : Type*} {le : α → α → Bool} {l s s' : List α}

structure StablySorted (le : α → α → Bool) (l sorted : List α) : Prop where
  perm : sorted.Perm l
  ordered : sorted.Pairwise fun a b => le a b ∧ (le b a → [a, b].Sublist l)

lemma not_sublist_swap (hl : l.Nodup) {a b : α} (hab : [a, b].Sublist l) : ¬[b, a].Sublist l := by
  induction l with
  | nil => cases hab
  | cons x l ih =>
    grind

lemma sublist_or_swap {a b : α} (ha : a ∈ l) (hb : b ∈ l) (hne : a ≠ b) :
    [a, b].Sublist l ∨ [b, a].Sublist l := by
  induction l with
  | nil => cases ha
  | cons x l ih =>
    grind

theorem StablySorted.unique (hl : l.Nodup) (h : StablySorted le l s) (h' : StablySorted le l s') :
    s = s' := by
  refine List.Perm.eq_of_pairwise ?_ h.ordered h'.ordered (h.perm.trans h'.perm.symm)
  rintro a b - - ⟨hab, hfirst⟩ ⟨hba, hsecond⟩
  exact absurd (hsecond hab) (not_sublist_swap hl (hfirst hba))

section Total

variable (htrans : ∀ a b c, le a b = true → le b c = true → le a c = true)
  (htotal : ∀ a b, (le a b || le b a) = true)

include htrans htotal

theorem stablySorted_mergeSort (hl : l.Nodup) : StablySorted le l (l.mergeSort le) where
  perm := List.mergeSort_perm l le
  ordered := by
    have hnodup : (l.mergeSort le).Nodup := (List.mergeSort_perm l le).nodup_iff.mpr hl
    rw [List.pairwise_iff_forall_sublist]
    intro a b hab
    have hne : a ≠ b := by
      grind
    refine ⟨List.pairwise_iff_forall_sublist.mp (List.pairwise_mergeSort htrans htotal l) hab, ?_⟩
    intro hba
    have hmem : ∀ x ∈ [a, b], x ∈ l := fun x hx => List.mem_mergeSort.mp (hab.subset hx)
    refine (sublist_or_swap (hmem a (by simp)) (hmem b (by simp)) hne).resolve_right fun hswap => ?_
    -- the other way round in `l`, they would be the other way round in the result
    exact not_sublist_swap hnodup hab (List.pair_sublist_mergeSort htrans htotal hba hswap)

theorem mergeSort_band (hl : l.Nodup) {p : α → Bool} (hband : ∀ a b, p a → le a b = true)
    (habove : ∀ a b, p a → p b = false → le b a = false) :
    l.mergeSort le = l.filter p ++ (l.filter (! p ·)).mergeSort le := by
  have hrest : StablySorted le (l.filter (! p ·)) ((l.filter (! p ·)).mergeSort le) :=
    stablySorted_mergeSort htrans htotal (hl.filter _)
  refine (stablySorted_mergeSort htrans htotal hl).unique hl ⟨?_, ?_⟩
  · exact (hrest.perm.append_left _).trans (List.filter_append_perm p l)
  · refine List.pairwise_append.mpr ⟨?_, ?_, ?_⟩
    · rw [List.pairwise_iff_forall_sublist]
      intro a b hab
      have ha : a ∈ l.filter p := hab.subset (by simp)
      exact ⟨hband a b (List.mem_filter.mp ha).2, fun _ => hab.trans List.filter_sublist⟩
    · exact hrest.ordered.imp fun ⟨hle, hfirst⟩ =>
        ⟨hle, fun hba => (hfirst hba).trans List.filter_sublist⟩
    simp_all

end Total

end RustUma.Found
