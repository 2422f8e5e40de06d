import Mathlib.Data.List.DropRight
import Mathlib.Data.List.Basic
import Mathlib.Data.Finset.Card

/-!
# Queues trimmed from the front

A bounded ring is a list, oldest element first, that is appended to at the back and popped at the
front while it is longer than its capacity. What is popped is folded into an accumulator (a key
set it leaves, a watermark it raises).
-/

namespace RustUma.Found

variable {α β : Type*}

def trim (cap : ℕ) (f : β → α → β) : List α → β → List α × β
  | [], b => ([], b)
  | x :: xs, b => if cap < (x :: xs).length then trim cap f xs (f b x) else (x :: xs, b)

lemma rdrop_append_rtake (xs : List α) (n : ℕ) : xs.rdrop n ++ xs.rtake n = xs := by
  exact List.take_append_drop _ _

theorem trim_eq (cap : ℕ) (f : β → α → β) (xs : List α) (b : β) :
    trim cap f xs b = (xs.rtake cap, (xs.rdrop cap).foldl f b) := by
  induction xs generalizing b with
  | nil => simp [trim]
  | cons x xs ih =>
    unfold trim
    split_ifs with h
    · have hlen : (x :: xs).length - cap = (xs.length - cap) + 1 := by
        grind
      rw [ih]
      simp only [List.rtake, List.rdrop, hlen, List.drop_succ_cons, List.take_succ_cons,
        List.foldl_cons]
    · have hlen : (x :: xs).length - cap = 0 := by omega
      simp only [List.rtake, List.rdrop, hlen, List.drop_zero, List.take_zero, List.foldl_nil]

lemma length_rtake_le (xs : List α) (n : ℕ) : (xs.rtake n).length ≤ n := by
  unfold List.rtake
  grind

lemma map_rtake (f : α → β) (xs : List α) (n : ℕ) :
    (xs.rtake n).map f = (xs.map f).rtake n := by
  unfold List.rtake
  simp

lemma rtake_suffix (xs : List α) (n : ℕ) : xs.rtake n <:+ xs := List.drop_suffix _ _

variable {xs : List α} {n : ℕ} {κ : Type*}

lemma rtake_of_length_le (h : xs.length ≤ n) : xs.rtake n = xs := by
  unfold List.rtake
  simp_all

lemma suffix_rtake_of_length_le {ys : List α} (h : ys <:+ xs) (hn : ys.length ≤ n) :
    ys <:+ xs.rtake n := by
  obtain ⟨front, rfl⟩ := h
  unfold List.rtake
  grind

lemma mem_rtake_append_left {x : α} {m : ℕ} (ys : List α) (h : x ∈ xs.rtake m)
    (hn : m + ys.length ≤ n) : x ∈ (xs ++ ys).rtake n := by
  have hsuffix : xs.rtake m ++ ys <:+ xs ++ ys := by
    obtain ⟨front, hfront⟩ := rtake_suffix xs m
    grind
  have hlength : (xs.rtake m ++ ys).length ≤ n := by
    have hle := length_rtake_le xs m
    grind
  exact (suffix_rtake_of_length_le hsuffix hlength).subset (List.mem_append_left _ h)

lemma mem_rtake_append_right {x : α} {ys : List α} {m : ℕ} (xs : List α) (h : x ∈ ys.rtake m)
    (hn : m ≤ n) : x ∈ (xs ++ ys).rtake n := by
  have hsuffix : ys.rtake m <:+ xs ++ ys := (rtake_suffix ys m).trans (List.suffix_append _ _)
  exact (suffix_rtake_of_length_le hsuffix ((length_rtake_le ys m).trans hn)).subset h

lemma rtake_append_of_rtake (xs ys : List α) (n : ℕ) :
    (xs.rtake n ++ ys).rtake n = (xs ++ ys).rtake n := by
  unfold List.rtake
  simp only [List.length_append, List.length_drop]
  rcases Nat.lt_or_ge n xs.length with h | h
  · have hdrop : xs.drop (xs.length - n) ++ ys = (xs ++ ys).drop (xs.length - n) := by
      grind
    rw [hdrop, List.drop_drop]
    congr 1
    omega
  simp_all

lemma mem_rdrop_concat_iff {cap : ℕ} (hcap : 0 < cap) (xs : List α) (x y : α) :
    y ∈ (xs ++ [x]).rdrop cap ↔
      y ∈ xs.rdrop cap ∨ y ∈ (xs.rtake cap ++ [x]).rdrop cap := by
  obtain ⟨n, rfl⟩ : ∃ n, cap = n + 1 := ⟨cap - 1, by omega⟩
  rw [List.rdrop_concat_succ, List.rdrop_concat_succ]
  constructor
  · intro hy
    rw [← rdrop_append_rtake xs (n + 1)] at hy
    unfold List.rdrop at hy ⊢
    rw [List.take_append, List.mem_append] at hy
    grind
  · rintro (hy | hy)
    · exact List.take_subset_take_left _ (by omega) hy
    · unfold List.rdrop List.rtake at hy
      rw [List.take_drop] at hy
      have hmem := List.mem_of_mem_drop hy
      refine List.take_subset_take_left _ ?_ hmem
      grind

lemma foldl_erase_toFinset [DecidableEq κ] (key : α → κ) (xs ys : List α)
    (h : ((xs ++ ys).map key).Nodup) :
    xs.foldl (fun ks x => ks.erase (key x)) ((xs ++ ys).map key).toFinset =
      (ys.map key).toFinset := by
  induction xs with
  | nil => rfl
  | cons x xs ih =>
    simp_all

lemma rdrop_foldl_erase_toFinset [DecidableEq κ] (key : α → κ) (xs : List α) (n : ℕ)
    (h : (xs.map key).Nodup) :
    (xs.rdrop n).foldl (fun ks x => ks.erase (key x)) (xs.map key).toFinset =
      ((xs.rtake n).map key).toFinset := by
  have hsplit := rdrop_append_rtake xs n
  have hfold := foldl_erase_toFinset key (xs.rdrop n) (xs.rtake n) (by rwa [hsplit])
  rwa [hsplit] at hfold

lemma card_erase_of_notMem_rtake [DecidableEq κ] (key : α → κ) (n : ℕ) (r : α) (a b : List α)
    (hnodup : (((a ++ r :: b).rtake n).map key).Nodup)
    (hgone : key r ∉ ((a ++ r :: b).rtake n).map key) :
    n ≤ ((b.map key).toFinset.erase (key r)).card := by
  have hlen : n ≤ b.length := by
    by_contra hshort
    apply hgone
    refine List.mem_map_of_mem ?_
    unfold List.rtake
    grind
  have hring : (a ++ r :: b).rtake n = b.rtake n := by
    unfold List.rtake
    have hsplit : a ++ r :: b = (a ++ [r]) ++ b := by simp
    rw [hsplit, List.drop_append, List.drop_of_length_le
      (by grind), List.nil_append]
    grind
  rw [hring] at hnodup hgone
  have hcard : ((b.rtake n).map key).toFinset.card = n := by
    rw [List.toFinset_card_of_nodup hnodup, List.length_map]
    unfold List.rtake
    grind
  calc n = ((b.rtake n).map key).toFinset.card := hcard.symm
    _ ≤ ((b.map key).toFinset.erase (key r)).card := by
        refine Finset.card_le_card ?_
        intro k hk
        rw [List.mem_toFinset] at hk
        rw [Finset.mem_erase, List.mem_toFinset]
        refine ⟨?_, ((rtake_suffix b n).sublist.map key).subset hk⟩
        grind

end RustUma.Found
