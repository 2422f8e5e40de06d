import Mathlib.Data.List.Chain
import Mathlib.Data.List.TakeWhile
import RustUma.Console.AlertRules

/-!
# Growth of a counter (`src/console/alerts.rs` `Series`, `Engine::counter`)

A counter goes up one by one and is reset to zero now and then; the console sees only its samples.
Between two samples it counts the difference, or the whole value if the counter fell. A reset may
hide behind later growth, and the front of the series is dropped, so the count is a lower bound.
-/

namespace RustUma.Console

open RustUma.Found

inductive CounterEvent
  | inc
  | reset
  deriving DecidableEq

def CounterEvent.apply (value : ℕ) : CounterEvent → ℕ
  | inc => value + 1
  | reset => 0

structure Observation where
  at_ : ℕ
  value : ℕ
  since : List CounterEvent
  deriving DecidableEq

namespace Observation

def sample (o : Observation) : ℕ × ℕ := (o.at_, o.value)

def Follows (a b : Observation) : Prop :=
  a.at_ < b.at_ ∧ b.value = b.since.foldl CounterEvent.apply a.value

def incs (o : Observation) : ℕ := o.since.count .inc

end Observation

def IsBaseline (start : ℕ) (earlier : List Observation) (baseline : Observation)
    (later : List Observation) : Prop :=
  (∀ o ∈ later, start ≤ o.at_) ∧ (baseline.at_ < start ∨ start ≤ baseline.at_ ∧ earlier = [])

def increments (later : List Observation) : ℕ := (later.map Observation.incs).sum

def Series.sampled (os : List Observation) : Series :=
  os.foldl (fun series o => series.push o.at_ o.value) ([] : List (ℕ × ℕ))

lemma Series.sampled_concat (os : List Observation) (o : Observation) :
    Series.sampled (os ++ [o]) = (Series.sampled os).push o.at_ o.value :=
  List.foldl_concat _ _ o os

/-! ## Between two samples -/

lemma foldl_apply (events : List CounterEvent) (value : ℕ) :
    events.foldl CounterEvent.apply value = value + events.count .inc ∨
      .reset ∈ events ∧ events.foldl CounterEvent.apply value ≤ events.count .inc := by
  induction events generalizing value with
  | nil => exact Or.inl rfl
  | cons event events ih =>
    cases event with
    | inc =>
      grind [CounterEvent.apply]
    | reset =>
      grind [CounterEvent.apply]

def growth (before value : ℕ) : ℕ := if before ≤ value then value - before else value

section Between

variable {a b : Observation}

lemma growth_le (h : a.Follows b) : growth a.value b.value ≤ b.incs := by
  unfold growth Observation.incs
  rw [h.2]
  grind [foldl_apply]

lemma value_eq (h : a.Follows b) (hreset : .reset ∉ b.since) : b.value = a.value + b.incs := by
  rcases foldl_apply b.since a.value with hall | ⟨hmem, -⟩
  · exact h.2.trans hall
  grind

lemma growth_eq (h : a.Follows b) (hreset : .reset ∉ b.since) :
    growth a.value b.value = b.incs := by
  rw [growth, value_eq h hreset, if_pos (by omega)]
  omega

end Between

/-! ## Along the kept samples -/

section Kept

variable {start : ℕ} {o : Observation} {os : List Observation}

lemma increaseFrom_cons {before : ℕ} :
    Series.increaseFrom start (some before) ((o :: os).map Observation.sample) =
      (if start ≤ o.at_ then growth before o.value else 0) +
        Series.increaseFrom start (some o.value) (os.map Observation.sample) := rfl

lemma increaseFrom_later (hchain : (o :: os).IsChain Observation.Follows)
    (hlater : ∀ p ∈ os, start ≤ p.at_) :
    Series.increaseFrom start (some o.value) (os.map Observation.sample) ≤ increments os ∧
      ((∀ p ∈ os, .reset ∉ p.since) → (∀ p ∈ o :: os, p.value < 2 ^ 64) →
        Series.increaseFrom start (some o.value) (os.map Observation.sample) = increments os ∧
          o.value + increments os < 2 ^ 64) := by
  induction os generalizing o with
  | nil => exact ⟨le_rfl, fun _ hvalue => ⟨rfl, hvalue o List.mem_cons_self⟩⟩
  | cons p os ih =>
    obtain ⟨hfollows, hchain⟩ := List.isChain_cons_cons.mp hchain
    rw [List.forall_mem_cons] at hlater
    obtain ⟨hle, heq⟩ := ih hchain hlater.2
    have hsum : increments (p :: os) = p.incs + increments os := by simp [increments]
    rw [increaseFrom_cons, if_pos hlater.1]
    refine ⟨Nat.add_le_add (growth_le hfollows) hle, ?_⟩
    intro hreset hvalue
    rw [List.forall_mem_cons] at hreset hvalue
    grind [growth_eq, value_eq]

lemma exists_baseline_of_lt (hchain : (o :: os).IsChain Observation.Follows) (ho : o.at_ < start) :
    ∃ earlier baseline later, o :: os = earlier ++ baseline :: later ∧
      (∀ p ∈ later, start ≤ p.at_) ∧ baseline.at_ < start ∧
      Series.increaseFrom start (some o.value) (os.map Observation.sample) =
        Series.increaseFrom start (some baseline.value) (later.map Observation.sample) := by
  induction os generalizing o with
  | nil => exact ⟨[], o, [], rfl, by simp, ho, rfl⟩
  | cons p os ih =>
    have hsorted : (o :: p :: os).Pairwise fun a b => a.at_ < b.at_ :=
      List.isChain_iff_pairwise.mp (hchain.imp fun _ _ h => h.1)
    by_cases hp : start ≤ p.at_
    · refine ⟨[], o, p :: os, rfl, ?_, ho, rfl⟩
      intro q hq
      rcases List.mem_cons.mp hq with rfl | hq
      · exact hp
      · exact hp.trans (List.rel_of_pairwise_cons hsorted.of_cons hq).le
    · obtain ⟨earlier, baseline, later, heq, hlater, hbaseline, hincrease⟩ :=
        ih (List.isChain_cons_cons.mp hchain).2 (by omega)
      refine ⟨o :: earlier, baseline, later, by rw [heq]; rfl, hlater, hbaseline, ?_⟩
      rw [increaseFrom_cons, if_neg hp, Nat.zero_add, hincrease]

lemma exists_baseline (start : ℕ) (hchain : (o :: os).IsChain Observation.Follows) :
    ∃ earlier baseline later, o :: os = earlier ++ baseline :: later ∧
      IsBaseline start earlier baseline later ∧
      Series.increaseFrom start none ((o :: os).map Observation.sample) =
        Series.increaseFrom start (some baseline.value) (later.map Observation.sample) := by
  have hfirst : Series.increaseFrom start none ((o :: os).map Observation.sample) =
      Series.increaseFrom start (some o.value) (os.map Observation.sample) := Nat.zero_add _
  rw [hfirst]
  by_cases ho : start ≤ o.at_
  · have hsorted : (o :: os).Pairwise fun a b => a.at_ < b.at_ :=
      List.isChain_iff_pairwise.mp (hchain.imp fun _ _ h => h.1)
    refine ⟨[], o, os, rfl, ⟨?_, Or.inr ⟨ho, rfl⟩⟩, rfl⟩
    intro p hp
    exact ho.trans (List.rel_of_pairwise_cons hsorted hp).le
  · obtain ⟨earlier, baseline, later, heq, hlater, hbaseline, hincrease⟩ :=
      exists_baseline_of_lt hchain (not_le.mp ho)
    exact ⟨earlier, baseline, later, heq, ⟨hlater, Or.inl hbaseline⟩, hincrease⟩

lemma exists_kept (os : List Observation) :
    ∃ kept, kept <:+ os ∧ Series.sampled os = kept.map Observation.sample ∧
      (os ≠ [] → kept ≠ []) := by
  induction os using List.reverseRecOn with
  | nil => exact ⟨[], List.suffix_refl [], rfl, fun h => h⟩
  | append_singleton os o ih =>
    obtain ⟨kept, hsuffix, hsampled, -⟩ := ih
    let old (p : Observation) : Bool := seriesKeepMs < o.at_ - p.at_
    have hpush : Series.sampled (os ++ [o]) =
        ((kept ++ [o]).dropWhile old).map Observation.sample := by
      rw [Series.sampled_concat, hsampled]
      calc (kept.map Observation.sample ++ [o.sample]).dropWhile
            (fun sample => decide (seriesKeepMs < o.at_ - sample.1))
        _ = ((kept ++ [o]).map Observation.sample).dropWhile
            (fun sample => decide (seriesKeepMs < o.at_ - sample.1)) := by simp
        _ = ((kept ++ [o]).dropWhile old).map Observation.sample := List.dropWhile_map
    refine ⟨(kept ++ [o]).dropWhile old, ?_, hpush, fun _ hnil => ?_⟩
    · exact (List.dropWhile_suffix old).trans (List.suffix_append_self_iff.mpr hsuffix)
    grind [List.dropWhile_eq_nil_iff]

end Kept

theorem windowed_increase_le (os : List Observation) (hos : os ≠ [])
    (hchain : os.IsChain Observation.Follows) (now windowMs : ℕ) :
    ∃ earlier baseline later, earlier ++ baseline :: later <:+ os ∧
      Series.sampled os = (earlier ++ baseline :: later).map Observation.sample ∧
      IsBaseline (now - windowMs) earlier baseline later ∧
      (Series.sampled os).increase now windowMs ≤ increments later ∧
      ((∀ o ∈ later, .reset ∉ o.since) → (∀ o ∈ os, o.value < 2 ^ 64) →
        (Series.sampled os).increase now windowMs = increments later) ∧
      ∀ before o series rule subject key threshold detail, os = before ++ [o] → now = o.at_ →
        (series.get? key).getD ([] : List (ℕ × ℕ)) = Series.sampled before →
        (checkCounter now rule subject key (some o.value) windowMs threshold detail series).1 ≠ [] →
          threshold ≤ increments later := by
  obtain ⟨kept, hsuffix, hsampled, hkept⟩ := exists_kept os
  obtain ⟨o, rest, rfl⟩ := List.exists_cons_of_ne_nil (hkept hos)
  have hkeptChain := hchain.suffix hsuffix
  obtain ⟨earlier, baseline, later, heq, hbaseline, hincrease⟩ :=
    exists_baseline (now - windowMs) hkeptChain
  have hlaterChain : (baseline :: later).IsChain Observation.Follows := by
    rw [heq] at hkeptChain
    exact hkeptChain.right_of_append
  obtain ⟨hle, hexact⟩ := increaseFrom_later hlaterChain hbaseline.1
  have hval : (Series.sampled os).increase now windowMs = wrap (Series.increaseFrom
      (now - windowMs) (some baseline.value) (later.map Observation.sample)) := by
    rw [Series.increase, hsampled, hincrease]
  have hbound : (Series.sampled os).increase now windowMs ≤ increments later := by
    rw [hval]
    exact (Nat.mod_le _ _).trans hle
  rw [heq] at hsuffix hsampled
  refine ⟨earlier, baseline, later, hsuffix, hsampled, hbaseline, hbound, ?_, ?_⟩
  · intro hreset hvalue
    have hmem : ∀ p ∈ baseline :: later, p ∈ os := by
      intro p hp
      exact hsuffix.subset (List.mem_append_right _ hp)
    obtain ⟨hcount, hlt⟩ := hexact hreset fun p hp => hvalue p (hmem p hp)
    rw [hval, hcount]
    exact Nat.mod_eq_of_lt (by omega)
  · rintro before o series rule subject key threshold detail rfl rfl hseries hfound
    have hcounted : (checkCounter o.at_ rule subject key (some o.value) windowMs threshold
        detail series).1 = if threshold ≤ (Series.sampled (before ++ [o])).increase o.at_ windowMs
          then [finding rule subject (detail ((Series.sampled (before ++ [o])).increase o.at_
            windowMs)) 0] else [] := by
      rw [Series.sampled_concat, ← hseries]
      rfl
    grind

def testObservations : List Observation :=
  [⟨0, 5, []⟩, ⟨10, 7, [.inc, .inc]⟩, ⟨20, 1, [.reset, .inc]⟩]

theorem windowed_increase_le_of_three :
    testObservations ≠ [] ∧ testObservations.IsChain Observation.Follows ∧
      (Series.sampled testObservations).increase 20 15 = 3 ∧
      ∃ earlier baseline later,
        Series.sampled testObservations = (earlier ++ baseline :: later).map Observation.sample ∧
        IsBaseline 5 earlier baseline later ∧ 3 ≤ increments later := by
  have hchain : testObservations.IsChain Observation.Follows := by
    simp [testObservations, List.isChain_cons_cons, Observation.Follows, CounterEvent.apply]
  have hne : testObservations ≠ [] := by simp [testObservations]
  have hincrease : (Series.sampled testObservations).increase 20 15 = 3 := by decide +kernel
  obtain ⟨earlier, baseline, later, -, hsampled, hbaseline, hle, -⟩ :=
    windowed_increase_le testObservations hne hchain 20 15
  grind

end RustUma.Console
