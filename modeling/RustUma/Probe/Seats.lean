import Mathlib.Data.List.DropRight
import Mathlib.Data.List.Sort
import Mathlib.Data.Set.Finite.Lemmas
import Mathlib.Data.Set.Finite.List

/-!
# The seats of the probe (`tools/p2p-mempool-probe/seats.go` `seatEval`)

A score is a value of any linear order. A map is ranged over in any order.
-/

namespace RustUma.Probe

inductive SeatState where
  | candidate
  | trial
  | core
  | lost
  | cooldown
  deriving DecidableEq

structure Seat (φ : Type) where
  id : String
  addr : List Char := []
  state : SeatState := .candidate
  stats : φ
  below : ℕ := 0
  cooldownUntil : ℕ := 0
  cooldownCount : ℕ := 0
  coreSince : ℕ := 0
  lostSince : ℕ := 0
  obsDone : Bool := false
  online : Bool := false
  explore : Bool := false
  sessionStart : ℕ := 0
  deriving DecidableEq

structure SeatConfig (σ : Type) where
  promote : σ
  demote : σ
  demoteRounds : ℕ
  coreMax : ℕ
  trialSeats : ℕ
  observeForUs : ℕ
  lostToleranceUs : ℕ
  usFloor : ℕ
  exploreExtra : ℕ

structure Measures (φ σ : Type) where
  score : φ → σ
  weighed : φ → Bool

structure Moment (φ : Type) where
  now : ℕ
  geo : List Char → Bool
  settle : Seat φ → φ
  heard : φ → Bool

structure Visits (φ : Type) where
  visit : ℕ → List (Seat φ) → List (Seat φ)
  perm : ∀ i seats, (visit i seats).Perm seats

variable {φ σ : Type}

namespace Seat

def dayUs : ℕ := 86400000000

def host (addr : List Char) : List Char :=
  let upTo := addr.rdropWhile (· ≠ ':')
  if 1 < upTo.length then upTo.dropLast else addr

def isUS (moment : Moment φ) (s : Seat φ) : Bool := moment.geo (host s.addr)

def isCore (s : Seat φ) : Bool := decide (s.state = .core)

def isCoreUS (moment : Moment φ) (s : Seat φ) : Bool := s.isCore && s.isUS moment

def toCore (now : ℕ) (s : Seat φ) : Seat φ :=
  { s with state := .core, coreSince := now, below := 0, lostSince := 0 }

def coreToTrial (s : Seat φ) : Seat φ := { s with state := .trial, obsDone := true, below := 0 }

def rested (now : ℕ) (s : Seat φ) : Seat φ :=
  { s with
    cooldownCount :=
      if 0 < s.coreSince ∧ 7 * dayUs < now - s.coreSince then 0 else s.cooldownCount }

def toCooldown (now : ℕ) (silent : Bool) (s : Seat φ) : Seat φ :=
  let count := s.cooldownCount + 1
  { s with
    state := .cooldown
    cooldownCount := count
    cooldownUntil := now +
      if 3 ≤ count then 7 * dayUs else if count = 2 ∨ silent then 3 * dayUs else dayUs }

end Seat

/-! ## The passes of an evaluation -/

section Passes

variable [LinearOrder σ] (cfg : SeatConfig σ) (measures : Measures φ σ) (moment : Moment φ)

def grade (s : Seat φ) : Seat φ :=
  { s with below := if measures.score s.stats < cfg.demote then s.below + 1 else 0 }

def demoteOne (usCore : ℕ) (s : Seat φ) : ℕ × Seat φ :=
  if s.isCore ∧ s.online ∧ measures.weighed s.stats then
    let graded := grade cfg measures s
    if graded.below < cfg.demoteRounds then (usCore, graded.rested moment.now)
    else if s.isUS moment then
      if usCore ≤ cfg.usFloor then (usCore, graded)
      else (usCore - 1, graded.coreToTrial.rested moment.now)
    else (usCore, graded.coreToTrial.rested moment.now)
  else (usCore, s)

def demote : ℕ → List (Seat φ) → List (Seat φ)
  | _, [] => []
  | usCore, s :: seats =>
    let next := demoteOne cfg measures moment usCore s
    next.2 :: demote next.1 seats

def timeOut (s : Seat φ) : Seat φ :=
  if s.state = .lost ∧ 0 < s.lostSince ∧ cfg.lostToleranceUs < moment.now - s.lostSince then
    { s with state := .candidate }
  else s

def promote (s : Seat φ) : Seat φ :=
  if s.state = .trial ∧ s.online ∧ ¬s.explore ∧ (s.obsDone ∨
      (cfg.observeForUs ≤ moment.now - s.sessionStart ∧ moment.heard s.stats)) then
    let s := { s with obsDone := true }
    if cfg.promote ≤ measures.score s.stats then s.toCore moment.now else s
  else s

def promoteLate (s : Seat φ) : Seat φ := promote cfg measures moment (timeOut cfg moment s)

def ranking (seats : List (Seat φ)) : List (Seat φ) :=
  (seats.filter Seat.isCore).insertionSort fun s t => measures.score s.stats ≤ measures.score t.stats

def cap (seats : List (Seat φ)) : List (Seat φ) :=
  let cs := ranking measures seats
  (cs.take (cs.length - cfg.coreMax)).map Seat.coreToTrial ++ cs.drop (cs.length - cfg.coreMax) ++
    seats.filter fun s => !s.isCore

def worst (seats : List (Seat φ)) : Option (Seat φ) :=
  (seats.filter fun s => decide (s.state = .trial) && s.online && !s.explore && s.obsDone).foldl
    (fun found s => match found with
      | some w => if measures.score s.stats < measures.score w.stats then some s else some w
      | none => some s) none

def evict [DecidableEq φ] (seats : List (Seat φ)) : List (Seat φ) :=
  match worst measures seats with
  | some w => seats.map fun s => if s = w then s.toCooldown moment.now false else s
  | none => seats

def settled (seats : List (Seat φ)) : List (Seat φ) :=
  seats.map fun s => { s with stats := moment.settle s }

variable (visits : Visits φ) (seats : List (Seat φ))

def promoted : List (Seat φ) :=
  (demote cfg measures moment ((settled moment seats).countP (Seat.isCoreUS moment))
    (visits.visit 0 (settled moment seats))).map (promoteLate cfg measures moment)

def seatEval [DecidableEq φ] : List (Seat φ) :=
  evict measures moment (visits.visit 2
    (cap cfg measures (visits.visit 1 (promoted cfg measures moment visits seats))))

end Passes

/-! ## Whom the limits take -/

section Limits

variable [LinearOrder σ] (cfg : SeatConfig σ) (measures : Measures φ σ) (moment : Moment φ)

def Falls (s : Seat φ) : Prop :=
  s.isCore ∧ s.online ∧ measures.weighed s.stats ∧ cfg.demoteRounds ≤ (grade cfg measures s).below

def Rises (s : Seat φ) : Prop :=
  s.online ∧ ¬s.explore ∧ cfg.promote ≤ measures.score s.stats ∧
    (Falls cfg measures s ∨ s.state = .trial ∧ (s.obsDone ∨
      cfg.observeForUs ≤ moment.now - s.sessionStart ∧ moment.heard s.stats))

instance : DecidablePred (Falls cfg measures) := fun _ => inferInstanceAs (Decidable (_ ∧ _))

instance : DecidablePred (Rises cfg measures moment) := fun _ => inferInstanceAs (Decidable (_ ∧ _))

def stays (s : Seat φ) : Bool := s.isCore ∧ ¬Falls cfg measures s ∨ Rises cfg measures moment s

def atRisk (s : Seat φ) : Bool :=
  s.isUS moment ∧ Falls cfg measures s ∧ ¬Rises cfg measures moment s

def usLeast (seats : List (Seat φ)) : ℕ := min cfg.usFloor (seats.countP (Seat.isCoreUS moment))

def reachUS (x : σ) (s : Seat φ) : Bool := s.isUS moment && decide (x ≤ measures.score s.stats)

def reachOther (x : σ) (s : Seat φ) : Bool :=
  !s.isUS moment && decide (x ≤ measures.score s.stats)

def FloorKept (settled : List (Seat φ)) : Prop :=
  usLeast cfg moment settled = 0 ∨ ∃ x : σ,
    settled.countP (fun s => stays cfg measures moment s && reachOther measures moment x s) +
      usLeast cfg moment settled ≤ cfg.coreMax ∧
    usLeast cfg moment settled ≤
      settled.countP (fun s => stays cfg measures moment s && reachUS measures moment x s) +
      (settled.countP (fun s => atRisk cfg measures moment s && reachUS measures moment x s) -
        (settled.countP (Seat.isCoreUS moment) - cfg.usFloor))

end Limits

/-! ## The highest scores of a list -/

section Highest

variable {α : Type} [LinearOrder σ] (f : α → σ) (q : α → Bool)

def Ranked (a b : α) : Prop := f a < f b ∨ f a = f b ∧ (q b → q a)

variable {f q} {l : List α}

lemma ranked_orderedInsert {a : α} (hl : l.Pairwise (Ranked f q))
    (ha : q a = true ∨ ∀ b ∈ l, q b = false) :
    (l.orderedInsert (fun a b => f a ≤ f b) a).Pairwise (Ranked f q) := by
  induction l with
  | nil => exact List.pairwise_singleton _ _
  | cons b l ih =>
    obtain ⟨hb, hl'⟩ := List.pairwise_cons.mp hl
    rw [List.orderedInsert_cons]
    split_ifs with hab
    · refine List.pairwise_cons.mpr ⟨fun c hc => ?_, hl⟩
      have hbc : f b ≤ f c := by
        rcases List.mem_cons.mp hc with rfl | hc
        · exact le_rfl
        · exact (hb c hc).elim le_of_lt fun h => h.1.le
      rcases (hab.trans hbc).lt_or_eq with hlt | heq
      · exact Or.inl hlt
      · exact Or.inr ⟨heq, fun hq => ha.resolve_right fun h => by simp [h c hc] at hq⟩
    · refine List.pairwise_cons.mpr ⟨fun c hc => ?_, ih hl' (ha.imp_right fun h c hc => ?_)⟩
      · rcases (List.mem_orderedInsert _).mp hc with rfl | hc
        · exact Or.inl (lt_of_not_ge hab)
        · exact hb c hc
      · exact h c (List.mem_cons_of_mem _ hc)

lemma ranked_insertionSort (l : List α) :
    ((l.filter q ++ l.filter fun a => !q a).insertionSort fun a b => f a ≤ f b).Pairwise
      (Ranked f q) := by
  have hrest : ∀ l : List α, (∀ a ∈ l, q a = false) →
      (l.insertionSort fun a b => f a ≤ f b).Pairwise (Ranked f q) := by
    intro l hl
    induction l with
    | nil => exact List.Pairwise.nil
    | cons a l ih =>
      refine ranked_orderedInsert (ih fun b hb => hl b (List.mem_cons_of_mem _ hb)) (Or.inr ?_)
      intro b hb
      exact hl b (List.mem_cons_of_mem _ ((List.mem_insertionSort _).mp hb))
  have hfirst : ∀ a ∈ l.filter q, q a = true := fun a ha => (List.mem_filter.mp ha).2
  generalize l.filter q = first at *
  induction first with
  | nil => exact hrest _ fun a ha => by simpa using (List.mem_filter.mp ha).2
  | cons a first ih =>
    rw [List.forall_mem_cons] at hfirst
    exact ranked_orderedInsert (ih hfirst.2) (Or.inl hfirst.1)

lemma le_countP_drop {m k : ℕ} {x : σ} (hl : l.Pairwise fun a b => f a ≤ f b)
    (hfew : l.countP (fun a => !q a && decide (x ≤ f a)) + k ≤ m)
    (hmany : k ≤ l.countP fun a => q a && decide (x ≤ f a)) :
    k ≤ (l.drop (l.length - m)).countP q := by
  have hq : ∀ high : List α, high.countP (fun a => q a && decide (x ≤ f a)) ≤ high.countP q :=
    fun high => List.countP_mono_left fun a _ h => (Bool.and_eq_true_iff.mp h).1
  rcases Nat.le_total l.length m with hle | hle
  · rw [Nat.sub_eq_zero_of_le hle, List.drop_zero]
    exact hmany.trans (hq l)
  have hsplit := List.take_append_drop (l.length - m) l
  have hlength : (l.drop (l.length - m)).length = m := by
    rw [List.length_drop]
    omega
  generalize l.drop (l.length - m) = high at *
  generalize l.take (l.length - m) = low at *
  subst hsplit
  rw [List.countP_append] at hfew hmany
  by_cases hx : ∀ a ∈ high, x ≤ f a
  · have hothers : high.countP (fun a => ¬q a) = high.countP fun a => !q a && decide (x ≤ f a) :=
      List.countP_congr fun a ha => by simp [hx a ha]
    have hsum := List.length_eq_countP_add_countP q (l := high)
    omega
  · -- Nobody below reaches the score.
    push Not at hx
    obtain ⟨c, hc, hlt⟩ := hx
    have hnone : low.countP (fun a => q a && decide (x ≤ f a)) = 0 := by
      rw [List.countP_eq_zero]
      intro a ha
      simp [(((List.pairwise_append.mp hl).2.2 a ha c hc).trans_lt hlt).not_ge]
    exact (hmany.trans_eq (by rw [hnone, Nat.zero_add])).trans (hq high)

lemma exists_score {m k : ℕ} (hk : 0 < k) (hl : l.Pairwise (Ranked f q))
    (hdrop : k ≤ (l.drop (l.length - m)).countP q) :
    ∃ c ∈ l, q c = true ∧ l.countP (fun a => !q a && decide (f c ≤ f a)) + k ≤ m ∧
      k ≤ l.countP fun a => q a && decide (f c ≤ f a) := by
  have hsplit := List.take_append_drop (l.length - m) l
  have hlength : (l.drop (l.length - m)).length ≤ m := by
    rw [List.length_drop]
    omega
  generalize l.drop (l.length - m) = high at *
  generalize l.take (l.length - m) = low at *
  -- The lowest of `q` among them; the others above its score come after it.
  obtain ⟨c, hfind⟩ := Option.isSome_iff_exists.mp
    (List.find?_isSome.mpr (List.countP_pos_iff.mp (hk.trans_le hdrop)))
  obtain ⟨hc, before, after, rfl, hbefore⟩ := List.find?_eq_some_iff_append.mp hfind
  subst hsplit
  have hranked := hl
  rw [← List.append_assoc, List.pairwise_append] at hranked
  obtain ⟨-, hafter, hcross⟩ := hranked
  have hlow : ∀ a ∈ low ++ before, (!q a && decide (f c ≤ f a)) = false := by
    intro a ha
    rcases hcross a ha c List.mem_cons_self with hlt | ⟨-, hq⟩
    · simp [hlt.not_ge]
    · simp [hq hc]
  have hhigh : ∀ a ∈ after, f c ≤ f a := fun a ha =>
    ((List.pairwise_cons.mp hafter).1 a ha).elim le_of_lt fun h => h.1.le
  have hq : (before ++ c :: after).countP q = (c :: after).countP q := by
    rw [List.countP_append, List.countP_eq_zero.mpr fun a ha => by simpa using hbefore a ha,
      Nat.zero_add]
  have hothers : (low ++ (before ++ c :: after)).countP (fun a => !q a && decide (f c ≤ f a)) ≤
      (c :: after).countP fun a => ¬q a := by
    rw [← List.append_assoc, List.countP_append, List.countP_eq_zero.mpr fun a ha => by
      simp only [hlow a ha, Bool.false_eq_true, not_false_eq_true], Nat.zero_add]
    exact List.countP_mono_left fun a _ h => by simp_all
  have hsum := List.length_eq_countP_add_countP q (l := c :: after)
  rw [List.length_append] at hlength
  rw [hq] at hdrop
  refine ⟨c, by simp, hc, by omega, hdrop.trans ?_⟩
  rw [← List.append_assoc, List.countP_append]
  refine le_trans (List.countP_mono_left fun a ha hqa => ?_) (Nat.le_add_left _ _)
  rcases List.mem_cons.mp ha with rfl | ha
  · simp [hqa]
  · simp [hqa, hhigh a ha]

end Highest

/-! ## How many seats are core -/

section Counts

variable [LinearOrder σ] {cfg : SeatConfig σ} {measures : Measures φ σ} {moment : Moment φ}
  {visits : Visits φ} {seats : List (Seat φ)}

lemma trial_of_worst {w : Seat φ} (h : worst measures seats = some w) : w.state = .trial := by
  unfold worst at h
  revert h w
  apply List.foldlRecOn (motive := fun found : Option (Seat φ) =>
    ∀ {w}, found = some w → w.state = .trial)
  · nofun
  grind

lemma countP_evict [DecidableEq φ] {q : Seat φ → Bool} (hq : ∀ s, q s = true → s.isCore = true) :
    (evict measures moment seats).countP q = seats.countP q := by
  unfold evict
  split
  case h_1 w hw =>
    rw [List.countP_map]
    refine List.countP_congr fun s _ => ?_
    have hw := trial_of_worst hw
    by_cases hs : s = w
    · have hcool : ¬q (s.toCooldown moment.now false) := fun h => by
        simpa [Seat.isCore, Seat.toCooldown] using hq _ h
      have hnot : ¬q s := fun h => by simpa [Seat.isCore, hs, hw] using hq s h
      simp_all
    · simp [hs]
  case h_2 => rfl

lemma isCore_of_mem_ranking {s : Seat φ} (h : s ∈ ranking measures seats) : s.isCore = true :=
  (List.mem_filter.mp ((List.mem_insertionSort _).mp h)).2

lemma countP_ranking (q : Seat φ → Bool) :
    (ranking measures seats).countP q = seats.countP fun s => s.isCore && q s := by
  rw [ranking, (List.perm_insertionSort _ _).countP_eq, List.countP_filter]
  exact List.countP_congr fun s _ => by rw [Bool.and_comm]

lemma countP_cap (q : Seat φ → Bool) : (cap cfg measures seats).countP (fun s => s.isCore && q s) =
    ((ranking measures seats).drop ((ranking measures seats).length - cfg.coreMax)).countP q := by
  have htaken : ∀ l : List (Seat φ),
      (l.map Seat.coreToTrial).countP (fun s => s.isCore && q s) = 0 := fun l => by
    rw [List.countP_eq_zero]
    simp [Seat.coreToTrial, Seat.isCore]
  have hothers : (seats.filter fun s => !s.isCore).countP (fun s => s.isCore && q s) = 0 := by
    rw [List.countP_eq_zero]
    grind
  rw [cap, List.countP_append, List.countP_append, htaken, hothers, Nat.zero_add, Nat.add_zero]
  refine List.countP_congr fun s hs => ?_
  rw [isCore_of_mem_ranking (List.mem_of_mem_drop hs), Bool.true_and]

lemma promoteLate_spec (s : Seat φ) :
    ((promoteLate cfg measures moment s).isCore = true ↔ s.isCore = true ∨ s.state = .trial ∧
        s.online = true ∧ s.explore = false ∧ (s.obsDone = true ∨
          cfg.observeForUs ≤ moment.now - s.sessionStart ∧ moment.heard s.stats = true) ∧
        cfg.promote ≤ measures.score s.stats) ∧
      (promoteLate cfg measures moment s).isUS moment = s.isUS moment ∧
      (promoteLate cfg measures moment s).stats = s.stats := by
  unfold promoteLate timeOut promote
  dsimp only
  split_ifs <;> simp_all [Seat.isCore, Seat.isUS, Seat.toCore]

variable (cfg measures moment)

lemma demoteOne_spec (u : ℕ) (s : Seat φ) :
    (demoteOne cfg measures moment u s).1 =
        (if Falls cfg measures s ∧ s.isUS moment ∧ cfg.usFloor < u then u - 1 else u) ∧
      ((promoteLate cfg measures moment (demoteOne cfg measures moment u s).2).isCore = true ↔
        stays cfg measures moment s = true ∨
          atRisk cfg measures moment s = true ∧ u ≤ cfg.usFloor) ∧
      ∀ x, reachUS measures moment x (promoteLate cfg measures moment
          (demoteOne cfg measures moment u s).2) = reachUS measures moment x s ∧
        reachOther measures moment x (promoteLate cfg measures moment
          (demoteOne cfg measures moment u s).2) = reachOther measures moment x s := by
  obtain ⟨hcore, hus, hstats⟩ := @promoteLate_spec _ _ _ cfg measures moment
    (demoteOne cfg measures moment u s).2
  simp only [reachUS, reachOther, hcore, hus, hstats, stays, atRisk, Rises]
  clear hcore hus hstats
  unfold demoteOne Falls
  dsimp only
  split_ifs <;>
    simp_all [Seat.isCore, Seat.rested, Seat.coreToTrial, Seat.isUS, grade]
  all_goals grind

lemma of_atRisk {s : Seat φ} (h : atRisk cfg measures moment s = true) :
    s.isUS moment = true ∧ Falls cfg measures s ∧ stays cfg measures moment s = false := by
  simp_all [atRisk, stays]

lemma le_countP_demote (x : σ) (u : ℕ) (seats : List (Seat φ)) :
    seats.countP (fun s => stays cfg measures moment s && reachUS measures moment x s) +
        (seats.countP (fun s => atRisk cfg measures moment s && reachUS measures moment x s) -
          (u - cfg.usFloor)) ≤
      ((demote cfg measures moment u seats).map (promoteLate cfg measures moment)).countP
        fun s => s.isCore && reachUS measures moment x s := by
  induction seats generalizing u with
  | nil => simp [demote]
  | cons s seats ih =>
    obtain ⟨hu, hcore, hreach⟩ := demoteOne_spec cfg measures moment u s
    have hrisk := @of_atRisk _ _ _ cfg measures moment s
    have ih := ih (demoteOne cfg measures moment u s).1
    simp only [demote, List.map_cons, List.countP_cons, (hreach x).1, Bool.and_eq_true, hcore]
    rw [hu] at ih ⊢
    grind

lemma countP_demote_other (x : σ) (u : ℕ) (seats : List (Seat φ)) :
    ((demote cfg measures moment u seats).map (promoteLate cfg measures moment)).countP
        (fun s => s.isCore && reachOther measures moment x s) =
      seats.countP fun s => stays cfg measures moment s && reachOther measures moment x s := by
  induction seats generalizing u with
  | nil => rfl
  | cons s seats ih =>
    obtain ⟨-, hcore, hreach⟩ := demoteOne_spec cfg measures moment u s
    have hrisk := @of_atRisk _ _ _ cfg measures moment s
    simp only [demote, List.map_cons, List.countP_cons, ih, (hreach x).2, Bool.and_eq_true, hcore]
    grind [reachOther]

lemma countP_demote_le {x : σ} {first rest : List (Seat φ)} (u : ℕ)
    (hfirst : ∀ s ∈ first, atRisk cfg measures moment s = true)
    (hrest : ∀ s ∈ rest, ¬(atRisk cfg measures moment s && reachUS measures moment x s)) :
    ((demote cfg measures moment u (first ++ rest)).map (promoteLate cfg measures moment)).countP
        (fun s => s.isCore && reachUS measures moment x s) ≤
      rest.countP (fun s => stays cfg measures moment s && reachUS measures moment x s) +
        (first.length - (u - cfg.usFloor)) := by
  induction first generalizing u with
  | nil =>
    simp only [List.nil_append, List.length_nil, Nat.zero_sub, Nat.add_zero]
    induction rest generalizing u with
    | nil => simp [demote]
    | cons s rest ih =>
      obtain ⟨-, hcore, hreach⟩ := demoteOne_spec cfg measures moment u s
      rw [List.forall_mem_cons] at hrest
      have ih := ih hrest.2 (demoteOne cfg measures moment u s).1
      simp only [demote, List.map_cons, List.countP_cons, (hreach x).1, Bool.and_eq_true, hcore]
      grind
  | cons s first ih =>
    obtain ⟨hu, hcore, hreach⟩ := demoteOne_spec cfg measures moment u s
    rw [List.forall_mem_cons] at hfirst
    have ih := ih (demoteOne cfg measures moment u s).1 hfirst.2
    have hrisk := of_atRisk cfg measures moment hfirst.1
    simp only [List.cons_append, demote, List.map_cons, List.countP_cons, (hreach x).1,
      Bool.and_eq_true, hcore, List.length_cons]
    rw [hu] at ih ⊢
    grind

lemma map_stats_promoted :
    (promoted cfg measures moment visits seats).map Seat.stats =
      (visits.visit 0 (settled moment seats)).map Seat.stats := by
  unfold promoted
  generalize List.countP _ _ = u
  induction visits.visit 0 _ generalizing u with
  | nil => rfl
  | cons s settled ih =>
    have hs : (demoteOne cfg measures moment u s).2.stats = s.stats := by
      unfold demoteOne
      dsimp only
      split_ifs <;> rfl
    rw [demote, List.map_cons, List.map_cons, List.map_cons, ih, (promoteLate_spec _).2.2, hs]

variable {cfg measures moment}

lemma countP_promoted_other {x : σ} :
    (ranking measures (visits.visit 1 (promoted cfg measures moment visits seats))).countP
        (reachOther measures moment x) =
      (settled moment seats).countP
        fun s => stays cfg measures moment s && reachOther measures moment x s := by
  rw [countP_ranking, (visits.perm 1 _).countP_eq, promoted, countP_demote_other,
    (visits.perm 0 _).countP_eq]

variable [DecidableEq φ]

lemma countP_seatEval (q : Seat φ → Bool) :
    (seatEval cfg measures moment visits seats).countP (fun s => s.isCore && q s) =
      ((ranking measures (visits.visit 1 (promoted cfg measures moment visits seats))).drop
        ((ranking measures (visits.visit 1 (promoted cfg measures moment visits seats))).length -
          cfg.coreMax)).countP q := by
  rw [seatEval, countP_evict fun s h => (Bool.and_eq_true_iff.mp h).1, (visits.perm 2 _).countP_eq,
    countP_cap]

lemma le_of_floorKept (visits : Visits φ) (h : FloorKept cfg measures moment (settled moment seats)) :
    usLeast cfg moment (settled moment seats) ≤
      (seatEval cfg measures moment visits seats).countP (Seat.isCoreUS moment) := by
  obtain hzero | ⟨x, hfew, hmany⟩ := h
  · omega
  refine le_of_le_of_eq (le_countP_drop (f := fun s => measures.score s.stats) (x := x) ?_
    (le_of_eq_of_le ?_ hfew) (hmany.trans ?_)) (countP_seatEval (Seat.isUS moment)).symm
  · have hsorted := ranked_insertionSort (f := fun s : Seat φ => measures.score s.stats)
      (q := fun _ => true) ((visits.visit 1 (promoted cfg measures moment visits seats)).filter
        Seat.isCore)
    simp only [List.filter_true, Bool.not_true, List.filter_false, List.append_nil] at hsorted
    exact hsorted.imp fun h => h.elim le_of_lt fun h => h.1.le
  · rw [← countP_promoted_other]
    rfl
  · have hdemote := le_countP_demote cfg measures moment x
      ((settled moment seats).countP (Seat.isCoreUS moment)) (visits.visit 0 (settled moment seats))
    rw [(visits.perm 0 _).countP_eq, (visits.perm 0 _).countP_eq, ← promoted,
      ← (visits.perm 1 (promoted cfg measures moment visits seats)).countP_eq] at hdemote
    exact le_of_le_of_eq hdemote (@countP_ranking _ _ _ measures _ (reachUS measures moment x)).symm

variable (moment) in
def orderOf (first : Seat φ → Bool) : Visits φ where
  visit
    | 0, seats => seats.filter first ++ seats.filter fun s => !first s
    | 1, seats => seats.filter (Seat.isUS moment) ++ seats.filter fun s => !s.isUS moment
    | _, seats => seats
  perm
    | 0, _ => List.filter_append_perm _ _
    | 1, _ => List.filter_append_perm _ _
    | _ + 2, _ => List.Perm.refl _

lemma exists_reached (first : Seat φ → Bool) (hpos : 0 < usLeast cfg moment (settled moment seats))
    (hleast : usLeast cfg moment (settled moment seats) ≤
      (seatEval cfg measures moment (orderOf moment first) seats).countP (Seat.isCoreUS moment)) :
    ∃ s ∈ settled moment seats,
      (settled moment seats).countP (fun t => stays cfg measures moment t &&
          reachOther measures moment (measures.score s.stats) t) +
        usLeast cfg moment (settled moment seats) ≤ cfg.coreMax ∧
      usLeast cfg moment (settled moment seats) ≤
        (promoted cfg measures moment (orderOf moment first) seats).countP
          fun t => t.isCore && reachUS measures moment (measures.score s.stats) t := by
  have hranked := ranked_insertionSort (f := fun s : Seat φ => measures.score s.stats)
    (q := Seat.isUS moment) ((promoted cfg measures moment (orderOf moment first) seats).filter
      Seat.isCore)
  have hvisit : ∀ l : List (Seat φ), (l.filter Seat.isCore).filter (Seat.isUS moment) ++
      ((l.filter Seat.isCore).filter fun s => !s.isUS moment) =
        ((orderOf moment first).visit 1 l).filter Seat.isCore := by
    intro l
    simp only [orderOf, List.filter_append, List.filter_filter, Bool.and_comm]
  rw [hvisit] at hranked
  obtain ⟨c, hc, -, hfew, hmany⟩ := exists_score hpos hranked
    (le_of_le_of_eq hleast (countP_seatEval (Seat.isUS moment)))
  have hmem : c.stats ∈ (promoted cfg measures moment (orderOf moment first) seats).map Seat.stats :=
    List.mem_map_of_mem (((orderOf moment first).perm 1 _).mem_iff.mp
      (List.mem_filter.mp ((List.mem_insertionSort _).mp hc)).1)
  rw [map_stats_promoted] at hmem
  obtain ⟨s, hs, hstats⟩ := List.mem_map.mp hmem
  refine ⟨s, ((orderOf moment first).perm 0 _).mem_iff.mp hs, ?_, ?_⟩
  · rw [hstats, ← @countP_promoted_other _ _ _ cfg measures moment (orderOf moment first)]
    exact hfew
  · rw [hstats, ← ((orderOf moment first).perm 1 _).countP_eq]
    exact hmany.trans_eq (countP_ranking _)

lemma floorKept_of_le (h : ∀ visits : Visits φ, usLeast cfg moment (settled moment seats) ≤
      (seatEval cfg measures moment visits seats).countP (Seat.isCoreUS moment)) :
    FloorKept cfg measures moment (settled moment seats) := by
  refine (Nat.eq_zero_or_pos _).imp_right fun hpos => ?_
  -- The lowest of the scores that few others reach. Those who are at risk and reach it go first.
  obtain ⟨s, ⟨-, hfew⟩, hlow⟩ := Set.exists_min_image
    {s | s ∈ settled moment seats ∧ (settled moment seats).countP (fun t =>
        stays cfg measures moment t && reachOther measures moment (measures.score s.stats) t) +
      usLeast cfg moment (settled moment seats) ≤ cfg.coreMax}
    (fun s => measures.score s.stats) ((settled moment seats).finite_toSet.subset fun s hs => hs.1)
    (by
      obtain ⟨s, hs, hfew, -⟩ := exists_reached (fun _ => false) hpos (h _)
      exact ⟨s, hs, hfew⟩)
  obtain ⟨t, ht, htfew, htmany⟩ := exists_reached (fun t => atRisk cfg measures moment t &&
    reachUS measures moment (measures.score s.stats) t) hpos (h _)
  refine ⟨measures.score s.stats, hfew, htmany.trans (le_trans (List.countP_mono_left ?_)
    ((countP_demote_le cfg measures moment (x := measures.score s.stats) _ ?_ ?_).trans
      (Nat.add_le_add List.filter_sublist.countP_le (le_of_eq ?_))))⟩
  · intro c _ hc
    have hst := hlow t ⟨ht, htfew⟩
    simp only [reachUS, Bool.and_eq_true, decide_eq_true_eq] at hc ⊢
    exact ⟨hc.1, hc.2.1, hst.trans hc.2.2⟩
  · intro c hc
    exact (Bool.and_eq_true_iff.mp (List.mem_filter.mp hc).2).1
  · intro c hc
    have hnot := (List.mem_filter.mp hc).2
    rwa [Bool.not_eq_true', ← Bool.not_eq_true] at hnot
  · exact congrArg (· - _) List.countP_eq_length_filter.symm

end Counts

/-- **What an evaluation keeps to.** At most `CoreMax` seats are core. The floor of cores in the US
is kept in every order of the maps if and only if the cap leaves room for them. -/
theorem seat_eval_respects_limits [LinearOrder σ] [DecidableEq φ] (cfg : SeatConfig σ)
    (measures : Measures φ σ) (moment : Moment φ) (seats : List (Seat φ)) :
    (∀ visits : Visits φ,
      (seatEval cfg measures moment visits seats).countP Seat.isCore ≤ cfg.coreMax) ∧
    ((∀ visits : Visits φ, min cfg.usFloor (seats.countP (Seat.isCoreUS moment)) ≤
        (seatEval cfg measures moment visits seats).countP (Seat.isCoreUS moment)) ↔
      FloorKept cfg measures moment (settled moment seats)) := by
  have hleast : min cfg.usFloor (seats.countP (Seat.isCoreUS moment)) =
      usLeast cfg moment (settled moment seats) := by
    rw [usLeast, settled, List.countP_map]
    rfl
  refine ⟨fun visits => ?_, ?_⟩
  · have hcount : (seatEval cfg measures moment visits seats).countP (fun s => s.isCore && true) = _ :=
      countP_seatEval fun _ => true
    simp only [Bool.and_true, List.countP_true, List.length_drop] at hcount
    rw [hcount]
    generalize List.length _ = n
    omega
  · rw [hleast]
    exact ⟨floorKept_of_le, fun h visits => le_of_floorKept visits h⟩

/-- The promotion of a seat with a lower score takes nobody away. -/
theorem seat_eval_respects_limits_of_lower_score :
    ∀ visits : Visits ℕ, 2 ≤ (seatEval (⟨2, 1, 2, 2, 4, 0, 0, 2, 0⟩ : SeatConfig ℕ)
      ⟨id, fun _ => true⟩ ⟨0, (· = ['U', 'S']), Seat.stats, fun _ => true⟩ visits
      [{ id := "a", addr := ['U', 'S', ':', '1'], state := .core, stats := 5, online := true },
        { id := "b", addr := ['U', 'S', ':', '2'], state := .core, stats := 5, online := true },
        { id := "c", addr := ['D', 'E'], state := .trial, stats := 3, online := true }]).countP
          Seat.isCore := by
  intro visits
  have hkept := (seat_eval_respects_limits (⟨2, 1, 2, 2, 4, 0, 0, 2, 0⟩ : SeatConfig ℕ)
    ⟨id, fun _ => true⟩ ⟨0, (· = ['U', 'S']), Seat.stats, fun _ => true⟩
    [{ id := "a", addr := ['U', 'S', ':', '1'], state := .core, stats := 5, online := true },
      { id := "b", addr := ['U', 'S', ':', '2'], state := .core, stats := 5, online := true },
      { id := "c", addr := ['D', 'E'], state := .trial, stats := 3, online := true }]).2.mpr
    (Or.inr ⟨5, by decide, by decide⟩) visits
  exact le_trans hkept (List.countP_mono_left fun s _ h => (Bool.and_eq_true_iff.mp h).1)

/-- **The cap does not ask where a seat is.** Two cores in the US are all that the limit and the
floor allow. Two others are promoted, and the two lowest scores are the first two. -/
theorem floor_broken_by_the_cap :
    ∃ (cfg : SeatConfig ℕ) (measures : Measures ℕ ℕ) (moment : Moment ℕ) (visits : Visits ℕ)
      (seats : List (Seat ℕ)), cfg.usFloor ≤ cfg.coreMax ∧
      (seatEval cfg measures moment visits seats).countP (Seat.isCoreUS moment) <
        min cfg.usFloor (seats.countP (Seat.isCoreUS moment)) :=
  ⟨⟨2, 1, 2, 2, 4, 0, 0, 2, 0⟩, ⟨id, fun _ => true⟩, ⟨0, (· = ['U', 'S']), Seat.stats, fun _ => true⟩,
    ⟨fun _ => id, fun _ => .refl⟩,
    [{ id := "a", addr := ['U', 'S', ':', '1'], state := .core, stats := 1, online := true },
      { id := "b", addr := ['U', 'S', ':', '2'], state := .core, stats := 1, online := true },
      { id := "c", addr := ['D', 'E'], state := .trial, stats := 3, online := true },
      { id := "d", addr := ['D', 'E'], state := .trial, stats := 3, online := true }],
    by decide⟩

end RustUma.Probe
