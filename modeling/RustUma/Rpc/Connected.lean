import Mathlib.Data.Finset.Card
import RustUma.Rpc.Ingest

/-!
# The count of connected sources (`src/uma/rpc.rs` `mark_source_connected`,
`mark_source_disconnected`)

`live_worker` counts itself once its subscription stands, and uncounts itself after every session
attempt, also one that never subscribed; the decrement stops at zero. A worker that leaves its loop
on shutdown does not uncount itself at all.
-/

namespace RustUma.Rpc

open RustUma.Found RustUma.Model RustUma.Service

/-! ## Who is counted -/

structure Tally extends Ingest where
  counted : ℕ → Bool

namespace Tally

def recount (counted : ℕ → Bool) : IngestAction → ℕ → Bool
  | .link r .count => Function.update counted r true
  | .link r .uncount => Function.update counted r false
  | .restart _ _ => fun _ => false
  | _ => counted

def step (env : Env) (s : Tally) (a : IngestAction) : Option Tally :=
  (s.toIngest.step env a).map fun s' => ⟨s', recount s.counted a⟩

def boot (env : Env) (blockedBefore : Bytes 32 → ℕ → Bool) (wal : Option (List UInt8))
    (cursorFile : Option ℕ) : Tally :=
  ⟨Ingest.boot env blockedBefore wal cursorFile, fun _ => false⟩

def count (counted : ℕ → Bool) (racers : ℕ) : ℕ :=
  ((Finset.range racers).filter fun r => counted r = true).card

end Tally

def RacerPhase.Live : RacerPhase → Prop
  | .announcing | .spawning | .listening | .processing _ _ => True
  | _ => False

instance (p : RacerPhase) : Decidable p.Live := by
  delta RacerPhase.Live
  split <;> infer_instance

def RacerPhase.Marking : RacerPhase → Prop
  | .marking | .uncounted | .remaining _ => True
  | _ => False

def RacerPhase.loaded? : RacerPhase → Option ℕ
  | .remaining count => some count
  | _ => none

def Honest (s : Tally) : IngestAction → Prop
  | .link r .uncount => s.counted r = true ∨ s.links.sourcesConnected = 0
  | .link r .unmark =>
    ∀ count ∈ (s.racers r).phase.loaded?, (0 < count ↔ 0 < s.links.sourcesConnected)
  | .link r .stop => s.counted r = false
  | _ => True

instance (s : Tally) (a : IngestAction) : Decidable (Honest s a) := by
  delta Honest
  split <;> infer_instance

/-! ## The invariant -/

def Agrees (counted : Bool) : RacerPhase → Prop
  | .marking | .announcing | .spawning | .listening | .processing _ _ => counted = true
  | .ended => True
  | .offline | .counting | .uncounted | .remaining _ | .stopped => counted = false

structure Counts (racers : ℕ) (s : Tally) : Prop where
  total : s.links.sourcesConnected = Tally.count s.counted racers
  agrees : ∀ r, Agrees (s.counted r) (s.racers r).phase
  marked : (s.links.rpcConnected = true ↔ 0 < s.links.sourcesConnected) ∨
    ∃ r < racers, (s.racers r).phase.Marking

lemma counts_start (racers : ℕ) (intake : Intake) :
    Counts racers ⟨Ingest.start intake, fun _ => false⟩ where
  total := by simp [Ingest.start, Tally.count]
  agrees := fun r => rfl
  marked := Or.inl (by simp [Ingest.start])

variable {counted : ℕ → Bool} {r racers : ℕ}

lemma count_update_true (hr : r < racers) (h : counted r = false) :
    Tally.count (Function.update counted r true) racers = Tally.count counted racers + 1 := by
  unfold Tally.count
  have hset : (Finset.range racers).filter (fun i => Function.update counted r true i = true) =
      insert r ((Finset.range racers).filter fun i => counted i = true) := by
    grind
  rw [hset]
  simp [h]

lemma count_update_false (hr : r < racers) (h : counted r = true) :
    Tally.count (Function.update counted r false) racers = Tally.count counted racers - 1 := by
  unfold Tally.count
  have hset : (Finset.range racers).filter (fun i => Function.update counted r false i = true) =
      ((Finset.range racers).filter fun i => counted i = true).erase r := by
    grind
  rw [hset]
  simp [hr, h]

lemma update_false_self (h : counted r = false) :
    Function.update counted r false = counted := by
  simp_all

lemma count_pos (hr : r < racers) (h : counted r = true) :
    0 < Tally.count counted racers := by
  unfold Tally.count
  rw [Finset.card_pos]
  exact ⟨r, by simp [hr, h]⟩

variable {env : Env} {s s' : Tally} {a : IngestAction}

variable {r racers : ℕ} {t : Tally} {racer : Racer}

lemma Counts.of_update (h : Counts racers s) (hracers : t.racers = Function.update s.racers r racer)
    (hcounted : ∀ i, i ≠ r → t.counted i = s.counted i) (hown : Agrees (t.counted r) racer.phase)
    (htotal : t.links.sourcesConnected = Tally.count t.counted racers)
    (hmarked : (t.links.rpcConnected = true ↔ 0 < t.links.sourcesConnected) ∨ r < racers ∧
      racer.phase.Marking ∨ t.links.rpcConnected = s.links.rpcConnected ∧
      t.links.sourcesConnected = s.links.sourcesConnected ∧ ¬ (s.racers r).phase.Marking) :
    Counts racers t := by
  refine ⟨htotal, fun i => ?_, ?_⟩
  · rw [hracers]
    by_cases hi : i = r
    · simp_all
    · rw [Function.update_of_ne hi, hcounted i hi]
      exact h.agrees i
  · rcases hmarked with hmarked | ⟨hr, hmarking⟩ | ⟨hconnected, hsources, hnot⟩
    · exact Or.inl hmarked
    · refine Or.inr ⟨r, hr, ?_⟩
      simp_all
    · rw [hconnected, hsources]
      refine h.marked.imp id ?_
      rintro ⟨i, hi, hmarking⟩
      refine ⟨i, hi, ?_⟩
      have hne : i ≠ r := by
        grind
      simp_all

lemma Counts.of_move (racer : Racer) (h : Counts racers s)
    (hracers : t.racers = Function.update s.racers r racer) (hcounted : t.counted = s.counted)
    (hconnected : t.links.rpcConnected = s.links.rpcConnected)
    (hsources : t.links.sourcesConnected = s.links.sourcesConnected)
    (hnot : ¬ (s.racers r).phase.Marking) (hown : Agrees (s.counted r) racer.phase) :
    Counts racers t := by
  refine h.of_update hracers (fun i _ => by rw [hcounted]) ?_ ?_ ?_
  · simp_all
  · rw [hsources, hcounted]
    exact h.total
  simp_all

lemma Counts.of_recount {b : Bool} (h : Counts racers s) (hr : r < racers)
    (hracers : t.racers = Function.update s.racers r racer)
    (hcounted : t.counted = Function.update s.counted r b) (hown : Agrees b racer.phase)
    (hmarking : racer.phase.Marking)
    (htotal : t.links.sourcesConnected = Tally.count (Function.update s.counted r b) racers) :
    Counts racers t := by
  refine h.of_update hracers (fun i hi => ?_) ?_ ?_ (Or.inr (Or.inl ⟨hr, hmarking⟩))
  · simp_all
  · simp_all
  simp_all

lemma Counts.of_store (h : Counts racers s) (hracers : t.racers = Function.update s.racers r racer)
    (hcounted : t.counted = s.counted)
    (hsources : t.links.sourcesConnected = s.links.sourcesConnected)
    (hown : Agrees (s.counted r) racer.phase)
    (hmarked : (t.links.rpcConnected = true ↔ 0 < s.links.sourcesConnected) ∨ r < racers ∧
      racer.phase.Marking) :
    Counts racers t := by
  refine h.of_update hracers (fun i _ => by rw [hcounted]) ?_ ?_ ?_
  · simp_all
  · rw [hsources, hcounted]
    exact h.total
  grind

lemma Counts.link {b : LinkAction} {shutdown : Bool} {links : Links} (h : Counts racers s)
    (hr : r < racers) (hok : Honest s (.link r b))
    (hmove : (s.racers r).move shutdown s.links b = some (racer, links))
    (hracers : t.racers = Function.update s.racers r racer) (hlinks : t.links = links)
    (hcounted : t.counted = Tally.recount s.counted (.link r b)) : Counts racers t := by
  have hagrees := h.agrees r
  have htotal := h.total
  cases b with
  | connect head | announce =>
    simp only [Racer.move] at hmove
    split at hmove <;> cases hmove
    next hphase =>
      rw [hphase] at hagrees
      exact h.of_move _ hracers hcounted (by rw [hlinks]) (by rw [hlinks])
        (by rw [hphase]; exact id) hagrees
  | connectFail | drop =>
    simp only [Racer.move] at hmove
    split at hmove <;> cases hmove
    next hphase =>
      exact h.of_move _ hracers hcounted (by rw [hlinks]) (by rw [hlinks])
        (by rw [hphase]; exact id) trivial
  | count =>
    simp only [Racer.move] at hmove
    split at hmove <;> cases hmove
    next hphase =>
      rw [hphase] at hagrees
      refine h.of_recount hr hracers hcounted rfl trivial ?_
      rw [hlinks, count_update_true hr hagrees, ← htotal]
  | mark =>
    simp only [Racer.move] at hmove
    split at hmove <;> cases hmove
    next hphase =>
      rw [hphase] at hagrees
      refine h.of_store hracers hcounted (by rw [hlinks]) hagrees (Or.inl ?_)
      -- the racer itself is counted
      rw [hlinks, htotal]
      exact iff_of_true rfl (count_pos hr hagrees)
  | uncount =>
    simp only [Racer.move] at hmove
    split at hmove <;> cases hmove
    refine h.of_recount hr hracers hcounted rfl trivial ?_
    rw [hlinks]
    cases hc : s.counted r with
    | true => rw [htotal, count_update_false hr hc]
    | false =>
      -- nobody is counted, and the decrement stops at zero
      have hzero : s.links.sourcesConnected = 0 := hok.resolve_left (by rw [hc]; decide)
      rw [update_false_self hc, ← htotal, hzero]
  | load =>
    simp only [Racer.move] at hmove
    split at hmove <;> cases hmove
    next hphase =>
      rw [hphase] at hagrees
      exact h.of_store hracers hcounted (by rw [hlinks]) hagrees (Or.inr ⟨hr, trivial⟩)
  | unmark =>
    simp only [Racer.move] at hmove
    split at hmove <;> cases hmove
    next count hphase =>
      rw [hphase] at hagrees
      have hloaded := hok count (by rw [hphase]; rfl)
      refine h.of_store hracers hcounted (by rw [hlinks]) hagrees (Or.inl ?_)
      simp_all
  | stop =>
    -- a session that ends in a shutdown would stay counted
    have hnone : s.counted r = false := hok
    have hmoved : ¬ (s.racers r).phase.Marking ∧
        racer = { s.racers r with phase := .stopped } ∧ links = s.links := by
      simp only [Racer.move] at hmove
      split at hmove
      case h_3 => cases hmove
      all_goals
        next hphase =>
          split_ifs at hmove
          cases hmove
          exact ⟨by rw [hphase]; exact id, rfl, rfl⟩
    obtain ⟨hnot, rfl, rfl⟩ := hmoved
    exact h.of_move _ hracers hcounted (by rw [hlinks]) (by rw [hlinks]) hnot hnone

lemma Counts.step (h : Counts env.rpc.racers s) (hok : Honest s a)
    (hstep : s.step env a = some s') : Counts env.rpc.racers s' := by
  obtain ⟨t, ht, rfl⟩ := Option.map_eq_some_iff.mp hstep
  cases Ingest.step_sound ht with
  | link r b racer links hr hmove =>
    exact h.link hr hok hmove (by rw [Ingest.noteOutage_racers]; rfl)
      (by simp) rfl
  | spawn r hphase =>
    have hagrees := h.agrees r
    rw [hphase] at hagrees
    exact h.of_move { s.racers r with phase := .listening } (Ingest.spawn_racers r) rfl
      (by rw [Ingest.spawn_links]) (by rw [Ingest.spawn_links]) (by rw [hphase]; exact id) hagrees
  | deliver r log receivedAtUs intake hphase hpass =>
    have hagrees := h.agrees r
    rw [hphase] at hagrees
    exact h.of_move { s.racers r with phase := .processing s.intake.nextCall log }
      rfl rfl rfl rfl (by rw [hphase]; exact id) hagrees
  | settle r call log hphase hreturned =>
    have hagrees := h.agrees r
    rw [hphase] at hagrees
    exact h.of_move { s.racers r with phase := .listening } rfl rfl rfl rfl
      (by rw [hphase]; exact id) hagrees
  | restart blockedBefore wal => exact counts_start _ _
  | serve | backfillBegin | backfillHead | backfillPlan | backfillFail | backfillWalk
  | backfillRetry | fillHead | fillFail | fillWalk => exact ⟨h.total, h.agrees, h.marked⟩

/-! ## The statistics -/

lemma Agrees.iff {counted : Bool} {p : RacerPhase} (h : Agrees counted p) (hp : p ≠ .ended) :
    counted = true ↔ p = .marking ∨ p.Live := by
  cases p with
  | ended => exact absurd rfl hp
  | marking => exact iff_of_true h (Or.inl rfl)
  | announcing | spawning | listening | processing => exact iff_of_true h (Or.inr trivial)
  | offline | counting | uncounted | remaining | stopped =>
    refine iff_of_false (by rw [show counted = false from h]; decide) ?_
    rintro (hmarking | hlive)
    · cases hmarking
    · exact hlive

theorem sources_connected_truthful (env : Env) (blockedBefore : Bytes 32 → ℕ → Bool)
    (wal : Option (List UInt8)) (cursorFile : Option ℕ) (as : List IngestAction) (s : Tally)
    (hok : AllSteps (Tally.step env) Honest (Tally.boot env blockedBefore wal cursorFile) as)
    (hrun : run (Tally.step env) (Tally.boot env blockedBefore wal cursorFile) as = some s) :
    s.links.sourcesConnected = Tally.count s.counted env.rpc.racers ∧
    (∀ r, (s.racers r).phase ≠ .ended →
      (s.counted r = true ↔ (s.racers r).phase = .marking ∨ (s.racers r).phase.Live)) ∧
    ((∀ r < env.rpc.racers, ¬ (s.racers r).phase.Marking) →
      (s.links.rpcConnected = true ↔ 0 < s.links.sourcesConnected)) ∧
    ((∀ r < env.rpc.racers, ¬ (s.racers r).phase.Marking ∧ (s.racers r).phase ≠ .ended) →
      s.links.sourcesConnected =
        ((Finset.range env.rpc.racers).filter fun r => (s.racers r).phase.Live).card) := by
  have hcounts : Counts env.rpc.racers s :=
    run_invariant (fun _ _ _ h hok hstep => h.step hok hstep)
      (counts_start _ _) hok hrun
  have hiff : ∀ r, (s.racers r).phase ≠ .ended →
      (s.counted r = true ↔ (s.racers r).phase = .marking ∨ (s.racers r).phase.Live) :=
    fun r hr => (hcounts.agrees r).iff hr
  refine ⟨hcounts.total, hiff, fun hquiet => ?_, fun hquiet => ?_⟩
  · refine hcounts.marked.resolve_right ?_
    simp_all
  · rw [hcounts.total]
    unfold Tally.count
    congr 1
    refine Finset.filter_congr fun r hr => ?_
    obtain ⟨hmarking, hended⟩ := hquiet r (Finset.mem_range.mp hr)
    rw [hiff r hended]
    refine or_iff_right ?_
    intro hphase
    rw [hphase] at hmarking
    exact hmarking trivial

def twoRacers : Env :=
  { testEnv [] with
    rpc :=
      { racers := 2, startBlock := none, initialBackfillDays := 7, backfillBatchBlocks := 100 } }

def disconnectRacer (r : ℕ) : List IngestAction :=
  [.link r .uncount, .link r .load, .link r .unmark]

/-- Both racers connect and the second loses its session. -/
theorem sources_connected_truthful_after_drop :
    ∃ s, run (Tally.step twoRacers) (Tally.boot twoRacers (fun _ _ => false) none none)
        (connectRacer 0 5 ++ connectRacer 1 5 ++ [.link 1 .drop] ++ disconnectRacer 1) = some s ∧
      s.links.sourcesConnected = 1 ∧ s.links.rpcConnected = true ∧
      s.links.sourcesConnected = Tally.count s.counted 2 := by
  refine exists_some_imp (P := fun s => s.links.sourcesConnected = 1 ∧ s.links.rpcConnected = true)
    (by decide +kernel) ?_
  rintro s hs ⟨hconnected, hrpc⟩
  exact ⟨hconnected, hrpc, (sources_connected_truthful twoRacers (fun _ _ => false) none none
    _ s (by decide +kernel) hs).1⟩

/-- **A failing racer uncounts a healthy one.** The first racer is connected and listening; the
second fails to connect, and afterwards no source is said to be connected. -/
theorem failed_connect_uncounts_another :
    ∃ s, run (Tally.step twoRacers) (Tally.boot twoRacers (fun _ _ => false) none none)
        (connectRacer 0 5 ++ [.link 1 .connectFail] ++ disconnectRacer 1) = some s ∧
      (s.racers 0).phase = .listening ∧ (s.racers 1).phase = .offline ∧
      s.links.sourcesConnected = 0 ∧ s.links.rpcConnected = false :=
  exists_some_of_any (by decide +kernel)

end RustUma.Rpc
