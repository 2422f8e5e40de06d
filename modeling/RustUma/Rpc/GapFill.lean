import RustUma.Rpc.Ingest
import RustUma.Service.Progress

/-!
# Gap fills

A racer that reconnects fetches the blocks after the newest admitted one, up to the head it reads
after it has subscribed. Together with its subscription this is to leave no hole behind an outage of
all racers.
-/

namespace RustUma.Rpc

open RustUma.Found RustUma.Model RustUma.Pipeline RustUma.Service

/-! ## The calls behind the tasks -/

lemma idle_step {p p' : Processor} {a : Action} (h : p.Step a p')
    (ha : Internal (.process a)) (i : ℕ) :
    (p'.calls i).phase = .idle ↔ (p.calls i).phase = .idle := by
  have hmove : ∀ j phase, (p.calls j).phase ≠ .idle → phase ≠ .idle →
      ((p.setPhase j phase i).phase = .idle ↔ (p.calls i).phase = .idle) := by
    intro j phase hj hphase
    by_cases hij : i = j
    · simp_all
    · rw [setPhase_of_ne p hij]
  have hafter : ∀ record, Phase.afterStore record ≠ .idle := by
    intro record
    unfold Phase.afterStore
    split_ifs <;> simp
  cases h with
  | undecodable => exact ha.elim
  | decode => exact ha.elim
  | checkpoint => exact Iff.rfl
  | checkpointDropped => exact Iff.rfl
  | store j record hphase hroom | drop j record hphase hroom =>
    simp_all
  | known j _ hphase | unknown j _ hphase | resolve j _ _ hphase | fetchAdd j _ _ hphase
  | lose j _ hphase | accept j _ hphase | credit j _ hphase | blocked j _ _ hphase
  | unblocked j _ hphase | sendFailed j _ hphase | send j _ hphase =>
    exact hmove j _ (by simp [hphase]) (by simp)

lemma receive_started {p p' : Processor} {i receivedAtUs : ℕ} {decoded : Option UmaEvent}
    {source : String} (h : p.Step (.receive i decoded receivedAtUs source) p') :
    (p'.calls i).phase ≠ .idle := by
  cases h with
  | undecodable => simp
  | decode => simp

structure Grows (k k' : Intake) : Prop where
  passed : k.passed ⊆ k'.passed
  started : ∀ i, (k.server.proc.calls i).phase ≠ .idle → (k'.server.proc.calls i).phase ≠ .idle

lemma Grows.refl (k : Intake) : Grows k k := ⟨List.Subset.refl _, fun _ h => h⟩

structure Intake.Ready (k : Intake) : Prop where
  flowing : Flowing k.server
  unused : ∀ i, k.nextCall ≤ i → (k.server.proc.calls i).phase = .idle

namespace Intake.Ready

variable {env : Env} {k k' : Intake}

lemma serve (h : k.Ready) {a : ServerAction} {server : Server} (ha : Internal a)
    (hstep : k.server.Step env.codec env.config a server) :
    Intake.Ready { k with server := server } ∧ Grows k { k with server := server } := by
  have hidle : ∀ i,
      (server.proc.calls i).phase = .idle ↔ (k.server.proc.calls i).phase = .idle := by
    intro i
    rcases hstep.core with ⟨b, rfl, hproc⟩ | hcore
    · exact idle_step hproc ha i
    · rw [hcore.calls]
  exact ⟨⟨h.flowing.step hstep, fun i hi => (hidle i).mpr (h.unused i hi)⟩, List.Subset.refl _,
    fun i hi => fun hback => hi ((hidle i).mp hback)⟩

lemma checkpoint (env : Env) (h : k.Ready) (block : ℕ) :
    (k.checkpoint block).Ready ∧ Grows k (k.checkpoint block) := by
  have hcalls : (k.checkpoint block).server.proc.calls = k.server.proc.calls := by
    simp only [Intake.checkpoint, Processor.checkpoint]
    split <;> rfl
  refine ⟨⟨h.flowing.step (k.checkpoint_step env block), ?_⟩, List.Subset.refl _, ?_⟩
  · intro i hi
    rw [hcalls]
    exact h.unused i hi
  simp_all

lemma exists_pass (h : k.Ready) (env : Env) (log : Log) (receivedAtUs : ℕ) (source : String) :
    ∃ k', k.pass env log receivedAtUs source = some k' := by
  have hidle := h.unused k.nextCall le_rfl
  unfold Intake.pass
  simp [Server.step, Processor.step, hidle]

lemma pass (h : k.Ready) {log : Log} {receivedAtUs : ℕ} {source : String}
    (hpass : k.pass env log receivedAtUs source = some k') :
    k'.Ready ∧ Grows k k' ∧ (k'.server.proc.calls k.nextCall).phase ≠ .idle := by
  obtain ⟨hstep, hnext, hpassed⟩ := Intake.pass_eq_some hpass
  have hstarted := receive_started hstep.proc
  have hothers : ∀ j, j ≠ k.nextCall → k'.server.proc.calls j = k.server.proc.calls j := by
    intro j hj
    refine hstep.proc.calls_of_ne ?_
    rintro i ⟨⟩
    exact hj
  refine ⟨⟨h.flowing.step hstep, ?_⟩, ⟨?_, ?_⟩, hstarted⟩
  · intro i hi
    rw [hothers i (by omega)]
    exact h.unused i (by omega)
  · simp_all
  grind

lemma walk (h : k.Ready) {source : String} {w w' : Walk} {a : WalkAction}
    (hstep : Walk.Step env source k w a w' k') : k'.Ready ∧ Grows k k' := by
  cases hstep with
  | pass log logs last target receivedAtUs _ hpass =>
    obtain ⟨hready, hgrows, -⟩ := h.pass hpass
    grind
  | checkpoint last target => exact h.checkpoint env last
  | fetch | fail | returned => exact ⟨h, .refl k⟩

end Intake.Ready

/-! ## What a fill accounts for -/

def Walk.call? : Walk → Option ℕ
  | .wait call _ _ _ => some call
  | _ => none

def Fill.FeedsAt (chain : Chain) (k : Intake) (fill : Fill) : Prop :=
  ∀ head walk, fill.phase = .walking head walk →
    walk.Covers chain fill.first head k.passed ∧
      ∀ call ∈ walk.call?, (k.server.proc.calls call).phase ≠ .idle

lemma Fill.FeedsAt.mono {chain : Chain} {k k' : Intake} {fill : Fill}
    (h : fill.FeedsAt chain k) (hgrows : Grows k k') : fill.FeedsAt chain k' := by
  intro head walk hwalk
  obtain ⟨hcovers, hcall⟩ := h head walk hwalk
  exact ⟨hcovers.mono hgrows.passed, fun call hc => hgrows.started call (hcall call hc)⟩

lemma Fill.FeedsAt.step {env : Env} {k k' : Intake} {fill : Fill} {head : ℕ} {w w' : Walk}
    {a : WalkAction} {source : String} (h : fill.FeedsAt env.chain k) (hready : k.Ready)
    (hphase : fill.phase = .walking head w) (hstep : Walk.Step env source k w a w' k') :
    ({ fill with phase := .walking head w' } : Fill).FeedsAt env.chain k' := by
  obtain ⟨hcovers, -⟩ := h head w hphase
  rintro _ _ ⟨⟩
  refine ⟨hcovers.step hstep, ?_⟩
  cases hstep with
  | pass log logs last target receivedAtUs _ hpass =>
    rintro call ⟨⟩
    exact (hready.pass hpass).2.2
  | checkpoint last target =>
    intro call hcall
    unfold Walk.start at hcall
    split_ifs at hcall <;> cases hcall
  | fetch | fail | returned =>
    intro call hcall
    cases hcall

lemma Fill.feedsAt_start (chain : Chain) (k : Intake) (fill : Fill) (head : ℕ) :
    ({ fill with phase := .walking head (Walk.start fill.first head) } : Fill).FeedsAt chain k := by
  rintro _ _ ⟨⟩
  refine ⟨Walk.covers_start (.of_le le_rfl), fun call hcall => ?_⟩
  unfold Walk.start at hcall
  split_ifs at hcall <;> cases hcall

structure Feeding (env : Env) (s : Ingest) : Prop where
  ready : s.intake.Ready
  fills : ∀ n, (s.fills n).FeedsAt env.chain s.intake
  delivered : ∀ d ∈ s.deliveries, d.log ∈ s.intake.passed

lemma feeding_start (env : Env) (blockedBefore : Bytes 32 → ℕ → Bool) (wal : Option (List UInt8))
    (cursorFile : Option ℕ) (passed : List Log) :
    Feeding env (Ingest.start
      ⟨Server.boot env.codec env.config blockedBefore wal cursorFile, 0, passed⟩) where
  ready := ⟨flowing_boot _ _ _ _ _, fun _ _ => rfl⟩
  fills := fun _ _ _ hwalk => by cases hwalk
  delivered := fun _ hd => absurd hd List.not_mem_nil

namespace Feeding

variable {env : Env} {s s' : Ingest}

lemma of_intake (h : Feeding env s) (hready : s'.intake.Ready) (hgrows : Grows s.intake s'.intake)
    (hfills : s'.fills = s.fills) (hdeliveries : s'.deliveries = s.deliveries) :
    Feeding env s' := by
  refine ⟨hready, ?_, ?_⟩
  · rw [hfills]
    exact fun n => (h.fills n).mono hgrows
  · rw [hdeliveries]
    exact fun d hd => hgrows.passed (h.delivered d hd)

lemma set_fill (h : Feeding env s) (n : ℕ) {fill : Fill} {intake : Intake} (hready : intake.Ready)
    (hgrows : Grows s.intake intake) (hfill : fill.FeedsAt env.chain intake) :
    Feeding env { s.setFill n fill with intake := intake } := by
  refine ⟨hready, ?_, fun d hd => hgrows.passed (h.delivered d hd)⟩
  exact (Function.forall_update_iff s.fills fun _ fill => fill.FeedsAt env.chain intake).mpr
    ⟨hfill, fun m _ => (h.fills m).mono hgrows⟩

lemma spawn (h : Feeding env s) (r : ℕ) : Feeding env (s.spawn r) := by
  unfold Ingest.spawn
  split_ifs with hsessions
  · have hfill : (s.newFill r).FeedsAt env.chain s.intake := by
      intro head walk hwalk
      unfold Ingest.newFill at hwalk
      grind
    obtain ⟨hready, hfills, hdelivered⟩ := h.set_fill s.nextFill h.ready (.refl _) hfill
    exact ⟨hready, hfills, hdelivered⟩
  · exact ⟨h.ready, h.fills, h.delivered⟩

theorem step (h : Feeding env s) {a : IngestAction} (hstep : Ingest.Step env s a s') :
    Feeding env s' := by
  cases hstep with
  | serve a server hinternal hstep =>
    obtain ⟨hready, hgrows⟩ := h.ready.serve hinternal hstep
    exact h.of_intake hready hgrows rfl rfl
  | link r a racer links hr hmove =>
    refine h.of_intake ?_ ?_ (by simp; rfl) (by simp; rfl)
    · rw [Ingest.noteOutage_intake]
      exact h.ready
    · rw [Ingest.noteOutage_intake]
      exact .refl _
  | spawn r hphase => exact h.spawn r
  | deliver r log receivedAtUs intake hphase hpass =>
    obtain ⟨hready, hgrows, -⟩ := h.ready.pass hpass
    refine ⟨hready, fun n => (h.fills n).mono hgrows, fun d hd => ?_⟩
    rcases List.mem_append.mp hd with hd | hd
    · exact hgrows.passed (h.delivered d hd)
    · rw [List.mem_singleton.mp hd]
      rw [(Intake.pass_eq_some hpass).2.2]
      simp
  | settle r call log hphase hreturned =>
    have hsettle : (s.settle r log).intake.Ready ∧ Grows s.intake (s.settle r log).intake := by
      simp only [Ingest.settle]
      split_ifs
      · exact h.ready.checkpoint env log.block
      · exact ⟨h.ready, .refl _⟩
    exact h.of_intake hsettle.1 hsettle.2 rfl rfl
  | backfillWalk walk walk' a intake hphase hstep =>
    obtain ⟨hready, hgrows⟩ := h.ready.walk hstep
    exact h.of_intake hready hgrows rfl rfl
  | backfillBegin | backfillHead | backfillPlan | backfillFail | backfillRetry =>
    exact ⟨h.ready, h.fills, h.delivered⟩
  | fillHead n head hphase =>
    exact h.set_fill n h.ready (.refl _) (Fill.feedsAt_start env.chain s.intake (s.fills n) head)
  | fillFail n hphase =>
    refine h.set_fill n h.ready (.refl _) fun head walk hwalk => ?_
    cases hwalk
  | fillWalk n head walk walk' a intake source hphase hstep =>
    obtain ⟨hready, hgrows⟩ := h.ready.walk hstep
    exact h.set_fill n hready hgrows ((h.fills n).step h.ready hphase hstep)
  | restart blockedBefore wal => exact feeding_start env blockedBefore wal _ _

end Feeding

/-! ## A fill finishes -/

def FillRun (answers : ℕ → Option MarketEnrichment × Option ℕ) (n head : ℕ) : IngestAction → Prop
  | .serve a => Answering answers a
  | .fill m (.head answer) => m = n ∧ answer = head
  | .fill m (.walk a) => m = n ∧ a ≠ .fail
  | _ => False

section Progress

variable {env : Env} {answers : ℕ → Option MarketEnrichment × Option ℕ} {n head : ℕ} {s s' : Ingest}
  {fill : Fill}

lemma internal_of_answering {a : ServerAction} (h : Answering answers a) : Internal a := by
  unfold Internal
  split
  · exact h
  · exact h
  · trivial

lemma walk_next {walk walk' : Walk} {intake : Intake} {a : WalkAction} {P : Ingest → Prop}
    (hfill : s.fills n = { fill with phase := .walking head walk }) (ha : a ≠ .fail)
    (hstep : walk.step env ("gapfill[" ++ toString fill.racer ++ "]") s.intake a =
      some (walk', intake))
    (h : ∀ s', s.step env (.fill n (.walk a)) = some s' →
      s'.fills n = { fill with phase := .walking head walk' } →
      Reaches (Ingest.step env) (FillRun answers n head) P s') :
    Reaches (Ingest.step env) (FillRun answers n head) P s := by
  have hnext : s.step env (.fill n (.walk a)) =
      some { s.setFill n { s.fills n with phase := .walking head walk' } with
        intake := intake } := by
    simp only [Ingest.step, Ingest.fillStep, hfill, hstep, Option.map_some]
  refine .next (a := .fill n (.walk a)) ⟨rfl, ha⟩ hnext (h _ hnext ?_)
  simp [Ingest.setFill, hfill]

lemma wait_over (h : Feeding env s) {call last target : ℕ} {logs : List Log}
    (hfill : s.fills n = { fill with phase := .walking head (.wait call logs last target) }) :
    Reaches (Ingest.step env) (FillRun answers n head)
      (fun s' => s'.fills n = { fill with phase := .walking head (.feed logs last target) }) s := by
  have hstarted : (s.intake.server.proc.calls call).phase ≠ .idle :=
    ((h.fills n) head _ (by rw [hfill])).2 call rfl
  -- the service finishes the call, then the walk sees it returned
  have hreturn : Reaches (Server.step env.codec env.config) (Answering answers) _ s.intake.server :=
    call_returns h.ready.flowing hstarted
  have hserve : Reaches (Ingest.step env) (FillRun answers n head) _ s :=
    hreturn.embed (fun server => { s with intake := { s.intake with server := server } })
      IngestAction.serve (fun server a server' ha hstep => by
        simp only [Ingest.step, if_pos (internal_of_answering ha), hstep, Option.map_some])
      fun _ ha => ha
  refine hserve.trans ?_
  rintro _ ⟨server, rfl, hdone, -⟩
  have hwalk : (Walk.wait call logs last target).step env
      ("gapfill[" ++ toString fill.racer ++ "]") { s.intake with server := server } .returned =
        some (.feed logs last target, { s.intake with server := server }) := if_pos hdone
  exact walk_next hfill (by simp)
    hwalk fun s' _ hs' => .here hs'

lemma batch_over (h : Feeding env s) {last target : ℕ} {logs : List Log}
    (hfill : s.fills n = { fill with phase := .walking head (.feed logs last target) }) :
    Reaches (Ingest.step env) (FillRun answers n head)
      (fun s' => Feeding env s' ∧
        s'.fills n = { fill with phase := .walking head (.feed [] last target) }) s := by
  induction logs generalizing s with
  | nil => exact .here ⟨h, hfill⟩
  | cons log logs ih =>
    obtain ⟨k, hpass⟩ := h.ready.exists_pass env log 0
      ("gapfill[" ++ toString fill.racer ++ "]")
    have hwalk : (Walk.feed (log :: logs) last target).step env
        ("gapfill[" ++ toString fill.racer ++ "]") s.intake (.pass 0) =
          some (.wait s.intake.nextCall logs last target, k) := by
      simp only [Walk.step, hpass, Option.map_some]
    refine walk_next hfill (by simp) hwalk fun t ht hfill' => ?_
    have hfeeding : Feeding env t := h.step (Ingest.step_sound ht)
    refine ((wait_over hfeeding hfill').and_invariant
      (fun s a s' hs hstep => hs.step (Ingest.step_sound hstep)) hfeeding).trans ?_
    simp_all

lemma feed_over (h : Feeding env s) (hhead : head < 2 ^ 64) {last : ℕ} {logs : List Log}
    (hfill : s.fills n = { fill with phase := .walking head (.feed logs last head) }) :
    Reaches (Ingest.step env) (FillRun answers n head)
      (fun s' => DoneBelow env.chain fill.first s'.intake.passed (head + 1) ∨
        Feeding env s' ∧ last < head ∧
          s'.fills n = { fill with phase := .walking head (.fetch (last + 1) head) }) s := by
  refine (batch_over h hfill).trans ?_
  rintro t ⟨hfeeding, hfill'⟩
  have hcovers := ((hfeeding.fills n) head _ (by rw [hfill'])).1
  rw [hfill'] at hcovers
  have hdone : DoneBelow env.chain fill.first t.intake.passed (last + 1) := by
    rw [← List.append_nil t.intake.passed]
    exact hcovers.2
  by_cases hlast : head ≤ last
  · exact .here (Or.inl (hdone.mono (List.Subset.refl _) (by omega)))
  · have hnext : Walk.start (satAdd last 1) head = .fetch (last + 1) head := by
      have hsat : satAdd last 1 = last + 1 := min_eq_left (by omega)
      rw [hsat]
      exact if_pos (by omega)
    have hwalk : (Walk.feed [] last head).step env ("gapfill[" ++ toString fill.racer ++ "]")
        t.intake .checkpoint = some (.fetch (last + 1) head, t.intake.checkpoint last) := by
      simp only [Walk.step, hnext]
    refine walk_next hfill' (by simp) hwalk fun u hu hfill'' => ?_
    exact .here (Or.inr ⟨hfeeding.step (Ingest.step_sound hu), by omega, hfill''⟩)

lemma fetch_finishes (h : Feeding env s) (hhead : head < 2 ^ 64) {cursor : ℕ} (hle : cursor ≤ head)
    (hfill : s.fills n = { fill with phase := .walking head (.fetch cursor head) }) :
    Reaches (Ingest.step env) (FillRun answers n head)
      (fun s' => DoneBelow env.chain fill.first s'.intake.passed (head + 1)) s := by
  -- the cursor grows with every batch
  induction hrank : head - cursor using Nat.strongRecOn generalizing s cursor with
  | ind rank ih =>
    have hwalk : (Walk.fetch cursor head).step env ("gapfill[" ++ toString fill.racer ++ "]")
        s.intake .fetch =
          some (.feed
            (getLogs env.chain cursor (batchEnd env.rpc.backfillBatchBlocks cursor head))
            (batchEnd env.rpc.backfillBatchBlocks cursor head) head, s.intake) := rfl
    refine walk_next hfill (by simp) hwalk fun t ht hfill' => ?_
    refine (feed_over (h.step (Ingest.step_sound ht)) hhead hfill').trans ?_
    rintro u (hdone | ⟨hfeeding, hlast, hfill''⟩)
    · exact .here hdone
    · have hbatch : cursor ≤ batchEnd env.rpc.backfillBatchBlocks cursor head :=
        le_batchEnd hle hhead
      grind

lemma feed_finishes (h : Feeding env s) (hhead : head < 2 ^ 64) {last : ℕ} {logs : List Log}
    (hfill : s.fills n = { fill with phase := .walking head (.feed logs last head) }) :
    Reaches (Ingest.step env) (FillRun answers n head)
      (fun s' => DoneBelow env.chain fill.first s'.intake.passed (head + 1)) s := by
  refine (feed_over h hhead hfill).trans ?_
  rintro t (hdone | ⟨hfeeding, hlast, hfill'⟩)
  · exact .here hdone
  · exact fetch_finishes hfeeding hhead hlast hfill'

theorem fill_finishes (h : Feeding env s) (hhead : head < 2 ^ 64)
    (hphase : (s.fills n).phase = .asking ∨
      ∃ walk, (s.fills n).phase = .walking head walk ∧ walk ≠ .failed) :
    Reaches (Ingest.step env) (FillRun answers n head)
      (fun s' => DoneBelow env.chain (s.fills n).first s'.intake.passed (head + 1)) s := by
  have hstart : ∀ t, Feeding env t →
      t.fills n = { s.fills n with
        phase := .walking head (Walk.start (s.fills n).first head) } →
      Reaches (Ingest.step env) (FillRun answers n head)
        (fun s' => DoneBelow env.chain (s.fills n).first s'.intake.passed (head + 1)) t := by
    intro t ht hfill
    unfold Walk.start at hfill
    split_ifs at hfill with hle
    · exact fetch_finishes ht hhead hle hfill
    · exact .here (.of_le (by omega))
  rcases hphase with hasking | ⟨walk, hwalking, hfailed⟩
  · have hstep : s.step env (.fill n (.head head)) =
        some (s.setFill n
          { s.fills n with phase := .walking head (Walk.start (s.fills n).first head) }) := by
      simp only [Ingest.step, Ingest.fillStep, hasking]
    refine .next (a := .fill n (.head head)) ⟨rfl, rfl⟩ hstep
      (hstart _ (h.step (Ingest.step_sound hstep)) ?_)
    exact Function.update_self _ _ _
  · have hfill : s.fills n = { s.fills n with phase := .walking head walk } := by
      rw [← hwalking]
    obtain ⟨hcovers, -⟩ := h.fills n head walk hwalking
    cases walk with
    | fetch cursor target =>
      obtain ⟨rfl, hle, -⟩ := hcovers
      exact fetch_finishes h hhead hle hfill
    | feed logs last target =>
      obtain ⟨rfl, -⟩ := hcovers
      exact feed_finishes h hhead hfill
    | wait call logs last target =>
      obtain ⟨rfl, -⟩ := hcovers
      refine ((wait_over h hfill).and_invariant
        (fun s a s' hs hstep => hs.step (Ingest.step_sound hstep)) h).trans ?_
      rintro t ⟨hfill', hfeeding⟩
      exact feed_finishes hfeeding hhead hfill'
    | complete => exact .here hcovers
    | failed => exact absurd rfl hfailed

end Progress

/-! ## No hole -/

def Log.Before (d l : Log) : Prop := d.block < l.block ∨ d.block = l.block ∧ d.index < l.index

instance (d l : Log) : Decidable (d.Before l) := inferInstanceAs (Decidable (_ ∨ _))

def IngestAction.Alive : IngestAction → Prop
  | .restart _ _ => False
  | _ => True

def NothingBelow (env : Env) (s : Ingest) (r : ℕ) : Prop :=
  ∀ d ∈ s.outage, ∀ b ≤ min s.intake.server.proc.stats.latestBlock (s.racers r).subscribedAt,
    ∀ l ∈ env.chain.logs b, d.Before l → l ∈ s.intake.passed

instance (env : Env) (s : Ingest) (r : ℕ) : Decidable (NothingBelow env s r) :=
  inferInstanceAs (Decidable (∀ _ ∈ _, ∀ b ≤ _, _))

lemma first_stable {env : Env} {s s' : Ingest} {a : IngestAction} {n : ℕ}
    (h : Ingest.Step env s a s') (ha : a.Alive) (hn : n < s.nextFill) :
    n < s'.nextFill ∧ (s'.fills n).first = (s.fills n).first := by
  have hset : ∀ m phase, ((s.setFill m { s.fills m with phase := phase }).fills n).first =
      (s.fills n).first := by
    intro m phase
    by_cases hnm : n = m
    · subst hnm
      simp [Ingest.setFill]
    · simp [Ingest.setFill, hnm]
  cases h with
  | link r a racer links hr hmove =>
    simp only [Ingest.noteOutage_nextFill, Ingest.noteOutage_fills]
    exact ⟨hn, rfl⟩
  | spawn r hphase =>
    unfold Ingest.spawn
    split_ifs
    · refine ⟨Nat.lt_succ_of_lt hn, ?_⟩
      simp [Ingest.setFill, Ingest.setRacer, Nat.ne_of_lt hn]
    · exact ⟨hn, rfl⟩
  | fillHead m head hphase => exact ⟨hn, hset m _⟩
  | fillFail m hphase => exact ⟨hn, hset m _⟩
  | fillWalk m head walk walk' a intake source hphase hstep => exact ⟨hn, hset m _⟩
  | restart => exact ha.elim
  | serve | deliver | settle | backfillBegin | backfillHead | backfillPlan | backfillFail
  | backfillWalk | backfillRetry => exact ⟨hn, rfl⟩

lemma first_of_spawn {env : Env} {s s₁ s₂ : Ingest} {r : ℕ} {bs : List IngestAction}
    (hspawn : s.step env (.spawn r) = some s₁) (hreconnect : 0 < (s.racers r).sessions)
    (hrun : run (Ingest.step env) s₁ bs = some s₂) (halive : ∀ a ∈ bs, a.Alive) :
    (s₂.fills s.nextFill).first = satAdd s.intake.server.proc.stats.latestBlock 1 ∧
      s.intake.passed ⊆ s₂.intake.passed := by
  have hstart : s.nextFill < s₁.nextFill ∧
      (s₁.fills s.nextFill).first = satAdd s.intake.server.proc.stats.latestBlock 1 ∧
      s.intake.passed ⊆ s₁.intake.passed := by
    cases Ingest.step_sound hspawn with
    | spawn _ hspawning =>
      unfold Ingest.spawn
      rw [if_pos hreconnect]
      exact ⟨Nat.lt_succ_self _, by simp [Ingest.setFill, Ingest.newFill], List.Subset.refl _⟩
  refine (run_invariant (I := fun t => s.nextFill < t.nextFill ∧
    (t.fills s.nextFill).first = satAdd s.intake.server.proc.stats.latestBlock 1 ∧
    s.intake.passed ⊆ t.intake.passed) ?_ hstart (allSteps_of_forall halive s₁) hrun).2
  rintro t a t' ⟨htn, htfirst, htsub⟩ ha hstep
  obtain ⟨hn, heq⟩ := first_stable (Ingest.step_sound hstep) ha htn
  exact ⟨hn, heq.trans htfirst, List.Subset.trans htsub (Ingest.step_sound hstep).passed_subset⟩

theorem gap_fill_leaves_no_hole (env : Env) (head : ℕ) {blockedBefore : Bytes 32 → ℕ → Bool}
    {wal : Option (List UInt8)} {cursorFile : Option ℕ} {as bs : List IngestAction}
    {s s₁ s₂ : Ingest} {r : ℕ}
    (hboot : run (Ingest.step env) (Ingest.boot env blockedBefore wal cursorFile) as = some s)
    (hspawn : s.step env (.spawn r) = some s₁) (hreconnect : 0 < (s.racers r).sessions)
    (hbelow : NothingBelow env s r) (hrun : run (Ingest.step env) s₁ bs = some s₂)
    (halive : ∀ a ∈ bs, a.Alive) (hhead : head < 2 ^ 64)
    (hphase : (s₂.fills s.nextFill).phase = .asking ∨
      ∃ walk, (s₂.fills s.nextFill).phase = .walking head walk ∧ walk ≠ .failed)
    (hsubscription : ∀ b, (s.racers r).subscribedAt < b → b ≤ head → ∀ l ∈ env.chain.logs b,
      ⟨r, (s.racers r).sessions, l⟩ ∈ s₂.deliveries)
    (answers : ℕ → Option MarketEnrichment × Option ℕ) :
    Reaches (Ingest.step env) (FillRun answers s.nextFill head)
      (fun s₃ => ∀ d ∈ s.outage, ∀ b ≤ head, ∀ l ∈ env.chain.logs b, d.Before l →
        l ∈ s₃.intake.passed) s₂ := by
  have hkeep : ∀ s a s', Feeding env s → Ingest.step env s a = some s' → Feeding env s' :=
    fun s a s' hs hstep => hs.step (Ingest.step_sound hstep)
  have hfeeding : Feeding env s :=
    run_invariant_of_step hkeep (feeding_start env blockedBefore wal cursorFile []) hboot
  have hfeeding₂ : Feeding env s₂ :=
    run_invariant_of_step hkeep (hkeep s _ s₁ hfeeding hspawn) hrun
  obtain ⟨hfirst, hsub⟩ := first_of_spawn hspawn hreconnect hrun halive
  have hfinish : Reaches (Ingest.step env) (FillRun answers s.nextFill head) _ s₂ :=
    (fill_finishes hfeeding₂ hhead hphase).and_invariant
     
      (fun t a t' ht hstep => List.Subset.trans ht (Ingest.step_sound hstep).passed_subset)
      (List.Subset.refl _)
  refine hfinish.mono ?_
  rintro s₃ ⟨hdone, hsub₃⟩ d hd b hb l hl hafter
  rw [hfirst] at hdone
  -- the fill covers the blocks above the newest admitted one, the subscription those above its head
  by_cases hlatest : b ≤ s.intake.server.proc.stats.latestBlock
  · by_cases hsubscribed : b ≤ (s.racers r).subscribedAt
    · exact hsub₃ (hsub (hbelow d hd b (le_min hlatest hsubscribed) l hl hafter))
    · have hdelivered := hsubscription b (by omega) hb l hl
      exact hsub₃ (hfeeding₂.delivered _ hdelivered)
  · exact hdone b (by omega) ((satAdd_le _ _).trans (by omega)) l hl

def dropRacer (r : ℕ) : List IngestAction :=
  [.link r .drop, .link r .uncount, .link r .load, .link r .unmark]

def apartLogs : Env := testEnv [testLog 1 10 0, testLog 2 12 0]

def outageBetweenBlocks : List IngestAction :=
  connectRacer 0 9 ++ deliverLog 0 0 (testLog 1 10 0) ++ dropRacer 0 ++
  [.link 0 (.connect 13), .link 0 .count, .link 0 .mark, .link 0 .announce]

theorem gap_fill_catches_missed_block :
    ∃ s, run (Ingest.step apartLogs) (Ingest.boot apartLogs (fun _ _ => false) none none)
        outageBetweenBlocks = some s ∧
      testLog 2 12 0 ∉ s.intake.passed ∧
      Reaches (Ingest.step apartLogs) (FillRun (fun _ => (none, none)) 0 13)
        (fun s' => testLog 2 12 0 ∈ s'.intake.passed) (s.spawn 0) := by
  refine exists_some_imp (P := fun s => s.racers 0 = ⟨.spawning, 1, 13⟩ ∧
    s.outage = some (testLog 1 10 0) ∧ NothingBelow apartLogs s 0 ∧ s.nextFill = 0 ∧
    ((s.spawn 0).fills 0).phase = .asking ∧ testLog 2 12 0 ∉ s.intake.passed) (by decide +kernel) ?_
  rintro s hrun ⟨hracer, houtage, hbelow, hnext, hphase, hpassed⟩
  refine ⟨hpassed, ?_⟩
  have hspawn : s.step apartLogs (.spawn 0) = some (s.spawn 0) := by
    simp only [Ingest.step, hracer]
  have hcovered := gap_fill_leaves_no_hole apartLogs 13 hrun hspawn (by rw [hracer]; decide)
    hbelow (run_nil (s.spawn 0)) (fun a ha => absurd ha List.not_mem_nil)
    (by decide) (Or.inl (by rw [hnext]; exact hphase))
    (fun b hb hb' => absurd hb (by grind)) fun _ => (none, none)
  rw [hnext, houtage] at hcovered
  refine hcovered.mono fun s' hs' => ?_
  exact hs' (testLog 1 10 0) rfl 12 (by decide) _ (by decide) (by decide)

def splitBlock : Env := testEnv [testLog 1 10 0, testLog 2 10 1]

def outageWithinBlock : List IngestAction :=
  connectRacer 0 9 ++ [.backfill .begin, .backfill (.head 9), .backfill .plan] ++
  deliverLog 0 0 (testLog 1 10 0) ++ dropRacer 0 ++ connectRacer 0 12 ++
  [.fill 0 (.head 12), .fill 0 (.walk .fetch), .fill 0 (.walk .checkpoint)]

/-- The fill starts at block 11, after the newest admitted block: the second log of block 10 is
never handed over, and nothing is left that would. -/
theorem rest_of_block_lost_in_outage :
    ∃ s, run (Ingest.step splitBlock) (Ingest.boot splitBlock (fun _ _ => false) none (some 9))
        outageWithinBlock = some s ∧
      s.fills 0 = ⟨0, 11, .walking 12 .complete, 1, 12, some (testLog 1 10 0)⟩ ∧
      s.backfill = .walking .complete ∧ testLog 2 10 1 ∈ splitBlock.chain.logs 10 ∧
      (testLog 1 10 0).Before (testLog 2 10 1) ∧ testLog 2 10 1 ∉ s.intake.passed :=
  exists_some_of_any (by decide +kernel)

end RustUma.Rpc
