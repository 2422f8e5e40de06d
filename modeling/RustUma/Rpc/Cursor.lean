import RustUma.Rpc.Ingest

/-!
# What `uma.cursor` claims

The next process resumes one block after `uma.cursor`, so a cursor at `c` claims that every log up
to block `c` was handed to `process`. Three kinds of task checkpoint blocks: a walk at the end of a
batch, and a live session after every single log, with the block of that log.
-/

namespace RustUma.Rpc

open RustUma.Found RustUma.Model RustUma.Pipeline RustUma.Storage RustUma.Service

/-! ## The cursor and its way to the disk -/

structure Claimed (chain : Chain) (first : ℕ) (passed : List Log) (w : WriteLoop) : Prop where
  file : ∀ c ∈ w.cursorFile, DoneBelow chain first passed (c + 1)
  cursor : 0 < w.umaCursor → DoneBelow chain first passed (w.umaCursor + 1)
  queued : ∀ b, .checkpoint b ∈ w.rx.items → DoneBelow chain first passed (b + 1)

namespace Claimed

variable {chain : Chain} {first : ℕ} {passed : List Log} {w w' : WriteLoop}

lemma mono (h : Claimed chain first passed w) {passed' : List Log} (hsub : passed ⊆ passed') :
    Claimed chain first passed' w where
  file c hc := (h.file c hc).mono hsub le_rfl
  cursor hpos := (h.cursor hpos).mono hsub le_rfl
  queued b hb := (h.queued b hb).mono hsub le_rfl

lemma push (h : Claimed chain first passed w) (command : StorageCommand)
    (hcommand : ∀ b, command = .checkpoint b → DoneBelow chain first passed (b + 1)) :
    Claimed chain first passed { w with rx := w.rx.push command } where
  file := h.file
  cursor := h.cursor
  queued := by
    intro b hb
    rcases List.mem_append.mp hb with hb | hb
    · exact h.queued b hb
    simp_all

lemma persist_file (h : Claimed chain first passed w) :
    ∀ c ∈ w.persist.cursorFile, DoneBelow chain first passed (c + 1) := by
  intro c hc
  simp only [Writer.persist] at hc
  split_ifs at hc with hpos
  · cases hc
    exact h.cursor hpos
  · exact h.file c hc

lemma write (h : Claimed chain first passed w) {codec : Codec} {eventCapacity : ℕ} {shutdown : Bool}
    {snapshot : List EventRecord} {a : WriteAction}
    (hstep : w.Step codec eventCapacity shutdown snapshot a w') :
    Claimed chain first passed w' := by
  cases hstep with
  | event event rx hphase hrecv =>
    obtain ⟨hitems, -, -⟩ := Channel.recv_eq_some hrecv
    refine ⟨h.file, h.cursor, fun b hb => h.queued b ?_⟩
    simp_all
  | checkpoint block rx hphase hrecv =>
    obtain ⟨hitems, -, -⟩ := Channel.recv_eq_some hrecv
    refine ⟨h.file, fun hpos => ?_, fun b hb => h.queued b ?_⟩
    · -- the running maximum is the old one or the block just taken from the queue
      rcases Nat.le_total w.umaCursor block with hle | hle
      · rw [Nat.max_eq_right hle]
        refine h.queued block ?_
        simp_all
      · rw [Nat.max_eq_left hle] at hpos ⊢
        exact h.cursor hpos
    simp_all
  | compact hphase => exact ⟨h.file, h.cursor, h.queued⟩
  | tick hphase => exact ⟨h.persist_file, h.cursor, h.queued⟩
  | stop hphase hshutdown =>
    exact ⟨h.persist_file, h.cursor, fun b hb => absurd hb List.not_mem_nil⟩

end Claimed

lemma storageTx_step {p p' : Processor} {a : Action} (h : p.Step a p') :
    p'.storageTx = p.storageTx ∨
      ∃ command, p'.storageTx = p.storageTx.push command ∧
        ∀ b, command = .checkpoint b → a = .checkpoint b := by
  cases h with
  | store i record hphase hroom =>
    grind
  | checkpoint block hroom =>
    grind
  | _ => exact Or.inl rfl

variable {chain : Chain} {first : ℕ} {passed : List Log}

lemma Claimed.serve {s s' : Server} (h : Claimed chain first passed s.writeLoop) {codec : Codec}
    {config : Config} {a : ServerAction} (hstep : s.Step codec config a s')
    (hcheckpoint : ∀ b, a = .process (.checkpoint b) → DoneBelow chain first passed (b + 1)) :
    Claimed chain first passed s'.writeLoop := by
  cases hstep with
  | process a p hstep =>
    rcases storageTx_step hstep with hsame | ⟨command, hpush, hcommand⟩
    · have heq : Server.writeLoop { s with proc := p } = s.writeLoop := by
        simp only [Server.writeLoop, hsame]
      rw [heq]
      exact h
    · have heq : Server.writeLoop { s with proc := p } =
          { s.writeLoop with rx := s.writeLoop.rx.push command } := by
        simp only [Server.writeLoop, hpush]
      rw [heq]
      exact h.push command fun b hb => hcheckpoint b (by rw [hcommand b hb])
  | batch a b hstep => exact ⟨h.file, h.cursor, h.queued⟩
  | session a session hstep => exact ⟨h.file, h.cursor, h.queued⟩
  | write a w hstep => exact h.write hstep
  | shutdown => exact ⟨h.file, h.cursor, h.queued⟩

lemma claimed_boot {cursorFile : Option ℕ}
    (hfile : ∀ c ∈ cursorFile, DoneBelow chain first passed (c + 1)) (codec : Codec)
    (config : Config) (blockedBefore : Bytes 32 → ℕ → Bool) (wal : Option (List UInt8)) :
    Claimed chain first passed
      (Server.boot codec config blockedBefore wal cursorFile).writeLoop where
  file := hfile
  cursor := by
    intro hpos
    cases cursorFile with
    | none => exact absurd hpos (Nat.lt_irrefl 0)
    | some c => exact hfile c rfl
  queued := fun b hb => absurd hb List.not_mem_nil

/-! ## What is asked of a run -/

def RacerPhase.log? : RacerPhase → Option Log
  | .processing _ log => some log
  | _ => none

def Backfill.head? : Backfill → Option ℕ
  | .headRead head => some head
  | _ => none

def Orderly (env : Env) (first : ℕ) (s : Ingest) : IngestAction → Prop
  | .settle r =>
    ∀ log ∈ (s.racers r).phase.log?,
      0 < log.block → DoneBelow env.chain first s.intake.passed (log.block + 1)
  | .spawn r =>
    0 < (s.racers r).sessions → 0 < s.intake.server.proc.stats.latestBlock →
      DoneBelow env.chain first s.intake.passed (s.intake.server.proc.stats.latestBlock + 1)
  | .backfill .plan =>
    ∀ head ∈ s.backfill.head?,
      s.intake.server.writer.cursorFile = none → backfillFrom env none head ≤ first
  | _ => True

instance (env : Env) (first : ℕ) (s : Ingest) (a : IngestAction) :
    Decidable (Orderly env first s a) := by
  delta Orderly
  split <;> infer_instance

/-! ## The invariant -/

def Fill.SafeAt (chain : Chain) (first : ℕ) (passed : List Log) (fill : Fill) : Prop :=
  match fill.phase with
  | .asking => DoneBelow chain first passed fill.first
  | .walking head walk => walk.Covers chain first head passed
  | _ => True

lemma Fill.SafeAt.mono {passed' : List Log} {fill : Fill} (h : fill.SafeAt chain first passed)
    (hsub : passed ⊆ passed') :
    fill.SafeAt chain first passed' := by
  unfold SafeAt at h ⊢
  split at h
  · exact h.mono hsub le_rfl
  · exact h.mono hsub
  · trivial

structure Safe (env : Env) (first : ℕ) (s : Ingest) : Prop where
  claimed : Claimed env.chain first s.intake.passed s.intake.server.writeLoop
  backfill : ∀ walk, s.backfill = .walking walk →
    ∃ head, walk.Covers env.chain first head s.intake.passed
  fills : ∀ n, (s.fills n).SafeAt env.chain first s.intake.passed

namespace Safe

variable {env : Env} {first : ℕ} {s s' : Ingest}

lemma pass_claimed (h : Safe env first s) {log : Log} {receivedAtUs : ℕ} {source : String}
    {intake : Intake} (hpass : s.intake.pass env log receivedAtUs source = some intake) :
    Claimed env.chain first intake.passed intake.server.writeLoop := by
  obtain ⟨hserver, -, hpassed⟩ := Intake.pass_eq_some hpass
  rw [hpassed]
  exact (h.claimed.serve hserver fun b hb => by cases hb).mono (List.subset_append_left _ _)

lemma checkpoint_claimed (h : Safe env first s) {block : ℕ}
    (hdone : DoneBelow env.chain first s.intake.passed (block + 1)) :
    Claimed env.chain first s.intake.passed (s.intake.checkpoint block).server.writeLoop := by
  refine h.claimed.serve (s.intake.checkpoint_step env block) fun b hb => ?_
  cases hb
  exact hdone

lemma walk_claimed (h : Safe env first s) {head : ℕ} {walk walk' : Walk} {a : WalkAction}
    {intake : Intake} {source : String}
    (hcovers : walk.Covers env.chain first head s.intake.passed)
    (hstep : Walk.Step env source s.intake walk a walk' intake) :
    Claimed env.chain first intake.passed intake.server.writeLoop := by
  cases hstep with
  | pass log logs last target receivedAtUs _ hpass => exact h.pass_claimed hpass
  | checkpoint last target =>
    refine h.checkpoint_claimed ?_
    rw [← List.append_nil s.intake.passed]
    exact hcovers.2
  | fetch | fail | returned => exact h.claimed

lemma rest_mono (h : Safe env first s) {passed : List Log} (hsub : s.intake.passed ⊆ passed) :
    (∀ walk, s.backfill = .walking walk → ∃ head, walk.Covers env.chain first head passed) ∧
      ∀ n, (s.fills n).SafeAt env.chain first passed := by
  refine ⟨fun walk hwalk => ?_, fun n => (h.fills n).mono hsub⟩
  obtain ⟨head, hcovers⟩ := h.backfill walk hwalk
  exact ⟨head, hcovers.mono hsub⟩

lemma of_intake (h : Safe env first s) (hbackfill : s'.backfill = s.backfill)
    (hfills : s'.fills = s.fills) (hsub : s.intake.passed ⊆ s'.intake.passed)
    (hclaimed : Claimed env.chain first s'.intake.passed s'.intake.server.writeLoop) :
    Safe env first s' := by
  obtain ⟨hwalk, hfill⟩ := h.rest_mono hsub
  refine ⟨hclaimed, ?_, ?_⟩
  · simp_all
  simp_all

lemma set_backfill (h : Safe env first s) (backfill : Backfill)
    (hwalk : ∀ walk, backfill = .walking walk →
      ∃ head, walk.Covers env.chain first head s.intake.passed) :
    Safe env first { s with backfill := backfill } :=
  ⟨h.claimed, hwalk, h.fills⟩

lemma set_fill (h : Safe env first s) (n : ℕ) (fill : Fill)
    (hfill : fill.SafeAt env.chain first s.intake.passed) : Safe env first (s.setFill n fill) := by
  refine ⟨h.claimed, h.backfill, ?_⟩
  exact (Function.forall_update_iff s.fills fun _ fill =>
    fill.SafeAt env.chain first s.intake.passed).mpr ⟨hfill, fun m _ => h.fills m⟩

lemma spawn (h : Safe env first s) (r : ℕ) (hok : Orderly env first s (.spawn r)) :
    Safe env first (s.spawn r) := by
  unfold Ingest.spawn
  split_ifs with hsessions
  · have hfill : (s.newFill r).SafeAt env.chain first s.intake.passed := by
      unfold Ingest.newFill Fill.SafeAt
      split
      · next hphase =>
        -- an `asking` fill starts above a block that was admitted
        have hpos : 0 < s.intake.server.proc.stats.latestBlock := by
          by_contra hzero
          have hle : satAdd s.intake.server.proc.stats.latestBlock 1 ≤ 1 :=
            (satAdd_le _ _).trans (by omega)
          simp [hle] at hphase
        exact (hok hsessions hpos).mono (List.Subset.refl _) (satAdd_le _ _)
      · grind
      · trivial
    obtain ⟨hclaimed, hbackfill, hfills⟩ := h.set_fill s.nextFill _ hfill
    exact ⟨hclaimed, hbackfill, hfills⟩
  · exact ⟨h.claimed, h.backfill, h.fills⟩

lemma plan (h : Safe env first s) {head : ℕ} (hphase : s.backfill = .headRead head)
    (hok : Orderly env first s (.backfill .plan)) :
    Safe env first
      { s with
        backfill := .walking
          (Walk.start (backfillFrom env s.intake.server.writer.cursorFile head) head) } := by
  refine h.set_backfill _ fun walk hwalk => ⟨head, ?_⟩
  cases hwalk
  refine Walk.covers_start ?_
  cases hfile : s.intake.server.writer.cursorFile with
  | some c => exact (h.claimed.file c hfile).mono (List.Subset.refl _) (satAdd_le c 1)
  | none =>
    have hhead : head ∈ s.backfill.head? := by
      rw [hphase]
      rfl
    exact .of_le (hok head hhead hfile)

theorem step (h : Safe env first s) {a : IngestAction} (hok : Orderly env first s a)
    (hstep : Ingest.Step env s a s') : Safe env first s' := by
  cases hstep with
  | serve a server hinternal hstep =>
    refine h.of_intake rfl rfl (List.Subset.refl _) (h.claimed.serve hstep fun b hb => ?_)
    rw [hb] at hinternal
    exact hinternal.elim
  | link r a racer links hr hmove =>
    refine h.of_intake (by simp; rfl) (by simp; rfl) (by simp [Ingest.setRacer]) ?_
    rw [Ingest.noteOutage_intake]
    exact h.claimed
  | spawn r hphase => exact h.spawn r hok
  | deliver r log receivedAtUs intake hphase hpass =>
    refine h.of_intake rfl rfl ?_ (h.pass_claimed hpass)
    rw [(Intake.pass_eq_some hpass).2.2]
    simp
  | settle r call log hphase hreturned =>
    refine h.of_intake rfl rfl (by simp) ?_
    simp only [Ingest.settle]
    split_ifs with hblock
    · exact h.checkpoint_claimed (hok log (by rw [hphase]; rfl) hblock)
    · exact h.claimed
  | backfillBegin hphase hany | backfillFail head hphase =>
    exact h.set_backfill .ready fun walk hwalk => by cases hwalk
  | backfillHead head hphase =>
    exact h.set_backfill (.headRead head) fun walk hwalk => by cases hwalk
  | backfillPlan head hphase => exact h.plan hphase hok
  | backfillWalk walk walk' a intake hphase hstep =>
    obtain ⟨head, hcovers⟩ := h.backfill walk hphase
    refine ⟨h.walk_claimed hcovers hstep, fun w hw => ⟨head, ?_⟩,
      (h.rest_mono hstep.passed_subset).2⟩
    cases hw
    exact hcovers.step hstep
  | backfillRetry hphase => exact h.set_backfill .ready fun walk hwalk => by cases hwalk
  | fillHead n head hphase =>
    have hn := h.fills n
    unfold Fill.SafeAt at hn
    rw [hphase] at hn
    exact h.set_fill n _ (Walk.covers_start hn)
  | fillFail n hphase => exact h.set_fill n _ trivial
  | fillWalk n head walk walk' a intake source hphase hstep =>
    have hn := h.fills n
    unfold Fill.SafeAt at hn
    rw [hphase] at hn
    obtain ⟨hbackfill, hfills⟩ := h.rest_mono hstep.passed_subset
    refine ⟨h.walk_claimed hn hstep, hbackfill, ?_⟩
    exact (Function.forall_update_iff s.fills fun _ fill =>
      fill.SafeAt env.chain first intake.passed).mpr ⟨hn.step hstep, fun m _ => hfills m⟩
  | restart blockedBefore wal =>
    refine ⟨claimed_boot h.claimed.file _ _ _ _, fun walk hwalk => ?_, fun n => trivial⟩
    cases hwalk

end Safe

lemma safe_boot {env : Env} {first : ℕ} {cursorFile : Option ℕ}
    (hfile : ∀ c ∈ cursorFile, c < first) (blockedBefore : Bytes 32 → ℕ → Bool)
    (wal : Option (List UInt8)) :
    Safe env first (Ingest.boot env blockedBefore wal cursorFile) where
  claimed := claimed_boot (fun c hc => .of_le (hfile c hc)) _ _ _ _
  backfill := fun walk hwalk => by cases hwalk
  fills := fun n => trivial

theorem cursor_claims_processed_blocks (env : Env) (first : ℕ) {cursorFile : Option ℕ}
    (hfile : ∀ c ∈ cursorFile, c < first) {blockedBefore : Bytes 32 → ℕ → Bool}
    {wal : Option (List UInt8)} {as : List IngestAction} {s : Ingest}
    (hsteps : AllSteps (Ingest.step env) (Orderly env first)
      (Ingest.boot env blockedBefore wal cursorFile) as)
    (hrun : run (Ingest.step env) (Ingest.boot env blockedBefore wal cursorFile) as = some s) :
    ∀ c, s.intake.server.writer.cursorFile = some c →
      ∀ b, first ≤ b → b ≤ c → ∀ l ∈ env.chain.logs b, l ∈ s.intake.passed := by
  have hsafe : Safe env first s :=
    run_invariant (fun s a s' h hok hstep => h.step hok (Ingest.step_sound hstep))
      (safe_boot hfile blockedBefore wal) hsteps hrun
  intro c hc b hfirst hb
  exact hsafe.claimed.file c hc b (by omega) hfirst

def twoLogs : Env := testEnv [testLog 1 5 0, testLog 2 10 0]

def backfillThenLive : List IngestAction :=
  connectRacer 0 9 ++ [.backfill .begin, .backfill (.head 9), .backfill .plan,
    .backfill (.walk .fetch), .backfill (.walk (.pass 7))] ++ processUnresolved 0 ++
  [.backfill (.walk .returned), .backfill (.walk .checkpoint)] ++
  deliverLog 0 1 (testLog 2 10 0) ++ List.replicate 4 (.serve (.write .recv)) ++
  [.serve (.write .tick)]

theorem cursor_claims_backfilled_blocks :
    ∃ s, run (Ingest.step twoLogs) (Ingest.boot twoLogs (fun _ _ => false) none (some 4))
        backfillThenLive = some s ∧
      s.intake.server.writer.cursorFile = some 10 ∧ testLog 1 5 0 ∈ s.intake.passed := by
  refine exists_some_imp
    (by decide +kernel) fun s hrun hfile => ⟨hfile, ?_⟩
  exact cursor_claims_processed_blocks twoLogs 5 (by decide) (by decide +kernel) hrun 10 hfile 5
    (by decide) (by decide) _ (by decide)

def liveDuringBackfill : List IngestAction :=
  connectRacer 0 9 ++ [.backfill .begin, .backfill (.head 9), .backfill .plan] ++
  deliverLog 0 0 (testLog 2 10 0) ++ List.replicate 2 (.serve (.write .recv)) ++
  [.serve (.write .tick), .restart (fun _ _ => false) none] ++ connectRacer 0 12 ++
  [.backfill .begin, .backfill (.head 12), .backfill .plan]

/-- The cursor claims block 10 and the next process resumes at block 11; the log of block 5 was
never handed over. -/
theorem live_log_overtakes_backfill :
    ∃ s, run (Ingest.step twoLogs) (Ingest.boot twoLogs (fun _ _ => false) none (some 4))
        liveDuringBackfill = some s ∧
      s.intake.server.writer.cursorFile = some 10 ∧ s.backfill = .walking (.fetch 11 12) ∧
      testLog 1 5 0 ∈ twoLogs.chain.logs 5 ∧ testLog 1 5 0 ∉ s.intake.passed :=
  exists_some_of_any (by decide +kernel)

end RustUma.Rpc
