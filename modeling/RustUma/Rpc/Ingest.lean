import RustUma.Rpc.Walk
import RustUma.Model.Protobuf
import RustUma.Service.ExactlyOnce

/-!
# The tasks that feed the service (`src/uma/rpc.rs` `run_rpc_loop`)

Any number of live racers, the start-up backfill and the gap fills that reconnecting racers spawn,
as one machine over the service.

`deliveries` and `outage` record what was delivered by which session, and the last log delivered
before every racer was down; no step of the program reads them.
-/

namespace RustUma.Rpc

open RustUma.Found RustUma.Model RustUma.Pipeline RustUma.Service

/-! ## Racers -/

inductive RacerPhase where
  /-- At the top of the loop, not connected. -/
  | offline
  /-- Subscribed; `mark_source_connected` has still to count and mark it. -/
  | counting
  | marking
  | announcing
  | spawning
  | listening
  | processing (call : ℕ) (log : Log)
  /-- The session is over; `mark_source_disconnected` has still to uncount and mark it. -/
  | ended
  | uncounted
  | remaining (count : ℕ)
  | stopped
  deriving DecidableEq

structure Racer where
  phase : RacerPhase
  sessions : ℕ
  subscribedAt : ℕ
  deriving DecidableEq

structure Links where
  sourcesConnected : ℕ
  rpcConnected : Bool
  anyConnected : Bool
  deriving DecidableEq

inductive LinkAction where
  | connect (head : ℕ)
  | connectFail
  | count
  | mark
  | announce
  | drop
  | uncount
  | load
  | unmark
  | stop
  deriving DecidableEq

namespace Racer

def Subscribed (r : Racer) : Prop :=
  match r.phase with
  | .counting | .marking | .announcing | .spawning | .listening | .processing _ _ => True
  | _ => False

instance (r : Racer) : Decidable r.Subscribed := by
  unfold Subscribed
  split <;> infer_instance

def move (shutdown : Bool) (links : Links) (r : Racer) : LinkAction → Option (Racer × Links)
  | .connect head =>
    match r.phase with
    | .offline => some ({ r with phase := .counting, subscribedAt := head }, links)
    | _ => none
  | .connectFail =>
    match r.phase with
    | .offline => some ({ r with phase := .ended }, links)
    | _ => none
  | .count =>
    match r.phase with
    | .counting =>
      some ({ r with phase := .marking },
        { links with sourcesConnected := links.sourcesConnected + 1 })
    | _ => none
  | .mark =>
    match r.phase with
    | .marking => some ({ r with phase := .announcing }, { links with rpcConnected := true })
    | _ => none
  | .announce =>
    match r.phase with
    | .announcing => some ({ r with phase := .spawning }, { links with anyConnected := true })
    | _ => none
  | .drop =>
    match r.phase with
    | .listening => some ({ r with phase := .ended }, links)
    | _ => none
  | .uncount =>
    match r.phase with
    | .ended =>
      some ({ r with phase := .uncounted, sessions := r.sessions + 1 },
        { links with sourcesConnected := links.sourcesConnected - 1 })
    | _ => none
  | .load =>
    match r.phase with
    | .uncounted => some ({ r with phase := .remaining links.sourcesConnected }, links)
    | _ => none
  | .unmark =>
    match r.phase with
    | .remaining count =>
      some ({ r with phase := .offline }, { links with rpcConnected := decide (0 < count) })
    | _ => none
  | .stop =>
    match r.phase with
    | .offline | .listening =>
      if shutdown then some ({ r with phase := .stopped }, links) else none
    | _ => none

end Racer

/-! ## The backfill and the gap fills -/

def firstBlockAtOrAfter (timestamp : ℕ → ℕ) (target low high : ℕ) : ℕ :=
  if low < high then
    let middle := low + (high - low) / 2
    if timestamp middle < target then firstBlockAtOrAfter timestamp target (middle + 1) high
    else firstBlockAtOrAfter timestamp target low middle
  else low
  termination_by high - low

def lookback (days : ℕ) : ℕ := min (days * (24 * 60 * 60)) (2 ^ 64 - 1)

def backfillFrom (env : Env) (cursorFile : Option ℕ) (head : ℕ) : ℕ :=
  match cursorFile with
  | some checkpoint => satAdd checkpoint 1
  | none =>
    match env.rpc.startBlock with
    | some start => start
    | none =>
      firstBlockAtOrAfter env.chain.timestamp
        (env.chain.timestamp head - lookback env.rpc.initialBackfillDays)
        (head - lookback env.rpc.initialBackfillDays) head

inductive Backfill where
  | waiting
  | ready
  | headRead (head : ℕ)
  | walking (walk : Walk)
  deriving DecidableEq

inductive BackfillAction where
  | begin
  | head (head : ℕ)
  | plan
  | fail
  | walk (a : WalkAction)
  | retry
  deriving DecidableEq

inductive FillPhase where
  | absent
  | skipped
  | asking
  | walking (head : ℕ) (walk : Walk)
  | failed
  deriving DecidableEq

structure Fill where
  racer : ℕ
  first : ℕ
  phase : FillPhase
  session : ℕ
  subscribedAt : ℕ
  outage : Option Log
  deriving DecidableEq

inductive FillAction where
  | head (head : ℕ)
  | fail
  | walk (a : WalkAction)
  deriving DecidableEq

/-! ## The machine -/

structure Delivery where
  racer : ℕ
  session : ℕ
  log : Log
  deriving DecidableEq

structure Ingest where
  intake : Intake
  racers : ℕ → Racer
  links : Links
  backfill : Backfill
  fills : ℕ → Fill
  nextFill : ℕ
  deliveries : List Delivery
  outage : Option Log

def Internal : ServerAction → Prop
  | .process (.receive _ _ _ _) => False
  | .process (.checkpoint _) => False
  | _ => True

instance (a : ServerAction) : Decidable (Internal a) := by
  unfold Internal
  split <;> infer_instance

inductive IngestAction where
  | serve (a : ServerAction)
  | link (r : ℕ) (a : LinkAction)
  | spawn (r : ℕ)
  | deliver (r : ℕ) (log : Log) (receivedAtUs : ℕ)
  | settle (r : ℕ)
  | backfill (a : BackfillAction)
  | fill (n : ℕ) (a : FillAction)
  | restart (blockedBefore : Bytes 32 → ℕ → Bool) (wal : Option (List UInt8))

namespace Ingest

def start (intake : Intake) : Ingest where
  intake := intake
  racers := fun _ => ⟨.offline, 0, 0⟩
  links := ⟨0, false, false⟩
  backfill := .waiting
  fills := fun _ => ⟨0, 0, .absent, 0, 0, none⟩
  nextFill := 0
  deliveries := []
  outage := none

def boot (env : Env) (blockedBefore : Bytes 32 → ℕ → Bool) (wal : Option (List UInt8))
    (cursorFile : Option ℕ) : Ingest :=
  start ⟨Server.boot env.codec env.config blockedBefore wal cursorFile, 0, []⟩

def setRacer (s : Ingest) (r : ℕ) (racer : Racer) : Ingest :=
  { s with racers := Function.update s.racers r racer }

def setFill (s : Ingest) (n : ℕ) (fill : Fill) : Ingest :=
  { s with fills := Function.update s.fills n fill }

def AllDown (s : Ingest) (racers : ℕ) : Prop := ∀ r < racers, ¬ (s.racers r).Subscribed

instance (s : Ingest) (racers : ℕ) : Decidable (s.AllDown racers) :=
  inferInstanceAs (Decidable (∀ r < racers, _))

def noteOutage (s : Ingest) (racers : ℕ) : Ingest :=
  if s.AllDown racers then { s with outage := s.deliveries.getLast?.map (·.log) } else s

def newFill (s : Ingest) (r : ℕ) : Fill :=
  let first := satAdd s.intake.server.proc.stats.latestBlock 1
  { racer := r
    first := first
    phase := if first ≤ 1 then .skipped else .asking
    session := (s.racers r).sessions
    subscribedAt := (s.racers r).subscribedAt
    outage := s.outage }

def spawn (s : Ingest) (r : ℕ) : Ingest :=
  let listening := s.setRacer r { s.racers r with phase := .listening }
  if 0 < (s.racers r).sessions then
    { listening.setFill s.nextFill (s.newFill r) with nextFill := s.nextFill + 1 }
  else listening

def settle (s : Ingest) (r : ℕ) (log : Log) : Ingest :=
  { s.setRacer r { s.racers r with phase := .listening } with
    intake := if 0 < log.block then s.intake.checkpoint log.block else s.intake }

def backfillStep (env : Env) (s : Ingest) : BackfillAction → Option Ingest
  | .begin =>
    match s.backfill with
    | .waiting => if s.links.anyConnected then some { s with backfill := .ready } else none
    | _ => none
  | .head head =>
    match s.backfill with
    | .ready => some { s with backfill := .headRead head }
    | _ => none
  | .plan =>
    match s.backfill with
    | .headRead head =>
      some { s with
        backfill := .walking
          (Walk.start (backfillFrom env s.intake.server.writer.cursorFile head) head) }
    | _ => none
  | .fail =>
    match s.backfill with
    | .headRead _ => some { s with backfill := .ready }
    | _ => none
  | .walk a =>
    match s.backfill with
    | .walking walk =>
      (walk.step env "backfill" s.intake a).map fun (walk, intake) =>
        { s with backfill := .walking walk, intake := intake }
    | _ => none
  | .retry =>
    match s.backfill with
    | .walking .failed => some { s with backfill := .ready }
    | _ => none

def fillStep (env : Env) (s : Ingest) (n : ℕ) : FillAction → Option Ingest
  | .head head =>
    match (s.fills n).phase with
    | .asking =>
      some (s.setFill n
        { s.fills n with phase := .walking head (Walk.start (s.fills n).first head) })
    | _ => none
  | .fail =>
    match (s.fills n).phase with
    | .asking => some (s.setFill n { s.fills n with phase := .failed })
    | _ => none
  | .walk a =>
    match (s.fills n).phase with
    | .walking head walk =>
      (walk.step env ("gapfill[" ++ toString (s.fills n).racer ++ "]") s.intake a).map
        fun (walk, intake) =>
          { s.setFill n { s.fills n with phase := .walking head walk } with intake := intake }
    | _ => none

def step (env : Env) (s : Ingest) : IngestAction → Option Ingest
  | .serve a =>
    if Internal a then
      (s.intake.server.step env.codec env.config a).map fun server =>
        { s with intake := { s.intake with server := server } }
    else none
  | .link r a =>
    if r < env.rpc.racers then
      ((s.racers r).move s.intake.server.shutdown s.links a).map fun (racer, links) =>
        ({ s.setRacer r racer with links := links }.noteOutage env.rpc.racers)
    else none
  | .spawn r =>
    match (s.racers r).phase with
    | .spawning => some (s.spawn r)
    | _ => none
  | .deliver r log receivedAtUs =>
    match (s.racers r).phase with
    | .listening =>
      (s.intake.pass env log receivedAtUs ("wss[" ++ toString r ++ "]")).map fun intake =>
        { s.setRacer r { s.racers r with phase := .processing s.intake.nextCall log } with
          intake := intake
          deliveries := s.deliveries ++ [⟨r, (s.racers r).sessions, log⟩] }
    | _ => none
  | .settle r =>
    match (s.racers r).phase with
    | .processing call log =>
      if s.intake.Returned call then some (s.settle r log) else none
    | _ => none
  | .backfill a => s.backfillStep env a
  | .fill n a => s.fillStep env n a
  | .restart blockedBefore wal =>
    some (start
      { server := Server.boot env.codec env.config blockedBefore wal
          s.intake.server.writer.cursorFile
        nextCall := 0
        passed := s.intake.passed })

inductive Step (env : Env) (s : Ingest) : IngestAction → Ingest → Prop where
  | serve (a : ServerAction) (server : Server) (hinternal : Internal a)
      (hstep : s.intake.server.Step env.codec env.config a server) :
      Step env s (.serve a) { s with intake := { s.intake with server := server } }
  | link (r : ℕ) (a : LinkAction) (racer : Racer) (links : Links) (hr : r < env.rpc.racers)
      (hmove : (s.racers r).move s.intake.server.shutdown s.links a = some (racer, links)) :
      Step env s (.link r a)
        ({ s.setRacer r racer with links := links }.noteOutage env.rpc.racers)
  | spawn (r : ℕ) (hphase : (s.racers r).phase = .spawning) : Step env s (.spawn r) (s.spawn r)
  | deliver (r : ℕ) (log : Log) (receivedAtUs : ℕ) (intake : Intake)
      (hphase : (s.racers r).phase = .listening)
      (hpass : s.intake.pass env log receivedAtUs ("wss[" ++ toString r ++ "]") = some intake) :
      Step env s (.deliver r log receivedAtUs)
        { s.setRacer r { s.racers r with phase := .processing s.intake.nextCall log } with
          intake := intake
          deliveries := s.deliveries ++ [⟨r, (s.racers r).sessions, log⟩] }
  | settle (r call : ℕ) (log : Log) (hphase : (s.racers r).phase = .processing call log)
      (hreturned : s.intake.Returned call) :
      Step env s (.settle r) (s.settle r log)
  | backfillBegin (hphase : s.backfill = .waiting) (hany : s.links.anyConnected = true) :
      Step env s (.backfill .begin) { s with backfill := .ready }
  | backfillHead (head : ℕ) (hphase : s.backfill = .ready) :
      Step env s (.backfill (.head head)) { s with backfill := .headRead head }
  | backfillPlan (head : ℕ) (hphase : s.backfill = .headRead head) :
      Step env s (.backfill .plan)
        { s with
          backfill := .walking
            (Walk.start (backfillFrom env s.intake.server.writer.cursorFile head) head) }
  | backfillFail (head : ℕ) (hphase : s.backfill = .headRead head) :
      Step env s (.backfill .fail) { s with backfill := .ready }
  | backfillWalk (walk walk' : Walk) (a : WalkAction) (intake : Intake)
      (hphase : s.backfill = .walking walk)
      (hstep : Walk.Step env "backfill" s.intake walk a walk' intake) :
      Step env s (.backfill (.walk a)) { s with backfill := .walking walk', intake := intake }
  | backfillRetry (hphase : s.backfill = .walking .failed) :
      Step env s (.backfill .retry) { s with backfill := .ready }
  | fillHead (n head : ℕ) (hphase : (s.fills n).phase = .asking) :
      Step env s (.fill n (.head head))
        (s.setFill n
          { s.fills n with phase := .walking head (Walk.start (s.fills n).first head) })
  | fillFail (n : ℕ) (hphase : (s.fills n).phase = .asking) :
      Step env s (.fill n .fail) (s.setFill n { s.fills n with phase := .failed })
  | fillWalk (n head : ℕ) (walk walk' : Walk) (a : WalkAction) (intake : Intake) (source : String)
      (hphase : (s.fills n).phase = .walking head walk)
      (hstep : Walk.Step env source s.intake walk a walk' intake) :
      Step env s (.fill n (.walk a))
        { s.setFill n { s.fills n with phase := .walking head walk' } with intake := intake }
  | restart (blockedBefore : Bytes 32 → ℕ → Bool) (wal : Option (List UInt8)) :
      Step env s (.restart blockedBefore wal)
        (start
          { server := Server.boot env.codec env.config blockedBefore wal
              s.intake.server.writer.cursorFile
            nextCall := 0
            passed := s.intake.passed })

variable {env : Env} {s s' : Ingest}

lemma backfillStep_sound {a : BackfillAction} (h : s.backfillStep env a = some s') :
    Step env s (.backfill a) s' := by
  cases a with
  | begin =>
    simp only [backfillStep] at h
    split at h
    · next hphase =>
      split_ifs at h with hany
      cases h
      exact .backfillBegin hphase hany
    · cases h
  | head head =>
    simp only [backfillStep] at h
    split at h
    · next hphase =>
      cases h
      exact .backfillHead head hphase
    · cases h
  | plan =>
    simp only [backfillStep] at h
    split at h
    · next head hphase =>
      cases h
      exact .backfillPlan head hphase
    · cases h
  | fail =>
    simp only [backfillStep] at h
    split at h
    · next head hphase =>
      cases h
      exact .backfillFail head hphase
    · cases h
  | walk a =>
    simp only [backfillStep] at h
    split at h
    · next walk hphase =>
      obtain ⟨⟨walk', intake⟩, hstep, rfl⟩ := Option.map_eq_some_iff.mp h
      exact .backfillWalk walk walk' a intake hphase (Walk.step_sound hstep)
    · cases h
  | retry =>
    simp only [backfillStep] at h
    split at h
    · next hphase =>
      cases h
      exact .backfillRetry hphase
    · cases h

lemma fillStep_sound {n : ℕ} {a : FillAction} (h : s.fillStep env n a = some s') :
    Step env s (.fill n a) s' := by
  cases a with
  | head head =>
    simp only [fillStep] at h
    split at h
    · next hphase =>
      cases h
      exact .fillHead n head hphase
    · cases h
  | fail =>
    simp only [fillStep] at h
    split at h
    · next hphase =>
      cases h
      exact .fillFail n hphase
    · cases h
  | walk a =>
    simp only [fillStep] at h
    split at h
    · next head walk hphase =>
      obtain ⟨⟨walk', intake⟩, hstep, rfl⟩ := Option.map_eq_some_iff.mp h
      exact .fillWalk n head walk walk' a intake _ hphase (Walk.step_sound hstep)
    · cases h

theorem step_sound {a : IngestAction} (h : s.step env a = some s') : Step env s a s' := by
  cases a with
  | serve a =>
    simp only [step] at h
    split_ifs at h with hinternal
    obtain ⟨server, hstep, rfl⟩ := Option.map_eq_some_iff.mp h
    exact .serve a server hinternal (Server.step_sound hstep)
  | link r a =>
    simp only [step] at h
    split_ifs at h with hr
    obtain ⟨⟨racer, links⟩, hmove, rfl⟩ := Option.map_eq_some_iff.mp h
    exact .link r a racer links hr hmove
  | spawn r =>
    simp only [step] at h
    split at h
    · next hphase =>
      cases h
      exact .spawn r hphase
    · cases h
  | deliver r log receivedAtUs =>
    simp only [step] at h
    split at h
    · next hphase =>
      obtain ⟨intake, hpass, rfl⟩ := Option.map_eq_some_iff.mp h
      exact .deliver r log receivedAtUs intake hphase hpass
    · cases h
  | settle r =>
    simp only [step] at h
    split at h
    · next call log hphase =>
      split_ifs at h with hreturned
      cases h
      exact .settle r call log hphase hreturned
    · cases h
  | backfill a => exact backfillStep_sound h
  | fill n a => exact fillStep_sound h
  | restart blockedBefore wal =>
    cases h
    exact .restart blockedBefore wal

/-! ## Frames -/

@[simp] lemma noteOutage_intake (racers : ℕ) : (s.noteOutage racers).intake = s.intake := by
  unfold noteOutage
  split_ifs <;> rfl

@[simp] lemma noteOutage_backfill (racers : ℕ) : (s.noteOutage racers).backfill = s.backfill := by
  unfold noteOutage
  split_ifs <;> rfl

@[simp] lemma noteOutage_fills (racers : ℕ) : (s.noteOutage racers).fills = s.fills := by
  unfold noteOutage
  split_ifs <;> rfl

@[simp] lemma noteOutage_deliveries (racers : ℕ) :
    (s.noteOutage racers).deliveries = s.deliveries := by
  unfold noteOutage
  split_ifs <;> rfl

@[simp] lemma noteOutage_nextFill (racers : ℕ) : (s.noteOutage racers).nextFill = s.nextFill := by
  unfold noteOutage
  split_ifs <;> rfl

@[simp] lemma noteOutage_racers (racers : ℕ) : (s.noteOutage racers).racers = s.racers := by
  unfold noteOutage
  split_ifs <;> rfl

@[simp] lemma noteOutage_links (racers : ℕ) : (s.noteOutage racers).links = s.links := by
  unfold noteOutage
  split_ifs <;> rfl

@[simp] lemma spawn_intake (r : ℕ) : (s.spawn r).intake = s.intake := by
  unfold spawn
  split_ifs <;> rfl

@[simp] lemma spawn_racers (r : ℕ) :
    (s.spawn r).racers = Function.update s.racers r { s.racers r with phase := .listening } := by
  unfold spawn
  split_ifs <;> rfl

@[simp] lemma spawn_links (r : ℕ) : (s.spawn r).links = s.links := by
  unfold spawn
  split_ifs <;> rfl

@[simp] lemma settle_passed (r : ℕ) (log : Log) :
    (s.settle r log).intake.passed = s.intake.passed := by
  unfold settle
  split_ifs <;> rfl

lemma Step.passed_subset {a : IngestAction} (h : Step env s a s') :
    s.intake.passed ⊆ s'.intake.passed := by
  cases h with
  | deliver r log receivedAtUs intake hphase hpass =>
    rw [(Intake.pass_eq_some hpass).2.2]
    simp
  | backfillWalk walk walk' a intake hphase hstep => exact hstep.passed_subset
  | fillWalk n head walk walk' a intake source hphase hstep => exact hstep.passed_subset
  | link r a racer links hr hmove =>
    rw [noteOutage_intake]
    exact List.Subset.refl _
  | spawn r hphase =>
    simp
  | settle r call log hphase hreturned =>
    simp
  | serve | backfillBegin | backfillHead | backfillPlan | backfillFail | backfillRetry | fillHead
  | fillFail | restart => exact List.Subset.refl _

end Ingest

/-! ## A small chain -/

def testLog (transactionByte : UInt8) (block index : ℕ) : Log where
  block := block
  index := index
  decoded := some (.proposePrice
    { (testUmaEvent transactionByte 1).chain with blockNumber := block, logIndex := index }
    (testUmaEvent transactionByte 1).request)
  decoded_block := by
    intro e he
    cases he
    rfl

def Chain.ofLogs (logs : List Log) : Chain where
  logs b := logs.filter fun l => l.block = b
  block_eq _ _ hl := of_decide_eq_true (List.mem_filter.mp hl).2
  timestamp b := 2 * b

def testEnv (logs : List Log) : Env where
  codec := prostCodec []
  config := testConfig 4
  rpc := { racers := 1, startBlock := none, initialBackfillDays := 7, backfillBatchBlocks := 100 }
  chain := Chain.ofLogs logs

def connectRacer (r head : ℕ) : List IngestAction :=
  [.link r (.connect head), .link r .count, .link r .mark, .link r .announce, .spawn r]

def processUnresolved (i : ℕ) : List IngestAction :=
  [.serve (.process (.contains i)), .serve (.process (.resolve i none)),
    .serve (.process (.fetchAdd i)), .serve (.process (.insert i)), .serve (.process (.credit i)),
    .serve (.process (.store i))]

def deliverLog (r i : ℕ) (log : Log) : List IngestAction :=
  .deliver r log 8 :: processUnresolved i ++ [.settle r]

end RustUma.Rpc
