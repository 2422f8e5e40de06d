import RustUma.Pipeline.Processor
import RustUma.Pipeline.Batcher
import RustUma.Api.Session
import RustUma.Storage.Writer

/-!
# The service as one machine (`src/main.rs` `run`)

The parts that `run` wires together, and the interleavings of their atomic steps: the `process`
calls, the batcher, the storage writer, one websocket session and the shutdown signal. The batch
channel is shared by the processor and the batcher, the storage queue by the processor and the
writer, the frame ring by the batcher and the session, the event ring by the processor and the
writer.
-/

namespace RustUma.Service

open RustUma.Found RustUma.Model RustUma.Hub RustUma.Pipeline RustUma.Api RustUma.Storage

structure Config where
  eventRingCapacity : ℕ
  frameRingCapacity : ℕ
  liveBuffer : ℕ
  batch : BatchConfig
  deriving DecidableEq

structure Server where
  proc : Processor
  batcher : Batcher
  frames : FrameHub
  session : Session
  writer : Writer
  shutdown : Bool

/-! ## Boot -/

def recoverEvents (codec : Codec) (config : Config) (wal : Option (List UInt8)) :
    List EventRecord :=
  match loadEvents codec config.eventRingCapacity wal with
  | .ok events => events
  | .error _ => []

def initialSequence (recovered : List EventRecord) : ℕ :=
  recovered.foldl (fun highest event => max highest event.sequence) 0

def lastBroadcastSequence (blockedBefore : Bytes 32 → ℕ → Bool)
    (recovered : List EventRecord) : ℕ :=
  recovered.foldl (fun highest event =>
    if event.enrichment.isSome ∧ blockedBefore event.resolvedConditionId event.receivedAtUs = false
    then max highest event.sequence else highest) 0

def recoveredHub (config : Config) (recovered : List EventRecord) : EventHub :=
  recovered.foldl (fun hub event => (hub.insert event).1) (EventHub.new config.eventRingCapacity)

def Server.boot (codec : Codec) (config : Config) (blockedBefore : Bytes 32 → ℕ → Bool)
    (wal : Option (List UInt8)) (cursorFile : Option ℕ) : Server :=
  let recovered := recoverEvents codec config wal
  { proc := Processor.new (recoveredHub config recovered) (max config.liveBuffer 1)
      (max config.liveBuffer 1) { latestBlock := cursorFile.getD 0 } (initialSequence recovered)
    batcher := Batcher.new
    frames := FrameHub.resumingAfter config.frameRingCapacity
      (lastBroadcastSequence blockedBefore recovered)
    session := Session.none
    writer := Writer.start wal cursorFile
    shutdown := false }

/-! ## Steps -/

inductive ServerAction where
  | process (a : Action)
  | batch (a : BatchAction)
  | session (a : SessionAction)
  | write (a : WriteAction)
  | shutdown
  deriving DecidableEq

namespace Server

def batchLoop (s : Server) : BatchLoop :=
  { toBatcher := s.batcher, rx := s.proc.batchTx, frames := s.frames }

def setBatchLoop (s : Server) (b : BatchLoop) : Server :=
  { s with proc := { s.proc with batchTx := b.rx }, batcher := b.toBatcher, frames := b.frames }

def writeLoop (s : Server) : WriteLoop := { toWriter := s.writer, rx := s.proc.storageTx }

def setWriteLoop (s : Server) (w : WriteLoop) : Server :=
  { s with proc := { s.proc with storageTx := w.rx }, writer := w.toWriter }

def step (codec : Codec) (config : Config) (s : Server) : ServerAction → Option Server
  | .process a => (s.proc.step a).map fun p => { s with proc := p }
  | .batch a => (s.batchLoop.step codec config.batch s.shutdown a).map s.setBatchLoop
  | .session a =>
    (s.session.step s.frames s.batcher.published.length a).map fun session =>
      { s with session := session }
  | .write a =>
    (s.writeLoop.step codec config.eventRingCapacity s.shutdown s.proc.events.snapshot a).map
      s.setWriteLoop
  | .shutdown => some { s with shutdown := true }

inductive Step (codec : Codec) (config : Config) (s : Server) : ServerAction → Server → Prop where
  | process (a : Action) (p : Processor) (hstep : s.proc.Step a p) :
      Step codec config s (.process a) { s with proc := p }
  | batch (a : BatchAction) (b : BatchLoop)
      (hstep : s.batchLoop.Step codec config.batch s.shutdown a b) :
      Step codec config s (.batch a) (s.setBatchLoop b)
  | session (a : SessionAction) (session : Session)
      (hstep : s.session.Step s.frames s.batcher.published.length a session) :
      Step codec config s (.session a) { s with session := session }
  | write (a : WriteAction) (w : WriteLoop)
      (hstep : s.writeLoop.Step codec config.eventRingCapacity s.shutdown s.proc.events.snapshot
        a w) :
      Step codec config s (.write a) (s.setWriteLoop w)
  | shutdown : Step codec config s .shutdown { s with shutdown := true }

variable {codec : Codec} {config : Config} {s s' : Server} {a : ServerAction}

theorem step_sound (h : s.step codec config a = some s') : Step codec config s a s' := by
  cases a with
  | process a =>
    obtain ⟨p, hstep, rfl⟩ := Option.map_eq_some_iff.mp h
    exact .process a p (Processor.step_sound hstep)
  | batch a =>
    obtain ⟨b, hstep, rfl⟩ := Option.map_eq_some_iff.mp h
    exact .batch a b (BatchLoop.step_sound hstep)
  | session a =>
    obtain ⟨session, hstep, rfl⟩ := Option.map_eq_some_iff.mp h
    exact .session a session (Session.step_sound hstep)
  | write a =>
    obtain ⟨w, hstep, rfl⟩ := Option.map_eq_some_iff.mp h
    exact .write a w (WriteLoop.step_sound hstep)
  | shutdown =>
    cases h
    exact .shutdown

lemma Step.proc {b : Action} (h : Step codec config s (.process b) s') :
    s.proc.Step b s'.proc := by
  cases h with
  | process _ p hstep => exact hstep

theorem Step.core (h : Step codec config s a s') :
    (∃ b, a = .process b ∧ s.proc.Step b s'.proc) ∨ s.proc.SameCore s'.proc := by
  cases h with
  | process b p hstep => simp_all
  | batch b bl hstep | session b session hstep | write b w hstep | shutdown =>
    exact Or.inr ⟨rfl, rfl, rfl, rfl, rfl, rfl⟩

end Server

end RustUma.Service
