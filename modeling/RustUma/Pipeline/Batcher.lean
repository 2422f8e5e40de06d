import RustUma.Found.Channel
import RustUma.Hub.FrameHub

/-!
# The batcher (`src/pipeline.rs` `run_batcher`)

One task takes records off the batch channel in order, groups them and publishes each group as a
frame.
-/

namespace RustUma.Pipeline

open RustUma.Found RustUma.Model RustUma.Hub

structure BatchConfig where
  batchMaxEvents : ℕ
  batchMaxBytes : ℕ
  wire : WireConfig
  deriving DecidableEq

inductive BatchPhase where
  /-- At the top of the loop, about to take the first event. -/
  | waiting
  | collecting (batch : List EventRecord) (estimatedBytes : ℕ)
  | ready (batch : List EventRecord)
  /-- The frame is in the ring and its notification is still to come. -/
  | notifying (latest : ℕ)
  | stopped
  deriving DecidableEq

inductive BatchAction where
  | first
  | collect
  /-- `sentAtUs` and `nowUs` are the two clock reads. -/
  | encode (sentAtUs nowUs : ℕ)
  | notify
  | stop
  deriving DecidableEq

structure Batcher where
  phase : BatchPhase
  pending : Option EventRecord
  batchSequence : ℕ
  lastBroadcastAtUs : ℕ
  batches : List (List EventRecord × Except WireError WireFrame)

structure BatchLoop extends Batcher where
  rx : Channel EventRecord
  frames : FrameHub

def Batcher.new : Batcher := ⟨.waiting, none, 0, 0, []⟩

def nextBatchSequence (n : ℕ) : ℕ := max ((n + 1) % 2 ^ 64) 1

def framesOf : List (List EventRecord × Except WireError WireFrame) →
    List (List EventRecord × WireFrame)
  | [] => []
  | (batch, .ok frame) :: rest => (batch, frame) :: framesOf rest
  | (_, .error _) :: rest => framesOf rest

namespace Batcher

def published (b : Batcher) : List (List EventRecord × WireFrame) := framesOf b.batches

def group (b : Batcher) : List EventRecord :=
  match b.phase with
  | .collecting batch _ => batch
  | .ready batch => batch
  | _ => []

end Batcher

namespace BatchLoop

def step (codec : Codec) (config : BatchConfig) (shutdown : Bool) (b : BatchLoop) :
    BatchAction → Option BatchLoop
  | .first =>
    match b.phase with
    | .waiting =>
      match b.pending with
      | some event =>
        some { b with
          pending := none
          phase := .collecting [event] (encodedEventLen codec event) }
      | none =>
        match b.rx.recv with
        | some (event, rx) =>
          some { b with
            rx := rx
            phase := .collecting [event] (encodedEventLen codec event) }
        | none => none
    | _ => none
  | .collect =>
    match b.phase with
    | .collecting batch estimatedBytes =>
      if batch.length < max config.batchMaxEvents 1 then
        match b.rx.recv with
        | none => some { b with phase := .ready batch }
        | some (next, rx) =>
          if config.batchMaxBytes < estimatedBytes + encodedEventLen codec next ∧
              batch ≠ [] then
            some { b with rx := rx, pending := some next, phase := .ready batch }
          else
            some { b with
              rx := rx
              phase := .collecting (batch ++ [next])
                (estimatedBytes + encodedEventLen codec next) }
      else some { b with phase := .ready batch }
    | _ => none
  | .encode sentAtUs nowUs =>
    match b.phase with
    | .ready batch =>
      let batchSequence := nextBatchSequence b.batchSequence
      match encodeFrame codec batchSequence batch config.wire sentAtUs with
      | .ok frame =>
        some { b with
          batchSequence := batchSequence
          lastBroadcastAtUs := nowUs
          frames := b.frames.push frame
          phase := .notifying frame.lastSequence
          batches := b.batches ++ [(batch, .ok frame)] }
      | .error error =>
        some { b with
          batchSequence := batchSequence
          phase := .waiting
          batches := b.batches ++ [(batch, .error error)] }
    | _ => none
  | .notify =>
    match b.phase with
    | .notifying latest => some { b with frames := b.frames.notify latest, phase := .waiting }
    | _ => none
  | .stop =>
    match b.phase with
    | .waiting =>
      -- the shutdown signal is looked at only when nothing is carried over
      if shutdown ∧ b.pending = none then some { b with rx := b.rx.close, phase := .stopped }
      else none
    | _ => none

inductive Step (codec : Codec) (config : BatchConfig) (shutdown : Bool) (b : BatchLoop) :
    BatchAction → BatchLoop → Prop where
  | carry (event : EventRecord) (hphase : b.phase = .waiting) (hpending : b.pending = some event) :
      Step codec config shutdown b .first
        { b with
          pending := none
          phase := .collecting [event] (encodedEventLen codec event) }
  | recv (event : EventRecord) (rx : Channel EventRecord) (hphase : b.phase = .waiting)
      (hpending : b.pending = none) (hrecv : b.rx.recv = some (event, rx)) :
      Step codec config shutdown b .first
        { b with rx := rx, phase := .collecting [event] (encodedEventLen codec event) }
  | close (batch : List EventRecord) (estimatedBytes : ℕ)
      (hphase : b.phase = .collecting batch estimatedBytes)
      (hdone : max config.batchMaxEvents 1 ≤ batch.length ∨ b.rx.recv = none) :
      Step codec config shutdown b .collect { b with phase := .ready batch }
  | carryOver (batch : List EventRecord) (estimatedBytes : ℕ) (next : EventRecord)
      (rx : Channel EventRecord) (hphase : b.phase = .collecting batch estimatedBytes)
      (hlen : batch.length < max config.batchMaxEvents 1) (hrecv : b.rx.recv = some (next, rx))
      (hbytes : config.batchMaxBytes < estimatedBytes + encodedEventLen codec next) :
      Step codec config shutdown b .collect
        { b with rx := rx, pending := some next, phase := .ready batch }
  | append (batch : List EventRecord) (estimatedBytes : ℕ) (next : EventRecord)
      (rx : Channel EventRecord) (hphase : b.phase = .collecting batch estimatedBytes)
      (hlen : batch.length < max config.batchMaxEvents 1) (hrecv : b.rx.recv = some (next, rx))
      (hbytes : estimatedBytes + encodedEventLen codec next ≤ config.batchMaxBytes ∨ batch = []) :
      Step codec config shutdown b .collect
        { b with
          rx := rx
          phase := .collecting (batch ++ [next]) (estimatedBytes + encodedEventLen codec next) }
  | publish (batch : List EventRecord) (sentAtUs nowUs : ℕ) (frame : WireFrame)
      (hphase : b.phase = .ready batch)
      (hframe : encodeFrame codec (nextBatchSequence b.batchSequence) batch config.wire sentAtUs =
        .ok frame) :
      Step codec config shutdown b (.encode sentAtUs nowUs)
        { b with
          batchSequence := nextBatchSequence b.batchSequence
          lastBroadcastAtUs := nowUs
          frames := b.frames.push frame
          phase := .notifying frame.lastSequence
          batches := b.batches ++ [(batch, .ok frame)] }
  | encodeFailed (batch : List EventRecord) (sentAtUs nowUs : ℕ) (error : WireError)
      (hphase : b.phase = .ready batch)
      (hframe : encodeFrame codec (nextBatchSequence b.batchSequence) batch config.wire sentAtUs =
        .error error) :
      Step codec config shutdown b (.encode sentAtUs nowUs)
        { b with
          batchSequence := nextBatchSequence b.batchSequence
          phase := .waiting
          batches := b.batches ++ [(batch, .error error)] }
  | notify (latest : ℕ) (hphase : b.phase = .notifying latest) :
      Step codec config shutdown b .notify
        { b with frames := b.frames.notify latest, phase := .waiting }
  | stop (hphase : b.phase = .waiting) (hshutdown : shutdown = true) (hpending : b.pending = none) :
      Step codec config shutdown b .stop { b with rx := b.rx.close, phase := .stopped }

variable {codec : Codec} {config : BatchConfig} {shutdown : Bool} {b b' : BatchLoop}
  {a : BatchAction}

theorem step_sound (h : b.step codec config shutdown a = some b') :
    Step codec config shutdown b a b' := by
  cases a with
  | first =>
    simp only [step] at h
    split at h
    · next hphase =>
      split at h
      · next event hpending =>
        cases h
        exact .carry event hphase hpending
      · next hpending =>
        split at h
        · next event rx hrecv =>
          cases h
          exact .recv event rx hphase hpending hrecv
        · cases h
    · cases h
  | collect =>
    simp only [step] at h
    split at h
    · next batch estimatedBytes hphase =>
      split_ifs at h with hlen
      · split at h
        · next hrecv =>
          cases h
          exact .close batch estimatedBytes hphase (Or.inr hrecv)
        · next event rx hrecv =>
          split_ifs at h with hbytes
          · cases h
            exact .carryOver batch estimatedBytes event rx hphase hlen hrecv hbytes.1
          · cases h
            rw [not_and_or, not_lt, not_not] at hbytes
            exact .append batch estimatedBytes event rx hphase hlen hrecv hbytes
      · cases h
        exact .close batch estimatedBytes hphase (Or.inl (not_lt.mp hlen))
    · cases h
  | encode sentAtUs nowUs =>
    simp only [step] at h
    split at h
    · next batch hphase =>
      split at h
      · next frame hframe =>
        cases h
        exact .publish batch sentAtUs nowUs frame hphase hframe
      · next error hframe =>
        cases h
        exact .encodeFailed batch sentAtUs nowUs error hphase hframe
    · cases h
  | notify =>
    simp only [step] at h
    split at h
    · next latest hphase =>
      cases h
      exact .notify latest hphase
    · cases h
  | stop =>
    simp only [step] at h
    split at h
    · next hphase =>
      split_ifs at h with hstop
      cases h
      exact .stop hphase hstop.1 hstop.2
    · cases h

end BatchLoop

/-! ## What is published -/

@[simp] lemma framesOf_append (xs ys : List (List EventRecord × Except WireError WireFrame)) :
    framesOf (xs ++ ys) = framesOf xs ++ framesOf ys := by
  induction xs with
  | nil => rfl
  | cons x xs ih =>
    obtain ⟨batch, result⟩ := x
    cases result with
    | ok frame => simp [framesOf, ih]
    | error error => simp [framesOf, ih]

lemma BatchLoop.Step.published {codec : Codec} {config : BatchConfig} {shutdown : Bool}
    {b b' : BatchLoop} {a : BatchAction} (h : BatchLoop.Step codec config shutdown b a b') :
    (b'.published = b.published ∧ b'.frames.frames = b.frames.frames ∧
        b'.frames.replayFloor = b.frames.replayFloor ∧ b'.frames.capacity = b.frames.capacity) ∨
      ∃ batch sentAtUs nowUs frame, a = .encode sentAtUs nowUs ∧ b.group = batch ∧
        encodeFrame codec (nextBatchSequence b.batchSequence) batch config.wire sentAtUs =
          .ok frame ∧
        b'.published = b.published ++ [(batch, frame)] ∧ b'.frames = b.frames.push frame := by
  cases h with
  | publish batch sentAtUs nowUs frame hphase hframe =>
    refine Or.inr ⟨batch, sentAtUs, nowUs, frame, rfl, ?_, hframe, ?_, rfl⟩
    · simp [Batcher.group, hphase]
    · simp [Batcher.published, framesOf]
  | encodeFailed batch sentAtUs nowUs error hphase hframe =>
    simp [Batcher.published, framesOf]
  | _ => exact Or.inl ⟨rfl, rfl, rfl, rfl⟩

/-! ## First in, first out -/

namespace Batcher

def inOrder (b : Batcher) : List EventRecord :=
  b.batches.flatMap Prod.fst ++ b.group ++ b.pending.toList

def CarriesNone (b : Batcher) : Prop :=
  ∀ batch estimatedBytes, b.phase = .collecting batch estimatedBytes → b.pending = none

lemma new_carriesNone : Batcher.new.CarriesNone := by
  intro batch estimatedBytes hphase
  cases hphase

end Batcher

namespace BatchLoop

variable {codec : Codec} {config : BatchConfig} {shutdown : Bool} {b b' : BatchLoop}
  {a : BatchAction}

lemma Step.carriesNone (h : Step codec config shutdown b a b') (hb : b.CarriesNone) :
    b'.CarriesNone := by
  intro batch estimatedBytes hphase
  cases h with
  | carry => rfl
  | recv _ _ _ hpending => exact hpending
  | append _ _ _ _ hcollect => exact hb _ _ hcollect
  | _ => cases hphase

theorem Step.inOrder_append_items (h : Step codec config shutdown b a b') (hb : b.CarriesNone) :
    (b'.inOrder ++ b'.rx.items = b.inOrder ++ b.rx.items ∧ b'.rx.closed = b.rx.closed) ∨
      (a = .stop ∧ b'.inOrder = b.inOrder ∧ b'.rx = b.rx.close) := by
  cases h with
  | carry event hphase hpending =>
    simp [Batcher.inOrder, Batcher.group, hphase, hpending]
  | recv event rx hphase hpending hrecv =>
    obtain ⟨hitems, hclosed, -⟩ := Channel.recv_eq_some hrecv
    refine Or.inl ⟨?_, hclosed⟩
    simp [Batcher.inOrder, Batcher.group, hphase, hpending, hitems]
  | close batch estimatedBytes hphase hdone | publish batch sentAtUs nowUs frame hphase hframe
  | encodeFailed batch sentAtUs nowUs error hphase hframe | notify latest hphase =>
    simp [Batcher.inOrder, Batcher.group, hphase]
  | carryOver batch estimatedBytes next rx hphase hlen hrecv hbytes
  | append batch estimatedBytes next rx hphase hlen hrecv hbytes =>
    obtain ⟨hitems, hclosed, -⟩ := Channel.recv_eq_some hrecv
    refine Or.inl ⟨?_, hclosed⟩
    simp [Batcher.inOrder, Batcher.group, hphase, hb _ _ hphase, hitems]
  | stop hphase hshutdown hpending =>
    simp [Batcher.inOrder, Batcher.group, hphase]

end BatchLoop

end RustUma.Pipeline
