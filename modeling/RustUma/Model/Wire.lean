import RustUma.Model.Event

/-!
# Batches as wire frames (`src/wire.rs`)

A frame is a twelve byte header and the protobuf batch, compressed from a threshold on.
-/

namespace RustUma.Model

open RustUma.Found

structure WireConfig where
  zstdThreshold : ℕ
  maxDecompressedBytes : ℕ
  deriving DecidableEq

structure WireFrame where
  batchSequence : ℕ
  firstSequence : ℕ
  lastSequence : ℕ
  bytes : List UInt8
  deriving DecidableEq

inductive WireError where
  | emptyBatch
  | oversized
  | zstd
  deriving DecidableEq

structure PbUmaBatch where
  schemaVersion : ℕ
  batchSequence : ℕ
  sentAtUs : ℕ
  events : List PbUmaEvent
  deriving DecidableEq

structure Codec where
  encodeEvent : PbUmaEvent → List UInt8
  decodeEvent : List UInt8 → Option PbUmaEvent
  encodeBatch : PbUmaBatch → List UInt8
  compress : List UInt8 → Option (List UInt8)

def magic : List UInt8 := [85, 77, 65, 49]

def headerLen : ℕ := 12

def flagZstd : UInt8 := 1

def schemaVersion : UInt8 := 1

def framed (flags : UInt8) (payloadLen : ℕ) (body : List UInt8) : List UInt8 :=
  magic ++ [flags, schemaVersion] ++ toBeBytes 2 0 ++ toBeBytes 4 payloadLen ++ body

def pbBatch (batchSequence : ℕ) (events : List EventRecord) (sentAtUs : ℕ) : PbUmaBatch where
  schemaVersion := schemaVersion.toNat
  batchSequence := batchSequence
  sentAtUs := sentAtUs
  events := events.map EventRecord.toProto

def encodedEventLen (codec : Codec) (event : EventRecord) : ℕ :=
  (codec.encodeEvent event.toProto).length

def encodeBody (codec : Codec) (config : WireConfig) (payload : List UInt8) :
    Except WireError (UInt8 × List UInt8) :=
  if config.maxDecompressedBytes < payload.length then .error .oversized
  else if config.zstdThreshold ≤ payload.length then
    match codec.compress payload with
    | some body => .ok (flagZstd, body)
    | none => .error .zstd
  else .ok (0, payload)

def encodeFrame (codec : Codec) (batchSequence : ℕ) (events : List EventRecord)
    (config : WireConfig) (sentAtUs : ℕ) : Except WireError WireFrame :=
  match events.head?, events.getLast? with
  | some first, some last =>
    let payload := codec.encodeBatch (pbBatch batchSequence events sentAtUs)
    (encodeBody codec config payload).map fun body =>
      { batchSequence := batchSequence
        firstSequence := first.sequence
        lastSequence := last.sequence
        bytes := framed body.1 payload.length body.2 }
  | _, _ => .error .emptyBatch

variable {codec : Codec} {config : WireConfig}

lemma encodeFrame_ok {batchSequence : ℕ} {events : List EventRecord} {sentAtUs : ℕ}
    {frame : WireFrame} (h : encodeFrame codec batchSequence events config sentAtUs = .ok frame) :
    ∃ first ∈ events.head?, ∃ last ∈ events.getLast?,
      frame.firstSequence = first.sequence ∧ frame.lastSequence = last.sequence := by
  unfold encodeFrame at h
  split at h
  case h_1 first last hfirst hlast =>
    refine ⟨first, hfirst, last, hlast, ?_⟩
    cases hbody : encodeBody codec config
        (codec.encodeBatch (pbBatch batchSequence events sentAtUs)) with
    | error e =>
      simp only [hbody] at h
      cases h
    | ok body =>
      simp only [hbody] at h
      cases h
      exact ⟨rfl, rfl⟩
  case h_2 => cases h

lemma encodeBody_ok {payload body : List UInt8} {flags : UInt8}
    (h : encodeBody codec config payload = .ok (flags, body)) :
    payload.length ≤ config.maxDecompressedBytes ∧
      ((config.zstdThreshold ≤ payload.length ∧ flags = flagZstd ∧
          codec.compress payload = some body) ∨
        (payload.length < config.zstdThreshold ∧ flags = 0 ∧ body = payload)) := by
  unfold encodeBody at h
  grind

lemma encodeFrame_bytes {batchSequence : ℕ} {events : List EventRecord} {sentAtUs : ℕ}
    {frame : WireFrame} (h : encodeFrame codec batchSequence events config sentAtUs = .ok frame) :
    events ≠ [] ∧ ∃ flags body,
      encodeBody codec config (codec.encodeBatch (pbBatch batchSequence events sentAtUs)) =
        .ok (flags, body) ∧
      frame.bytes =
        framed flags (codec.encodeBatch (pbBatch batchSequence events sentAtUs)).length body := by
  cases events with
  | nil => cases h
  | cons first rest =>
    refine ⟨List.cons_ne_nil _ _, ?_⟩
    unfold encodeFrame at h
    dsimp only at h
    cases hbody : encodeBody codec config
        (codec.encodeBatch (pbBatch batchSequence (first :: rest) sentAtUs)) with
    | error e =>
      rw [hbody] at h
      cases h
    | ok out =>
      rw [hbody] at h
      cases h
      grind

end RustUma.Model
