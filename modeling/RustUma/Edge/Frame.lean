import RustUma.Found.Drain
import RustUma.Found.Fallible
import RustUma.Found.Ring
import RustUma.Model.Wire

/-!
# Frames on the edge (`src/edge/frame.rs`, `src/edge/ring.rs`)

The edge forwards frames as they are. It reads the header and walks the protobuf fields only for
the batch number, the send time and the highest event sequence.

`zstd`'s decompressor is a parameter.
-/

namespace RustUma.Edge

open RustUma.Found RustUma.Model

/-! ## The cursor -/

inductive BadFrame where
  | tooShort
  | badMagic
  | truncatedVarint
  | truncatedField
  | wireType (wire : ℕ)
  deriving DecidableEq

def varintFrom (shift value : ℕ) : List UInt8 → Except BadFrame (ℕ × List UInt8)
  | [] => .error .truncatedVarint
  | byte :: buf =>
    let value := if shift < 64 then
      value ||| ((byte &&& 0x7f).toNat <<< shift) % 2 ^ 64 else value
    if byte &&& 0x80 = 0 then .ok (value, buf)
    else if 70 < shift + 7 then .error .truncatedVarint
    else varintFrom (shift + 7) value buf

def varint (buf : List UInt8) : Except BadFrame (ℕ × List UInt8) := varintFrom 0 0 buf

def lengthDelimited (buf : List UInt8) : Except BadFrame (List UInt8 × List UInt8) :=
  match varint buf with
  | .ok (len, buf) =>
    if len ≤ buf.length then .ok (buf.take len, buf.drop len) else .error .truncatedField
  | .error e => .error e

def advance (n : ℕ) (buf : List UInt8) : Except BadFrame (List UInt8) :=
  if n ≤ buf.length then .ok (buf.drop n) else .error .truncatedField

def skip (wire : ℕ) (buf : List UInt8) : Except BadFrame (List UInt8) :=
  match wire with
  | 0 => (varint buf).map Prod.snd
  | 1 => advance 8 buf
  | 2 => (lengthDelimited buf).map Prod.snd
  | 5 => advance 4 buf
  | _ => .error (.wireType wire)

/-! ## The walkers -/

structure FrameInfo where
  compressed : Bool
  schema : UInt8
  payloadSize : ℕ
  batchSequence : ℕ
  sentAtUs : ℕ
  lastEventSequence : ℕ
  deriving DecidableEq

def eventField (seq : ℕ) (buf : List UInt8) : Except BadFrame (ℕ × List UInt8) :=
  match varint buf with
  | .ok (key, buf) =>
    if key >>> 3 = 1 ∧ key &&& 7 = 0 then varint buf
    else (skip (key &&& 7) buf).map fun buf => (seq, buf)
  | .error e => .error e

def walkEventFrom (seq : ℕ) (payload : List UInt8) : Except BadFrame ℕ :=
  drain eventField seq payload

def walkEvent (payload : List UInt8) : Except BadFrame ℕ := walkEventFrom 0 payload

def batchField (info : FrameInfo) (buf : List UInt8) : Except BadFrame (FrameInfo × List UInt8) :=
  match varint buf with
  | .ok (key, buf) =>
    match key >>> 3, key &&& 7 with
    | 2, 0 => (varint buf).map fun (value, buf) => ({ info with batchSequence := value }, buf)
    | 3, 0 => (varint buf).map fun (value, buf) => ({ info with sentAtUs := value }, buf)
    | 4, 2 =>
      match lengthDelimited buf with
      | .ok (event, buf) =>
        (walkEvent event).map fun seq =>
          ({ info with lastEventSequence := max info.lastEventSequence seq }, buf)
      | .error e => .error e
    | _, wire => (skip wire buf).map fun buf => (info, buf)
  | .error e => .error e

def walkBatch (payload : List UInt8) (info : FrameInfo) : Except BadFrame FrameInfo :=
  drain batchField info payload

def maxDecompressed : ℕ := 262144

def parseFrame (decompress : List UInt8 → ℕ → Option (List UInt8)) (bytes : List UInt8) :
    Except BadFrame FrameInfo :=
  if bytes.length < headerLen then .error .tooShort
  else if bytes.take 4 ≠ magic then .error .badMagic
  else
    let payloadSize := fromBeBytes ((bytes.drop 8).take 4)
    let body := bytes.drop headerLen
    let info : FrameInfo :=
      { compressed := decide (bytes.getD 4 0 &&& flagZstd ≠ 0)
        schema := bytes.getD 5 0
        payloadSize := payloadSize
        batchSequence := 0
        sentAtUs := 0
        lastEventSequence := 0 }
    if info.compressed then
      match decompress body (min payloadSize maxDecompressed) with
      | some payload => walkBatch payload info
      | none => .ok info
    else walkBatch body info

/-! ## The ring -/

structure EdgeFrame where
  offset : ℕ
  batchSequence : ℕ
  eventSequence : ℕ
  bytes : List UInt8
  recvAtUs : ℕ
  deriving DecidableEq

structure Ring where
  frames : List EdgeFrame
  capacity : ℕ
  nextOffset : ℕ
  deriving DecidableEq

def Ring.new (capacity : ℕ) : Ring := ⟨[], max capacity 1, 1⟩

def Ring.push (ring : Ring) (frame : EdgeFrame) : Ring × EdgeFrame :=
  let frame := { frame with offset := ring.nextOffset }
  let frames := if ring.frames.length = ring.capacity then ring.frames.tail else ring.frames
  ({ ring with frames := frames ++ [frame], nextOffset := ring.nextOffset + 1 }, frame)

def Ring.tail (ring : Ring) (n : ℕ) : List EdgeFrame :=
  ring.frames.drop (ring.frames.length - min n ring.frames.length)

end RustUma.Edge
