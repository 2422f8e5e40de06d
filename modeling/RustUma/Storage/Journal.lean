import RustUma.Found.Ring
import RustUma.Found.Records
import RustUma.Model.Wire

/-!
# The event journal (`src/storage.rs` `Journal`, `Storage::load_events`)

`events.wal` is a magic number and a stream of checksummed records. The writer opens the file in
append mode and never repairs its tail; the reader stops at the first record it cannot read.
-/

namespace RustUma.Storage

open RustUma.Found RustUma.Model

/-! ## The checksum -/

def crcBit (c : ℕ) : ℕ := if c % 2 = 1 then Nat.xor (c / 2) 0xEDB88320 else c / 2

def crcByte (c : ℕ) (b : UInt8) : ℕ := Nat.iterate crcBit 8 (Nat.xor c b.toNat)

def crc32 (payload : List UInt8) : ℕ := Nat.xor (payload.foldl crcByte 0xFFFFFFFF) 0xFFFFFFFF

lemma crcBit_lt {c : ℕ} (h : c < 2 ^ 32) : crcBit c < 2 ^ 32 := by
  unfold crcBit
  split_ifs
  · exact Nat.xor_lt_two_pow (by omega) (by decide)
  · omega

lemma crcByte_lt {c : ℕ} (h : c < 2 ^ 32) (b : UInt8) : crcByte c b < 2 ^ 32 := by
  have hb : b.toNat < 2 ^ 32 := lt_trans b.toNat_lt (by decide)
  have hx : Nat.xor c b.toNat < 2 ^ 32 := Nat.xor_lt_two_pow h hb
  exact crcBit_lt (crcBit_lt (crcBit_lt (crcBit_lt (crcBit_lt (crcBit_lt (crcBit_lt
    (crcBit_lt hx)))))))

lemma crc32_lt (payload : List UInt8) : crc32 payload < 2 ^ 32 := by
  have hfold : ∀ c, c < 2 ^ 32 → payload.foldl crcByte c < 2 ^ 32 := by
    induction payload with
    | nil => exact fun c hc => hc
    | cons b payload ih => exact fun c hc => ih _ (crcByte_lt hc b)
  exact Nat.xor_lt_two_pow (hfold _ (by decide)) (by decide)

example : crc32 [49, 50, 51, 52, 53, 54, 55, 56, 57] = 0xCBF43926 := by decide +kernel

/-! ## Writer and reader -/

inductive StorageError where
  | io
  | format (message : String)
  | protobuf
  deriving DecidableEq

def walMagic : List UInt8 := [85, 77, 65, 87, 65, 76, 49, 0]

def maxWalRecord : ℕ := 2 ^ 20

structure Journal where
  disk : List UInt8
  buffer : List UInt8
  records : ℕ
  deriving DecidableEq

def recordBytes (codec : Codec) (event : EventRecord) : List UInt8 :=
  frame crc32 (codec.encodeEvent event.toProto)

namespace Journal

def open_ (file : Option (List UInt8)) : Journal :=
  match file with
  | none => ⟨walMagic, [], 0⟩
  | some bytes => if bytes.length = 0 then ⟨walMagic, [], 0⟩ else ⟨bytes, [], 0⟩

def append (codec : Codec) (j : Journal) (event : EventRecord) : Except StorageError Journal :=
  if maxWalRecord < (codec.encodeEvent event.toProto).length then
    .error (.format "event WAL record too large")
  else .ok { j with buffer := j.buffer ++ recordBytes codec event, records := j.records + 1 }

def flush (j : Journal) : Journal := { j with disk := j.disk ++ j.buffer, buffer := [] }

def rewrite (codec : Codec) (_j : Journal) (events : List EventRecord) : Journal where
  disk := walMagic ++ events.flatMap (recordBytes codec)
  buffer := []
  records := events.length

end Journal

def recoverRecord (codec : Codec) (capacity : ℕ) (events : List EventRecord)
    (payload : List UInt8) : Except StorageError (List EventRecord) :=
  match codec.decodeEvent payload with
  | none => .error .protobuf
  | some proto =>
    match EventRecord.fromProto proto with
    | some event => .ok (trim (max capacity 1) (fun u _ => u) (events ++ [event]) ()).1
    | none => .ok events

def loadEvents (codec : Codec) (capacity : ℕ) (wal : Option (List UInt8)) :
    Except StorageError (List EventRecord) :=
  match wal with
  | none => .ok []
  | some bytes =>
    if bytes.length < 8 then .error .io
    else if bytes.take 8 ≠ walMagic then .error (.format "event WAL magic")
    else
      (scan maxWalRecord crc32 (bytes.drop 8)).foldlM (recoverRecord codec capacity) []

/-! ## What a well-formed file reads back as -/

structure Storable (codec : Codec) (event : EventRecord) : Prop where
  fits : (codec.encodeEvent event.toProto).length ≤ maxWalRecord
  decodes : codec.decodeEvent (codec.encodeEvent event.toProto) = some event.toProto

instance (codec : Codec) (event : EventRecord) : Decidable (Storable codec event) :=
  decidable_of_iff
    ((codec.encodeEvent event.toProto).length ≤ maxWalRecord ∧
      codec.decodeEvent (codec.encodeEvent event.toProto) = some event.toProto)
    ⟨fun h => ⟨h.1, h.2⟩, fun h => ⟨h.fits, h.decodes⟩⟩

def Encodes (codec : Codec) (bytes : List UInt8) (events : List EventRecord) : Prop :=
  bytes = walMagic ++ events.flatMap (recordBytes codec)

variable {codec : Codec}

lemma Storable.writable {event : EventRecord} (h : Storable codec event) :
    Writable maxWalRecord crc32 (codec.encodeEvent event.toProto) where
  short := h.fits
  word := lt_of_le_of_lt h.fits (by decide)
  check := crc32_lt _

variable {events : List EventRecord}

lemma scan_records_append (h : ∀ e ∈ events, Storable codec e) (tail : List UInt8) :
    scan maxWalRecord crc32 (events.flatMap (recordBytes codec) ++ tail) =
      events.map (fun e => codec.encodeEvent e.toProto) ++ scan maxWalRecord crc32 tail := by
  have hflat : events.flatMap (recordBytes codec) =
      (events.map fun e => codec.encodeEvent e.toProto).flatMap (frame crc32) := by
    rw [List.flatMap_map]
    rfl
  rw [hflat, scan_frames_append]
  intro p hp
  obtain ⟨e, he, rfl⟩ := List.mem_map.mp hp
  exact (h e he).writable

lemma foldlM_recoverRecord (capacity : ℕ) (h : ∀ e ∈ events, Storable codec e)
    (start : List EventRecord) :
    (events.map fun e => codec.encodeEvent e.toProto).foldlM (recoverRecord codec capacity)
        (start.rtake (max capacity 1)) =
      .ok ((start ++ events.map EventRecord.recovered).rtake (max capacity 1)) := by
  induction events generalizing start with
  | nil => simp [pure, Except.pure]
  | cons e events ih =>
    have hstep : recoverRecord codec capacity (start.rtake (max capacity 1))
        (codec.encodeEvent e.toProto) =
          .ok ((start ++ [e.recovered]).rtake (max capacity 1)) := by
      unfold recoverRecord
      rw [(h e List.mem_cons_self).decodes]
      simp only [EventRecord.fromProto_toProto, trim_eq]
      rw [rtake_append_of_rtake]
    rw [List.map_cons, List.foldlM_cons, hstep]
    have hrest := ih (fun e' he' => h e' (List.mem_cons_of_mem _ he')) (start ++ [e.recovered])
    rw [List.append_assoc] at hrest
    exact hrest

theorem loadEvents_of_encodes_append (capacity : ℕ) {bytes : List UInt8} (tail : List UInt8)
    (h : ∀ e ∈ events, Storable codec e) (hbytes : Encodes codec bytes events)
    (htail : scan maxWalRecord crc32 tail = []) :
    loadEvents codec capacity (some (bytes ++ tail)) =
      .ok ((events.map EventRecord.recovered).rtake (max capacity 1)) := by
  obtain rfl := hbytes
  have hlen : ¬ (walMagic ++ events.flatMap (recordBytes codec) ++ tail).length < 8 := by
    simp [walMagic]
  have htake : (walMagic ++ events.flatMap (recordBytes codec) ++ tail).take 8 = walMagic := by
    simp [walMagic]
  have hdrop : (walMagic ++ events.flatMap (recordBytes codec) ++ tail).drop 8 =
      events.flatMap (recordBytes codec) ++ tail := by
    simp [walMagic]
  unfold loadEvents
  simp only [hlen, htake, hdrop, if_false, ne_eq, not_true_eq_false]
  rw [scan_records_append h, htail]
  have hloop := foldlM_recoverRecord capacity h []
  simpa using hloop

end RustUma.Storage
