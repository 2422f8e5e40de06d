import RustUma.Found.Channel
import RustUma.Storage.Journal
import RustUma.Pipeline.Processor

/-!
# The storage writer (`src/storage.rs` `run_storage_writer`)

One task appends the events it receives to the journal, compacts the journal from the ring when it
has grown past twice the ring's capacity, keeps the highest checkpoint, and writes both out once a
second and when it stops.

The enrichment totals it also saves are not part of the model.
-/

namespace RustUma.Storage

open RustUma.Found RustUma.Model RustUma.Pipeline

inductive WritePhase where
  | running
  | compacting
  | stopped
  deriving DecidableEq

inductive WriteAction where
  | recv
  | compact
  | tick
  | stop
  deriving DecidableEq

structure Writer where
  phase : WritePhase
  journal : Journal
  umaCursor : ℕ
  cursorFile : Option ℕ
  deriving DecidableEq

structure WriteLoop extends Writer where
  rx : Channel StorageCommand

def compactionLimit (eventCapacity : ℕ) : ℕ := max (min (eventCapacity * 2) (2 ^ 64 - 1)) 2

namespace Writer

def start (wal : Option (List UInt8)) (cursorFile : Option ℕ) : Writer where
  phase := .running
  journal := Journal.open_ wal
  umaCursor := cursorFile.getD 0
  cursorFile := cursorFile

def persist (w : Writer) : Writer :=
  { w with
    journal := w.journal.flush
    cursorFile := if 0 < w.umaCursor then some w.umaCursor else w.cursorFile }

def appended (codec : Codec) (w : Writer) (event : EventRecord) : Journal :=
  match w.journal.append codec event with
  | .ok journal => journal
  | .error _ => w.journal

end Writer

namespace WriteLoop

def step (codec : Codec) (eventCapacity : ℕ) (shutdown : Bool) (snapshot : List EventRecord)
    (w : WriteLoop) : WriteAction → Option WriteLoop
  | .recv =>
    match w.phase with
    | .running =>
      match w.rx.recv with
      | some (.event event, rx) =>
        some { w with
          rx := rx
          journal := w.appended codec event
          phase := if compactionLimit eventCapacity < (w.appended codec event).records then
            .compacting else .running }
      | some (.checkpoint block, rx) =>
        some { w with rx := rx, umaCursor := max w.umaCursor block }
      | none => none
    | _ => none
  | .compact =>
    match w.phase with
    | .compacting =>
      some { w with journal := w.journal.rewrite codec snapshot, phase := .running }
    | _ => none
  | .tick =>
    match w.phase with
    | .running => some { w with toWriter := w.persist }
    | _ => none
  | .stop =>
    match w.phase with
    | .running =>
      if shutdown then
        some { toWriter := { w.persist with phase := .stopped }, rx := w.rx.close }
      else none
    | _ => none

inductive Step (codec : Codec) (eventCapacity : ℕ) (shutdown : Bool) (snapshot : List EventRecord)
    (w : WriteLoop) : WriteAction → WriteLoop → Prop where
  | event (event : EventRecord) (rx : Channel StorageCommand) (hphase : w.phase = .running)
      (hrecv : w.rx.recv = some (.event event, rx)) :
      Step codec eventCapacity shutdown snapshot w .recv
        { w with
          rx := rx
          journal := w.appended codec event
          phase := if compactionLimit eventCapacity < (w.appended codec event).records then
            .compacting else .running }
  | checkpoint (block : ℕ) (rx : Channel StorageCommand) (hphase : w.phase = .running)
      (hrecv : w.rx.recv = some (.checkpoint block, rx)) :
      Step codec eventCapacity shutdown snapshot w .recv
        { w with rx := rx, umaCursor := max w.umaCursor block }
  | compact (hphase : w.phase = .compacting) :
      Step codec eventCapacity shutdown snapshot w .compact
        { w with journal := w.journal.rewrite codec snapshot, phase := .running }
  | tick (hphase : w.phase = .running) :
      Step codec eventCapacity shutdown snapshot w .tick { w with toWriter := w.persist }
  | stop (hphase : w.phase = .running) (hshutdown : shutdown = true) :
      Step codec eventCapacity shutdown snapshot w .stop
        { toWriter := { w.persist with phase := .stopped }, rx := w.rx.close }

theorem step_sound {codec : Codec} {eventCapacity : ℕ} {shutdown : Bool}
    {snapshot : List EventRecord} {w w' : WriteLoop} {a : WriteAction}
    (h : w.step codec eventCapacity shutdown snapshot a = some w') :
    Step codec eventCapacity shutdown snapshot w a w' := by
  cases a with
  | recv =>
    simp only [step] at h
    split at h
    · next hphase =>
      split at h
      · next event rx hrecv =>
        cases h
        exact .event event rx hphase hrecv
      · next block rx hrecv =>
        cases h
        exact .checkpoint block rx hphase hrecv
      · cases h
    · cases h
  | compact =>
    simp only [step] at h
    split at h
    · next hphase =>
      cases h
      exact .compact hphase
    · cases h
  | tick =>
    simp only [step] at h
    split at h
    · next hphase =>
      cases h
      exact .tick hphase
    · cases h
  | stop =>
    simp only [step] at h
    split at h
    · next hphase =>
      split_ifs at h with hshutdown
      cases h
      exact .stop hphase hshutdown
    · cases h

end WriteLoop

end RustUma.Storage
