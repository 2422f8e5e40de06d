import RustUma.Found.Reach
import RustUma.Service.Machine

/-!
# Every call of `process` can return

A call waits in one place only: a full batch channel. The batcher can always make room there, and a
batcher that has stopped has closed the channel, which fails the send.
-/

namespace RustUma.Service

open RustUma.Found RustUma.Model RustUma.Hub RustUma.Pipeline RustUma.Api RustUma.Storage

/-! ## The batcher makes room -/

def batchRank (b : BatchLoop) : ℕ :=
  (if b.pending.isSome then 4 else 0) +
    match b.phase with
    | .collecting _ _ => 3
    | .ready _ => 2
    | .notifying _ => 1
    | _ => 0

lemma makes_room (codec : Codec) (config : BatchConfig) (shutdown : Bool) {b : BatchLoop}
    {rx : Channel EventRecord} {event : EventRecord} (hrx : b.rx.recv = some (event, rx))
    (hphase : b.phase ≠ .stopped) :
    Reaches (BatchLoop.step codec config shutdown) (fun _ => True)
      (fun b' => b'.rx = rx ∧ b'.phase ≠ .stopped) b := by
  refine Reaches.of_rank (I := fun b' => b'.phase ≠ .stopped ∧ b'.rx = b.rx) batchRank ?_
    ⟨hphase, rfl⟩
  rintro b' ⟨hphase', hsame⟩
  rw [← hsame] at hrx
  cases hp : b'.phase with
  | waiting =>
    cases hpending : b'.pending with
    | none =>
      have hstep : b'.step codec config shutdown .first =
          some { b' with
            rx := rx, phase := .collecting [event] (encodedEventLen codec event) } := by
        simp only [BatchLoop.step, hp, hpending, hrx]
      exact .next trivial hstep (.here (Or.inl ⟨rfl, by simp⟩))
    | some carried =>
      have hstep : b'.step codec config shutdown .first =
          some { b' with
            pending := none
            phase := .collecting [carried] (encodedEventLen codec carried) } := by
        simp only [BatchLoop.step, hp, hpending]
      exact .next trivial hstep (.here (Or.inr ⟨⟨by simp, hsame⟩, by
        simp [batchRank, hp, hpending]⟩))
  | collecting batch estimatedBytes =>
    by_cases hlen : batch.length < max config.batchMaxEvents 1
    · by_cases hbytes : config.batchMaxBytes < estimatedBytes + encodedEventLen codec event ∧
          batch ≠ []
      · have hstep : b'.step codec config shutdown .collect =
            some { b' with rx := rx, pending := some event, phase := .ready batch } := by
          simp only [BatchLoop.step, hp, hrx, if_pos hlen, if_pos hbytes]
        exact .next trivial hstep (.here (Or.inl ⟨rfl, by simp⟩))
      · have hstep : b'.step codec config shutdown .collect =
            some { b' with
              rx := rx
              phase := .collecting (batch ++ [event])
                (estimatedBytes + encodedEventLen codec event) } := by
          simp only [BatchLoop.step, hp, hrx, if_pos hlen, if_neg hbytes]
        exact .next trivial hstep (.here (Or.inl ⟨rfl, by simp⟩))
    · have hstep : b'.step codec config shutdown .collect =
          some { b' with phase := .ready batch } := by
        simp only [BatchLoop.step, hp, if_neg hlen]
      exact .next trivial hstep (.here (Or.inr ⟨⟨by simp, hsame⟩, by simp [batchRank, hp]⟩))
  | ready batch =>
    cases hframe : encodeFrame codec (nextBatchSequence b'.batchSequence) batch config.wire 0 with
    | ok frame =>
      have hstep : b'.step codec config shutdown (.encode 0 0) =
          some { b' with
            batchSequence := nextBatchSequence b'.batchSequence
            lastBroadcastAtUs := 0
            frames := b'.frames.push frame
            phase := .notifying frame.lastSequence
            batches := b'.batches ++ [(batch, .ok frame)] } := by
        simp only [BatchLoop.step, hp, hframe]
      exact .next trivial hstep (.here (Or.inr ⟨⟨by simp, hsame⟩, by simp [batchRank, hp]⟩))
    | error error =>
      have hstep : b'.step codec config shutdown (.encode 0 0) =
          some { b' with
            batchSequence := nextBatchSequence b'.batchSequence
            phase := .waiting
            batches := b'.batches ++ [(batch, .error error)] } := by
        simp only [BatchLoop.step, hp, hframe]
      exact .next trivial hstep (.here (Or.inr ⟨⟨by simp, hsame⟩, by simp [batchRank, hp]⟩))
  | notifying latest =>
    have hstep : b'.step codec config shutdown .notify =
        some { b' with frames := b'.frames.notify latest, phase := .waiting } := by
      simp only [BatchLoop.step, hp]
    exact .next trivial hstep (.here (Or.inr ⟨⟨by simp, hsame⟩, by simp [batchRank, hp]⟩))
  | stopped => exact absurd hp hphase'

/-! ## The channel between the calls and the batcher -/

structure Flowing (s : Server) : Prop where
  capacity : 0 < s.proc.batchTx.capacity
  fits : s.proc.batchTx.items.length ≤ s.proc.batchTx.capacity
  running : s.proc.batchTx.closed = false → s.batcher.phase ≠ .stopped

variable {codec : Codec} {config : Config} {s s' : Server} {a : ServerAction}

def SendReady (p : Processor) : Prop := p.batchTx.closed = true ∨ p.batchTx.HasRoom

namespace Flowing

lemma received (h : Flowing s) {b : BatchLoop} {event : EventRecord}
    (hrecv : s.proc.batchTx.recv = some (event, b.rx)) (hphase : b.phase ≠ .stopped) :
    Flowing (s.setBatchLoop b) := by
  obtain ⟨hitems, -, hcapacity⟩ := Channel.recv_eq_some hrecv
  have hfits := h.fits
  rw [hitems, List.length_cons] at hfits
  refine ⟨?_, ?_, fun _ => hphase⟩
  · show 0 < b.rx.capacity
    omega
  · show b.rx.items.length ≤ b.rx.capacity
    omega

lemma step (h : Flowing s) (hstep : s.Step codec config a s') : Flowing s' := by
  cases hstep with
  | process b p hproc =>
    cases hproc with
    | send i record hphase hroom =>
      refine ⟨h.capacity, ?_, h.running⟩
      show (s.proc.batchTx.items ++ [record]).length ≤ s.proc.batchTx.capacity
      rw [List.length_append]
      exact hroom.2
    | _ => exact ⟨h.capacity, h.fits, h.running⟩
  | batch b loop hbatch =>
    cases hbatch with
    | recv event rx hphase hpending hrecv => exact h.received hrecv (by simp)
    | carryOver batch estimatedBytes event rx hphase hlen hrecv hbytes =>
      exact h.received hrecv (by simp)
    | append batch estimatedBytes event rx hphase hlen hrecv hbytes =>
      exact h.received hrecv (by simp)
    | stop hphase hshutdown hpending =>
      exact ⟨h.capacity, Nat.zero_le _, fun hopen => by cases hopen⟩
    | carry | close | publish | encodeFailed | notify =>
      exact ⟨h.capacity, h.fits, fun _ => by simp [Server.setBatchLoop]⟩
  | session | write | shutdown => exact ⟨h.capacity, h.fits, h.running⟩

end Flowing

lemma flowing_boot (codec : Codec) (config : Config) (blockedBefore : Bytes 32 → ℕ → Bool)
    (wal : Option (List UInt8)) (cursorFile : Option ℕ) :
    Flowing (Server.boot codec config blockedBefore wal cursorFile) where
  capacity := Nat.lt_of_lt_of_le Nat.zero_lt_one (Nat.le_max_right _ _)
  fits := Nat.zero_le _
  running := fun _ hstopped => by cases hstopped

/-! ## A call goes on -/

def Answering (answers : ℕ → Option MarketEnrichment × Option ℕ) : ServerAction → Prop
  | .batch _ => True
  | .process (.receive _ _ _ _) => False
  | .process (.checkpoint _) => False
  | .process (.resolve i row) => row = (answers i).1
  | .process (.lookup i blocked) => blocked = (answers i).2
  | .process _ => True
  | _ => False

def callRank : Phase → ℕ
  | .decoded _ => 8
  | .fresh _ => 7
  | .resolved _ _ => 6
  | .sequenced _ => 5
  | .inserted _ => 4
  | .admitted _ => 3
  | .stored _ => 2
  | .unblocked _ => 1
  | .idle => 0
  | .done => 0

variable {answers : ℕ → Option MarketEnrichment × Option ℕ}

lemma Flowing.exists_room (h : Flowing s) :
    Reaches (Server.step codec config) (Answering answers)
      (fun s' => SendReady s'.proc ∧ s'.proc.calls = s.proc.calls) s := by
  by_cases hready : SendReady s.proc
  · exact .here ⟨hready, rfl⟩
  · -- the channel is open and full, so the batcher runs and has something to take
    obtain ⟨hopen, hfull⟩ := not_or.mp hready
    rw [Bool.not_eq_true] at hopen
    have hlen : s.proc.batchTx.capacity ≤ s.proc.batchTx.items.length :=
      not_lt.mp fun hlt => hfull ⟨hopen, hlt⟩
    have hcapacity := h.capacity
    cases hitems : s.proc.batchTx.items with
    | nil =>
      simp_all
    | cons event rest =>
      have hrecv : s.batchLoop.rx.recv = some (event, { s.proc.batchTx with items := rest }) := by
        show s.proc.batchTx.recv = _
        rw [Channel.recv, hitems]
      have htaken := makes_room codec config.batch s.shutdown hrecv (h.running hopen)
      refine (htaken.embed s.setBatchLoop .batch ?_ fun _ _ => trivial).mono ?_
      · intro b a b' _ hstep
        show (b.step codec config.batch s.shutdown a).map _ = _
        rw [hstep]
        rfl
      · rintro _ ⟨b, rfl, hrx, -⟩
        refine ⟨Or.inr ?_, rfl⟩
        show b.rx.HasRoom
        rw [hrx]
        have hfits := h.fits
        rw [hitems] at hfits
        exact ⟨hopen, hfits⟩

lemma exists_call_step {p : Processor} {i : ℕ} (hidle : (p.calls i).phase ≠ .idle)
    (hdone : (p.calls i).phase ≠ .done) (hready : SendReady p) :
    ∃ b phase, Answering answers (.process b) ∧ b.call? = some i ∧
      (∃ p', p.step b = some p' ∧ p'.calls = p.setPhase i phase) ∧ phase ≠ .idle ∧
      callRank phase < callRank (p.calls i).phase := by
  cases hphase : (p.calls i).phase with
  | idle => grind
  | decoded event =>
    by_cases hkey : p.events.contains event.key = true
    · refine ⟨.contains i, .done, trivial, rfl, ⟨p.duplicate i, ?_, rfl⟩, by simp,
        by simp [callRank]⟩
      simp only [Processor.step, hphase, if_pos hkey]
    · refine ⟨.contains i, .fresh event, trivial, rfl, ?_, by simp, by simp [callRank]⟩
      simp [Processor.step, hphase, hkey]
  | fresh event =>
    refine ⟨.resolve i (answers i).1, .resolved event (answers i).1, rfl, rfl,
      ⟨p.resolve i event (answers i).1, ?_, rfl⟩, by simp, by simp [callRank]⟩
    simp only [Processor.step, hphase]
  | resolved event row =>
    refine ⟨.fetchAdd i, .sequenced (buildRecord (p.sequence + 1) event row), trivial, rfl, ?_,
      by simp, by simp [callRank]⟩
    simp [Processor.step, hphase]
  | sequenced record =>
    by_cases hkey : record.key ∈ p.events.keys
    · refine ⟨.insert i, .done, trivial, rfl, ⟨p.duplicate i, ?_, rfl⟩, by simp,
        by simp [callRank]⟩
      simp [Processor.step, hphase, EventHub.insert_of_mem hkey]
    · refine ⟨.insert i, .inserted record, trivial, rfl, ?_, by simp, by simp [callRank]⟩
      simp [Processor.step, hphase, EventHub.insert_of_notMem hkey]
  | inserted record =>
    refine ⟨.credit i, .admitted record, trivial, rfl, ?_, by simp, by simp [callRank]⟩
    simp [Processor.step, hphase]
  | admitted record =>
    refine ⟨.store i, .afterStore record, trivial, rfl, ?_, ?_⟩
    · cases hsend : p.storageTx.trySend (.event record) <;> simp [Processor.step, hphase, hsend]
    · unfold Phase.afterStore
      split_ifs <;> simp [callRank]
  | stored record =>
    by_cases hblocked : (answers i).2.isSome = true
    · refine ⟨.lookup i (answers i).2, .done, rfl, rfl, ?_, by simp, by simp [callRank]⟩
      simp [Processor.step, hphase, hblocked]
    · refine ⟨.lookup i (answers i).2, .unblocked record, rfl, rfl, ?_, by simp,
        by simp [callRank]⟩
      simp [Processor.step, hphase, hblocked]
  | unblocked record =>
    refine ⟨.send i, .done, trivial, rfl, ?_, by simp, by simp [callRank]⟩
    by_cases hclosed : p.batchTx.closed = true
    · simp [Processor.step, hphase, hclosed]
    · simp [Processor.step, hphase, hclosed, Channel.trySend, hready.resolve_left hclosed]
  | done => grind

theorem call_returns {i : ℕ} (h : Flowing s) (hidle : (s.proc.calls i).phase ≠ .idle) :
    Reaches (Server.step codec config) (Answering answers)
      (fun s' => (s'.proc.calls i).phase = .done ∧ ∀ j, j ≠ i → s'.proc.calls j = s.proc.calls j)
      s := by
  refine Reaches.of_rank (I := fun t => Flowing t ∧ (t.proc.calls i).phase ≠ .idle ∧
    ∀ j, j ≠ i → t.proc.calls j = s.proc.calls j) (fun t => callRank (t.proc.calls i).phase) ?_
    ⟨h, hidle, fun j _ => rfl⟩
  rintro t ⟨hflow, hstarted, hothers⟩
  by_cases hdone : (t.proc.calls i).phase = .done
  · exact .here (Or.inl ⟨hdone, hothers⟩)
  -- room first, then the step
  refine (hflow.exists_room.and_invariant (fun s a s' hs hstep => hs.step (Server.step_sound hstep))
    hflow).trans ?_
  rintro u ⟨⟨hready, hcalls⟩, hflow'⟩
  rw [← hcalls] at hstarted hdone
  obtain ⟨b, phase, hb, hcall, ⟨p', hstep, hp'⟩, hphase, hrank⟩ :=
    exists_call_step hstarted hdone hready
  have hserver : u.step codec config (.process b) = some { u with proc := p' } := by
    show (u.proc.step b).map _ = _
    rw [hstep]
    rfl
  have hown : ({ u with proc := p' } : Server).proc.calls i =
      { u.proc.calls i with phase := phase } := by
    rw [hp']
    exact Function.update_self _ _ _
  refine .next hb hserver (.here (Or.inr ⟨⟨hflow'.step (Server.step_sound hserver), ?_, ?_⟩, ?_⟩))
  · grind
  · intro j hj
    have hstay := (Processor.step_sound hstep).calls_of_ne (by
      rw [hcall]
      rintro k ⟨⟩
      exact hj)
    simp_all
  simp_all

end RustUma.Service
