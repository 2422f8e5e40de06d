import RustUma.Service.ExactlyOnce

/-!
# What was sent is what is batched

The batch channel is first in, first out, and so is the batcher: at any moment what it has taken,
followed by what is still queued, is what the `process` calls handed over, in that order.
-/

namespace RustUma.Service

open RustUma.Found RustUma.Model RustUma.Hub RustUma.Pipeline RustUma.Api RustUma.Storage

structure Fifo (s : Server) : Prop where
  carriesNone : s.batcher.CarriesNone
  sub : s.batcher.inOrder ++ s.proc.batchTx.items <+: s.proc.sent
  eq_of_open : s.proc.batchTx.closed = false →
    s.batcher.inOrder ++ s.proc.batchTx.items = s.proc.sent

variable {codec : Codec} {config : Config} {s s' : Server} {a : ServerAction}

lemma Fifo.step (h : Fifo s) (hstep : s.step codec config a = some s') : Fifo s' := by
  cases Server.step_sound hstep with
  | process b p hproc =>
    cases hproc with
    | send i record hphase hroom =>
      have heq := h.eq_of_open hroom.1
      have hnew : s.batcher.inOrder ++ (s.proc.batchTx.push record).items =
          s.proc.sent ++ [record] := by
        rw [Channel.push_items, ← List.append_assoc, heq]
      exact ⟨h.carriesNone, hnew ▸ List.prefix_refl _, fun _ => hnew⟩
    | _ => exact ⟨h.carriesNone, h.sub, h.eq_of_open⟩
  | batch b loop hbatch =>
    have hcarry := hbatch.carriesNone h.carriesNone
    rcases hbatch.inOrder_append_items h.carriesNone with ⟨heq, hclosed⟩ | ⟨-, heq, hclose⟩
    · refine ⟨hcarry, ?_, ?_⟩
      · show loop.inOrder ++ loop.rx.items <+: s.proc.sent
        rw [heq]
        exact h.sub
      · intro hopen
        show loop.inOrder ++ loop.rx.items = s.proc.sent
        rw [heq]
        exact h.eq_of_open (hclosed.symm.trans hopen)
    · refine ⟨hcarry, ?_, ?_⟩
      · show loop.inOrder ++ loop.rx.items <+: s.proc.sent
        rw [heq, hclose]
        refine List.IsPrefix.trans ?_ h.sub
        exact List.prefix_append_right_inj _ |>.mpr List.nil_prefix
      · intro hopen
        have hclosed : loop.rx.closed = true := by
          rw [hclose]
          rfl
        exact absurd (hclosed.symm.trans hopen) (by simp)
  | session b session hsession | write b w hwrite | shutdown =>
    exact ⟨h.carriesNone, h.sub, h.eq_of_open⟩

variable {blockedBefore : Bytes 32 → ℕ → Bool} {wal : Option (List UInt8)} {cursorFile : Option ℕ}
  {as : List ServerAction}

lemma fifo_run (hrun : run (Server.step codec config)
    (Server.boot codec config blockedBefore wal cursorFile) as = some s) : Fifo s := by
  refine run_invariant_of_step (fun s a s' h hstep => h.step hstep) ?_ hrun
  exact ⟨Batcher.new_carriesNone, List.prefix_refl _, fun _ => rfl⟩

variable {batch : List EventRecord} {frame : WireFrame}

lemma mem_batches_of_mem_framesOf {batches : List (List EventRecord × Except WireError WireFrame)}
    (h : (batch, frame) ∈ framesOf batches) :
    (batch, .ok frame) ∈ batches := by
  induction batches with
  | nil => cases h
  | cons x batches ih =>
    obtain ⟨b, result⟩ := x
    cases result with
    | ok f =>
      rcases List.mem_cons.mp h with heq | h
      · simp_all
      simp_all
    | error e => exact List.mem_cons_of_mem _ (ih h)

lemma Fifo.mem_sent (h : Fifo s) (hpub : (batch, frame) ∈ s.batcher.published) {r : EventRecord}
    (hr : r ∈ batch) :
    r ∈ s.proc.sent := by
  refine h.sub.subset (List.mem_append_left _ ?_)
  refine List.mem_append_left _ (List.mem_append_left _ ?_)
  exact List.mem_flatMap.mpr ⟨_, mem_batches_of_mem_framesOf hpub, hr⟩

/-! ## Published frames are what the encoder made of their group -/

def PublishedEncoded (codec : Codec) (config : Config) (s : Server) : Prop :=
  ∀ batch frame, (batch, frame) ∈ s.batcher.published →
    ∃ n sentAtUs, encodeFrame codec n batch config.batch.wire sentAtUs = .ok frame

lemma publishedEncoded_run (hrun : run (Server.step codec config)
    (Server.boot codec config blockedBefore wal cursorFile) as = some s) :
    PublishedEncoded codec config s := by
  refine run_invariant_of_step ?_ ?_ hrun
  · intro s a s' h hstep
    cases Server.step_sound hstep with
    | batch b loop hbatch =>
      intro batch frame hmem
      change (batch, frame) ∈ loop.published at hmem
      rcases hbatch.published with ⟨hpub, -⟩ |
        ⟨batch', sentAtUs, nowUs, frame', -, -, hframe, hpub, -⟩
      · rw [hpub] at hmem
        exact h batch frame hmem
      · rw [hpub] at hmem
        rcases List.mem_append.mp hmem with hmem | hmem
        · exact h batch frame hmem
        grind
    | process b p hproc => exact h
    | session b session hsession => exact h
    | write b w hwrite => exact h
    | shutdown => exact h
  · intro batch frame hmem
    cases hmem

lemma lastBroadcastSequence_le (recovered : List EventRecord) :
    lastBroadcastSequence blockedBefore recovered ≤ initialSequence recovered := by
  unfold lastBroadcastSequence initialSequence
  induction recovered using List.reverseRecOn with
  | nil => exact le_rfl
  | append_singleton recovered event ih =>
    grind

lemma lt_lastSequence_of_published
    (hrun : run (Server.step codec config) (Server.boot codec config blockedBefore wal cursorFile)
      as = some s)
    (hpub : (batch, frame) ∈ s.batcher.published) :
    lastBroadcastSequence blockedBefore (recoverEvents codec config wal) < frame.lastSequence := by
  obtain ⟨n, sentAtUs, hframe⟩ := publishedEncoded_run hrun batch frame hpub
  obtain ⟨-, -, last, hlast, -, hseq⟩ := encodeFrame_ok hframe
  have hmem : last ∈ batch := List.mem_of_getLast? hlast
  obtain ⟨hinv, -⟩ := admission_run hrun
  have hsent := (fifo_run hrun).mem_sent hpub hmem
  have hfresh := (hinv.fresh last (hinv.sent_sub last hsent)).1
  rw [hseq]
  exact lt_of_le_of_lt (lastBroadcastSequence_le _) hfresh

def publishQueued : List ServerAction :=
  [.batch .first, .batch .collect, .batch (.encode 1 1), .batch .notify]

end RustUma.Service
