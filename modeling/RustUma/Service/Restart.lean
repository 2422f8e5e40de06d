import RustUma.Service.Order

/-!
# Sequence numbers across a restart

The next process continues after the highest sequence number it finds in the journal. Broadcasting
and journalling are two independent queues: a full or closed storage queue refuses the event, a
stopping writer drops what is queued, and the reader keeps only the last records.
-/

namespace RustUma.Service

open RustUma.Found RustUma.Model RustUma.Hub RustUma.Pipeline RustUma.Api RustUma.Storage

/-! ## What is asked of a run -/

def queuedEvents (items : List StorageCommand) : List EventRecord :=
  items.filterMap fun command =>
    match command with
    | .event record => some record
    | .checkpoint _ => none

def NewestWithin (k : ℕ) (l : List EventRecord) : Prop :=
  ∀ y ∈ l, ∃ x ∈ l.rtake k, y.sequence ≤ x.sequence

instance (k : ℕ) (l : List EventRecord) : Decidable (NewestWithin k l) :=
  inferInstanceAs (Decidable (∀ _ ∈ _, ∃ _ ∈ _, _))

def halfRing (config : Config) : ℕ := (max config.eventRingCapacity 1 + 1) / 2

def Durable (codec : Codec) (config : Config) (s : Server) : ServerAction → Prop
  | .process (.insert i) =>
    ∀ r ∈ (s.proc.calls i).phase.record?,
      Storable codec r ∧ NewestWithin (halfRing config) (s.proc.accepted ++ [r])
  | .process (.store i) =>
    ∀ r ∈ (s.proc.calls i).phase.record?,
      (r.enrichment.isSome → s.proc.storageTx.HasRoom) ∧
        (s.proc.storageTx.HasRoom → NewestWithin (halfRing config) (s.proc.stored ++ [r]))
  | .write .stop => queuedEvents s.proc.storageTx.items = []
  | _ => True

instance (codec : Codec) (config : Config) (s : Server) :
    (a : ServerAction) → Decidable (Durable codec config s a)
  | .process (.insert _) | .process (.store _) => inferInstanceAs (Decidable (∀ _ ∈ _, _))
  | .write .stop => inferInstanceAs (Decidable (_ = _))
  | .process (.receive ..) | .process (.contains ..) | .process (.resolve ..)
  | .process (.fetchAdd ..) | .process (.credit ..) | .process (.lookup ..) | .process (.send ..)
  | .process (.checkpoint ..) | .batch _ | .session _ | .write .recv | .write .compact
  | .write .tick | .shutdown => .isTrue trivial

def WholeFile (codec : Codec) : Option (List UInt8) → Prop
  | none => True
  | some bytes => bytes = [] ∨ ∃ events, (∀ e ∈ events, Storable codec e) ∧
      Encodes codec bytes events

variable {codec : Codec} {config : Config} {s s' : Server} {a : ServerAction}

lemma halfRing_le : halfRing config ≤ max config.eventRingCapacity 1 := by
  unfold halfRing
  omega

/-! ## The invariant -/

def Handed (stored : List EventRecord) : Phase → Prop
  | .stored r => r ∈ stored
  | .unblocked r => r ∈ stored
  | _ => True

def Journaled (codec : Codec) (k : ℕ) (bytes : List UInt8) (taken : List EventRecord) : Prop :=
  ∃ base before since, taken = before ++ since ∧ Encodes codec bytes (base ++ since) ∧
    (∀ e ∈ base, Storable codec e) ∧ ∀ y ∈ before, ∃ x ∈ base.rtake k, y.sequence ≤ x.sequence

structure Handing (codec : Codec) (k : ℕ) (p : Processor) : Prop where
  calls : ∀ i, Handed p.stored (p.calls i).phase
  sent_sub : ∀ r ∈ p.sent, r ∈ p.stored
  ring : ∀ r ∈ p.events.events, Storable codec r
  accepted : ∀ r ∈ p.accepted, Storable codec r
  newestAccepted : NewestWithin k p.accepted
  newestStored : NewestWithin k p.stored

structure Kept (codec : Codec) (k : ℕ) (stored : List EventRecord) (w : WriteLoop) : Prop where
  journal : ∃ taken, stored = taken ++ queuedEvents w.rx.items ∧
    Journaled codec k (w.journal.disk ++ w.journal.buffer) taken
  stopped : w.phase = .stopped →
    w.rx.closed = true ∧ w.rx.items = [] ∧ w.journal.buffer = []

lemma WholeFile.journaled {wal : Option (List UInt8)} (h : WholeFile codec wal) (k : ℕ) :
    Journaled codec k ((Journal.open_ wal).disk ++ (Journal.open_ wal).buffer) [] := by
  have hempty : Journaled codec k (walMagic ++ []) [] :=
    ⟨[], [], [], rfl, rfl, fun e he => absurd he List.not_mem_nil, fun y hy => absurd hy
      List.not_mem_nil⟩
  cases wal with
  | none => exact hempty
  | some bytes =>
    rcases h with rfl | ⟨events, hevents, hbytes⟩
    · exact hempty
    · refine ⟨events, [], [], rfl, ?_, hevents, fun y hy => absurd hy List.not_mem_nil⟩
      have hopen : Journal.open_ (some bytes) = ⟨bytes, [], 0⟩ := by
        refine if_neg ?_
        rw [hbytes]
        simp [walMagic]
      simp_all

/-! ## The steps of the calls -/

namespace Handing

variable {k : ℕ} {p p' : Processor}

lemma move (h : Handing codec k p) (i : ℕ) (call : Call) (hcall : Handed p.stored call.phase)
    (hcore : Processor.SameCore
      { p with calls := Function.update p.calls i call, sequence := p'.sequence } p') :
    Handing codec k p' := by
  obtain ⟨hevents, -, hcalls, haccepted, hstored, hsent⟩ := hcore
  constructor <;> simp only [hevents, hcalls, haccepted, hstored, hsent]
  · exact forall_update h.calls i call hcall
  · exact h.sent_sub
  · exact h.ring
  · exact h.accepted
  · exact h.newestAccepted
  · exact h.newestStored

lemma accept (h : Handing codec k p) (i : ℕ) {record : EventRecord}
    (hstorable : Storable codec record) (hnewest : NewestWithin k (p.accepted ++ [record])) :
    Handing codec k (p.accept i record) where
  calls := forall_update h.calls i _ trivial
  sent_sub := h.sent_sub
  ring := by
    intro r hr
    rcases List.mem_append.mp ((rtake_suffix _ _).subset hr) with hr | hr
    · exact h.ring r hr
    simp_all
  accepted := by
    intro r hr
    rcases List.mem_append.mp hr with hr | hr
    · exact h.accepted r hr
    simp_all
  newestAccepted := hnewest
  newestStored := h.newestStored

lemma store (h : Handing codec k p) (i : ℕ) {record : EventRecord}
    (hnewest : NewestWithin k (p.stored ++ [record])) (tx : Channel StorageCommand) :
    Handing codec k
      { p with
        storageTx := tx
        calls := p.setPhase i (.afterStore record)
        stored := p.stored ++ [record] } where
  calls := by
    refine forall_update (fun j => ?_) i _ ?_
    · have hj := h.calls j
      cases hphase : (p.calls j).phase <;> rw [hphase] at hj
      case stored r => exact List.mem_append_left _ hj
      case unblocked r => exact List.mem_append_left _ hj
      all_goals trivial
    · unfold Phase.afterStore
      split_ifs
      · exact List.mem_append_right _ (List.mem_singleton_self _)
      · trivial
  sent_sub := fun r hr => List.mem_append_left _ (h.sent_sub r hr)
  ring := h.ring
  accepted := h.accepted
  newestAccepted := h.newestAccepted
  newestStored := hnewest

lemma send (h : Handing codec k p) {i : ℕ} {record : EventRecord}
    (hphase : (p.calls i).phase = .unblocked record) (tx : Channel EventRecord) :
    Handing codec k
      { p with batchTx := tx, calls := p.setPhase i .done, sent := p.sent ++ [record] } where
  calls := forall_update h.calls i _ trivial
  sent_sub := by
    intro r hr
    rcases List.mem_append.mp hr with hr | hr
    · exact h.sent_sub r hr
    · rw [List.mem_singleton.mp hr]
      have hi := h.calls i
      rw [hphase] at hi
      exact hi
  ring := h.ring
  accepted := h.accepted
  newestAccepted := h.newestAccepted
  newestStored := h.newestStored

lemma step (h : Handing codec k p) {b : Action} (hstep : p.Step b p')
    (haccept : ∀ i, b = .insert i → ∀ r ∈ (p.calls i).phase.record?,
      Storable codec r ∧ NewestWithin k (p.accepted ++ [r]))
    (hstore : ∀ i, b = .store i → ∀ r ∈ (p.calls i).phase.record?,
      (r.enrichment.isSome → p.storageTx.HasRoom) ∧
        (p.storageTx.HasRoom → NewestWithin k (p.stored ++ [r]))) :
    Handing codec k p' := by
  cases hstep with
  | undecodable i receivedAtUs source hphase =>
    exact h.move i ⟨source, .done⟩ trivial ⟨rfl, rfl, rfl, rfl, rfl, rfl⟩
  | decode i event receivedAtUs source hphase =>
    exact h.move i ⟨source, .decoded event⟩ trivial ⟨rfl, rfl, rfl, rfl, rfl, rfl⟩
  | known i event hphase hkey | lose i record hphase hkey | blocked i record matchId hphase
  | sendFailed i record hphase hclosed =>
    exact h.move i { p.calls i with phase := .done } trivial ⟨rfl, rfl, rfl, rfl, rfl, rfl⟩
  | unknown i event hphase hkey =>
    exact h.move i { p.calls i with phase := .fresh event } trivial
      ⟨rfl, rfl, rfl, rfl, rfl, rfl⟩
  | resolve i event row hphase =>
    exact h.move i { p.calls i with phase := .resolved event row } trivial
      ⟨rfl, rfl, rfl, rfl, rfl, rfl⟩
  | fetchAdd i event row hphase =>
    exact h.move i { p.calls i with phase := .sequenced _ } trivial
      ⟨rfl, rfl, rfl, rfl, rfl, rfl⟩
  | accept i record hphase hkey =>
    obtain ⟨hstorable, hnewest⟩ := haccept i rfl record (by rw [hphase]; rfl)
    exact h.accept i hstorable hnewest
  | credit i record hphase =>
    exact h.move i { p.calls i with phase := .admitted record } trivial
      ⟨rfl, rfl, rfl, rfl, rfl, rfl⟩
  | store i record hphase hroom =>
    exact h.store i ((hstore i rfl record (by rw [hphase]; rfl)).2 hroom) _
  | drop i record hphase hroom =>
    -- a refused record is an enrichment miss, and the call ends
    have hmiss : ¬ record.enrichment.isSome = true := fun henriched =>
      hroom ((hstore i rfl record (by rw [hphase]; rfl)).1 henriched)
    refine h.move i { p.calls i with phase := .afterStore record } ?_
      ⟨rfl, rfl, rfl, rfl, rfl, rfl⟩
    rw [Phase.afterStore, if_neg hmiss]
    trivial
  | unblocked i record hphase =>
    have hi := h.calls i
    rw [hphase] at hi
    exact h.move i { p.calls i with phase := .unblocked record } hi
      ⟨rfl, rfl, rfl, rfl, rfl, rfl⟩
  | send i record hphase hroom => exact h.send hphase _
  | checkpoint block hroom | checkpointDropped block hroom =>
    exact ⟨h.calls, h.sent_sub, h.ring, h.accepted, h.newestAccepted, h.newestStored⟩

end Handing

/-! ## The queue and the writer -/

section writer

variable {eventCapacity : ℕ} {shutdown : Bool} {snapshot : List EventRecord} {b : WriteAction}
  {w w' : WriteLoop}

lemma exists_held {held : List EventRecord}
    (hstep : WriteLoop.Step codec eventCapacity shutdown snapshot w b w')
    (hbytes : Encodes codec (w.journal.disk ++ w.journal.buffer) held)
    (hqueued : ∀ r ∈ queuedEvents w.rx.items, Storable codec r) :
    ∃ held', Encodes codec (w'.journal.disk ++ w'.journal.buffer) held' ∧
      ((∃ moved, held' = held ++ moved ∧
          queuedEvents w.rx.items = moved ++ queuedEvents w'.rx.items) ∨
        (b = .compact ∧ held' = snapshot ∧ w'.rx = w.rx) ∨
        (b = .stop ∧ held' = held ∧ queuedEvents w'.rx.items = [])) := by
  cases hstep with
  | event record rx hphase hrecv =>
    obtain ⟨hitems, -, -⟩ := Channel.recv_eq_some hrecv
    have hsplit : queuedEvents w.rx.items = record :: queuedEvents rx.items := by
      rw [hitems]
      rfl
    have hrecord : Storable codec record := by
      simp_all
    have happended : w.appended codec record =
        { w.journal with
          buffer := w.journal.buffer ++ recordBytes codec record
          records := w.journal.records + 1 } := by
      unfold Writer.appended Journal.append
      rw [if_neg (Nat.not_lt.mpr hrecord.fits)]
    refine ⟨held ++ [record], ?_, Or.inl ⟨[record], rfl, hsplit⟩⟩
    rw [happended]
    unfold Encodes at hbytes ⊢
    grind
  | checkpoint block rx hphase hrecv =>
    obtain ⟨hitems, -, -⟩ := Channel.recv_eq_some hrecv
    refine ⟨held, hbytes, Or.inl ⟨[], (List.append_nil _).symm, ?_⟩⟩
    rw [hitems]
    rfl
  | compact hphase =>
    exact ⟨snapshot, List.append_nil _, Or.inr (Or.inl ⟨rfl, rfl, rfl⟩)⟩
  | tick hphase =>
    exact ⟨held, (List.append_nil _).trans hbytes, Or.inl ⟨[], (List.append_nil _).symm, rfl⟩⟩
  | stop hphase hshutdown =>
    exact ⟨held, (List.append_nil _).trans hbytes, Or.inr (Or.inr ⟨rfl, rfl, rfl⟩)⟩

lemma stopped_of_step (hstep : WriteLoop.Step codec eventCapacity shutdown snapshot w b w')
    (hstopped : w'.phase = .stopped) :
    w'.rx.closed = true ∧ w'.rx.items = [] ∧ w'.journal.buffer = [] := by
  cases hstep with
  | event record rx hphase hrecv =>
    revert hstopped
    split_ifs <;> simp
  | checkpoint _ _ hphase _ | tick hphase =>
    exact absurd (hphase.symm.trans hstopped) (by simp)
  | compact hphase => cases hstopped
  | stop hphase hshutdown => exact ⟨rfl, rfl, rfl⟩

end writer

namespace Kept

variable {k : ℕ} {stored : List EventRecord} {w w' : WriteLoop}

lemma push (h : Kept codec k stored w) (hroom : w.rx.HasRoom) (command : StorageCommand) :
    Kept codec k (stored ++ queuedEvents [command]) { w with rx := w.rx.push command } := by
  obtain ⟨taken, rfl, hjournal⟩ := h.journal
  refine ⟨⟨taken, ?_, hjournal⟩, ?_⟩
  · rw [List.append_assoc]
    congr 1
    exact (List.filterMap_append).symm
  · intro hstopped
    have hclosed := (h.stopped hstopped).1
    rw [hroom.1] at hclosed
    cases hclosed

lemma process {p p' : Processor} {writer : Writer}
    (h : Kept codec k p.stored { toWriter := writer, rx := p.storageTx }) {b : Action}
    (hstep : p.Step b p') :
    Kept codec k p'.stored { toWriter := writer, rx := p'.storageTx } := by
  cases hstep with
  | store i record hphase hroom => exact h.push hroom (.event record)
  | checkpoint block hroom =>
    have hpush := h.push hroom (.checkpoint block)
    rw [show queuedEvents [.checkpoint block] = [] from rfl, List.append_nil] at hpush
    exact hpush
  | _ => exact h

lemma write (h : Kept codec k stored w) {eventCapacity : ℕ} {shutdown : Bool}
    {snapshot : List EventRecord} {b : WriteAction}
    (hstep : WriteLoop.Step codec eventCapacity shutdown snapshot w b w')
    (hstored : ∀ r ∈ stored, Storable codec r) (hsnapshot : ∀ r ∈ snapshot, Storable codec r)
    (hnewest : ∀ r ∈ stored, ∃ x ∈ snapshot.rtake k, r.sequence ≤ x.sequence)
    (hstop : b = .stop → queuedEvents w.rx.items = []) :
    Kept codec k stored w' := by
  obtain ⟨taken, hsplit, base, before, since, rfl, hbytes, hbase, hnew⟩ := h.journal
  refine ⟨?_, stopped_of_step hstep⟩
  have hqueued : ∀ r ∈ queuedEvents w.rx.items, Storable codec r := by
    simp_all
  obtain ⟨held, hheld, ⟨moved, rfl, hmoved⟩ | ⟨rfl, rfl, hrx⟩ | ⟨rfl, rfl, hrx⟩⟩ :=
    exists_held hstep hbytes hqueued
  · refine ⟨before ++ since ++ moved, ?_, base, before, since ++ moved, by simp, ?_, hbase, hnew⟩
    · simp_all
    simp_all
  · refine ⟨before ++ since, by rw [hrx]; exact hsplit, held, before ++ since, [], by simp, ?_,
      hsnapshot, ?_⟩
    · rwa [List.append_nil]
    · intro y hy
      refine hnewest y ?_
      grind
  · refine ⟨before ++ since, ?_, base, before, since, rfl, hheld, hbase, hnew⟩
    grind

end Kept

/-! ## Boot -/

lemma storable_recovered {r : EventRecord} (h : Storable codec r) : Storable codec r.recovered := by
  constructor
  · rw [EventRecord.toProto_recovered]
    exact h.fits
  · rw [EventRecord.toProto_recovered]
    exact h.decodes

lemma recoverEvents_of_encodes (config : Config) {bytes : List UInt8} {events : List EventRecord}
    (h : ∀ e ∈ events, Storable codec e) (hbytes : Encodes codec bytes events) :
    recoverEvents codec config (some bytes) =
      (events.rtake (max config.eventRingCapacity 1)).map EventRecord.recovered := by
  have hload := loadEvents_of_encodes_append config.eventRingCapacity [] h hbytes rfl
  rw [List.append_nil] at hload
  unfold recoverEvents
  rw [hload, map_rtake]

lemma WholeFile.recovered_storable {wal : Option (List UInt8)} (h : WholeFile codec wal) :
    ∀ e ∈ recoverEvents codec config wal, Storable codec e := by
  cases wal with
  | none => exact fun e he => absurd he List.not_mem_nil
  | some bytes =>
    rcases h with rfl | ⟨events, hevents, hbytes⟩
    · exact fun e he => absurd he List.not_mem_nil
    · intro e he
      rw [recoverEvents_of_encodes config hevents hbytes] at he
      obtain ⟨r, hr, rfl⟩ := List.mem_map.mp he
      exact storable_recovered (hevents r ((rtake_suffix _ _).subset hr))

/-! ## Runs -/

structure Intact (codec : Codec) (config : Config) (ring₀ : List EventRecord) (start : ℕ)
    (s : Server) : Prop where
  admission : Admission ring₀ start s.proc
  capacity : s.proc.events.capacity = max config.eventRingCapacity 1
  handing : Handing codec (halfRing config) s.proc
  kept : Kept codec (halfRing config) s.proc.stored s.writeLoop

variable {ring₀ : List EventRecord} {start : ℕ}

lemma Intact.snapshot_newest (h : Intact codec config ring₀ start s) :
    ∀ r ∈ s.proc.stored, ∃ x ∈ s.proc.events.snapshot.rtake (halfRing config),
      r.sequence ≤ x.sequence := by
  intro r hr
  obtain ⟨x, hx, hle⟩ := h.handing.newestAccepted r (h.admission.stored_sub r hr)
  refine ⟨x, ?_, hle⟩
  have hring : s.proc.events.snapshot =
      (ring₀ ++ s.proc.accepted).rtake (max config.eventRingCapacity 1) := by
    rw [← h.capacity]
    exact h.admission.ring
  have hsuffix : s.proc.accepted.rtake (halfRing config) <:+
      (ring₀ ++ s.proc.accepted).rtake (max config.eventRingCapacity 1) :=
    suffix_rtake_of_length_le ((rtake_suffix _ _).trans (List.suffix_append _ _))
      ((length_rtake_le _ _).trans halfRing_le)
  rw [hring]
  exact (suffix_rtake_of_length_le hsuffix (length_rtake_le _ _)).subset hx

lemma Intact.step (h : Intact codec config ring₀ start s) (hok : Durable codec config s a)
    (hstep : s.step codec config a = some s') : Intact codec config ring₀ start s' := by
  cases Server.step_sound hstep with
  | process b p hproc =>
    refine ⟨h.admission.step hproc, hproc.capacity.trans h.capacity, ?_, h.kept.process hproc⟩
    refine h.handing.step hproc ?_ ?_
    · rintro i rfl r hr
      exact hok r hr
    · rintro i rfl r hr
      exact hok r hr
  | batch b loop hbatch =>
    exact ⟨h.admission.of_sameCore ⟨rfl, rfl, rfl, rfl, rfl, rfl⟩, h.capacity,
      ⟨h.handing.calls, h.handing.sent_sub, h.handing.ring, h.handing.accepted,
        h.handing.newestAccepted, h.handing.newestStored⟩, h.kept⟩
  | session b session hsession => exact ⟨h.admission, h.capacity, h.handing, h.kept⟩
  | write b w hwrite =>
    refine ⟨h.admission.of_sameCore ⟨rfl, rfl, rfl, rfl, rfl, rfl⟩, h.capacity,
      ⟨h.handing.calls, h.handing.sent_sub, h.handing.ring, h.handing.accepted,
        h.handing.newestAccepted, h.handing.newestStored⟩, ?_⟩
    refine h.kept.write hwrite ?_ h.handing.ring h.snapshot_newest ?_
    · intro r hr
      exact h.handing.accepted r (h.admission.stored_sub r hr)
    · rintro rfl
      exact hok
  | shutdown => exact ⟨h.admission, h.capacity, h.handing, h.kept⟩

variable {blockedBefore : Bytes 32 → ℕ → Bool} {wal : Option (List UInt8)} {cursorFile : Option ℕ}
  {as : List ServerAction}

lemma intact_boot (hwal : WholeFile codec wal) :
    Intact codec config (recoveredHub config (recoverEvents codec config wal)).events
      (initialSequence (recoverEvents codec config wal))
      (Server.boot codec config blockedBefore wal cursorFile) := by
  refine ⟨admission_boot, (recoveredHub_valid _ _).2, ?_, ?_⟩
  · refine ⟨fun i => trivial, fun r hr => absurd hr List.not_mem_nil, ?_,
      fun r hr => absurd hr List.not_mem_nil, fun r hr => absurd hr List.not_mem_nil,
      fun r hr => absurd hr List.not_mem_nil⟩
    intro r hr
    exact hwal.recovered_storable r ((recoveredHub_sublist config _).subset hr)
  · refine ⟨⟨[], rfl, hwal.journaled _⟩, ?_⟩
    intro hstopped
    cases hstopped

lemma Intact.le_initialSequence (h : Intact codec config ring₀ start s)
    (hstopped : s.writer.phase = .stopped) {r : EventRecord} (hr : r ∈ s.proc.stored) :
    r.sequence ≤ initialSequence (recoverEvents codec config (some s.writer.journal.disk)) := by
  obtain ⟨-, hitems, hbuffer⟩ := h.kept.stopped hstopped
  obtain ⟨taken, hsplit, base, before, since, rfl, hbytes, hbase, hnew⟩ := h.kept.journal
  rw [hitems] at hsplit
  rw [hbuffer, List.append_nil] at hbytes
  change Encodes codec s.writer.journal.disk (base ++ since) at hbytes
  replace hsplit : s.proc.stored = before ++ since := by simpa [queuedEvents] using hsplit
  have hsince : ∀ e ∈ base ++ since, Storable codec e := by
    intro e he
    rcases List.mem_append.mp he with he | he
    · exact hbase e he
    · refine h.handing.accepted e (h.admission.stored_sub e ?_)
      simp_all
  have hread : ∀ z ∈ (base ++ since).rtake (max config.eventRingCapacity 1),
      z.sequence ≤ initialSequence (recoverEvents codec config (some s.writer.journal.disk)) := by
    intro z hz
    rw [recoverEvents_of_encodes config hsince hbytes]
    exact RustUma.Service.le_initialSequence _ z.recovered (List.mem_map_of_mem hz)
  obtain ⟨x, hx, hle⟩ := h.handing.newestStored r hr
  refine hle.trans ?_
  rw [hsplit] at hx
  have hhalf : 2 * halfRing config ≤ max config.eventRingCapacity 1 + 1 := by
    unfold halfRing
    omega
  rcases Nat.lt_or_ge since.length (halfRing config) with hshort | hlong
  · -- the base still counts: its newest records are followed by less than half a ring
    rcases List.mem_append.mp ((rtake_suffix _ _).subset hx) with hx | hx
    · obtain ⟨z, hz, hxz⟩ := hnew x hx
      exact hxz.trans (hread z (mem_rtake_append_left since hz (by omega)))
    · refine hread x (mem_rtake_append_right (m := since.length) base ?_ (by omega))
      rwa [rtake_of_length_le le_rfl]
  · -- the newest number was taken since the base was written
    refine hread x (mem_rtake_append_right base ?_ halfRing_le)
    have hsuffix : since.rtake (halfRing config) <:+ (before ++ since).rtake (halfRing config) :=
      suffix_rtake_of_length_le ((rtake_suffix _ _).trans (List.suffix_append _ _))
        (length_rtake_le _ _)
    have hlength : ((before ++ since).rtake (halfRing config)).length ≤
        (since.rtake (halfRing config)).length := by
      refine (length_rtake_le _ _).trans ?_
      unfold List.rtake
      grind
    rwa [hsuffix.eq_of_length_le hlength]

/-- **Sequence numbers are not reissued** after a shutdown, if nothing that may be broadcast is lost
on its way to the journal: the next process starts above every event in a published frame. -/
theorem sequences_not_reissued (codec : Codec) (config : Config)
    (blockedBefore : Bytes 32 → ℕ → Bool) (wal : Option (List UInt8)) (cursorFile : Option ℕ)
    (as : List ServerAction) (s : Server) (hwal : WholeFile codec wal)
    (hok : AllSteps (Server.step codec config) (Durable codec config)
      (Server.boot codec config blockedBefore wal cursorFile) as)
    (hrun : run (Server.step codec config)
      (Server.boot codec config blockedBefore wal cursorFile) as = some s)
    (hstopped : s.writer.phase = .stopped) :
    ∀ batch frame, (batch, frame) ∈ s.batcher.published → ∀ r ∈ batch,
      r.sequence ≤ initialSequence (recoverEvents codec config (some s.writer.journal.disk)) := by
  intro batch frame hpub r hr
  have hintact := run_invariant (fun s a s' h hok hstep => Intact.step h hok hstep)
    (intact_boot hwal) hok hrun
  have hsent := (fifo_run hrun).mem_sent hpub hr
  exact hintact.le_initialSequence hstopped (hintact.handing.sent_sub r hsent)

/-! ## Two shutdowns -/

def publishFirst : List ServerAction :=
  callUpToSend 0 (testUmaEvent 1 1) ++ [.process (.send 0)] ++ publishQueued

/-- The writer takes the event before it stops: the next process starts above it. -/
theorem sequences_not_reissued_after_append :
    ∃ s, run (Server.step (prostCodec [firstRecord.toProto]) (testConfig 4))
        (Server.boot (prostCodec [firstRecord.toProto]) (testConfig 4) (fun _ _ => false) none none)
        (publishFirst ++ [.write .recv, .shutdown, .write .stop]) = some s ∧
      s.batcher.published.map Prod.fst = [[firstRecord]] ∧
      1 ≤ initialSequence (recoverEvents (prostCodec [firstRecord.toProto]) (testConfig 4)
        (some s.writer.journal.disk)) := by
  refine exists_some_imp (P := fun s => s.writer.phase = .stopped ∧
    s.batcher.published.map Prod.fst = [[firstRecord]]) (by decide +kernel) ?_
  rintro s hrun ⟨hstopped, hpublished⟩
  have hmem : [firstRecord] ∈ s.batcher.published.map Prod.fst := by
    grind
  obtain ⟨⟨batch, frame⟩, hpub, rfl⟩ := List.mem_map.mp hmem
  refine ⟨hpublished, ?_⟩
  exact sequences_not_reissued (prostCodec [firstRecord.toProto]) (testConfig 4)
    (fun _ _ => false) none none _ s trivial (by decide +kernel) hrun hstopped _ frame hpub
    firstRecord (List.mem_singleton_self _)

/-- The shutdown signal comes while the event is still queued: the writer stops without it, and the
next process starts at zero, below the event it published. -/
theorem queued_event_lost_at_shutdown :
    ∃ s, run (Server.step (prostCodec [firstRecord.toProto]) (testConfig 4))
        (Server.boot (prostCodec [firstRecord.toProto]) (testConfig 4) (fun _ _ => false) none none)
        (publishFirst ++ [.shutdown, .write .stop, .batch .stop]) = some s ∧
      s.writer.phase = .stopped ∧ s.batcher.phase = .stopped ∧
      s.proc.stats.storageQueueDropped = 0 ∧
      (∃ frame, ([firstRecord], frame) ∈ s.batcher.published) ∧
      initialSequence (recoverEvents (prostCodec [firstRecord.toProto]) (testConfig 4)
        (some s.writer.journal.disk)) < firstRecord.sequence := by
  refine exists_some_imp (P := fun s => s.writer.phase = .stopped ∧ s.batcher.phase = .stopped ∧
    s.proc.stats.storageQueueDropped = 0 ∧ s.batcher.published.map Prod.fst = [[firstRecord]] ∧
    s.writer.journal.disk = walMagic) (by decide +kernel) ?_
  rintro s - ⟨hwriter, hbatcher, hdropped, hpublished, hdisk⟩
  have hmem : [firstRecord] ∈ s.batcher.published.map Prod.fst := by
    grind
  obtain ⟨⟨batch, frame⟩, hpub, rfl⟩ := List.mem_map.mp hmem
  refine ⟨hwriter, hbatcher, hdropped, ⟨frame, hpub⟩, ?_⟩
  rw [hdisk]
  decide +kernel

end RustUma.Service
