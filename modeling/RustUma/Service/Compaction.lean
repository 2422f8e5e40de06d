import RustUma.Service.Recovery

/-!
# What a compaction leaves to recover

The ring takes an event before the storage queue does, and the writer takes it off the queue later.
A compaction writes the ring as it is at that moment, and whatever was on its way is written once
more. Recovery counts records.
-/

namespace RustUma.Service

open RustUma.Found RustUma.Model RustUma.Hub RustUma.Pipeline RustUma.Storage

/-! ## What is asked of a run -/

def Settled (codec : Codec) (s : Server) : ServerAction → Prop
  | .process (.insert i) => ∀ r ∈ (s.proc.calls i).phase.record?, Storable codec r
  | .process (.store i) =>
    s.proc.storageTx.HasRoom ∧
      ∀ r ∈ (s.proc.calls i).phase.record?, s.proc.accepted[s.proc.stored.length]? = some r
  | .write .compact =>
    queuedEvents s.proc.storageTx.items = [] ∧ s.proc.stored = s.proc.accepted
  | .write .stop => queuedEvents s.proc.storageTx.items = []
  | _ => True

instance (codec : Codec) (s : Server) : (a : ServerAction) → Decidable (Settled codec s a)
  | .process (.insert _) => inferInstanceAs (Decidable (∀ _ ∈ _, _))
  | .process (.store _) | .write .compact => inferInstanceAs (Decidable (_ ∧ _))
  | .write .stop => inferInstanceAs (Decidable (_ = _))
  | .process (.receive ..) | .process (.contains ..) | .process (.resolve ..)
  | .process (.fetchAdd ..) | .process (.credit ..) | .process (.lookup ..) | .process (.send ..)
  | .process (.checkpoint ..) | .batch _ | .session _ | .write .recv | .write .tick | .shutdown =>
    .isTrue trivial

/-! ## Windows -/

def SameWindow (n : ℕ) (l l' : List EventRecord) : Prop :=
  (l.map EventRecord.recovered).rtake n = (l'.map EventRecord.recovered).rtake n

namespace SameWindow

variable {n : ℕ} {l l' : List EventRecord}

lemma append (h : SameWindow n l l') (m : List EventRecord) : SameWindow n (l ++ m) (l' ++ m) := by
  unfold SameWindow at h ⊢
  rw [List.map_append, List.map_append, ← rtake_append_of_rtake, h, rtake_append_of_rtake]

lemma rtake_left (n : ℕ) (l : List EventRecord) : SameWindow n (l.rtake n) l := by
  unfold SameWindow
  rw [map_rtake]
  exact rtake_of_length_le (length_rtake_le _ _)

lemma recovered_left (n : ℕ) (l : List EventRecord) :
    SameWindow n (l.map EventRecord.recovered) l := by
  unfold SameWindow
  rw [List.map_map]
  congr 1
  simp

lemma symm (h : SameWindow n l l') : SameWindow n l' l := Eq.symm h

lemma trans {l'' : List EventRecord} (h : SameWindow n l l') (h' : SameWindow n l' l'') :
    SameWindow n l l'' := Eq.trans h h'

end SameWindow

/-! ## The invariant -/

structure Mirrored (codec : Codec) (capacity : ℕ) (initial : List EventRecord) (p : Processor)
    (w : WriteLoop) : Prop where
  order : p.stored <+: p.accepted
  accepted : ∀ r ∈ initial ++ p.accepted, Storable codec r
  queued : ∀ r ∈ queuedEvents w.rx.items, Storable codec r
  journal : ∃ held, Encodes codec (w.journal.disk ++ w.journal.buffer) held ∧
    (∀ r ∈ held, Storable codec r) ∧
    SameWindow capacity (held ++ queuedEvents w.rx.items) (initial ++ p.stored)

variable {codec : Codec} {config : Config} {s s' : Server} {a : ServerAction}

namespace Mirrored

variable {capacity : ℕ} {initial : List EventRecord} {p p' : Processor} {writer : Writer}
  {w w' : WriteLoop}

lemma accept (h : Mirrored codec capacity initial p { toWriter := writer, rx := p.storageTx })
    (i : ℕ) {record : EventRecord} (hrecord : Storable codec record) :
    Mirrored codec capacity initial (p.accept i record)
      { toWriter := writer, rx := p.storageTx } where
  order := h.order.trans (List.prefix_append _ _)
  accepted := by
    intro r hr
    rw [show (p.accept i record).accepted = p.accepted ++ [record] from rfl,
      ← List.append_assoc] at hr
    rcases List.mem_append.mp hr with hr | hr
    · exact h.accepted r hr
    simp_all
  queued := h.queued
  journal := h.journal

lemma store (h : Mirrored codec capacity initial p { toWriter := writer, rx := p.storageTx })
    (i : ℕ) {record : EventRecord} (hnext : p.accepted[p.stored.length]? = some record) :
    Mirrored codec capacity initial
      { p with
        storageTx := p.storageTx.push (.event record)
        calls := p.setPhase i (.afterStore record)
        stored := p.stored ++ [record] }
      { toWriter := writer, rx := p.storageTx.push (.event record) } := by
  have hqueue : queuedEvents (p.storageTx.push (.event record)).items =
      queuedEvents p.storageTx.items ++ [record] := by
    exact List.filterMap_append
  obtain ⟨held, hbytes, hstorable, hwindow⟩ := h.journal
  refine ⟨?_, h.accepted, ?_, held, hbytes, hstorable, ?_⟩
  · obtain ⟨rest, hrest⟩ := h.order
    rw [← hrest, List.getElem?_append_right le_rfl, Nat.sub_self] at hnext
    cases rest with
    | nil => cases hnext
    | cons first rest =>
      cases hnext
      exact ⟨rest, by rw [← hrest]; simp⟩
  · intro r hr
    rw [hqueue] at hr
    rcases List.mem_append.mp hr with hr | hr
    · exact h.queued r hr
    · rw [List.mem_singleton.mp hr]
      exact h.accepted record (List.mem_append_right _ (List.mem_of_getElem? hnext))
  · rw [hqueue, ← List.append_assoc, ← List.append_assoc]
    exact hwindow.append [record]

lemma process (h : Mirrored codec capacity initial p { toWriter := writer, rx := p.storageTx })
    {b : Action} (hstep : p.Step b p')
    (haccept : ∀ i, b = .insert i → ∀ r ∈ (p.calls i).phase.record?, Storable codec r)
    (hstore : ∀ i, b = .store i → p.storageTx.HasRoom ∧
      ∀ r ∈ (p.calls i).phase.record?, p.accepted[p.stored.length]? = some r) :
    Mirrored codec capacity initial p' { toWriter := writer, rx := p'.storageTx } := by
  cases hstep with
  | accept i record hphase hkey => exact h.accept i (haccept i rfl record (by rw [hphase]; rfl))
  | store i record hphase hroom =>
    exact h.store i ((hstore i rfl).2 record (by rw [hphase]; rfl))
  | drop i record hphase hroom => simp_all
  | checkpoint block hroom =>
    have hqueue : queuedEvents (p.storageTx.push (.checkpoint block)).items =
        queuedEvents p.storageTx.items := by
      exact List.filterMap_append.trans (List.append_nil _)
    refine ⟨h.order, h.accepted, ?_, ?_⟩
    · rw [hqueue]
      exact h.queued
    · obtain ⟨held, hbytes, hstorable, hwindow⟩ := h.journal
      grind
  | _ => exact ⟨h.order, h.accepted, h.queued, h.journal⟩

lemma write (h : Mirrored codec capacity initial p w) {eventCapacity : ℕ} {shutdown : Bool}
    {snapshot : List EventRecord} {b : WriteAction}
    (hstep : WriteLoop.Step codec eventCapacity shutdown snapshot w b w')
    (hsnapshot : snapshot = (initial ++ p.accepted).rtake capacity)
    (hcompact : b = .compact → queuedEvents w.rx.items = [] ∧ p.stored = p.accepted)
    (hstop : b = .stop → queuedEvents w.rx.items = []) :
    Mirrored codec capacity initial p w' := by
  obtain ⟨held, hbytes, hstorable, hwindow⟩ := h.journal
  obtain ⟨held', hheld, ⟨moved, rfl, hmoved⟩ | ⟨rfl, rfl, hrx⟩ | ⟨rfl, rfl, hrx⟩⟩ :=
    exists_held hstep hbytes h.queued
  · rw [hmoved] at hwindow
    refine ⟨h.order, h.accepted, fun r hr => h.queued r ?_, held ++ moved, hheld, ?_, ?_⟩
    · simp_all
    · intro r hr
      rcases List.mem_append.mp hr with hr | hr
      · exact hstorable r hr
      · refine h.queued r ?_
        simp_all
    grind
  · -- nothing is on its way: the ring is the window of what the queue was given
    obtain ⟨hempty, hall⟩ := hcompact rfl
    refine ⟨h.order, h.accepted, by rw [hrx]; exact h.queued, held', hheld, ?_, ?_⟩
    · intro r hr
      rw [hsnapshot] at hr
      exact h.accepted r ((rtake_suffix _ _).subset hr)
    · rw [hrx, hempty, List.append_nil, hall, hsnapshot]
      exact SameWindow.rtake_left capacity _
  · refine ⟨h.order, h.accepted, by simp_all, held',
      hheld, hstorable, ?_⟩
    simp_all

end Mirrored

/-! ## Runs -/

structure Recoverable (codec : Codec) (config : Config) (initial : List EventRecord) (start : ℕ)
    (s : Server) : Prop where
  admission : Admission initial start s.proc
  capacity : s.proc.events.capacity = max config.eventRingCapacity 1
  mirrored : Mirrored codec (max config.eventRingCapacity 1) initial s.proc s.writeLoop

variable {initial : List EventRecord} {start : ℕ}

lemma Recoverable.ring (h : Recoverable codec config initial start s) :
    s.proc.events.events = (initial ++ s.proc.accepted).rtake (max config.eventRingCapacity 1) := by
  rw [← h.capacity]
  exact h.admission.ring

lemma Recoverable.step (h : Recoverable codec config initial start s) (hok : Settled codec s a)
    (hstep : s.step codec config a = some s') : Recoverable codec config initial start s' := by
  obtain ⟨horder, haccepted, hqueued, hjournal⟩ := h.mirrored
  cases Server.step_sound hstep with
  | process b p hproc =>
    refine ⟨h.admission.step hproc, hproc.capacity.trans h.capacity, ?_⟩
    refine h.mirrored.process hproc ?_ ?_
    · rintro i rfl r hr
      exact hok r hr
    · rintro i rfl
      exact hok
  | batch b loop hbatch =>
    exact ⟨h.admission.of_sameCore ⟨rfl, rfl, rfl, rfl, rfl, rfl⟩, h.capacity,
      ⟨horder, haccepted, hqueued, hjournal⟩⟩
  | session b session hsession => exact ⟨h.admission, h.capacity, h.mirrored⟩
  | write b w hwrite =>
    have hmirrored := h.mirrored.write hwrite h.ring (by rintro rfl; exact hok)
      (by rintro rfl; exact hok)
    exact ⟨h.admission.of_sameCore ⟨rfl, rfl, rfl, rfl, rfl, rfl⟩, h.capacity,
      ⟨hmirrored.order, hmirrored.accepted, hmirrored.queued, hmirrored.journal⟩⟩
  | shutdown => exact ⟨h.admission, h.capacity, h.mirrored⟩

variable {blockedBefore : Bytes 32 → ℕ → Bool} {wal : Option (List UInt8)} {cursorFile : Option ℕ}

lemma WholeFile.exists_held (config : Config) (hwal : WholeFile codec wal) :
    ∃ held, Encodes codec ((Journal.open_ wal).disk ++ (Journal.open_ wal).buffer) held ∧
      (∀ r ∈ held, Storable codec r) ∧
      recoverEvents codec config wal =
        (held.rtake (max config.eventRingCapacity 1)).map EventRecord.recovered := by
  have hnone : ∀ r ∈ ([] : List EventRecord), Storable codec r :=
    fun r hr => absurd hr List.not_mem_nil
  have hempty : [] = (([] : List EventRecord).rtake (max config.eventRingCapacity 1)).map
      EventRecord.recovered := by
    simp
  cases wal with
  | none => exact ⟨[], rfl, hnone, hempty⟩
  | some bytes =>
    rcases hwal with rfl | ⟨events, hevents, hbytes⟩
    · exact ⟨[], rfl, hnone, hempty⟩
    · have hopen : Journal.open_ (some bytes) = ⟨bytes, [], 0⟩ := by
        refine if_neg ?_
        rw [hbytes]
        simp [walMagic]
      refine ⟨events, ?_, hevents, recoverEvents_of_encodes config hevents hbytes⟩
      grind

lemma recoverable_boot (hwal : WholeFile codec wal)
    (hkeys : ((recoverEvents codec config wal).map EventRecord.key).Nodup) :
    Recoverable codec config (recoveredHub config (recoverEvents codec config wal)).events
      (initialSequence (recoverEvents codec config wal))
      (Server.boot codec config blockedBefore wal cursorFile) := by
  refine ⟨admission_boot, (recoveredHub_valid _ _).2, ?_⟩
  obtain ⟨held, hbytes, hstorable, hrecovered⟩ := hwal.exists_held config
  have hring : (recoveredHub config (recoverEvents codec config wal)).events =
      (held.rtake (max config.eventRingCapacity 1)).map EventRecord.recovered := by
    rw [recoveredHub_of_nodup _ hkeys, hrecovered]
    rw [hrecovered, List.length_map]
    exact length_rtake_le _ _
  refine ⟨List.prefix_rfl, ?_, fun r hr => absurd hr List.not_mem_nil, held, hbytes, hstorable, ?_⟩
  · intro r hr
    rw [show (Server.boot codec config blockedBefore wal cursorFile).proc.accepted = [] from rfl,
      List.append_nil, hring] at hr
    obtain ⟨e, he, rfl⟩ := List.mem_map.mp hr
    exact storable_recovered (hstorable e ((rtake_suffix _ _).subset he))
  · show SameWindow _ (held ++ []) (_ ++ [])
    rw [List.append_nil, List.append_nil, hring]
    exact ((SameWindow.recovered_left _ _).trans (SameWindow.rtake_left _ held)).symm

theorem compaction_preserves_recovery (codec : Codec) (config : Config)
    (blockedBefore : Bytes 32 → ℕ → Bool) (wal : Option (List UInt8)) (cursorFile : Option ℕ)
    (as : List ServerAction) (s : Server) (hwal : WholeFile codec wal)
    (hkeys : ((recoverEvents codec config wal).map EventRecord.key).Nodup)
    (hok : AllSteps (Server.step codec config) (Settled codec)
      (Server.boot codec config blockedBefore wal cursorFile) as)
    (hrun : run (Server.step codec config)
      (Server.boot codec config blockedBefore wal cursorFile) as = some s)
    (hdrained : queuedEvents s.proc.storageTx.items = [])
    (henqueued : s.proc.stored = s.proc.accepted) :
    ∃ records, loadEvents codec config.eventRingCapacity (some s.writer.journal.flush.disk) =
        .ok records ∧
      (recoveredHub config records).events = s.proc.events.events.map EventRecord.recovered := by
  have hinv := run_invariant
    (fun _ _ _ h hok hstep => h.step hok hstep) (recoverable_boot hwal hkeys) hok hrun
  obtain ⟨held, hbytes, hstorable, hwindow⟩ := hinv.mirrored.journal
  have hload := loadEvents_of_encodes_append config.eventRingCapacity [] hstorable hbytes rfl
  rw [List.append_nil] at hload
  refine ⟨_, hload, ?_⟩
  -- the window of the journal is the ring
  have hqueue : queuedEvents s.writeLoop.rx.items = [] := hdrained
  rw [hqueue, List.append_nil, henqueued] at hwindow
  have hring : s.proc.events.events.map EventRecord.recovered =
      (held.map EventRecord.recovered).rtake (max config.eventRingCapacity 1) := by
    rw [hinv.ring, map_rtake]
    exact hwindow.symm
  rw [← hring]
  refine recoveredHub_of_nodup ?_ ?_
  · rw [hring]
    exact length_rtake_le _ _
  · rw [map_key_recovered]
    exact hinv.admission.valid.nodup

def enqueued (i : ℕ) (event : UmaEvent) : List ServerAction :=
  [.process (.receive i (some event) 8 "wss[0]"), .process (.contains i),
    .process (.resolve i none), .process (.fetchAdd i), .process (.insert i),
    .process (.credit i), .process (.store i)]

def sixEvents (sixthQueued : Bool) : List ServerAction :=
  ([1, 2, 3, 4, 5] : List UInt8).zipIdx.flatMap (fun event =>
      enqueued event.2 (testUmaEvent event.1 1) ++ [.write .recv]) ++
    (if sixthQueued then enqueued 5 (testUmaEvent 6 1) ++ [.write .compact]
      else .write .compact :: enqueued 5 (testUmaEvent 6 1)) ++ [.write .recv]

def sixRecords : Codec :=
  prostCodec (([1, 2, 3, 4, 5, 6] : List UInt8).zipIdx.map fun event =>
    (buildRecord (event.2 + 1) (testUmaEvent event.1 1) none).toProto)

/-- The compaction comes before the sixth event. -/
theorem compaction_preserves_recovery_of_six :
    ∃ s records, run (Server.step sixRecords (testConfig 2))
        (Server.boot sixRecords (testConfig 2) (fun _ _ => false) none none) (sixEvents false) =
          some s ∧
      loadEvents sixRecords 2 (some s.writer.journal.flush.disk) = .ok records ∧
      (recoveredHub (testConfig 2) records).events =
        s.proc.events.events.map EventRecord.recovered := by
  have hrun : ((run (Server.step sixRecords (testConfig 2))
      (Server.boot sixRecords (testConfig 2) (fun _ _ => false) none none) (sixEvents false)).map
        fun s => (queuedEvents s.proc.storageTx.items, decide (s.proc.stored = s.proc.accepted))) =
          some ([], true) := by
    decide +kernel
  obtain ⟨s, hs, hvals⟩ := Option.map_eq_some_iff.mp hrun
  simp only [Prod.mk.injEq] at hvals
  obtain ⟨records, hload, hring⟩ := compaction_preserves_recovery sixRecords (testConfig 2)
    (fun _ _ => false) none none (sixEvents false) s trivial List.nodup_nil (by decide +kernel) hs
    hvals.1 (of_decide_eq_true hvals.2)
  exact ⟨s, records, hs, hload, hring⟩

theorem compacted_ahead_of_queue :
    ∃ s records, run (Server.step sixRecords (testConfig 2))
        (Server.boot sixRecords (testConfig 2) (fun _ _ => false) none none) (sixEvents true) =
          some s ∧
      queuedEvents s.proc.storageTx.items = [] ∧ s.proc.stored = s.proc.accepted ∧
      s.proc.events.events.map EventRecord.sequence = [5, 6] ∧
      loadEvents sixRecords 2 (some s.writer.journal.flush.disk) = .ok records ∧
      (recoveredHub (testConfig 2) records).events.map EventRecord.sequence = [6] := by
  have hrun : ((run (Server.step sixRecords (testConfig 2))
      (Server.boot sixRecords (testConfig 2) (fun _ _ => false) none none) (sixEvents true)).map
        fun s => (queuedEvents s.proc.storageTx.items, decide (s.proc.stored = s.proc.accepted),
          s.proc.events.events.map EventRecord.sequence,
          (loadEvents sixRecords 2 (some s.writer.journal.flush.disk)).toOption.map fun records =>
            (recoveredHub (testConfig 2) records).events.map EventRecord.sequence)) =
          some ([], true, [5, 6], some [6]) := by
    decide +kernel
  obtain ⟨s, hs, hvals⟩ := Option.map_eq_some_iff.mp hrun
  simp only [Prod.mk.injEq] at hvals
  obtain ⟨hqueue, hall, hring, hload⟩ := hvals
  obtain ⟨records, hrecords, hkept⟩ := Option.map_eq_some_iff.mp hload
  refine ⟨s, records, hs, hqueue, of_decide_eq_true hall, hring, ?_, hkept⟩
  cases hresult : loadEvents sixRecords 2 (some s.writer.journal.flush.disk) with
  | error e =>
    rw [hresult] at hrecords
    cases hrecords
  | ok found =>
    rw [hresult] at hrecords
    cases hrecords
    rfl

end RustUma.Service
