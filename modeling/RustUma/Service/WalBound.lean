import RustUma.Service.ExactlyOnce

/-!
# The size of the journal across restarts

The writer compacts the journal when it has counted more than twice the ring's capacity. The count
is a field of the open journal: every process starts at zero, on whatever file it finds.
-/

namespace RustUma.Service

open RustUma.Found RustUma.Model RustUma.Hub RustUma.Pipeline RustUma.Api RustUma.Storage

/-! ## Processes over one file -/

structure Boots where
  server : Server
  file : List (List UInt8)
  uncounted : ℕ

inductive BootsAction where
  | serve (a : ServerAction)
  | restart (spilled : ℕ) (blockedBefore : Bytes 32 → ℕ → Bool)

def cutPieces : ℕ → List (List UInt8) → List (List UInt8)
  | _, [] => []
  | n, piece :: rest =>
    if piece.length ≤ n then piece :: cutPieces (n - piece.length) rest
    else if n = 0 then [] else [piece.take n]

namespace Boots

def refile (codec : Codec) (s : Server) (file : List (List UInt8)) :
    ServerAction → List (List UInt8)
  | .write .recv =>
    match s.proc.storageTx.recv with
    | some (.event event, _) =>
      if maxWalRecord < (codec.encodeEvent event.toProto).length then file
      else file ++ [recordBytes codec event]
    | _ => file
  | .write .compact => s.proc.events.snapshot.map (recordBytes codec)
  | _ => file

def recount (uncounted : ℕ) : ServerAction → ℕ
  | .write .compact => 0
  | _ => uncounted

def left (s : Boots) (spilled : ℕ) : List UInt8 :=
  s.server.writer.journal.disk ++ s.server.writer.journal.buffer.take spilled

def found (s : Boots) (spilled : ℕ) : List (List UInt8) :=
  cutPieces ((s.left spilled).length - walMagic.length) s.file

def step (codec : Codec) (config : Config) (s : Boots) : BootsAction → Option Boots
  | .serve a =>
    (s.server.step codec config a).map fun server =>
      ⟨server, refile codec s.server s.file a, recount s.uncounted a⟩
  | .restart spilled blockedBefore =>
    some
      { server := Server.boot codec config blockedBefore (some (s.left spilled))
          s.server.writer.cursorFile
        file := s.found spilled
        uncounted := (s.found spilled).length }

def start (codec : Codec) (config : Config) (blockedBefore : Bytes 32 → ℕ → Bool) : Boots where
  server := Server.boot codec config blockedBefore none none
  file := []
  uncounted := 0

end Boots

def recordLimit (config : Config) : ℕ := max (2 * config.eventRingCapacity) 2

lemma compactionLimit_le (config : Config) :
    compactionLimit config.eventRingCapacity ≤ recordLimit config := by
  unfold compactionLimit recordLimit
  omega

def StartsEmpty (s : Boots) : BootsAction → Prop
  | .restart spilled _ => s.found spilled = []
  | .serve _ => True

instance (s : Boots) (a : BootsAction) : Decidable (StartsEmpty s a) := by
  cases a <;> unfold StartsEmpty <;> infer_instance

def takesEvent (s : Boots) : BootsAction → Bool
  | .serve (.write .recv) =>
    match s.server.proc.storageTx.recv with
    | some (.event _, _) => true
    | _ => false
  | _ => false

def eventsTaken (codec : Codec) (config : Config) : Boots → List BootsAction → ℕ
  | _, [] => 0
  | s, a :: as =>
    (takesEvent s a).toNat + match s.step codec config a with
      | some s' => eventsTaken codec config s' as
      | none => 0

/-! ## The pieces of a file -/

lemma cutPieces_length_le (n : ℕ) (pieces : List (List UInt8)) :
    (cutPieces n pieces).length ≤ pieces.length := by
  induction pieces generalizing n with
  | nil => exact le_rfl
  | cons piece rest ih =>
    unfold cutPieces
    grind

lemma flatten_cutPieces (n : ℕ) (pieces : List (List UInt8)) :
    (cutPieces n pieces).flatten = pieces.flatten.take n := by
  induction pieces generalizing n with
  | nil => simp [cutPieces]
  | cons piece rest ih =>
    unfold cutPieces
    rw [List.flatten_cons, List.take_append]
    split_ifs with hfits hzero
    · simp_all
    · simp [hzero]
    · have hpast : n - piece.length = 0 := by omega
      simp [hpast]

/-! ## The invariant -/

structure Sized (config : Config) (w : Writer) (file : List (List UInt8)) (uncounted : ℕ) :
    Prop where
  bytes : w.journal.disk ++ w.journal.buffer = walMagic ++ file.flatten
  opened : walMagic.length ≤ w.journal.disk.length
  total : file.length = w.journal.records + uncounted
  counted : w.journal.records ≤ recordLimit config + 1
  due : w.phase = .compacting → compactionLimit config.eventRingCapacity < w.journal.records
  running : w.phase ≠ .compacting → w.journal.records ≤ recordLimit config

structure RingFits (config : Config) (hub : EventHub) : Prop where
  capacity : hub.capacity = max config.eventRingCapacity 1
  length_le : hub.events.length ≤ hub.capacity

variable {codec : Codec} {config : Config}

lemma ringFits_boot (blockedBefore : Bytes 32 → ℕ → Bool) (wal : Option (List UInt8))
    (cursorFile : Option ℕ) :
    RingFits config (Server.boot codec config blockedBefore wal cursorFile).proc.events := by
  obtain ⟨hvalid, hcapacity⟩ := recoveredHub_valid config (recoverEvents codec config wal)
  exact ⟨hcapacity, hvalid.length_le⟩

lemma ring_length_le {p p' : Processor} {a : Action} (h : p.Step a p')
    (hle : p.events.events.length ≤ p.events.capacity) :
    p'.events.events.length ≤ p'.events.capacity := by
  cases h with
  | accept i record hphase hkey => exact length_rtake_le _ _
  | _ => exact hle

lemma RingFits.step {s s' : Server} {a : ServerAction} (h : RingFits config s.proc.events)
    (hstep : s.Step codec config a s') : RingFits config s'.proc.events := by
  rcases hstep.core with ⟨b, -, hproc⟩ | hcore
  · exact ⟨hproc.capacity.trans h.capacity, ring_length_le hproc h.length_le⟩
  · rw [hcore.events]
    exact h

variable {file : List (List UInt8)} {uncounted : ℕ}

lemma sized_start {wal : List UInt8} (cursorFile : Option ℕ)
    (hwal : wal = walMagic ++ file.flatten) :
    Sized config (Writer.start (some wal) cursorFile) file file.length := by
  have hlength : wal.length ≠ 0 := by
    rw [hwal]
    simp [walMagic]
  have hopen : Journal.open_ (some wal) = ⟨wal, [], 0⟩ := by
    show (if wal.length = 0 then _ else _) = _
    rw [if_neg hlength]
  refine ⟨?_, ?_, ?_, ?_, (fun hphase => by cases hphase), fun _ => ?_⟩
  · show (Journal.open_ (some wal)).disk ++ (Journal.open_ (some wal)).buffer = _
    simp_all
  · show walMagic.length ≤ (Journal.open_ (some wal)).disk.length
    simp_all
  · show file.length = (Journal.open_ (some wal)).records + file.length
    rw [hopen, Nat.zero_add]
  · show (Journal.open_ (some wal)).records ≤ _
    simp_all
  · show (Journal.open_ (some wal)).records ≤ _
    simp_all

lemma Sized.left_eq {w : Writer} (h : Sized config w file uncounted) (spilled : ℕ) :
    w.journal.disk ++ w.journal.buffer.take spilled = walMagic ++
      (cutPieces ((w.journal.disk ++ w.journal.buffer.take spilled).length - walMagic.length)
        file).flatten := by
  set wal := w.journal.disk ++ w.journal.buffer.take spilled with hwal
  have hlong : walMagic.length ≤ wal.length := by
    rw [List.length_append]
    exact h.opened.trans (Nat.le_add_right _ _)
  have hcut : wal = (walMagic ++ file.flatten).take wal.length := by
    rw [← List.prefix_iff_eq_take, ← h.bytes, List.prefix_append_right_inj]
    grind
  rw [flatten_cutPieces]
  conv_lhs => rw [hcut]
  rw [List.take_append, List.take_of_length_le hlong]

lemma Sized.append {w : Writer} (h : Sized config w file uncounted) (hphase : w.phase = .running)
    (event : EventRecord) :
    Sized config
      { w with
        journal := w.appended codec event
        phase := if compactionLimit config.eventRingCapacity < (w.appended codec event).records then
          .compacting else .running }
      (if maxWalRecord < (codec.encodeEvent event.toProto).length then file
        else file ++ [recordBytes codec event]) uncounted := by
  have hrecords : w.journal.records ≤ recordLimit config := h.running (by rw [hphase]; decide)
  have hlimit := compactionLimit_le config
  by_cases hlarge : maxWalRecord < (codec.encodeEvent event.toProto).length
  · -- the event is refused, and the journal is as it was
    have happended : w.appended codec event = w.journal := by
      unfold Writer.appended Journal.append
      rw [if_pos hlarge]
    rw [if_pos hlarge, happended]
    exact ⟨h.bytes, h.opened, h.total, h.counted, by grind, fun _ => hrecords⟩
  · have happended : w.appended codec event =
        { w.journal with
          buffer := w.journal.buffer ++ recordBytes codec event
          records := w.journal.records + 1 } := by
      unfold Writer.appended Journal.append
      rw [if_neg hlarge]
    rw [if_neg hlarge, happended]
    refine ⟨?_, h.opened, ?_, Nat.succ_le_succ hrecords, by grind, ?_⟩
    · rw [← List.append_assoc, h.bytes]
      simp
    · show (file ++ [recordBytes codec event]).length = w.journal.records + 1 + uncounted
      have htotal := h.total
      grind
    grind

lemma Sized.write {s : Server} {w : WriteLoop} {a : WriteAction}
    (h : Sized config s.writer file uncounted) (hring : RingFits config s.proc.events)
    (hstep : s.writeLoop.Step codec config.eventRingCapacity s.shutdown s.proc.events.snapshot a w)
    :
    Sized config w.toWriter (Boots.refile codec s file (.write a))
      (Boots.recount uncounted (.write a)) := by
  cases hstep with
  | event event rx hphase hrecv =>
    have hqueue : s.proc.storageTx.recv = some (.event event, rx) := hrecv
    simp only [Boots.refile, hqueue]
    exact h.append hphase event
  | checkpoint block rx hphase hrecv =>
    have hqueue : s.proc.storageTx.recv = some (.checkpoint block, rx) := hrecv
    simp only [Boots.refile, hqueue]
    exact ⟨h.bytes, h.opened, h.total, h.counted, h.due, h.running⟩
  | compact hphase =>
    have hfits : s.proc.events.events.length ≤ recordLimit config := by
      refine hring.length_le.trans ?_
      rw [hring.capacity]
      unfold recordLimit
      omega
    refine ⟨?_, ?_, ?_, hfits.trans (Nat.le_succ _), nofun, fun _ => hfits⟩
    · show walMagic ++ s.proc.events.events.flatMap (recordBytes codec) ++ [] =
        walMagic ++ (s.proc.events.events.map (recordBytes codec)).flatten
      grind
    · show walMagic.length ≤ (walMagic ++ _).length
      simp
    · show (s.proc.events.events.map (recordBytes codec)).length = s.proc.events.events.length + 0
      simp
  | tick hphase | stop hphase hshutdown =>
    have hrunning : s.writer.phase = .running := hphase
    refine ⟨?_, ?_, h.total, h.counted, by grind [Writer.persist],
      fun _ => h.running (by rw [hrunning]; decide)⟩
    · show s.writer.journal.disk ++ s.writer.journal.buffer ++ [] = _
      rw [List.append_nil]
      exact h.bytes
    · show walMagic.length ≤ (s.writer.journal.disk ++ s.writer.journal.buffer).length
      rw [List.length_append]
      exact h.opened.trans (Nat.le_add_right _ _)

structure Accounted (config : Config) (s : Boots) : Prop where
  sized : Sized config s.server.writer s.file s.uncounted
  ring : RingFits config s.server.proc.events

variable {s s' : Boots} {a : BootsAction}

lemma Accounted.step (h : Accounted config s) (hstep : s.step codec config a = some s') :
    Accounted config s' := by
  cases a with
  | serve b =>
    obtain ⟨server, hserver, rfl⟩ := Option.map_eq_some_iff.mp hstep
    have hsound := Server.step_sound hserver
    refine ⟨?_, h.ring.step hsound⟩
    cases hsound with
    | write b w hwrite => exact h.sized.write h.ring hwrite
    | process | batch | session | shutdown => exact h.sized
  | restart spilled blockedBefore =>
    cases hstep
    exact ⟨sized_start _ (h.sized.left_eq spilled), ringFits_boot _ _ _⟩

lemma accounted_start (blockedBefore : Bytes 32 → ℕ → Bool) :
    Accounted config (Boots.start codec config blockedBefore) where
  sized := ⟨rfl, le_rfl, rfl, Nat.zero_le _, nofun, fun _ => Nat.zero_le _⟩
  ring := ringFits_boot _ _ _

lemma Accounted.length_le (h : Accounted config s) (hcap : config.eventRingCapacity < 2 ^ 64)
    (hstep : s.step codec config a = some s') :
    s'.file.length ≤ s.file.length + (takesEvent s a).toNat := by
  cases a with
  | restart spilled blockedBefore =>
    cases hstep
    exact (cutPieces_length_le _ _).trans (Nat.le_add_right _ _)
  | serve b =>
    obtain ⟨server, hserver, rfl⟩ := Option.map_eq_some_iff.mp hstep
    cases Server.step_sound hserver with
    | process | batch | session | shutdown => exact Nat.le_add_right _ _
    | write b w hwrite =>
      cases hwrite with
      | tick | stop => exact Nat.le_add_right _ _
      | compact hphase =>
        have hdue := h.sized.due hphase
        have htotal := h.sized.total
        have hring := h.ring.length_le
        rw [h.ring.capacity] at hring
        have hlength : (Boots.refile codec s.server s.file (.write .compact)).length =
            s.server.proc.events.events.length := List.length_map _
        rw [hlength]
        unfold compactionLimit at hdue
        omega
      | event event rx hphase hrecv =>
        have hqueue : s.server.proc.storageTx.recv = some (.event event, rx) := hrecv
        simp only [Boots.refile, takesEvent, hqueue]
        split_ifs <;> simp
      | checkpoint block rx hphase hrecv =>
        have hqueue : s.server.proc.storageTx.recv = some (.checkpoint block, rx) := hrecv
        simp [Boots.refile, hqueue]

lemma Accounted.run_length_le {as : List BootsAction} (h : Accounted config s)
    (hcap : config.eventRingCapacity < 2 ^ 64)
    (hrun : run (Boots.step codec config) s as = some s') :
    s'.file.length ≤ s.file.length + eventsTaken codec config s as := by
  induction as generalizing s with
  | nil =>
    cases hrun
    exact Nat.le_add_right _ _
  | cons a as ih =>
    obtain ⟨s₁, hstep, hrest⟩ := Option.bind_eq_some_iff.mp hrun
    have hfirst := h.length_le hcap hstep
    have hlater := ih (h.step hstep) hrest
    simp only [eventsTaken, hstep]
    omega

lemma uncounted_step (h : s.uncounted = 0) (hok : StartsEmpty s a)
    (hstep : s.step codec config a = some s') : s'.uncounted = 0 := by
  cases a with
  | restart spilled blockedBefore =>
    cases hstep
    exact congrArg List.length hok
  | serve b =>
    obtain ⟨server, -, rfl⟩ := Option.map_eq_some_iff.mp hstep
    show Boots.recount s.uncounted b = 0
    unfold Boots.recount
    split
    · rfl
    · exact h

theorem wal_bounded (codec : Codec) (config : Config) (blockedBefore : Bytes 32 → ℕ → Bool)
    (as bs : List BootsAction) (s t : Boots)
    (hs : run (Boots.step codec config) (Boots.start codec config blockedBefore) as = some s)
    (ht : run (Boots.step codec config) s bs = some t) :
    t.server.writer.journal.disk ++ t.server.writer.journal.buffer = walMagic ++ t.file.flatten ∧
    t.file.length = t.server.writer.journal.records + t.uncounted ∧
    t.server.writer.journal.records ≤ max (2 * config.eventRingCapacity) 2 + 1 ∧
    (AllSteps (Boots.step codec config) StartsEmpty (Boots.start codec config blockedBefore) as →
      s.file.length ≤ max (2 * config.eventRingCapacity) 2 + 1 ∧
      (config.eventRingCapacity < 2 ^ 64 →
        s.file.length + eventsTaken codec config s bs ≤
          max (2 * config.eventRingCapacity) 2 + 1 →
        t.file.length ≤ max (2 * config.eventRingCapacity) 2 + 1)) := by
  have haccounted : Accounted config s :=
    run_invariant_of_step (fun _ _ _ h hstep => h.step hstep) (accounted_start _) hs
  have hlater : Accounted config t :=
    run_invariant_of_step (fun _ _ _ h hstep => h.step hstep) haccounted ht
  refine ⟨hlater.sized.bytes, hlater.sized.total, hlater.sized.counted, fun hok => ⟨?_, ?_⟩⟩
  · have hzero : s.uncounted = 0 :=
      run_invariant (I := fun s : Boots => s.uncounted = 0)
        (fun _ _ _ h hok hstep => uncounted_step h hok hstep) rfl hok hs
    rw [haccounted.sized.total, hzero]
    exact haccounted.sized.counted
  · intro hcap hfew
    exact (haccounted.run_length_le hcap ht).trans hfew

def journalled (i : ℕ) (event : UmaEvent) : List BootsAction :=
  ([.process (.receive i (some event) 8 "wss[0]"), .process (.contains i),
    .process (.resolve i none), .process (.fetchAdd i), .process (.insert i),
    .process (.credit i), .process (.store i), .write .recv] : List ServerAction).map .serve

def firstLife : List BootsAction :=
  journalled 0 (testUmaEvent 1 1) ++ journalled 1 (testUmaEvent 2 1) ++
    journalled 2 (testUmaEvent 3 1) ++ [.serve (.write .compact)]

def secondLife : List BootsAction :=
  .serve (.write .tick) :: (.restart 0 fun _ _ => false) :: journalled 0 (testUmaEvent 4 1) ++
    journalled 1 (testUmaEvent 5 1)

theorem wal_bounded_of_compaction :
    ∃ s t, run (Boots.step (prostCodec []) (testConfig 1))
        (Boots.start (prostCodec []) (testConfig 1) fun _ _ => false) firstLife = some s ∧
      run (Boots.step (prostCodec []) (testConfig 1)) s secondLife = some t ∧
      t.uncounted = 1 ∧ t.file.length ≤ max (2 * 1) 2 + 1 := by
  have hvals : ((run (Boots.step (prostCodec []) (testConfig 1))
      (Boots.start (prostCodec []) (testConfig 1) fun _ _ => false) firstLife).bind fun s =>
      (run (Boots.step (prostCodec []) (testConfig 1)) s secondLife).map fun t =>
        (t.uncounted, decide (s.file.length +
          eventsTaken (prostCodec []) (testConfig 1) s secondLife ≤ 3))) = some (1, true) := by
    decide +kernel
  obtain ⟨s, hs, hvals⟩ := Option.bind_eq_some_iff.mp hvals
  obtain ⟨t, ht, hvals⟩ := Option.map_eq_some_iff.mp hvals
  simp only [Prod.mk.injEq, decide_eq_true_eq] at hvals
  obtain ⟨-, -, -, hbound⟩ :=
    wal_bounded (prostCodec []) (testConfig 1) (fun _ _ => false) _ _ s t hs ht
  exact ⟨s, t, hs, ht, hvals.1, (hbound (by decide +kernel)).2 (by decide) hvals.2⟩

/-- **The journal grows over restarts.** With a ring of one event the limit is two records, and
three in the file is the most there should be. Two processes that end after two events each leave
four. -/
theorem wal_grows_over_restarts :
    ∃ s, run (Boots.step (prostCodec []) (testConfig 1))
        (Boots.start (prostCodec []) (testConfig 1) fun _ _ => false)
        (journalled 0 (testUmaEvent 1 1) ++ journalled 1 (testUmaEvent 2 1) ++
          [.serve (.write .tick), .restart 0 fun _ _ => false] ++
          journalled 0 (testUmaEvent 3 1) ++ journalled 1 (testUmaEvent 4 1)) = some s ∧
      s.file.length = 4 ∧ s.server.writer.journal.records = 2 ∧
      s.server.writer.phase = .running :=
  exists_some_of_any (by decide +kernel)

end RustUma.Service
