import RustUma.Service.Machine
import RustUma.Pipeline.Admission
import RustUma.Model.Protobuf

/-!
# Exactly-once admission

In every state the service can reach, under any interleaving of its parts.
-/

namespace RustUma.Service

open RustUma.Found RustUma.Model RustUma.Hub RustUma.Pipeline RustUma.Api RustUma.Storage

/-! ## Boot -/

lemma recoveredHub_concat (config : Config) (recovered : List EventRecord) (event : EventRecord) :
    recoveredHub config (recovered ++ [event]) =
      ((recoveredHub config recovered).insert event).1 := by
  unfold recoveredHub
  simp

lemma recoveredHub_valid (config : Config) (recovered : List EventRecord) :
    (recoveredHub config recovered).Valid ∧
      (recoveredHub config recovered).capacity = max config.eventRingCapacity 1 := by
  induction recovered using List.reverseRecOn with
  | nil => exact ⟨EventHub.new_valid _, rfl⟩
  | append_singleton recovered event ih =>
    rw [recoveredHub_concat]
    refine ⟨ih.1.insert event, ?_⟩
    simp_all

lemma recoveredHub_sublist (config : Config) (recovered : List EventRecord) :
    (recoveredHub config recovered).events.Sublist recovered := by
  induction recovered using List.reverseRecOn with
  | nil => rfl
  | append_singleton recovered event ih =>
    rw [recoveredHub_concat]
    by_cases hmem : event.key ∈ (recoveredHub config recovered).keys
    · rw [EventHub.insert_of_mem hmem]
      simp_all
    · rw [EventHub.insert_of_notMem hmem]
      exact (rtake_suffix _ _).sublist.trans (ih.append (List.Sublist.refl [event]))

lemma le_initialSequence (recovered : List EventRecord) :
    ∀ e ∈ recovered, e.sequence ≤ initialSequence recovered := by
  unfold initialSequence
  induction recovered using List.reverseRecOn with
  | nil => simp
  | append_singleton recovered event ih =>
    grind

variable {codec : Codec} {config : Config} {blockedBefore : Bytes 32 → ℕ → Bool}
  {wal : Option (List UInt8)} {cursorFile : Option ℕ}

lemma separated_of_nodup {capacity : ℕ} {ring : List EventRecord}
    (h : (ring.map EventRecord.key).Nodup) : Separated capacity ring := by
  rintro a r b r' c rfl hkey
  grind

lemma admission_boot :
    Admission (recoveredHub config (recoverEvents codec config wal)).events
      (initialSequence (recoverEvents codec config wal))
      (Server.boot codec config blockedBefore wal cursorFile).proc := by
  have hvalid := (recoveredHub_valid config (recoverEvents codec config wal)).1
  refine
    { valid := hvalid
      ring := ?_
      separated := ?_
      fresh := fun r hr => absurd hr List.not_mem_nil
      distinct := List.nodup_nil
      started := le_rfl
      owner := fun i j r r' hi => by cases hi
      calls := fun i => trivial
      stored_sub := fun r hr => absurd hr List.not_mem_nil
      stored_nodup := List.nodup_nil
      sent_sub := fun r hr => absurd hr List.not_mem_nil
      sent_nodup := List.nodup_nil }
  · show _ = (_ ++ []).rtake _
    rw [List.append_nil]
    exact (rtake_of_length_le hvalid.length_le).symm
  · show Separated _ (_ ++ [])
    rw [List.append_nil]
    exact separated_of_nodup hvalid.nodup

lemma admission_run {as : List ServerAction} {s : Server}
    (hrun : run (Server.step codec config) (Server.boot codec config blockedBefore wal cursorFile)
      as = some s) :
    Admission (recoveredHub config (recoverEvents codec config wal)).events
        (initialSequence (recoverEvents codec config wal)) s.proc ∧
      s.proc.events.capacity = max config.eventRingCapacity 1 := by
  refine run_invariant_of_step (I := fun s : Server =>
    Admission (recoveredHub config (recoverEvents codec config wal)).events
        (initialSequence (recoverEvents codec config wal)) s.proc ∧
      s.proc.events.capacity = max config.eventRingCapacity 1) ?_ ?_ hrun
  · rintro s a s' ⟨hinv, hcap⟩ hstep
    rcases (Server.step_sound hstep).core with ⟨b, -, hproc⟩ | hcore
    · exact ⟨hinv.step hproc, hproc.capacity.trans hcap⟩
    · refine ⟨hinv.of_sameCore hcore, ?_⟩
      rw [hcore.events]
      exact hcap
  · exact ⟨admission_boot, (recoveredHub_valid _ _).2⟩

/-! ## Exactly once -/

theorem admission_exactly_once (codec : Codec) (config : Config)
    (blockedBefore : Bytes 32 → ℕ → Bool) (wal : Option (List UInt8)) (cursorFile : Option ℕ)
    (as : List ServerAction) (s : Server)
    (hrun : run (Server.step codec config) (Server.boot codec config blockedBefore wal cursorFile)
      as = some s) :
    let capacity := max config.eventRingCapacity 1
    let recovered := recoverEvents codec config wal
    let history := (recoveredHub config recovered).events ++ s.proc.accepted
    s.proc.events.keys = (s.proc.events.events.map EventRecord.key).toFinset ∧
    (s.proc.events.events.map EventRecord.key).Nodup ∧
    s.proc.events.events.length ≤ capacity ∧
    s.proc.events.events = history.rtake capacity ∧
    (s.proc.stored.Nodup ∧ ∀ r ∈ s.proc.stored, r ∈ s.proc.accepted) ∧
    (s.proc.sent.Nodup ∧ ∀ r ∈ s.proc.sent, r ∈ s.proc.accepted) ∧
    Separated capacity history ∧
    (s.proc.accepted.map EventRecord.sequence).Nodup ∧
    ∀ r ∈ s.proc.accepted, ∀ e ∈ recovered, e.sequence < r.sequence := by
  intro capacity recovered history
  obtain ⟨hinv, hcap⟩ := admission_run hrun
  have hring := hinv.ring
  have hlength := hinv.valid.length_le
  have hseparated := hinv.separated
  rw [hcap] at hring hlength hseparated
  refine ⟨hinv.valid.keys_eq, hinv.valid.nodup, hlength, hring,
    ⟨hinv.stored_nodup, hinv.stored_sub⟩, ⟨hinv.sent_nodup, hinv.sent_sub⟩, hseparated,
    hinv.distinct, ?_⟩
  intro r hr e he
  exact lt_of_le_of_lt (le_initialSequence recovered e he) (hinv.fresh r hr).1

/-! ## Two runs -/

def testMarket : MarketEnrichment where
  marketId := 1
  conditionId := Bytes.fill 32 9
  tokenIds := [Bytes.fill 32 1, Bytes.fill 32 2]
  tagIds := []
  category := .unspecified
  betType := .unspecified
  negRisk := false

def testConfig (capacity : ℕ) : Config where
  eventRingCapacity := capacity
  frameRingCapacity := 8
  liveBuffer := 4
  batch := ⟨4, 4096, ⟨4096, 4096⟩⟩

def callUpToSend (i : ℕ) (event : UmaEvent) : List ServerAction :=
  [.process (.receive i (some event) event.chain.upstreamReceivedAtUs "wss[0]"),
    .process (.contains i), .process (.resolve i (some testMarket)), .process (.fetchAdd i),
    .process (.insert i), .process (.credit i), .process (.store i), .process (.lookup i none)]

def firstRecord : EventRecord := buildRecord 1 (testUmaEvent 1 1) (some testMarket)

/-- Two calls with one event: the second loses, and the event is accepted and handed over once. -/
theorem admission_exactly_once_of_race :
    ∃ s, run (Server.step (prostCodec []) (testConfig 1))
        (Server.boot (prostCodec []) (testConfig 1) (fun _ _ => false) none none)
        (callUpToSend 0 (testUmaEvent 1 1) ++ [.process (.send 0),
          .process (.receive 1 (some (testUmaEvent 1 1)) 9 "wss[1]"), .process (.contains 1)]) =
          some s ∧
      s.proc.accepted.length = 1 ∧ s.proc.sent.length = 1 ∧ s.proc.sent.Nodup := by
  refine exists_some_imp (P := fun s => s.proc.accepted.length = 1 ∧ s.proc.sent.length = 1)
    (by decide +kernel) ?_
  rintro s hrun ⟨hacc, hsent⟩
  have hmain := admission_exactly_once _ _ _ _ _ _ s hrun
  exact ⟨hacc, hsent, hmain.2.2.2.2.2.1.1⟩

theorem handed_twice_between_acceptances :
    ∃ as s₁ s₂ r r',
      run (Server.step (prostCodec []) (testConfig 1))
        (Server.boot (prostCodec []) (testConfig 1) (fun _ _ => false) none none) as = some s₁ ∧
      run (Server.step (prostCodec []) (testConfig 1)) s₁
        [.process (.send 2), .process (.send 0)] = some s₂ ∧
      s₂.proc.accepted = s₁.proc.accepted ∧ s₂.proc.sent = s₁.proc.sent ++ [r, r'] ∧
      r.key = r'.key := by
  let as := callUpToSend 0 (testUmaEvent 1 1) ++ callUpToSend 1 (testUmaEvent 2 1) ++
    callUpToSend 2 (testUmaEvent 1 1)
  let record (sequence : ℕ) (byte : UInt8) := buildRecord sequence (testUmaEvent byte 1)
    (some testMarket)
  let boot := Server.boot (prostCodec []) (testConfig 1) (fun _ _ => false) none none
  have hfirst : ((run (Server.step (prostCodec []) (testConfig 1)) boot as).map
      fun s => (s.proc.accepted, s.proc.sent)) =
        some ([record 1 1, record 2 2, record 3 1], []) := by
    decide +kernel
  have hboth : ((run (Server.step (prostCodec []) (testConfig 1)) boot
      (as ++ [.process (.send 2), .process (.send 0)])).map
      fun s => (s.proc.accepted, s.proc.sent)) =
        some ([record 1 1, record 2 2, record 3 1], [record 3 1, record 1 1]) := by
    decide +kernel
  obtain ⟨s₂, hrun₂, hs₂⟩ := Option.map_eq_some_iff.mp hboth
  obtain ⟨s₁, hrun₁, hrest⟩ := run_append_eq_some.mp hrun₂
  rw [hrun₁] at hfirst
  obtain ⟨hacc₁, hsent₁⟩ := Prod.mk.inj (Option.some.inj hfirst)
  obtain ⟨hacc₂, hsent₂⟩ := Prod.mk.inj hs₂
  refine ⟨as, s₁, s₂, record 3 1, record 1 1, hrun₁, hrest, ?_, ?_, rfl⟩
  · simp_all
  simp_all

end RustUma.Service
