import RustUma.Found.Run
import RustUma.Found.Channel
import RustUma.Hub.EventHub
import Mathlib.Logic.Function.Basic

/-!
# Concurrent `process` calls (`src/pipeline.rs` `Processor`)

Any number of racers, the start-up backfill and the gap fills call `Processor::process` at the same
time. A call is a small state machine (`Phase`); its atomic steps are the places where it touches
shared state: the membership test, the catalog, the sequence counter, the ring, the counters, the
storage queue, the blocklist and the batch channel.

The catalog row a call finds and the blocklist's answer are inputs of the steps that ask for them.
-/

namespace RustUma.Pipeline

open RustUma.Found RustUma.Model RustUma.Hub

/-! ## Counters -/

structure SourceRaceStats where
  received : ℕ
  won : ℕ
  deriving DecidableEq

structure Stats where
  rpcLogsReceived : ℕ := 0
  eventsDecoded : ℕ := 0
  decodeErrors : ℕ := 0
  duplicates : ℕ := 0
  enrichmentHits : ℕ := 0
  enrichmentHitsViaMarketId : ℕ := 0
  enrichmentMisses : ℕ := 0
  enrichmentRecentHits : ℕ := 0
  enrichmentRecentTotal : ℕ := 0
  lastUpstreamReceivedAtUs : ℕ := 0
  storageQueueDropped : ℕ := 0
  latestBlock : ℕ := 0
  sourceRace : List (String × SourceRaceStats) := []
  deriving DecidableEq

def recordRace (source : String) (won : Bool) :
    List (String × SourceRaceStats) → List (String × SourceRaceStats)
  | [] => [(source, ⟨1, if won then 1 else 0⟩)]
  | (name, entry) :: rest =>
    if name = source then
      (name, ⟨entry.received + 1, if won then entry.won + 1 else entry.won⟩) :: rest
    else (name, entry) :: recordRace source won rest

namespace Stats

def recordSourceRace (s : Stats) (source : String) (won : Bool) : Stats :=
  { s with sourceRace := recordRace source won s.sourceRace }

def logReceived (s : Stats) (receivedAtUs : ℕ) : Stats :=
  { s with rpcLogsReceived := s.rpcLogsReceived + 1, lastUpstreamReceivedAtUs := receivedAtUs }

def decodeError (s : Stats) : Stats := { s with decodeErrors := s.decodeErrors + 1 }

def duplicate (s : Stats) (source : String) : Stats :=
  { s with duplicates := s.duplicates + 1 }.recordSourceRace source false

def admitted (s : Stats) (source : String) (blockNumber : ℕ) : Stats :=
  { s.recordSourceRace source true with
    eventsDecoded := s.eventsDecoded + 1
    latestBlock := max s.latestBlock blockNumber }

def queueDropped (s : Stats) : Stats := { s with storageQueueDropped := s.storageQueueDropped + 1 }

def enrichment (s : Stats) (hit viaMarketId : Bool) : Stats :=
  if hit then
    { s with
      enrichmentHits := s.enrichmentHits + 1
      enrichmentHitsViaMarketId :=
        if viaMarketId then s.enrichmentHitsViaMarketId + 1 else s.enrichmentHitsViaMarketId }
  else { s with enrichmentMisses := s.enrichmentMisses + 1 }

end Stats

def recentEnrichmentWindow : ℕ := 1000

def recordRecentEnrichment (window : List Bool) (stats : Stats) (hit : Bool) :
    List Bool × Stats :=
  let pushed := window ++ [hit]
  let hits := if hit then stats.enrichmentRecentHits + 1 else stats.enrichmentRecentHits
  if recentEnrichmentWindow < pushed.length then
    (pushed.tail,
      { stats with
        enrichmentRecentHits := if pushed.head? = some true then hits - 1 else hits
        enrichmentRecentTotal := pushed.tail.length })
  else
    (pushed,
      { stats with enrichmentRecentHits := hits, enrichmentRecentTotal := pushed.length })

/-! ## Calls -/

inductive StorageCommand where
  | event (record : EventRecord)
  | checkpoint (block : ℕ)
  deriving DecidableEq

inductive Phase where
  | idle
  | decoded (event : UmaEvent)
  | fresh (event : UmaEvent)
  | resolved (event : UmaEvent) (enrichment : Option MarketEnrichment)
  | sequenced (record : EventRecord)
  | inserted (record : EventRecord)
  | admitted (record : EventRecord)
  | stored (record : EventRecord)
  | unblocked (record : EventRecord)
  | done
  deriving DecidableEq

structure Call where
  source : String
  phase : Phase
  deriving DecidableEq

def buildRecord (sequence : ℕ) (event : UmaEvent) (enrichment : Option MarketEnrichment) :
    EventRecord where
  sequence := sequence
  event := event
  enrichment := enrichment
  priceOutcome := match event.kind with
    | .propose => PriceOutcome.fromProposePrice event.request.proposedPrice
    | .dispute => .unspecified

def Phase.afterStore (record : EventRecord) : Phase :=
  if record.enrichment.isSome then .stored record else .done

inductive Action where
  /-- A call starts: `decoded` is the outcome of `decode_signal_log`. -/
  | receive (i : ℕ) (decoded : Option UmaEvent) (receivedAtUs : ℕ) (source : String)
  | contains (i : ℕ)
  /-- The catalog answers with `row`. -/
  | resolve (i : ℕ) (row : Option MarketEnrichment)
  | fetchAdd (i : ℕ)
  | insert (i : ℕ)
  | credit (i : ℕ)
  | store (i : ℕ)
  /-- The blocklist answers with `blocked`, the match that holds the event back. -/
  | lookup (i : ℕ) (blocked : Option ℕ)
  | send (i : ℕ)
  | checkpoint (block : ℕ)
  deriving DecidableEq

def Action.call? : Action → Option ℕ
  | .receive i _ _ _ => some i
  | .contains i => some i
  | .resolve i _ => some i
  | .fetchAdd i => some i
  | .insert i => some i
  | .credit i => some i
  | .store i => some i
  | .lookup i _ => some i
  | .send i => some i
  | .checkpoint _ => none

structure Processor where
  events : EventHub
  sequence : ℕ
  recentEnrichment : List Bool
  stats : Stats
  batchTx : Channel EventRecord
  storageTx : Channel StorageCommand
  calls : ℕ → Call
  accepted : List EventRecord
  stored : List EventRecord
  sent : List EventRecord

namespace Processor

def new (events : EventHub) (batchCapacity storageCapacity : ℕ) (stats : Stats)
    (initialSequence : ℕ) : Processor where
  events := events
  sequence := initialSequence
  recentEnrichment := []
  stats := stats
  batchTx := Channel.new batchCapacity
  storageTx := Channel.new storageCapacity
  calls := fun _ => ⟨"", .idle⟩
  accepted := []
  stored := []
  sent := []

def setPhase (p : Processor) (i : ℕ) (phase : Phase) : ℕ → Call :=
  Function.update p.calls i { p.calls i with phase := phase }

def receive (p : Processor) (i : ℕ) (decoded : Option UmaEvent) (receivedAtUs : ℕ)
    (source : String) : Processor :=
  match decoded with
  | none =>
    { p with
      stats := (p.stats.logReceived receivedAtUs).decodeError
      calls := Function.update p.calls i ⟨source, .done⟩ }
  | some event =>
    { p with
      stats := p.stats.logReceived receivedAtUs
      calls := Function.update p.calls i ⟨source, .decoded event⟩ }

def duplicate (p : Processor) (i : ℕ) : Processor :=
  { p with
    stats := p.stats.duplicate (p.calls i).source
    calls := p.setPhase i .done }

def resolve (p : Processor) (i : ℕ) (event : UmaEvent) (row : Option MarketEnrichment) :
    Processor :=
  let recent := recordRecentEnrichment p.recentEnrichment p.stats row.isSome
  { p with
    recentEnrichment := recent.1
    stats := recent.2.enrichment row.isSome event.request.ancillary.marketId.isSome
    calls := p.setPhase i (.resolved event row) }

def accept (p : Processor) (i : ℕ) (record : EventRecord) : Processor :=
  { p with
    events := p.events.pushed record
    calls := p.setPhase i (.inserted record)
    accepted := p.accepted ++ [record] }

def checkpoint (p : Processor) (block : ℕ) : Processor :=
  match p.storageTx.trySend (.checkpoint block) with
  | some tx => { p with storageTx := tx }
  | none => { p with stats := p.stats.queueDropped }

def step (p : Processor) : Action → Option Processor
  | .receive i decoded receivedAtUs source =>
    match (p.calls i).phase with
    | .idle => some (p.receive i decoded receivedAtUs source)
    | _ => none
  | .contains i =>
    match (p.calls i).phase with
    | .decoded event =>
      if p.events.contains event.key then some (p.duplicate i)
      else some { p with calls := p.setPhase i (.fresh event) }
    | _ => none
  | .resolve i row =>
    match (p.calls i).phase with
    | .fresh event => some (p.resolve i event row)
    | _ => none
  | .fetchAdd i =>
    match (p.calls i).phase with
    | .resolved event row =>
      some { p with
        sequence := p.sequence + 1
        calls := p.setPhase i (.sequenced (buildRecord (p.sequence + 1) event row)) }
    | _ => none
  | .insert i =>
    match (p.calls i).phase with
    | .sequenced record =>
      let (events, accepted) := p.events.insert record
      if accepted then
        some { p with
          events := events
          calls := p.setPhase i (.inserted record)
          accepted := p.accepted ++ [record] }
      else some (p.duplicate i)
    | _ => none
  | .credit i =>
    match (p.calls i).phase with
    | .inserted record =>
      some { p with
        stats := p.stats.admitted (p.calls i).source record.event.chain.blockNumber
        calls := p.setPhase i (.admitted record) }
    | _ => none
  | .store i =>
    match (p.calls i).phase with
    | .admitted record =>
      match p.storageTx.trySend (.event record) with
      | some tx =>
        some { p with
          storageTx := tx
          calls := p.setPhase i (.afterStore record)
          stored := p.stored ++ [record] }
      | none =>
        some { p with
          stats := p.stats.queueDropped
          calls := p.setPhase i (.afterStore record) }
    | _ => none
  | .lookup i blocked =>
    match (p.calls i).phase with
    | .stored record =>
      if blocked.isSome then some { p with calls := p.setPhase i .done }
      else some { p with calls := p.setPhase i (.unblocked record) }
    | _ => none
  | .send i =>
    match (p.calls i).phase with
    | .unblocked record =>
      -- a closed channel fails the send; a full one makes it wait
      if p.batchTx.closed then some { p with calls := p.setPhase i .done }
      else
        match p.batchTx.trySend record with
        | some tx =>
          some { p with
            batchTx := tx
            calls := p.setPhase i .done
            sent := p.sent ++ [record] }
        | none => none
    | _ => none
  | .checkpoint block => some (p.checkpoint block)

inductive Step (p : Processor) : Action → Processor → Prop where
  | undecodable (i receivedAtUs : ℕ) (source : String) (hphase : (p.calls i).phase = .idle) :
      Step p (.receive i none receivedAtUs source)
        { p with
          stats := (p.stats.logReceived receivedAtUs).decodeError
          calls := Function.update p.calls i ⟨source, .done⟩ }
  | decode (i : ℕ) (event : UmaEvent) (receivedAtUs : ℕ) (source : String)
      (hphase : (p.calls i).phase = .idle) :
      Step p (.receive i (some event) receivedAtUs source)
        { p with
          stats := p.stats.logReceived receivedAtUs
          calls := Function.update p.calls i ⟨source, .decoded event⟩ }
  | known (i : ℕ) (event : UmaEvent) (hphase : (p.calls i).phase = .decoded event)
      (hkey : event.key ∈ p.events.keys) :
      Step p (.contains i) (p.duplicate i)
  | unknown (i : ℕ) (event : UmaEvent) (hphase : (p.calls i).phase = .decoded event)
      (hkey : event.key ∉ p.events.keys) :
      Step p (.contains i) { p with calls := p.setPhase i (.fresh event) }
  | resolve (i : ℕ) (event : UmaEvent) (row : Option MarketEnrichment)
      (hphase : (p.calls i).phase = .fresh event) :
      Step p (.resolve i row) (p.resolve i event row)
  | fetchAdd (i : ℕ) (event : UmaEvent) (row : Option MarketEnrichment)
      (hphase : (p.calls i).phase = .resolved event row) :
      Step p (.fetchAdd i)
        { p with
          sequence := p.sequence + 1
          calls := p.setPhase i (.sequenced (buildRecord (p.sequence + 1) event row)) }
  | lose (i : ℕ) (record : EventRecord) (hphase : (p.calls i).phase = .sequenced record)
      (hkey : record.key ∈ p.events.keys) :
      Step p (.insert i) (p.duplicate i)
  | accept (i : ℕ) (record : EventRecord) (hphase : (p.calls i).phase = .sequenced record)
      (hkey : record.key ∉ p.events.keys) :
      Step p (.insert i) (p.accept i record)
  | credit (i : ℕ) (record : EventRecord) (hphase : (p.calls i).phase = .inserted record) :
      Step p (.credit i)
        { p with
          stats := p.stats.admitted (p.calls i).source record.event.chain.blockNumber
          calls := p.setPhase i (.admitted record) }
  | store (i : ℕ) (record : EventRecord) (hphase : (p.calls i).phase = .admitted record)
      (hroom : p.storageTx.HasRoom) :
      Step p (.store i)
        { p with
          storageTx := p.storageTx.push (.event record)
          calls := p.setPhase i (.afterStore record)
          stored := p.stored ++ [record] }
  | drop (i : ℕ) (record : EventRecord) (hphase : (p.calls i).phase = .admitted record)
      (hroom : ¬ p.storageTx.HasRoom) :
      Step p (.store i)
        { p with
          stats := p.stats.queueDropped
          calls := p.setPhase i (.afterStore record) }
  | blocked (i : ℕ) (record : EventRecord) (matchId : ℕ)
      (hphase : (p.calls i).phase = .stored record) :
      Step p (.lookup i (some matchId)) { p with calls := p.setPhase i .done }
  | unblocked (i : ℕ) (record : EventRecord) (hphase : (p.calls i).phase = .stored record) :
      Step p (.lookup i none) { p with calls := p.setPhase i (.unblocked record) }
  | sendFailed (i : ℕ) (record : EventRecord) (hphase : (p.calls i).phase = .unblocked record)
      (hclosed : p.batchTx.closed = true) :
      Step p (.send i) { p with calls := p.setPhase i .done }
  | send (i : ℕ) (record : EventRecord) (hphase : (p.calls i).phase = .unblocked record)
      (hroom : p.batchTx.HasRoom) :
      Step p (.send i)
        { p with
          batchTx := p.batchTx.push record
          calls := p.setPhase i .done
          sent := p.sent ++ [record] }
  | checkpoint (block : ℕ) (hroom : p.storageTx.HasRoom) :
      Step p (.checkpoint block) { p with storageTx := p.storageTx.push (.checkpoint block) }
  | checkpointDropped (block : ℕ) (hroom : ¬ p.storageTx.HasRoom) :
      Step p (.checkpoint block) { p with stats := p.stats.queueDropped }

variable {p p' : Processor} {a : Action}

theorem step_sound (h : p.step a = some p') : Step p a p' := by
  cases a with
  | receive i decoded receivedAtUs source =>
    simp only [step] at h
    split at h
    · next hphase =>
      cases decoded with
      | none =>
        cases h
        exact .undecodable i receivedAtUs source hphase
      | some event =>
        cases h
        exact .decode i event receivedAtUs source hphase
    · cases h
  | contains i =>
    simp only [step] at h
    split at h
    · next event hphase =>
      split_ifs at h with hkey
      · cases h
        exact .known i event hphase (of_decide_eq_true hkey)
      · cases h
        exact .unknown i event hphase (of_decide_eq_false (Bool.eq_false_iff.mpr hkey))
    · cases h
  | resolve i row =>
    simp only [step] at h
    split at h
    · next event hphase =>
      cases h
      exact .resolve i event row hphase
    · cases h
  | fetchAdd i =>
    simp only [step] at h
    split at h
    · next event row hphase =>
      cases h
      exact .fetchAdd i event row hphase
    · cases h
  | insert i =>
    simp only [step] at h
    split at h
    · next record hphase =>
      by_cases hkey : record.key ∈ p.events.keys
      · rw [EventHub.insert_of_mem hkey] at h
        cases h
        exact .lose i record hphase hkey
      · rw [EventHub.insert_of_notMem hkey] at h
        cases h
        exact .accept i record hphase hkey
    · cases h
  | credit i =>
    simp only [step] at h
    split at h
    · next record hphase =>
      cases h
      exact .credit i record hphase
    · cases h
  | store i =>
    simp only [step, Channel.trySend] at h
    split at h
    · next record hphase =>
      by_cases hroom : p.storageTx.HasRoom
      · rw [if_pos hroom] at h
        cases h
        exact .store i record hphase hroom
      · rw [if_neg hroom] at h
        cases h
        exact .drop i record hphase hroom
    · cases h
  | lookup i blocked =>
    simp only [step] at h
    split at h
    · next record hphase =>
      cases blocked with
      | some matchId =>
        cases h
        exact .blocked i record matchId hphase
      | none =>
        cases h
        exact .unblocked i record hphase
    · cases h
  | send i =>
    simp only [step, Channel.trySend] at h
    split at h
    · next record hphase =>
      split_ifs at h with hclosed hroom
      · cases h
        exact .sendFailed i record hphase hclosed
      · cases h
        exact .send i record hphase hroom
    · cases h
  | checkpoint block =>
    simp only [step, checkpoint, Channel.trySend] at h
    by_cases hroom : p.storageTx.HasRoom
    · rw [if_pos hroom] at h
      cases h
      exact .checkpoint block hroom
    · rw [if_neg hroom] at h
      cases h
      exact .checkpointDropped block hroom

lemma Step.capacity (h : Step p a p') :
    p'.events.capacity = p.events.capacity := by
  cases h <;> rfl

lemma Step.sent_subset (h : Step p a p') : p.sent ⊆ p'.sent := by
  cases h <;> first | exact List.Subset.refl _ | simp

lemma Step.calls_of_ne (h : Step p a p') {j : ℕ} (hj : ∀ i ∈ a.call?, j ≠ i) :
    p'.calls j = p.calls j := by
  cases h <;> first | rfl | exact Function.update_of_ne (hj _ rfl) _ _

structure SameCore (p p' : Processor) : Prop where
  events : p'.events = p.events
  sequence : p'.sequence = p.sequence
  calls : p'.calls = p.calls
  accepted : p'.accepted = p.accepted
  stored : p'.stored = p.stored
  sent : p'.sent = p.sent

end Processor

end RustUma.Pipeline
