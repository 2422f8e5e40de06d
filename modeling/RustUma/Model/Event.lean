import RustUma.Found.Records

/-!
# The event model (`src/model.rs`, `src/uma/events/common.rs`)

What the pipeline carries from a decoded log to the wire and to the journal.

Counters and times are `u64` in the source and natural numbers here.
-/

namespace RustUma.Model

open RustUma.Found

abbrev Bytes (n : ℕ) := { l : List UInt8 // l.length = n }

def Bytes.fill (n : ℕ) (b : UInt8) : Bytes n := ⟨List.replicate n b, List.length_replicate⟩

def fixed (n : ℕ) (value : List UInt8) : Option (Bytes n) :=
  if h : value.length = n then some ⟨value, h⟩ else none

@[simp] lemma fixed_val {n : ℕ} (b : Bytes n) : fixed n b.1 = some b := by
  simp [fixed, b.2]

lemma fixed_eq_some_iff {n : ℕ} {value : List UInt8} {b : Bytes n} :
    fixed n value = some b ↔ b.1 = value := by
  refine ⟨fun h => ?_, fun h => h ▸ fixed_val b⟩
  unfold fixed at h
  grind

/-! ## Enumerations -/

inductive EventKind where
  | propose
  | dispute
  deriving DecidableEq

inductive PriceOutcome where
  | unspecified
  | token0
  | token1
  | tie
  deriving DecidableEq

inductive Category where
  | unspecified
  | sports
  | esports
  | politics
  | crypto
  | culture
  | weather
  | other
  | mentions
  deriving DecidableEq

inductive BetType where
  | unspecified
  | moneyline
  | spread
  | overUnder
  | gameWinner
  | outright
  | sportsProp
  | tempHigh
  | tempLow
  | precipitation
  | storm
  | weatherOther
  | priceTarget
  | priceThreshold
  | upDown
  | cryptoProp
  | electionWinner
  | fedRateDecision
  | tweetCount
  | politicsProp
  | awardWinner
  | mediaMetricRange
  | cultureProp
  | mentionTerm
  | mentionCount
  | mentionProp
  deriving DecidableEq

def priceWord (price : ℕ) : List UInt8 := List.replicate 24 0 ++ toBeBytes 8 price

def PriceOutcome.fromProposePrice (proposedPrice : Bytes 32) : PriceOutcome :=
  if proposedPrice.1.all (· == 0) then .token1
  else if proposedPrice.1 = priceWord 1000000000000000000 then .token0
  else if proposedPrice.1 = priceWord 500000000000000000 then .tie
  else .unspecified

/-! ## Decoded logs and records -/

structure ChainLog where
  blockNumber : ℕ
  transactionHash : Bytes 32
  logIndex : ℕ
  upstreamReceivedAtUs : ℕ
  removed : Bool
  deriving DecidableEq

structure PolymarketAncillary where
  questionId : Bytes 32
  marketId : Option ℕ
  deriving DecidableEq

structure PriceRequest where
  requester : Bytes 20
  conditionId : Bytes 32
  ancillary : PolymarketAncillary
  proposedPrice : Bytes 32
  deriving DecidableEq

inductive UmaEvent where
  | proposePrice (chain : ChainLog) (request : PriceRequest)
  | disputePrice (chain : ChainLog) (request : PriceRequest)
  deriving DecidableEq

namespace UmaEvent

def kind : UmaEvent → EventKind
  | proposePrice _ _ => .propose
  | disputePrice _ _ => .dispute

def chain : UmaEvent → ChainLog
  | proposePrice c _ => c
  | disputePrice c _ => c

def request : UmaEvent → PriceRequest
  | proposePrice _ r => r
  | disputePrice _ r => r

def marketId (e : UmaEvent) : ℕ := e.request.ancillary.marketId.getD 0

end UmaEvent

structure MarketEnrichment where
  marketId : ℕ
  conditionId : Bytes 32
  tokenIds : List (Bytes 32)
  tagIds : List ℕ
  category : Category
  betType : BetType
  negRisk : Bool
  deriving DecidableEq

structure EventKey where
  transactionHash : Bytes 32
  logIndex : ℕ
  removed : Bool
  deriving DecidableEq

structure EventRecord where
  sequence : ℕ
  event : UmaEvent
  enrichment : Option MarketEnrichment
  priceOutcome : PriceOutcome
  deriving DecidableEq

def UmaEvent.key (e : UmaEvent) : EventKey where
  transactionHash := e.chain.transactionHash
  logIndex := e.chain.logIndex
  removed := e.chain.removed

namespace EventRecord

def key (r : EventRecord) : EventKey := r.event.key

def resolvedConditionId (r : EventRecord) : Bytes 32 :=
  match r.enrichment with
  | some e => e.conditionId
  | none => r.event.request.conditionId

def receivedAtUs (r : EventRecord) : ℕ := r.event.chain.upstreamReceivedAtUs

end EventRecord

/-! ## The wire projection -/

inductive PbEventType where
  | unspecified
  | propose
  | dispute
  deriving DecidableEq

inductive PbEnrichmentStatus where
  | unspecified
  | hit
  | miss
  deriving DecidableEq

inductive PbPriceOutcome where
  | unspecified
  | token0
  | token1
  | tie
  deriving DecidableEq

inductive PbCategory where
  | unspecified
  | sports
  | esports
  | politics
  | crypto
  | culture
  | weather
  | other
  | mentions
  deriving DecidableEq

inductive PbBetType where
  | unspecified
  | moneyline
  | spread
  | overUnder
  | gameWinner
  | outright
  | sportsProp
  | tempHigh
  | tempLow
  | precipitation
  | storm
  | weatherOther
  | priceTarget
  | priceThreshold
  | upDown
  | cryptoProp
  | electionWinner
  | fedRateDecision
  | tweetCount
  | politicsProp
  | awardWinner
  | mediaMetricRange
  | cultureProp
  | mentionTerm
  | mentionCount
  | mentionProp
  deriving DecidableEq

structure PbUmaEvent where
  sequence : ℕ
  eventType : Option PbEventType
  transactionHash : List UInt8
  logIndex : ℕ
  marketId : ℕ
  conditionId : List UInt8
  tokenIds : List (List UInt8)
  tagIds : List ℕ
  upstreamReceivedAtUs : ℕ
  removed : Bool
  enrichmentStatus : Option PbEnrichmentStatus
  priceOutcome : Option PbPriceOutcome
  category : Option PbCategory
  betType : Option PbBetType
  negRisk : Bool
  deriving DecidableEq

def EventKind.toProto : EventKind → Option PbEventType
  | .propose => some .propose
  | .dispute => some .dispute

def EventKind.fromProto : Option PbEventType → Option EventKind
  | some .propose => some .propose
  | some .dispute => some .dispute
  | some .unspecified => none
  | none => none

def PriceOutcome.toProto : PriceOutcome → PbPriceOutcome
  | .unspecified => .unspecified
  | .token0 => .token0
  | .token1 => .token1
  | .tie => .tie

def PriceOutcome.fromProto (value : Option PbPriceOutcome) : PriceOutcome :=
  match value.getD .unspecified with
  | .token0 => .token0
  | .token1 => .token1
  | .tie => .tie
  | .unspecified => .unspecified

@[simp] lemma PriceOutcome.fromProto_toProto (a : PriceOutcome) : fromProto (some a.toProto) = a := by
  cases a <;> rfl

def Category.toProto : Category → PbCategory
  | .unspecified => .unspecified
  | .sports => .sports
  | .esports => .esports
  | .politics => .politics
  | .crypto => .crypto
  | .culture => .culture
  | .weather => .weather
  | .other => .other
  | .mentions => .mentions

def Category.fromProto (value : Option PbCategory) : Category :=
  match value.getD .unspecified with
  | .sports => .sports
  | .esports => .esports
  | .politics => .politics
  | .crypto => .crypto
  | .culture => .culture
  | .weather => .weather
  | .other => .other
  | .mentions => .mentions
  | .unspecified => .unspecified

@[simp] lemma Category.fromProto_toProto (a : Category) : fromProto (some a.toProto) = a := by
  cases a <;> rfl

def BetType.toProto : BetType → PbBetType
  | .unspecified => .unspecified
  | .moneyline => .moneyline
  | .spread => .spread
  | .overUnder => .overUnder
  | .gameWinner => .gameWinner
  | .outright => .outright
  | .sportsProp => .sportsProp
  | .tempHigh => .tempHigh
  | .tempLow => .tempLow
  | .precipitation => .precipitation
  | .storm => .storm
  | .weatherOther => .weatherOther
  | .priceTarget => .priceTarget
  | .priceThreshold => .priceThreshold
  | .upDown => .upDown
  | .cryptoProp => .cryptoProp
  | .electionWinner => .electionWinner
  | .fedRateDecision => .fedRateDecision
  | .tweetCount => .tweetCount
  | .politicsProp => .politicsProp
  | .awardWinner => .awardWinner
  | .mediaMetricRange => .mediaMetricRange
  | .cultureProp => .cultureProp
  | .mentionTerm => .mentionTerm
  | .mentionCount => .mentionCount
  | .mentionProp => .mentionProp

def BetType.fromProto (value : Option PbBetType) : BetType :=
  match value.getD .unspecified with
  | .moneyline => .moneyline
  | .spread => .spread
  | .overUnder => .overUnder
  | .gameWinner => .gameWinner
  | .outright => .outright
  | .sportsProp => .sportsProp
  | .tempHigh => .tempHigh
  | .tempLow => .tempLow
  | .precipitation => .precipitation
  | .storm => .storm
  | .weatherOther => .weatherOther
  | .priceTarget => .priceTarget
  | .priceThreshold => .priceThreshold
  | .upDown => .upDown
  | .cryptoProp => .cryptoProp
  | .electionWinner => .electionWinner
  | .fedRateDecision => .fedRateDecision
  | .tweetCount => .tweetCount
  | .politicsProp => .politicsProp
  | .awardWinner => .awardWinner
  | .mediaMetricRange => .mediaMetricRange
  | .cultureProp => .cultureProp
  | .mentionTerm => .mentionTerm
  | .mentionCount => .mentionCount
  | .mentionProp => .mentionProp
  | .unspecified => .unspecified

@[simp] lemma BetType.fromProto_toProto (a : BetType) : fromProto (some a.toProto) = a := by
  cases a <;> rfl

namespace EventRecord

def toProto (r : EventRecord) : PbUmaEvent where
  sequence := r.sequence
  eventType := r.event.kind.toProto
  transactionHash := r.event.chain.transactionHash.1
  logIndex := r.event.chain.logIndex
  marketId := r.event.marketId
  conditionId := r.resolvedConditionId.1
  tokenIds := match r.enrichment with
    | some v => v.tokenIds.map Subtype.val
    | none => []
  tagIds := match r.enrichment with
    | some v => v.tagIds
    | none => []
  upstreamReceivedAtUs := r.event.chain.upstreamReceivedAtUs
  removed := r.event.chain.removed
  enrichmentStatus := if r.enrichment.isSome then some .hit else some .miss
  priceOutcome := some r.priceOutcome.toProto
  category := some (match r.enrichment with
    | some v => v.category
    | none => .unspecified).toProto
  betType := some (match r.enrichment with
    | some v => v.betType
    | none => .unspecified).toProto
  negRisk := match r.enrichment with
    | some v => v.negRisk
    | none => false

def fromProto (value : PbUmaEvent) : Option EventRecord := do
  let conditionId ← fixed 32 value.conditionId
  let enrichment : Option MarketEnrichment :=
    if value.enrichmentStatus = some .hit then
      some {
        marketId := value.marketId
        conditionId := conditionId
        tokenIds := value.tokenIds.filterMap (fixed 32)
        tagIds := value.tagIds
        category := Category.fromProto value.category
        betType := BetType.fromProto value.betType
        negRisk := value.negRisk }
    else none
  let kind ← EventKind.fromProto value.eventType
  let transactionHash ← fixed 32 value.transactionHash
  let chain : ChainLog := {
    blockNumber := 0
    transactionHash := transactionHash
    logIndex := value.logIndex
    upstreamReceivedAtUs := value.upstreamReceivedAtUs
    removed := value.removed }
  let request : PriceRequest := {
    requester := Bytes.fill 20 0
    conditionId := conditionId
    ancillary := {
      questionId := Bytes.fill 32 0
      marketId := if value.marketId ≠ 0 then some value.marketId else none }
    proposedPrice := Bytes.fill 32 0 }
  let event := match kind with
    | .propose => UmaEvent.proposePrice chain request
    | .dispute => UmaEvent.disputePrice chain request
  return {
    sequence := value.sequence
    event := event
    enrichment := enrichment
    priceOutcome := PriceOutcome.fromProto value.priceOutcome }

def recovered (r : EventRecord) : EventRecord where
  sequence := r.sequence
  event :=
    let chain : ChainLog := { r.event.chain with blockNumber := 0 }
    let request : PriceRequest := {
      requester := Bytes.fill 20 0
      conditionId := r.resolvedConditionId
      ancillary := {
        questionId := Bytes.fill 32 0
        marketId := if r.event.marketId ≠ 0 then some r.event.marketId else none }
      proposedPrice := Bytes.fill 32 0 }
    match r.event.kind with
    | .propose => .proposePrice chain request
    | .dispute => .disputePrice chain request
  enrichment := r.enrichment.map fun v =>
    { v with marketId := r.event.marketId }
  priceOutcome := r.priceOutcome

lemma filterMap_fixed_unattach (l : List (Bytes 32)) :
    l.unattach.filterMap (fixed 32) = l := by
  unfold List.unattach
  rw [List.filterMap_map]
  simp

theorem fromProto_toProto (r : EventRecord) : fromProto r.toProto = some r.recovered := by
  obtain ⟨seq, ev, enr, po⟩ := r
  cases enr with
  | none => cases ev <;> simp [fromProto, toProto, recovered, resolvedConditionId,
      EventKind.toProto, EventKind.fromProto, UmaEvent.kind, UmaEvent.chain]
  | some v =>
    cases ev <;> simp [fromProto, toProto, recovered, resolvedConditionId, EventKind.toProto,
      EventKind.fromProto, UmaEvent.kind, UmaEvent.chain, filterMap_fixed_unattach]

@[simp] lemma recovered_sequence (r : EventRecord) : r.recovered.sequence = r.sequence := rfl

@[simp] lemma recovered_enriched (r : EventRecord) :
    r.recovered.enrichment.isSome = r.enrichment.isSome := by
  simp [recovered]

lemma recovered_chain (r : EventRecord) :
    r.recovered.event.chain = { r.event.chain with blockNumber := 0 } := by
  unfold recovered
  cases r.event.kind <;> rfl

@[simp] lemma recovered_receivedAtUs (r : EventRecord) :
    r.recovered.receivedAtUs = r.receivedAtUs := by
  simp only [receivedAtUs, recovered_chain]

@[simp] lemma recovered_resolvedConditionId (r : EventRecord) :
    r.recovered.resolvedConditionId = r.resolvedConditionId := by
  obtain ⟨seq, ev, enr, po⟩ := r
  cases enr with
  | none => cases ev <;> rfl
  | some v => rfl

lemma toProto_recovered (r : EventRecord) : r.recovered.toProto = r.toProto := by
  have hkind : r.recovered.event.kind = r.event.kind := by
    unfold recovered
    cases hkind : r.event.kind <;> rfl
  have hmarket : r.recovered.event.marketId = r.event.marketId := by
    unfold recovered
    cases r.event.kind <;>
      simp only [UmaEvent.marketId, UmaEvent.request] <;> split_ifs with h <;> simp_all
  unfold toProto
  rw [hkind, hmarket, recovered_chain, recovered_resolvedConditionId]
  obtain ⟨seq, ev, enr, po⟩ := r
  cases enr with
  | none => rfl
  | some v => rfl

end EventRecord

/-! ## The sample event of the tests -/

def testUmaEvent (transactionByte : UInt8) (marketId : ℕ) : UmaEvent :=
  .proposePrice
    { blockNumber := 10
      transactionHash := Bytes.fill 32 transactionByte
      logIndex := 3
      upstreamReceivedAtUs := 8
      removed := false }
    { requester := Bytes.fill 20 6
      conditionId := Bytes.fill 32 10
      ancillary := { questionId := Bytes.fill 32 3, marketId := some marketId }
      proposedPrice := Bytes.fill 32 5 }

def testRecord (sequence : ℕ) (transactionByte : UInt8) : EventRecord where
  sequence := sequence
  event := testUmaEvent transactionByte 1
  enrichment := none
  priceOutcome := .unspecified

end RustUma.Model
