import Mathlib.Data.List.Nodup
import RustUma.Model.Protobuf

/-!
# Projected events as messages with numbers (`src/model.rs`, the generated enums)

`PbUmaEvent` holds the variants of the generated enums; the generated message holds their `i32`
numbers. The schema is not part of the tree, so the numbers are a parameter, and all that is asked
of them is that no two variants of one enum share one.
-/

namespace RustUma.Model

structure PbEnum (α : Type) where
  variants : List α
  complete : ∀ a, a ∈ variants
  number : α → ℤ
  i32 : ∀ a, -2 ^ 31 ≤ number a ∧ number a < 2 ^ 31
  distinct : (variants.map number).Nodup

namespace PbEnum

variable {α : Type}

def tryFrom (e : PbEnum α) (value : ℤ) : Option α :=
  e.variants.find? fun a => decide (e.number a = value)

lemma number_injective (e : PbEnum α) : Function.Injective e.number := fun a b h =>
  List.inj_on_of_nodup_map e.distinct (e.complete a) (e.complete b) h

lemma tryFrom_eq_some_iff (e : PbEnum α) (value : ℤ) (a : α) :
    e.tryFrom value = some a ↔ value = e.number a := by
  constructor
  · intro h
    have hnumber := List.find?_some h
    simp_all
  · rintro rfl
    cases hfound : e.tryFrom (e.number a) with
    | none =>
      have hmissing := List.find?_eq_none.mp hfound a (e.complete a)
      simp at hmissing
    | some b =>
      have hnumber := List.find?_some hfound
      rw [e.number_injective (of_decide_eq_true hnumber)]

@[simp] lemma tryFrom_number (e : PbEnum α) (a : α) : e.tryFrom (e.number a) = some a :=
  (e.tryFrom_eq_some_iff _ _).mpr rfl

end PbEnum

structure PbMessage where
  sequence : ℕ
  eventType : ℤ
  transactionHash : List UInt8
  logIndex : ℕ
  marketId : ℕ
  conditionId : List UInt8
  tokenIds : List (List UInt8)
  tagIds : List ℕ
  upstreamReceivedAtUs : ℕ
  removed : Bool
  enrichmentStatus : ℤ
  priceOutcome : ℤ
  category : ℤ
  betType : ℤ
  negRisk : Bool
  deriving DecidableEq

/-- The numbers of the generated enums. A build has one of each, so they are a class. -/
class PbNumbers where
  eventType : PbEnum PbEventType
  enrichmentStatus : PbEnum PbEnrichmentStatus
  priceOutcome : PbEnum PbPriceOutcome
  category : PbEnum PbCategory
  betType : PbEnum PbBetType

/-- Numbers with which a category can be written as a byte. -/
class CatalogNumbers extends PbNumbers where
  category_lt : ∀ a, 0 ≤ category.number a ∧ category.number a < 256

namespace PbNumbers

def write (n : PbNumbers) (e : PbUmaEvent) : PbMessage where
  sequence := e.sequence
  eventType := (e.eventType.map n.eventType.number).getD 0
  transactionHash := e.transactionHash
  logIndex := e.logIndex
  marketId := e.marketId
  conditionId := e.conditionId
  tokenIds := e.tokenIds
  tagIds := e.tagIds
  upstreamReceivedAtUs := e.upstreamReceivedAtUs
  removed := e.removed
  enrichmentStatus := (e.enrichmentStatus.map n.enrichmentStatus.number).getD 0
  priceOutcome := (e.priceOutcome.map n.priceOutcome.number).getD 0
  category := (e.category.map n.category.number).getD 0
  betType := (e.betType.map n.betType.number).getD 0
  negRisk := e.negRisk

def read (n : PbNumbers) (m : PbMessage) : PbUmaEvent where
  sequence := m.sequence
  eventType := n.eventType.tryFrom m.eventType
  transactionHash := m.transactionHash
  logIndex := m.logIndex
  marketId := m.marketId
  conditionId := m.conditionId
  tokenIds := m.tokenIds
  tagIds := m.tagIds
  upstreamReceivedAtUs := m.upstreamReceivedAtUs
  removed := m.removed
  enrichmentStatus := n.enrichmentStatus.tryFrom m.enrichmentStatus
  priceOutcome := n.priceOutcome.tryFrom m.priceOutcome
  category := n.category.tryFrom m.category
  betType := n.betType.tryFrom m.betType
  negRisk := m.negRisk

def codec (n : PbNumbers) (encode : PbMessage → List UInt8)
    (decode : List UInt8 → Option PbMessage) (batches : Codec) : Codec :=
  { batches with
    encodeEvent := fun e => encode (n.write e)
    decodeEvent := fun bytes => (decode bytes).map n.read }

end PbNumbers

namespace EventRecord

def toMessage (n : PbNumbers) (r : EventRecord) : PbMessage := n.write r.toProto

def fromMessage (n : PbNumbers) (m : PbMessage) : Option EventRecord := fromProto (n.read m)

lemma read_toMessage (n : PbNumbers) (r : EventRecord) : n.read (r.toMessage n) = r.toProto := by
  have hstatus : n.enrichmentStatus.tryFrom (((if r.enrichment.isSome then
      some PbEnrichmentStatus.hit else some .miss).map n.enrichmentStatus.number).getD 0) =
        if r.enrichment.isSome then some .hit else some .miss := by
    split_ifs <;> exact n.enrichmentStatus.tryFrom_number _
  have hkind : n.eventType.tryFrom ((r.event.kind.toProto.map n.eventType.number).getD 0) =
      r.event.kind.toProto := by
    cases r.event.kind <;> exact n.eventType.tryFrom_number _
  unfold toMessage PbNumbers.read PbNumbers.write toProto
  simp_all

lemma fromMessage_toMessage (n : PbNumbers) (r : EventRecord) :
    fromMessage n (r.toMessage n) = some r.recovered := by
  unfold fromMessage
  rw [read_toMessage, fromProto_toProto]

lemma toMessage_recovered (n : PbNumbers) (r : EventRecord) :
    r.recovered.toMessage n = r.toMessage n := by
  unfold toMessage
  rw [toProto_recovered]

@[simp] lemma recovered_key (r : EventRecord) : r.recovered.key = r.key := by
  unfold key UmaEvent.key
  rw [recovered_chain]

@[simp] lemma recovered_recovered (r : EventRecord) : r.recovered.recovered = r.recovered := by
  have hagain := fromProto_toProto r.recovered
  rw [toProto_recovered, fromProto_toProto] at hagain
  exact (Option.some_inj.mp hagain).symm

end EventRecord

/-! ## The numbers the dashboard decodes -/

abbrev dashboardNumbers : CatalogNumbers where
  eventType :=
    { variants := [.unspecified, .propose, .dispute]
      complete := by rintro ⟨⟩ <;> decide
      number := fun a => a.number
      i32 := by rintro ⟨⟩ <;> decide
      distinct := by decide }
  enrichmentStatus :=
    { variants := [.unspecified, .hit, .miss]
      complete := by rintro ⟨⟩ <;> decide
      number := fun a => a.number
      i32 := by rintro ⟨⟩ <;> decide
      distinct := by decide }
  priceOutcome :=
    { variants := [.unspecified, .token0, .token1, .tie]
      complete := by rintro ⟨⟩ <;> decide
      number := fun a => a.number
      i32 := by rintro ⟨⟩ <;> decide
      distinct := by decide }
  category :=
    { variants := [.unspecified, .sports, .esports, .politics, .crypto, .culture, .weather, .other,
        .mentions]
      complete := by rintro ⟨⟩ <;> decide
      number := fun a => a.number
      i32 := by rintro ⟨⟩ <;> decide
      distinct := by decide }
  betType :=
    { variants := [.unspecified, .moneyline, .spread, .overUnder, .gameWinner, .outright,
        .sportsProp, .tempHigh, .tempLow, .precipitation, .storm, .weatherOther, .priceTarget,
        .priceThreshold, .upDown, .cryptoProp, .electionWinner, .fedRateDecision, .tweetCount,
        .politicsProp, .awardWinner, .mediaMetricRange, .cultureProp, .mentionTerm, .mentionCount,
        .mentionProp]
      complete := by rintro ⟨⟩ <;> decide
      number := fun a => a.number
      i32 := by rintro ⟨⟩ <;> decide
      distinct := by decide +kernel }
  category_lt := by rintro ⟨⟩ <;> decide

end RustUma.Model
