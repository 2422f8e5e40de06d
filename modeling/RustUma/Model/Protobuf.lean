import RustUma.Found.Wire
import RustUma.Model.Wire

/-!
# The protobuf encoding of events and batches

The schema file is not part of the tree. Field numbers and enum values are those the dashboard
decodes by hand (`internal/api/dashboard.html` `decodeUmaEvent`) and the edge walks
(`src/edge/frame.rs`). As `prost` does, fields are written in the order of their numbers and a field
that holds its default is left out.
-/

namespace RustUma.Model

open RustUma.Found

def varintDigits : (digits : ℕ) → ℕ → List UInt8
  | 0, _ => []
  | d + 1, n =>
    if n < 128 then [UInt8.ofNat n]
    else UInt8.ofNat (n % 128 + 128) :: varintDigits d (n / 128)

def varint (n : ℕ) : List UInt8 := varintDigits 10 n

def varintField (number value : ℕ) : List UInt8 :=
  if value = 0 then [] else varint (number * 8) ++ varint value

def delimited (number : ℕ) (value : List UInt8) : List UInt8 :=
  varint (number * 8 + 2) ++ varint value.length ++ value

def bytesField (number : ℕ) (value : List UInt8) : List UInt8 :=
  if value = [] then [] else delimited number value

def repeatedBytesField (number : ℕ) (values : List (List UInt8)) : List UInt8 :=
  values.flatMap (delimited number)

def packedField (number : ℕ) (values : List ℕ) : List UInt8 :=
  bytesField number (values.flatMap varint)

/-! ## Enum values

Those of one build; what is proved of the numbers in files and messages is proved for any. -/

def PbEventType.number : PbEventType → ℕ
  | .unspecified => 0
  | .propose => 1
  | .dispute => 2

def PbEnrichmentStatus.number : PbEnrichmentStatus → ℕ
  | .unspecified => 0
  | .hit => 1
  | .miss => 2

def PbPriceOutcome.number : PbPriceOutcome → ℕ
  | .unspecified => 0
  | .token0 => 1
  | .token1 => 2
  | .tie => 3

def PbCategory.number : PbCategory → ℕ
  | .unspecified => 0
  | .sports => 1
  | .esports => 2
  | .politics => 3
  | .crypto => 4
  | .culture => 5
  | .weather => 6
  | .other => 7
  | .mentions => 8

def PbBetType.number : PbBetType → ℕ
  | .unspecified => 0
  | .moneyline => 1001
  | .spread => 1002
  | .overUnder => 1003
  | .gameWinner => 1004
  | .outright => 1005
  | .sportsProp => 1006
  | .tempHigh => 2001
  | .tempLow => 2002
  | .precipitation => 2003
  | .storm => 2004
  | .weatherOther => 2005
  | .priceTarget => 3001
  | .priceThreshold => 3002
  | .upDown => 3003
  | .cryptoProp => 3004
  | .electionWinner => 4001
  | .fedRateDecision => 4002
  | .tweetCount => 4003
  | .politicsProp => 4004
  | .awardWinner => 5001
  | .mediaMetricRange => 5002
  | .cultureProp => 5003
  | .mentionTerm => 6001
  | .mentionCount => 6002
  | .mentionProp => 6003

/-! ## Messages -/

def encodeUmaEvent (e : PbUmaEvent) : List UInt8 :=
  varintField 1 e.sequence ++
  varintField 2 ((e.eventType.map PbEventType.number).getD 0) ++
  bytesField 3 e.transactionHash ++
  varintField 4 e.logIndex ++
  varintField 5 e.marketId ++
  bytesField 6 e.conditionId ++
  repeatedBytesField 7 e.tokenIds ++
  packedField 8 e.tagIds ++
  varintField 9 e.upstreamReceivedAtUs ++
  varintField 10 e.removed.toNat ++
  varintField 11 ((e.enrichmentStatus.map PbEnrichmentStatus.number).getD 0) ++
  varintField 12 ((e.priceOutcome.map PbPriceOutcome.number).getD 0) ++
  varintField 13 ((e.category.map PbCategory.number).getD 0) ++
  varintField 14 ((e.betType.map PbBetType.number).getD 0) ++
  varintField 15 e.negRisk.toNat

def encodeUmaBatch (b : PbUmaBatch) : List UInt8 :=
  varintField 1 b.schemaVersion ++
  varintField 2 b.batchSequence ++
  varintField 3 b.sentAtUs ++
  repeatedBytesField 4 (b.events.map encodeUmaEvent)

def prostCodec (known : List PbUmaEvent) : Codec where
  encodeEvent := encodeUmaEvent
  decodeEvent := fun bytes => known.find? fun e => encodeUmaEvent e = bytes
  encodeBatch := encodeUmaBatch
  compress := fun _ => none

/-! ## Fields -/

inductive PbValue where
  | varint (n : ℕ)
  | fixed64 (bytes : Bytes 8)
  | delimited (bytes : List UInt8)
  | fixed32 (bytes : Bytes 4)

structure PbField where
  number : ℕ
  value : PbValue

namespace PbValue

def wire : PbValue → ℕ
  | .varint _ => 0
  | .fixed64 _ => 1
  | .delimited _ => 2
  | .fixed32 _ => 5

def encode : PbValue → List UInt8
  | .varint n => Model.varint n
  | .fixed64 bytes => bytes.1
  | .delimited bytes => Model.varint bytes.length ++ bytes
  | .fixed32 bytes => bytes.1

def Fits : PbValue → Prop
  | .varint n => n < 2 ^ 64
  | .delimited bytes => bytes.length < 2 ^ 64
  | _ => True

end PbValue

namespace PbField

def encode (f : PbField) : List UInt8 := varint (f.number * 8 + f.value.wire) ++ f.value.encode

def Fits (f : PbField) : Prop := f.number < 2 ^ 29 ∧ f.value.Fits

def varint? (number : ℕ) (f : PbField) : Option ℕ :=
  match f.value with
  | .varint n => if f.number = number then some n else none
  | _ => none

def delimited? (number : ℕ) (f : PbField) : Option (List UInt8) :=
  match f.value with
  | .delimited bytes => if f.number = number then some bytes else none
  | _ => none

end PbField

def encodeFields (fields : List PbField) : List UInt8 := fields.flatMap PbField.encode

def varints (number : ℕ) (fields : List PbField) : List ℕ :=
  fields.filterMap (PbField.varint? number)

def delimiteds (number : ℕ) (fields : List PbField) : List (List UInt8) :=
  fields.filterMap (PbField.delimited? number)

section Written

-- the texts of a number that count as its varints
variable (V : List UInt8 → ℕ → Prop)

def PbValue.Written : PbValue → List UInt8 → Prop
  | .varint n, text => V text n
  | .fixed64 bytes, text => text = bytes.1
  | .delimited bytes, text => ∃ len, V len bytes.length ∧ text = len ++ bytes
  | .fixed32 bytes, text => text = bytes.1

def PbField.Written (f : PbField) (text : List UInt8) : Prop :=
  ∃ key value, V key (f.number * 8 + f.value.wire) ∧ f.value.Written V value ∧ text = key ++ value

inductive Message : List UInt8 → List PbField → Prop
  | nil : Message [] []
  | cons {f : PbField} {text rest : List UInt8} {fields : List PbField} (hf : f.Written V text)
      (hrest : Message rest fields) : Message (text ++ rest) (f :: fields)

end Written

lemma wire_lt (value : PbValue) : value.wire < 8 := by
  cases value <;> simp [PbValue.wire]

lemma varint_varintDigits {d n : ℕ} (h : n < 128 ^ (d + 1)) :
    Varint (varintDigits (d + 1) n) n ∧ (varintDigits (d + 1) n).length ≤ d + 1 := by
  induction d generalizing n with
  | zero =>
    have hlt : n < 128 := h
    rw [varintDigits, if_pos hlt]
    exact ⟨varint_ofNat hlt, le_rfl⟩
  | succ d ih =>
    rw [varintDigits]
    split_ifs with hlt
    · exact ⟨varint_ofNat hlt, Nat.le_add_left _ _⟩
    · rw [pow_succ] at h
      obtain ⟨hrest, hlen⟩ := ih (n := n / 128) (by omega)
      exact ⟨hrest.more_ofNat, Nat.succ_le_succ hlen⟩

lemma written_encode {V : List UInt8 → ℕ → Prop} (hV : ∀ n < 2 ^ 64, V (varint n) n) {f : PbField}
    (hf : f.Fits) : f.Written V f.encode := by
  have hwire := wire_lt f.value
  obtain ⟨hnumber, hfits⟩ := hf
  refine ⟨_, f.value.encode, hV _ (by omega), ?_, rfl⟩
  cases hvalue : f.value with
  | varint n =>
    rw [hvalue] at hfits
    exact hV n hfits
  | delimited bytes =>
    rw [hvalue] at hfits
    exact ⟨_, hV _ hfits, rfl⟩
  | fixed64 bytes | fixed32 bytes => rfl

def Varint64 (k : ℕ) (bytes : List UInt8) (n : ℕ) : Prop :=
  bytes.length ≤ k ∧ ∃ m, Varint bytes m ∧ n = m % 2 ^ 64

structure PbUmaEvent.Fits (e : PbUmaEvent) : Prop where
  sequence : e.sequence < 2 ^ 64
  logIndex : e.logIndex < 2 ^ 64
  marketId : e.marketId < 2 ^ 64
  upstreamReceivedAtUs : e.upstreamReceivedAtUs < 2 ^ 64

structure PbUmaBatch.Fits (b : PbUmaBatch) : Prop where
  schemaVersion : b.schemaVersion < 2 ^ 64
  batchSequence : b.batchSequence < 2 ^ 64
  sentAtUs : b.sentAtUs < 2 ^ 64
  events : ∀ e ∈ b.events, e.Fits

structure Codec.Conforms (codec : Codec) : Prop where
  event : ∀ e : PbUmaEvent, e.Fits → (codec.encodeEvent e).length < 2 ^ 64 →
    ∃ fields, codec.encodeEvent e = encodeFields fields ∧ (∀ f ∈ fields, f.Fits) ∧
      (varints 1 fields).getLastD 0 = e.sequence
  batch : ∀ b : PbUmaBatch, b.Fits → (codec.encodeBatch b).length < 2 ^ 64 →
    ∃ fields, codec.encodeBatch b = encodeFields fields ∧ (∀ f ∈ fields, f.Fits) ∧
      (varints 2 fields).getLastD 0 = b.batchSequence ∧
      (varints 3 fields).getLastD 0 = b.sentAtUs ∧
      delimiteds 4 fields = b.events.map codec.encodeEvent

/-! ## The encoders conform -/

@[simp] lemma encodeFields_append (fields fields' : List PbField) :
    encodeFields (fields ++ fields') = encodeFields fields ++ encodeFields fields' :=
  List.flatMap_append

@[simp] lemma varints_append (number : ℕ) (fields fields' : List PbField) :
    varints number (fields ++ fields') = varints number fields ++ varints number fields' :=
  List.filterMap_append

@[simp] lemma delimiteds_append (number : ℕ) (fields fields' : List PbField) :
    delimiteds number (fields ++ fields') =
      delimiteds number fields ++ delimiteds number fields' :=
  List.filterMap_append

def varintFields (number value : ℕ) : List PbField :=
  if value = 0 then [] else [⟨number, .varint value⟩]

def delimitedFields (number : ℕ) (values : List (List UInt8)) : List PbField :=
  values.map fun value => ⟨number, .delimited value⟩

def bytesFields (number : ℕ) (value : List UInt8) : List PbField :=
  if value = [] then [] else delimitedFields number [value]

@[simp] lemma encodeFields_varintFields (number value : ℕ) :
    encodeFields (varintFields number value) = varintField number value := by
  unfold varintFields varintField
  split_ifs
  · rfl
  · exact List.append_nil _

@[simp] lemma encodeFields_delimitedFields (number : ℕ) (values : List (List UInt8)) :
    encodeFields (delimitedFields number values) = repeatedBytesField number values := by
  unfold encodeFields delimitedFields
  rw [List.flatMap_map]
  refine List.flatMap_congr fun value _ => ?_
  exact (List.append_assoc _ _ _).symm

@[simp] lemma encodeFields_bytesFields (number : ℕ) (value : List UInt8) :
    encodeFields (bytesFields number value) = bytesField number value := by
  unfold bytesFields bytesField
  split_ifs
  · rfl
  · rw [encodeFields_delimitedFields]
    exact List.append_nil _

@[simp] lemma varints_varintFields (number number' value : ℕ) :
    varints number (varintFields number' value) =
      if number' = number ∧ value ≠ 0 then [value] else [] := by
  unfold varints varintFields
  by_cases hvalue : value = 0
  · simp [hvalue]
  · by_cases hnumber : number' = number <;> simp [hvalue, hnumber, PbField.varint?]

@[simp] lemma varints_delimitedFields (number number' : ℕ) (values : List (List UInt8)) :
    varints number (delimitedFields number' values) = [] := by
  simp [varints, delimitedFields, PbField.varint?]

@[simp] lemma varints_bytesFields (number number' : ℕ) (value : List UInt8) :
    varints number (bytesFields number' value) = [] := by
  unfold bytesFields
  split_ifs
  · rfl
  · exact varints_delimitedFields _ _ _

@[simp] lemma delimiteds_varintFields (number number' value : ℕ) :
    delimiteds number (varintFields number' value) = [] := by
  unfold delimiteds varintFields
  split_ifs <;> simp [PbField.delimited?]

@[simp] lemma delimiteds_delimitedFields (number : ℕ) (values : List (List UInt8)) :
    delimiteds number (delimitedFields number values) = values := by
  simp [delimiteds, delimitedFields, PbField.delimited?, List.filterMap_map, Function.comp_def]

def umaEventFields (e : PbUmaEvent) : List PbField :=
  varintFields 1 e.sequence ++
  varintFields 2 ((e.eventType.map PbEventType.number).getD 0) ++
  bytesFields 3 e.transactionHash ++
  varintFields 4 e.logIndex ++
  varintFields 5 e.marketId ++
  bytesFields 6 e.conditionId ++
  delimitedFields 7 e.tokenIds ++
  bytesFields 8 (e.tagIds.flatMap varint) ++
  varintFields 9 e.upstreamReceivedAtUs ++
  varintFields 10 e.removed.toNat ++
  varintFields 11 ((e.enrichmentStatus.map PbEnrichmentStatus.number).getD 0) ++
  varintFields 12 ((e.priceOutcome.map PbPriceOutcome.number).getD 0) ++
  varintFields 13 ((e.category.map PbCategory.number).getD 0) ++
  varintFields 14 ((e.betType.map PbBetType.number).getD 0) ++
  varintFields 15 e.negRisk.toNat

def umaBatchFields (b : PbUmaBatch) : List PbField :=
  varintFields 1 b.schemaVersion ++
  varintFields 2 b.batchSequence ++
  varintFields 3 b.sentAtUs ++
  delimitedFields 4 (b.events.map encodeUmaEvent)

lemma encodeUmaEvent_eq (e : PbUmaEvent) : encodeUmaEvent e = encodeFields (umaEventFields e) := by
  simp [encodeUmaEvent, umaEventFields, packedField]

lemma encodeUmaBatch_eq (b : PbUmaBatch) : encodeUmaBatch b = encodeFields (umaBatchFields b) := by
  simp [encodeUmaBatch, umaBatchFields]

def NumbersFit (fields : List PbField) : Prop :=
  ∀ f ∈ fields, f.number < 2 ^ 29 ∧ ∀ n, f.value = .varint n → n < 2 ^ 64

lemma NumbersFit.fits {fields : List PbField} (h : NumbersFit fields)
    (hlen : (encodeFields fields).length < 2 ^ 64) : ∀ f ∈ fields, f.Fits := by
  intro f hf
  refine ⟨(h f hf).1, ?_⟩
  cases hvalue : f.value with
  | varint n => exact (h f hf).2 n hvalue
  | fixed64 bytes => trivial
  | delimited bytes =>
    have hle : f.encode.length ≤ (encodeFields fields).length := by
      exact (List.sublist_flatten_of_mem (List.mem_map_of_mem hf)).length_le
    unfold PbField.encode PbValue.encode at hle
    rw [hvalue] at hle
    simp only [List.length_append] at hle
    show bytes.length < 2 ^ 64
    omega
  | fixed32 bytes => trivial

lemma NumbersFit.append {fields fields' : List PbField} (h : NumbersFit fields)
    (h' : NumbersFit fields') : NumbersFit (fields ++ fields') := by
  intro f hf
  rcases List.mem_append.mp hf with hf | hf
  · exact h f hf
  · exact h' f hf

lemma numbersFit_varintFields {number value : ℕ} (hnumber : number < 2 ^ 29)
    (hvalue : value < 2 ^ 64) : NumbersFit (varintFields number value) := by
  intro f hf
  unfold varintFields at hf
  simp_all

lemma numbersFit_delimitedFields {number : ℕ} (hnumber : number < 2 ^ 29)
    (values : List (List UInt8)) : NumbersFit (delimitedFields number values) := by
  intro f hf
  obtain ⟨value, -, rfl⟩ := List.mem_map.mp hf
  simp_all

lemma numbersFit_bytesFields {number : ℕ} (hnumber : number < 2 ^ 29) (value : List UInt8) :
    NumbersFit (bytesFields number value) := by
  unfold bytesFields
  split_ifs
  · intro f hf
    cases hf
  · exact numbersFit_delimitedFields hnumber _

lemma optionNumber_lt {α : Type*} {number : α → ℕ} (hnumber : ∀ a, number a < 2 ^ 64)
    (value : Option α) : (value.map number).getD 0 < 2 ^ 64 := by
  cases value with
  | none => exact Nat.two_pow_pos 64
  | some a => exact hnumber a

lemma numbersFit_umaEventFields {e : PbUmaEvent} (h : e.Fits) : NumbersFit (umaEventFields e) := by
  have hbool : ∀ b : Bool, b.toNat < 2 ^ 64 := fun b => lt_of_le_of_lt b.toNat_le (by decide)
  have heventType : ∀ a : PbEventType, a.number < 2 ^ 64 := by rintro ⟨⟩ <;> decide
  have hstatus : ∀ a : PbEnrichmentStatus, a.number < 2 ^ 64 := by rintro ⟨⟩ <;> decide
  have houtcome : ∀ a : PbPriceOutcome, a.number < 2 ^ 64 := by rintro ⟨⟩ <;> decide
  have hcategory : ∀ a : PbCategory, a.number < 2 ^ 64 := by rintro ⟨⟩ <;> decide
  have hbetType : ∀ a : PbBetType, a.number < 2 ^ 64 := by rintro ⟨⟩ <;> decide
  refine .append (.append (.append (.append (.append (.append (.append (.append (.append (.append
    (.append (.append (.append (.append ?_ ?_) ?_) ?_) ?_) ?_) ?_) ?_) ?_) ?_) ?_) ?_) ?_) ?_) ?_
  · exact numbersFit_varintFields (by decide) h.sequence
  · exact numbersFit_varintFields (by decide) (optionNumber_lt heventType _)
  · exact numbersFit_bytesFields (by decide) _
  · exact numbersFit_varintFields (by decide) h.logIndex
  · exact numbersFit_varintFields (by decide) h.marketId
  · exact numbersFit_bytesFields (by decide) _
  · exact numbersFit_delimitedFields (by decide) _
  · exact numbersFit_bytesFields (by decide) _
  · exact numbersFit_varintFields (by decide) h.upstreamReceivedAtUs
  · exact numbersFit_varintFields (by decide) (hbool _)
  · exact numbersFit_varintFields (by decide) (optionNumber_lt hstatus _)
  · exact numbersFit_varintFields (by decide) (optionNumber_lt houtcome _)
  · exact numbersFit_varintFields (by decide) (optionNumber_lt hcategory _)
  · exact numbersFit_varintFields (by decide) (optionNumber_lt hbetType _)
  · exact numbersFit_varintFields (by decide) (hbool _)

lemma numbersFit_umaBatchFields {b : PbUmaBatch} (h : b.Fits) : NumbersFit (umaBatchFields b) := by
  refine .append (.append (.append ?_ ?_) ?_) ?_
  · exact numbersFit_varintFields (by decide) h.schemaVersion
  · exact numbersFit_varintFields (by decide) h.batchSequence
  · exact numbersFit_varintFields (by decide) h.sentAtUs
  · exact numbersFit_delimitedFields (by decide) _

lemma getLastD_ite_ne_zero (value : ℕ) :
    (if value ≠ 0 then [value] else []).getLastD 0 = value := by
  grind

theorem prostCodec_conforms (known : List PbUmaEvent) : (prostCodec known).Conforms where
  event e hfits hlen := by
    have heq : (prostCodec known).encodeEvent e = encodeFields (umaEventFields e) :=
      encodeUmaEvent_eq e
    rw [heq] at hlen
    refine ⟨umaEventFields e, heq, (numbersFit_umaEventFields hfits).fits hlen, ?_⟩
    simpa [umaEventFields] using getLastD_ite_ne_zero e.sequence
  batch b hfits hlen := by
    have heq : (prostCodec known).encodeBatch b = encodeFields (umaBatchFields b) :=
      encodeUmaBatch_eq b
    rw [heq] at hlen
    refine ⟨umaBatchFields b, heq, (numbersFit_umaBatchFields hfits).fits hlen, ?_, ?_, ?_⟩
    · simpa [umaBatchFields] using getLastD_ite_ne_zero b.batchSequence
    · simpa [umaBatchFields] using getLastD_ite_ne_zero b.sentAtUs
    · simp [umaBatchFields, prostCodec]

end RustUma.Model
