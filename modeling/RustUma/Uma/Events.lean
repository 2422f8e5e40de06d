import RustUma.Found.Hex
import RustUma.Model.Event

/-!
# Decoding logs (`src/uma/events/`)

A log of the oracle as a node sends it, in hexadecimal text, and the event read from it.

`keccak` is a parameter. Sums of offsets are `usize` and wrap around.
-/

namespace RustUma.Uma

open RustUma.Found RustUma.Model

/-! ## Logs and their texts -/

structure RpcLog where
  address : List Char
  topics : List (List Char)
  data : List Char
  blockNumber : List Char
  blockHash : List Char
  transactionHash : List Char
  transactionIndex : Option (List Char)
  logIndex : List Char
  removed : Bool
  deriving DecidableEq

inductive DecodeError
  | emitter
  | topic
  | hex (field : String)
  | number (field : String)
  | shortData
  | dynamicOffset
  | ancillaryUtf8
  | missingMarketId
  deriving DecidableEq

def topicProposePrice : List Char :=
  "0x6e51dd00371aabffa82cd401592f76ed51e98a9ea4b58751c70463a2c78b5ca1".toList

def topicDisputePrice : List Char :=
  "0x5165909c3d1c01c5d1e121ac6f6d01dda1ba24bc9e1f975b5a375339c15be7f3".toList

lemma topics_ne : topicDisputePrice ≠ topicProposePrice := by decide +kernel

def stripMark : List Char → List Char
  | '0' :: 'x' :: rest => rest
  | '0' :: 'X' :: rest => rest
  | text => text

def decodeHex (value : List Char) (field : String) : Except DecodeError (List UInt8) :=
  match hexDecode (stripMark value) with
  | some bytes => .ok bytes
  | none => .error (.hex field)

def decodeFixed (n : ℕ) (value : List Char) (field : String) : Except DecodeError (Bytes n) := do
  match fixed n (← decodeHex value field) with
  | some bytes => return bytes
  | none => throw (.hex field)

def parseHexU64 (value : List Char) (field : String) : Except DecodeError ℕ :=
  let raw := stripMark value
  let digits := if raw.head? = some '+' then raw.tail else raw
  match ofHexDigits digits with
  | some n => if digits ≠ [] ∧ n < 2 ^ 64 then .ok n else .error (.number field)
  | none => .error (.number field)

lemma length_drop_twelve (word : Bytes 32) : (word.1.drop 12).length = 20 := by
  grind

def topicAddress (value : List Char) : Except DecodeError (Bytes 20) := do
  let topic ← decodeFixed 32 value "topic"
  return ⟨topic.1.drop 12, length_drop_twelve topic⟩

/-! ## Words -/

abbrev AbiData (words : ℕ) := { data : List UInt8 // words * 32 ≤ data.length }

def parseData (raw : RpcLog) (words : ℕ) : Except DecodeError (AbiData words) := do
  let data ← decodeHex raw.data "data"
  if h : words * 32 ≤ data.length then return ⟨data, h⟩ else throw .shortData

def word {words : ℕ} (data : AbiData words) (index : Fin words) : Bytes 32 :=
  ⟨(data.1.drop (index * 32)).take 32, by
    have hdata := data.2
    have hindex := index.2
    rw [List.length_take, List.length_drop]
    omega⟩

def lowU64 (word : List UInt8) : Option ℕ :=
  if (word.take 24).any (· ≠ 0) then none else some (fromBeBytes (word.drop 24))

def wordU64 {words : ℕ} (data : AbiData words) (index : Fin words) (field : String) :
    Except DecodeError ℕ :=
  match lowU64 (word data index).1 with
  | some n => .ok n
  | none => .error (.number field)

def usizeAdd (a b : ℕ) : ℕ := (a + b) % 2 ^ 64

lemma usizeAdd_of_lt {a b : ℕ} (h : a + b < 2 ^ 64) : usizeAdd a b = a + b := Nat.mod_eq_of_lt h

def dynamicWord {words : ℕ} (data : AbiData words) (index : Fin words) :
    Except DecodeError (List UInt8) := do
  let offset ← wordU64 data index "dynamic offset"
  match slice data.1 offset (usizeAdd offset 32) with
  | none => throw .dynamicOffset
  | some lengthWord =>
    match lowU64 lengthWord with
    | none => throw .dynamicOffset
    | some length =>
      match slice data.1 (usizeAdd offset 32) (usizeAdd (usizeAdd offset 32) length) with
      | none => throw .dynamicOffset
      | some value => return value

/-! ## The ancillary text -/

def isAsciiWhitespace (b : UInt8) : Bool := b == 32 || b == 9 || b == 10 || b == 12 || b == 13

def isAsciiDigit (b : UInt8) : Bool := decide (48 ≤ b) && decide (b ≤ 57)

def findKey (needle : List UInt8) : Option UInt8 → List UInt8 → Option (List UInt8)
  | _, [] => none
  | previous, b :: rest =>
    if needle.isPrefixOf (b :: rest) ∧ previous.all (fun p => isAsciiWhitespace p || p == 44) then
      some ((b :: rest).drop needle.length)
    else findKey needle (some b) rest

def parseDigits (digits : List UInt8) : Option ℕ :=
  let n := digits.foldl (fun n b => 10 * n + (b.toNat - 48)) 0
  if digits ≠ [] ∧ n < 2 ^ 64 then some n else none

def fieldNumber (text : List UInt8) (key : String) : Option ℕ := do
  let rest ← findKey (key.toUTF8.toList ++ [58]) none text
  parseDigits ((rest.dropWhile isAsciiWhitespace).takeWhile isAsciiDigit)

def isUtf8 (raw : List UInt8) : Bool := (ByteArray.mk raw.toArray).validateUTF8

section Keccak

variable (keccak : List UInt8 → Bytes 32)

def parseAncillary (raw : List UInt8) : Except DecodeError PolymarketAncillary :=
  if isUtf8 raw then .ok ⟨keccak raw, fieldNumber raw "market_id"⟩ else .error .ancillaryUtf8

/-! ## Events -/

def deriveBinaryConditionId (requester : Bytes 20) (questionId : Bytes 32) : Bytes 32 :=
  keccak (requester.1 ++ (questionId.1 ++ (List.replicate 31 0 ++ [2])))

def buildChain (raw : RpcLog) (receivedAtUs : ℕ) : Except DecodeError ChainLog := do
  let blockNumber ← parseHexU64 raw.blockNumber "blockNumber"
  let transactionHash ← decodeFixed 32 raw.transactionHash "transactionHash"
  let logIndex ← parseHexU64 raw.logIndex "logIndex"
  if logIndex < 2 ^ 32 then
    return ⟨blockNumber, transactionHash, logIndex, receivedAtUs, raw.removed⟩
  else throw (.number "logIndex")

def parseRequest (requesterTopic : List Char) (data : AbiData 4) :
    Except DecodeError PriceRequest := do
  let requester ← topicAddress requesterTopic
  let ancillary ← parseAncillary keccak (← dynamicWord data 2)
  return ⟨requester, deriveBinaryConditionId keccak requester ancillary.questionId, ancillary,
    word data 3⟩

def parseEvent (kind : ChainLog → PriceRequest → UmaEvent) (topics : ℕ) (raw : RpcLog)
    (receivedAtUs : ℕ) : Except DecodeError UmaEvent :=
  match raw.topics with
  | _ :: requesterTopic :: _ => do
      if raw.topics.length < topics then throw .topic
      let data ← parseData raw 4
      let chain ← buildChain raw receivedAtUs
      let request ← parseRequest keccak requesterTopic data
      return kind chain request
  | _ => .error .topic

def proposePriceParse (raw : RpcLog) (receivedAtUs : ℕ) : Except DecodeError UmaEvent :=
  parseEvent keccak .proposePrice 3 raw receivedAtUs

def disputePriceParse (raw : RpcLog) (receivedAtUs : ℕ) : Except DecodeError UmaEvent :=
  parseEvent keccak .disputePrice 4 raw receivedAtUs

def decodeSignalLog (raw : RpcLog) (receivedAtUs : ℕ) (allowedEmitters : List (Bytes 20))
    (requireMarketId : Bool) : Except DecodeError UmaEvent := do
  let emitter ← decodeFixed 20 raw.address "address"
  if allowedEmitters ≠ [] ∧ emitter ∉ allowedEmitters then throw .emitter
  let event ← match raw.topics.head?.map (List.map Char.toLower) with
    | some topic =>
      if topic = topicProposePrice then proposePriceParse keccak raw receivedAtUs
      else if topic = topicDisputePrice then disputePriceParse keccak raw receivedAtUs
      else .error .topic
    | none => .error .topic
  if requireMarketId ∧ event.marketId = 0 then throw .missingMarketId
  return event

end Keccak

end RustUma.Uma
