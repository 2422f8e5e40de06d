import RustUma.Uma.Events

/-!
# Pending calls of the oracle (`src/mempool/calldata.rs`)

The calls in the input of a pending transaction, and the log each of them will leave on the chain.
-/

namespace RustUma.Mempool

open RustUma.Found RustUma.Model RustUma.Uma

/-! ## Calls -/

inductive CallKind
  | propose
  | dispute
  deriving DecidableEq

abbrev ByteVec := { bytes : List UInt8 // bytes.length < 2 ^ 63 }

def byteVec? (bytes : List UInt8) : Option ByteVec :=
  if h : bytes.length < 2 ^ 63 then some ⟨bytes, h⟩ else none

structure OracleCall where
  kind : CallKind
  requester : Bytes 20
  identifier : Bytes 32
  timestamp : Bytes 32
  ancillary : ByteVec
  price : Bytes 32
  actor : Option (Bytes 20)
  deriving DecidableEq

structure RequestKey where
  requester : Bytes 20
  questionId : Bytes 32
  timestamp : ℕ
  deriving DecidableEq

def RequestKey.market (key : RequestKey) : Bytes 20 × Bytes 32 := (key.requester, key.questionId)

def u64Word (word : Bytes 32) : ℕ := fromBeBytes (word.1.drop 24)

def OracleCall.requestKey (keccak : List UInt8 → Bytes 32) (call : OracleCall) : RequestKey :=
  ⟨call.requester, keccak call.ancillary.1, u64Word call.timestamp⟩

/-! ## Calldata -/

def selPropose : List UInt8 := [0xb8, 0xb4, 0xf9, 0x08]

def selProposeFor : List UInt8 := [0x7c, 0x82, 0x28, 0x8f]

def selDispute : List UInt8 := [0xfb, 0xa7, 0xf1, 0xe3]

def selDisputeFor : List UInt8 := [0x76, 0xc7, 0x82, 0x3f]

def selMulticall : List UInt8 := [0xac, 0x96, 0x50, 0xd8]

def argWord (args : List UInt8) (i : ℕ) : Option (Bytes 32) :=
  (slice args (i * 32) ((i + 1) * 32)).bind (fixed 32)

def usizeAt (args : List UInt8) (offset : ℕ) : Option ℕ :=
  (slice args offset (usizeAdd offset 32)).bind lowU64

def dynamicBytes (args : List UInt8) (headIndex : ℕ) : Option ByteVec := do
  let off ← usizeAt args (headIndex * 32)
  let len ← usizeAt args off
  let start := usizeAdd off 32
  byteVec? (← slice args start (usizeAdd start len))

def address (word : Bytes 32) : Bytes 20 := ⟨word.1.drop 12, length_drop_twelve word⟩

def selector (sel : List UInt8) : Option (CallKind × ℕ) :=
  if sel = selPropose then some (.propose, 0)
  else if sel = selProposeFor then some (.propose, 1)
  else if sel = selDispute then some (.dispute, 0)
  else if sel = selDisputeFor then some (.dispute, 1)
  else none

def decodeOne (call : List UInt8) : Option OracleCall := do
  let sel ← slice call 0 4
  let args := call.drop 4
  let (kind, o) ← selector sel
  let actor ← if o = 1 then (argWord args 0).map fun w => some (address w) else some none
  let requester ← argWord args o
  let identifier ← argWord args (o + 1)
  let timestamp ← argWord args (o + 2)
  let ancillary ← dynamicBytes args (o + 3)
  let price ← if kind = .propose then argWord args (o + 4) else some (Bytes.fill 32 0)
  return ⟨kind, address requester, identifier, timestamp, ancillary, price, actor⟩

def decodeItems (args : List UInt8) (base i : ℕ) : ℕ → List OracleCall
  | 0 => []
  | left + 1 =>
    match usizeAt args (usizeAdd base (32 * i)) with
    | none => []
    | some eo =>
      match usizeAt args (usizeAdd base eo) with
      | none => []
      | some len =>
        let start := usizeAdd (usizeAdd base eo) 32
        ((slice args start (usizeAdd start len)).bind decodeOne).toList ++
          decodeItems args base (i + 1) left

def decodeInput (input : List UInt8) : List OracleCall :=
  if slice input 0 4 = some selMulticall then
    let args := input.drop 4
    match usizeAt args 0 with
    | none => []
    | some off =>
      match usizeAt args off with
      | none => []
      | some n => decodeItems args (usizeAdd off 32) 0 (min n 256)
  else (decodeOne input).toList

/-! ## The log of a call -/

def pad32 (len : ℕ) : ℕ := (len + 31) / 32 * 32

def hex0x (bytes : List UInt8) : List Char := '0' :: 'x' :: hexEncode bytes

def u64ToWord (n : ℕ) : List UInt8 := List.replicate 24 0 ++ toBeBytes 8 n

def topicAddr (addr : Bytes 20) : List Char := hex0x (List.replicate 12 0 ++ addr.1)

def headWords : CallKind → ℕ
  | .propose => 6
  | .dispute => 4

def unknownWords : CallKind → List UInt8
  | .propose => List.replicate 64 0
  | .dispute => []

def synthData (call : OracleCall) : List UInt8 :=
  call.identifier.1 ++ (call.timestamp.1 ++ (u64ToWord (headWords call.kind * 32) ++
    (call.price.1 ++ (unknownWords call.kind ++ (u64ToWord call.ancillary.1.length ++
      (call.ancillary.1 ++
        List.replicate (pad32 call.ancillary.1.length - call.ancillary.1.length) 0))))))

def synthTopics (call : OracleCall) (sender : Bytes 20) : List (List Char) :=
  match call.kind with
  | .propose =>
    [topicProposePrice, topicAddr call.requester, topicAddr (call.actor.getD sender)]
  | .dispute =>
    [topicDisputePrice, topicAddr call.requester, topicAddr (Bytes.fill 20 0),
      topicAddr (call.actor.getD sender)]

def synthLog (call : OracleCall) (txHash : List Char) (logIndex : ℕ) (target : List Char)
    (sender : Bytes 20) : RpcLog where
  address := target
  topics := synthTopics call sender
  data := hex0x (synthData call)
  blockNumber := "0x0".toList
  blockHash := []
  transactionHash := txHash
  transactionIndex := none
  logIndex := '0' :: 'x' :: Nat.toDigits 16 logIndex
  removed := false

/-! ## Logs on the chain -/

def trimMarks : List Char → List Char
  | '0' :: 'x' :: rest => trimMarks rest
  | text => text

def topicKind (topic : List Char) : Option CallKind :=
  if topic = topicProposePrice then some .propose
  else if topic = topicDisputePrice then some .dispute
  else none

def parseOnchain (keccak : List UInt8 → Bytes 32) (log : RpcLog) :
    Option (CallKind × RequestKey × Bytes 32) := do
  let kind ← topicKind ((← log.topics[0]?).map Char.toLower)
  let requesterWord ← hexDecode (trimMarks (← log.topics[1]?))
  let requester ← fixed 20 (← slice requesterWord 12 requesterWord.length)
  let data ← hexDecode (trimMarks log.data)
  let ts ← argWord data 1
  let off := u64Word (← argWord data 2)
  let len := fromBeBytes (← slice data (usizeAdd off 24) (usizeAdd off 32))
  let anc ← slice data (usizeAdd off 32) (usizeAdd (usizeAdd off 32) len)
  let price ← argWord data 3
  return (kind, ⟨requester, keccak anc, u64Word ts⟩, price)

/-! ## Reading a log back -/

lemma stripMark_hex0x (bytes : List UInt8) : stripMark (hex0x bytes) = hexEncode bytes := rfl

lemma digitChar_ne_x {n : ℕ} (h : n < 16) : n.digitChar ≠ 'x' := by
  simp

lemma trimMarks_hex0x (bytes : List UInt8) : trimMarks (hex0x bytes) = hexEncode bytes := by
  cases bytes with
  | nil => rfl
  | cons b rest =>
    have hx := digitChar_ne_x (Nat.mod_lt b.toNat (by decide : 0 < 16))
    show trimMarks (_ :: _ :: hexEncode rest) = _ :: _ :: hexEncode rest
    unfold trimMarks
    simp

lemma length_u64ToWord (n : ℕ) : (u64ToWord n).length = 32 := by simp [u64ToWord]

lemma lowU64_u64ToWord {n : ℕ} (h : n < 2 ^ 64) : lowU64 (u64ToWord n) = some n := by
  unfold lowU64 u64ToWord
  rw [List.take_left' List.length_replicate, List.drop_left' List.length_replicate,
    if_neg (by decide), fromBeBytes_toBeBytes 8 n h]

def synthHead (call : OracleCall) : List UInt8 :=
  call.identifier.1 ++ (call.timestamp.1 ++ (u64ToWord (headWords call.kind * 32) ++
    (call.price.1 ++ unknownWords call.kind)))

section Layout

variable (call : OracleCall)

lemma length_synthHead : (synthHead call).length = headWords call.kind * 32 := by
  have hid := call.identifier.2
  have hts := call.timestamp.2
  have hprice := call.price.2
  unfold synthHead
  simp only [List.length_append, length_u64ToWord, hid, hts, hprice]
  cases call.kind <;> rfl

lemma headWords_le : headWords call.kind ≤ 6 := by cases call.kind <;> decide

lemma length_synthData_ge : 4 * 32 ≤ (synthData call).length := by
  have hid := call.identifier.2
  have hts := call.timestamp.2
  have hprice := call.price.2
  unfold synthData
  simp only [List.length_append, length_u64ToWord, hid, hts, hprice]
  omega

lemma slice_timestamp : slice (synthData call) 32 64 = some call.timestamp.1 :=
  slice_append call.identifier.2 (by rw [call.timestamp.2])

lemma slice_offset :
    slice (synthData call) 64 96 = some (u64ToWord (headWords call.kind * 32)) := by
  unfold synthData
  rw [← List.append_assoc call.identifier.1]
  exact slice_append (by grind)
    (by rw [length_u64ToWord])

lemma slice_price : slice (synthData call) 96 128 = some call.price.1 := by
  unfold synthData
  rw [← List.append_assoc call.identifier.1, ← List.append_assoc (call.identifier.1 ++ _)]
  refine slice_append ?_ (by rw [call.price.2])
  rw [List.length_append, List.length_append, call.identifier.2, call.timestamp.2,
    length_u64ToWord]

lemma synthData_eq : synthData call = synthHead call ++ (u64ToWord call.ancillary.1.length ++
    (call.ancillary.1 ++
      List.replicate (pad32 call.ancillary.1.length - call.ancillary.1.length) 0)) := by
  simp only [synthData, synthHead, List.append_assoc]

lemma slice_length : slice (synthData call) (headWords call.kind * 32)
    (headWords call.kind * 32 + 32) = some (u64ToWord call.ancillary.1.length) := by
  rw [synthData_eq]
  exact slice_append (length_synthHead call) (by rw [length_u64ToWord])

lemma slice_ancillary : slice (synthData call) (headWords call.kind * 32 + 32)
    (headWords call.kind * 32 + 32 + call.ancillary.1.length) = some call.ancillary.1 := by
  rw [synthData_eq, ← List.append_assoc]
  refine slice_append ?_ rfl
  rw [List.length_append, length_synthHead, length_u64ToWord]

lemma slice_lengthDigits : slice (synthData call) (headWords call.kind * 32 + 24)
    (headWords call.kind * 32 + 32) = some (toBeBytes 8 call.ancillary.1.length) := by
  rw [synthData_eq, u64ToWord, List.append_assoc, ← List.append_assoc (synthHead call)]
  refine slice_append ?_ (by rw [length_toBeBytes])
  rw [List.length_append, length_synthHead, List.length_replicate]

lemma offset_lt {n : ℕ} (h : n ≤ 32 + call.ancillary.1.length) :
    headWords call.kind * 32 + n < 2 ^ 64 := by
  have hwords := headWords_le call
  grind

lemma argWord_timestamp : argWord (synthData call) 1 = some call.timestamp := by
  have h : slice (synthData call) (1 * 32) ((1 + 1) * 32) = some call.timestamp.1 :=
    slice_timestamp call
  rw [argWord, h, Option.bind_some, fixed_val]

lemma argWord_offset :
    (argWord (synthData call) 2).map u64Word = some (headWords call.kind * 32) := by
  have h : slice (synthData call) (2 * 32) ((2 + 1) * 32) = _ := slice_offset call
  have hwords := headWords_le call
  have hlt : headWords call.kind * 32 < 256 ^ 8 := by omega
  have hword : fixed 32 (u64ToWord (headWords call.kind * 32)) =
      some ⟨u64ToWord (headWords call.kind * 32), length_u64ToWord _⟩ := dif_pos _
  rw [argWord, h, Option.bind_some, hword, Option.map_some, u64Word]
  unfold u64ToWord
  rw [List.drop_left' List.length_replicate, fromBeBytes_toBeBytes 8 _ hlt]

lemma argWord_price : argWord (synthData call) 3 = some call.price := by
  have h : slice (synthData call) (3 * 32) ((3 + 1) * 32) = some call.price.1 := slice_price call
  rw [argWord, h, Option.bind_some, fixed_val]

end Layout

def CallKind.topic : CallKind → List Char
  | .propose => topicProposePrice
  | .dispute => topicDisputePrice

lemma synthTopics_eq (call : OracleCall) (sender : Bytes 20) : ∃ rest,
    synthTopics call sender = call.kind.topic :: topicAddr call.requester :: rest ∧
      (if call.kind = .propose then 1 else 2) = rest.length := by
  unfold synthTopics
  cases call.kind with
  | propose => exact ⟨_, rfl, rfl⟩
  | dispute => exact ⟨_, rfl, rfl⟩

lemma topic_toLower (kind : CallKind) : kind.topic.map Char.toLower = kind.topic := by
  cases kind <;> decide +kernel

lemma topicKind_topic (kind : CallKind) : topicKind kind.topic = some kind := by
  cases kind with
  | propose => exact if_pos rfl
  | dispute => rfl

lemma parseOnchain_synthLog (keccak : List UInt8 → Bytes 32) (call : OracleCall)
    (txHash : List Char) (logIndex : ℕ) (target : List Char) (sender : Bytes 20) :
    parseOnchain keccak (synthLog call txHash logIndex target sender) =
      some (call.kind, call.requestKey keccak, call.price) := by
  obtain ⟨rest, htopics, -⟩ := synthTopics_eq call sender
  have hrequester : slice (List.replicate 12 0 ++ (call.requester.1 ++ [])) 12 32 =
      some call.requester.1 := slice_append List.length_replicate (by rw [call.requester.2])
  have hwidth : (List.replicate 12 (0 : UInt8) ++ call.requester.1).length = 32 := by
    grind
  obtain ⟨off, hoff, hoffset⟩ := Option.map_eq_some_iff.mp (argWord_offset call)
  have hlen : fromBeBytes (toBeBytes 8 call.ancillary.1.length) = call.ancillary.1.length :=
    fromBeBytes_toBeBytes 8 _ (lt_trans call.ancillary.2 (by decide))
  rw [List.append_nil] at hrequester
  simp only [parseOnchain, synthLog, htopics, List.getElem?_cons_zero, List.getElem?_cons_succ,
    Option.bind_eq_bind, Option.bind_some, topic_toLower, topicKind_topic, topicAddr,
    trimMarks_hex0x, hexDecode_encode, hwidth, hrequester, fixed_val, argWord_timestamp, hoff,
    hoffset, usizeAdd_of_lt (offset_lt call (show 24 ≤ _ by omega)),
    usizeAdd_of_lt (offset_lt call (show 32 ≤ _ by omega)), slice_lengthDigits, hlen,
    argWord_price, Option.pure_def]
  rw [usizeAdd_of_lt (by have := offset_lt call le_rfl; omega), slice_ancillary]
  rfl

/-! ## Decoding a log of a call -/

def signal (keccak : List UInt8 → Bytes 32) (call : OracleCall) (txHash : Bytes 32)
    (logIndex receivedAtUs : ℕ) : UmaEvent :=
  let chain : ChainLog := ⟨0, txHash, logIndex, receivedAtUs, false⟩
  let questionId := keccak call.ancillary.1
  let request : PriceRequest :=
    ⟨call.requester, deriveBinaryConditionId keccak call.requester questionId,
      ⟨questionId, fieldNumber call.ancillary.1 "market_id"⟩, call.price⟩
  match call.kind with
  | .propose => .proposePrice chain request
  | .dispute => .disputePrice chain request

lemma decodeHex_hex0x (bytes : List UInt8) (field : String) :
    decodeHex (hex0x bytes) field = .ok bytes := by
  rw [decodeHex, stripMark_hex0x, hexDecode_encode]

lemma decodeFixed_eq_ok {value : List Char} {field : String} {bytes : List UInt8} {n : ℕ}
    (h : decodeHex value field = .ok bytes) (hlen : bytes.length = n) :
    decodeFixed n value field = .ok ⟨bytes, hlen⟩ := by
  have hfixed : fixed n bytes = some ⟨bytes, hlen⟩ := dif_pos hlen
  simp only [decodeFixed, h, Except.bind, bind, hfixed]
  rfl

lemma topicAddress_topicAddr (addr : Bytes 20) : topicAddress (topicAddr addr) = .ok addr := by
  have hwidth : (List.replicate 12 (0 : UInt8) ++ addr.1).length = 32 := by
    grind
  unfold topicAddress topicAddr
  rw [decodeFixed_eq_ok (decodeHex_hex0x _ _) hwidth]
  rfl

lemma parseHexU64_toDigits (n : ℕ) (field : String) :
    parseHexU64 ('0' :: 'x' :: Nat.toDigits 16 n) field =
      if n < 2 ^ 64 then .ok n else .error (.number field) := by
  have hdigits := ofHexDigits_toDigits n
  have hplus : (Nat.toDigits 16 n).head? ≠ some '+' := by
    intro hhead
    obtain ⟨rest, hrest⟩ := List.head?_eq_some_iff.mp hhead
    rw [hrest] at hdigits
    cases hdigits
  have hraw : stripMark ('0' :: 'x' :: Nat.toDigits 16 n) = Nat.toDigits 16 n := rfl
  simp only [parseHexU64, hraw, if_neg hplus, hdigits, ne_eq, Nat.toDigits_ne_nil,
    not_false_eq_true, true_and]

def abiData (call : OracleCall) : AbiData 4 := ⟨synthData call, length_synthData_ge call⟩

lemma word_eq_of_slice {words : ℕ} {data : AbiData words} {index : Fin words}
    {value : List UInt8} (h : slice data.1 (index * 32) (index * 32 + 32) = some value) :
    (word data index).1 = value := by
  unfold slice at h
  rw [Option.ite_none_right_eq_some, Nat.add_sub_cancel_left] at h
  exact Option.some.inj h.2

lemma dynamicWord_abiData (call : OracleCall) :
    dynamicWord (abiData call) 2 = .ok call.ancillary.1 := by
  have hword : (word (abiData call) 2).1 = u64ToWord (headWords call.kind * 32) :=
    word_eq_of_slice (slice_offset call)
  have hoffset : wordU64 (abiData call) 2 "dynamic offset" = .ok (headWords call.kind * 32) := by
    have hwords := headWords_le call
    rw [wordU64, hword, lowU64_u64ToWord (by omega)]
  have hdata : (abiData call).1 = synthData call := rfl
  have hend : usizeAdd (headWords call.kind * 32) 32 = headWords call.kind * 32 + 32 :=
    usizeAdd_of_lt (offset_lt call (by omega))
  have hlast : usizeAdd (headWords call.kind * 32 + 32) call.ancillary.1.length =
      headWords call.kind * 32 + 32 + call.ancillary.1.length :=
    usizeAdd_of_lt (by have := offset_lt call le_rfl; omega)
  simp only [dynamicWord, hoffset, hdata, hend, slice_length, bind, Except.bind,
    lowU64_u64ToWord (lt_trans call.ancillary.2 (by decide)), hlast, slice_ancillary]
  rfl

section Signal

variable (keccak : List UInt8 → Bytes 32) (call : OracleCall) {txHash target : List Char}
  {hash : Bytes 32} {emitter : Bytes 20} {logIndex : ℕ} (sender : Bytes 20) (receivedAtUs : ℕ)

lemma parseRequest_abiData (hutf8 : isUtf8 call.ancillary.1 = true) :
    parseRequest keccak (topicAddr call.requester) (abiData call) =
      .ok ⟨call.requester,
        deriveBinaryConditionId keccak call.requester (keccak call.ancillary.1),
        ⟨keccak call.ancillary.1, fieldNumber call.ancillary.1 "market_id"⟩, call.price⟩ := by
  have hprice : word (abiData call) 3 = call.price :=
    Subtype.ext (word_eq_of_slice (slice_price call))
  simp only [parseRequest, topicAddress_topicAddr, dynamicWord_abiData, parseAncillary, hutf8,
    if_true, hprice, bind, Except.bind]
  rfl

lemma buildChain_synthLog (hhash : decodeFixed 32 txHash "transactionHash" = .ok hash)
    (hindex : logIndex < 2 ^ 32) :
    buildChain (synthLog call txHash logIndex target sender) receivedAtUs =
      .ok ⟨0, hash, logIndex, receivedAtUs, false⟩ := by
  have hblock : parseHexU64 "0x0".toList "blockNumber" = .ok 0 := by decide
  have hparsed := parseHexU64_toDigits logIndex "logIndex"
  rw [if_pos (lt_trans hindex (by decide))] at hparsed
  simp only [buildChain, synthLog, hblock, hhash, hparsed, bind, Except.bind, if_pos hindex]
  rfl

lemma eq_of_buildChain_synthLog {chain : ChainLog}
    (h : buildChain (synthLog call txHash logIndex target sender) receivedAtUs = .ok chain) :
    ∃ hash : Bytes 32, chain = ⟨0, hash, logIndex, receivedAtUs, false⟩ := by
  have hblock : parseHexU64 "0x0".toList "blockNumber" = .ok 0 := by decide
  cases hhash : decodeFixed 32 txHash "transactionHash" with
  | error e =>
    simp only [buildChain, synthLog, hblock, hhash, bind, Except.bind] at h
    cases h
  | ok hash =>
    simp only [buildChain, synthLog, hblock, hhash, parseHexU64_toDigits, bind, Except.bind] at h
    split_ifs at h with hu64
    dsimp only at h
    split_ifs at h with hu32
    cases h
    exact ⟨hash, rfl⟩

lemma parseData_synthLog :
    parseData (synthLog call txHash logIndex target sender) 4 = .ok (abiData call) := by
  simp only [parseData, synthLog, decodeHex_hex0x, bind, Except.bind]
  exact dif_pos (length_synthData_ge call)

lemma decodeSignalLog_synthLog (hutf8 : isUtf8 call.ancillary.1 = true)
    (hhash : decodeFixed 32 txHash "transactionHash" = .ok hash)
    (htarget : decodeFixed 20 target "address" = .ok emitter) (hindex : logIndex < 2 ^ 32)
    (allowed : List (Bytes 20)) :
    decodeSignalLog keccak (synthLog call txHash logIndex target sender) receivedAtUs allowed
      false =
      if allowed = [] ∨ emitter ∈ allowed then
        .ok (signal keccak call hash logIndex receivedAtUs)
      else .error .emitter := by
  obtain ⟨rest, htopics, hrest⟩ := synthTopics_eq call sender
  have hdata : parseData (synthLog call txHash logIndex target sender) 4 = .ok (abiData call) :=
    parseData_synthLog call sender
  have hchain : buildChain (synthLog call txHash logIndex target sender) receivedAtUs = _ :=
    buildChain_synthLog call sender receivedAtUs hhash hindex
  have hrequest := parseRequest_abiData keccak call hutf8
  have hlog : (synthLog call txHash logIndex target sender).topics =
      call.kind.topic :: topicAddr call.requester :: rest := htopics
  have haddress : (synthLog call txHash logIndex target sender).address = target := rfl
  have hparse : ∀ (kind : ChainLog → PriceRequest → UmaEvent) (n : ℕ), n ≤ 2 + rest.length →
      parseEvent keccak kind n (synthLog call txHash logIndex target sender) receivedAtUs =
        .ok (kind ⟨0, hash, logIndex, receivedAtUs, false⟩ ⟨call.requester,
          deriveBinaryConditionId keccak call.requester (keccak call.ancillary.1),
          ⟨keccak call.ancillary.1, fieldNumber call.ancillary.1 "market_id"⟩, call.price⟩) := by
    intro kind n hn
    have hlength : ¬(call.kind.topic :: topicAddr call.requester :: rest).length < n := by
      grind
    simp only [parseEvent, hlog, if_neg hlength, hdata, hchain, hrequest, bind, Except.bind]
    rfl
  simp only [decodeSignalLog, haddress, htarget, hlog, List.head?_cons, Option.map_some,
    topic_toLower, bind, Except.bind]
  by_cases hallowed : allowed = [] ∨ emitter ∈ allowed
  · rw [if_pos hallowed, if_neg (by tauto)]
    cases hkind : call.kind with
    | propose =>
      rw [hkind, if_pos rfl] at hrest
      simp only [CallKind.topic, proposePriceParse, hparse _ 3 (by omega), signal, hkind]
      rfl
    | dispute =>
      rw [hkind, if_neg (by decide)] at hrest
      simp only [CallKind.topic, if_neg topics_ne, disputePriceParse, hparse _ 4 (by omega),
        signal, hkind]
      rfl
  · rw [if_neg hallowed, if_pos (by tauto)]
    rfl

variable {event : UmaEvent}

lemma eq_of_parseEvent_synthLog {kind : ChainLog → PriceRequest → UmaEvent} {n : ℕ}
    (h : parseEvent keccak kind n (synthLog call txHash logIndex target sender) receivedAtUs =
      .ok event)
    :
    ∃ hash : Bytes 32, event = kind ⟨0, hash, logIndex, receivedAtUs, false⟩ ⟨call.requester,
      deriveBinaryConditionId keccak call.requester (keccak call.ancillary.1),
      ⟨keccak call.ancillary.1, fieldNumber call.ancillary.1 "market_id"⟩, call.price⟩ := by
  obtain ⟨rest, htopics, -⟩ := synthTopics_eq call sender
  have hlog : (synthLog call txHash logIndex target sender).topics =
      call.kind.topic :: topicAddr call.requester :: rest := htopics
  have hdata : parseData (synthLog call txHash logIndex target sender) 4 = .ok (abiData call) :=
    parseData_synthLog call sender
  simp only [parseEvent, hlog, hdata, bind, Except.bind, throw, throwThe, MonadExceptOf.throw,
    pure, Except.pure] at h
  split_ifs at h with hlength
  cases hchain : buildChain (synthLog call txHash logIndex target sender) receivedAtUs with
  | error e =>
    simp_all
  | ok chain =>
    obtain ⟨hash, rfl⟩ := eq_of_buildChain_synthLog call sender receivedAtUs hchain
    rw [hchain] at h
    by_cases hutf8 : isUtf8 call.ancillary.1 = true
    · rw [parseRequest_abiData keccak call hutf8] at h
      grind
    · simp only [parseRequest, topicAddress_topicAddr, dynamicWord_abiData, parseAncillary,
        hutf8, bind, Except.bind] at h
      cases h

lemma eq_ok_of_required {parsed : Except DecodeError UmaEvent} {requireMarketId : Bool}
    (h : (parsed.bind fun v => if requireMarketId = true ∧ v.marketId =
      0 then .error .missingMarketId else .ok v) = .ok event) :
    parsed = .ok event := by
  cases parsed with
  | error e => cases h
  | ok v =>
    dsimp only [Except.bind] at h
    grind

lemma eq_signal_of_decodeSignalLog {allowed : List (Bytes 20)} {requireMarketId : Bool}
    (h : decodeSignalLog keccak (synthLog call txHash logIndex target sender) receivedAtUs allowed
      requireMarketId = .ok event)
    :
    ∃ hash : Bytes 32, event = signal keccak call hash logIndex receivedAtUs := by
  obtain ⟨rest, htopics, -⟩ := synthTopics_eq call sender
  have hlog : (synthLog call txHash logIndex target sender).topics =
      call.kind.topic :: topicAddr call.requester :: rest := htopics
  unfold decodeSignalLog at h
  cases htarget : decodeFixed 20 (synthLog call txHash logIndex target sender).address
      "address" with
  | error e =>
    rw [htarget] at h
    cases h
  | ok emitter =>
    rw [htarget, hlog, List.head?_cons, Option.map_some] at h
    simp only [bind, Except.bind, pure, Except.pure, throw, throwThe, MonadExceptOf.throw] at h
    split_ifs at h with hallowed hpropose hdispute
    · have hkind : call.kind = .propose := by
        cases hkind : call.kind with
        | propose => rfl
        | dispute =>
          rw [hkind] at hpropose
          exact absurd hpropose topics_ne
      have hparsed := eq_ok_of_required h
      obtain ⟨hash, rfl⟩ := eq_of_parseEvent_synthLog keccak call sender receivedAtUs hparsed
      exact ⟨hash, by rw [signal, hkind]⟩
    · have hkind : call.kind = .dispute := by
        cases hkind : call.kind with
        | propose =>
          rw [hkind] at hpropose
          exact absurd rfl hpropose
        | dispute => rfl
      have hparsed := eq_ok_of_required h
      obtain ⟨hash, rfl⟩ := eq_of_parseEvent_synthLog keccak call sender receivedAtUs hparsed
      exact ⟨hash, by rw [signal, hkind]⟩

end Signal

def CallKind.eventKind : CallKind → EventKind
  | .propose => .propose
  | .dispute => .dispute

lemma signal_kind (keccak : List UInt8 → Bytes 32) (call : OracleCall) (txHash : Bytes 32)
    (logIndex receivedAtUs : ℕ) :
    (signal keccak call txHash logIndex receivedAtUs).kind = call.kind.eventKind := by
  unfold signal
  cases call.kind <;> rfl

lemma signal_request (keccak : List UInt8 → Bytes 32) (call : OracleCall) (txHash : Bytes 32)
    (logIndex receivedAtUs : ℕ) :
    (signal keccak call txHash logIndex receivedAtUs).request =
      ⟨call.requester, deriveBinaryConditionId keccak call.requester (keccak call.ancillary.1),
        ⟨keccak call.ancillary.1, fieldNumber call.ancillary.1 "market_id"⟩, call.price⟩ := by
  unfold signal
  cases call.kind <;> rfl

theorem pending_call_is_its_log (keccak : List UInt8 → Bytes 32) (call : OracleCall)
    {txHash target : List Char} {hash : Bytes 32} {emitter : Bytes 20} {logIndex : ℕ}
    (sender : Bytes 20) (receivedAtUs : ℕ) (allowed : List (Bytes 20))
    (hutf8 : isUtf8 call.ancillary.1 = true)
    (hhash : decodeFixed 32 txHash "transactionHash" = .ok hash)
    (htarget : decodeFixed 20 target "address" = .ok emitter) (hindex : logIndex < 2 ^ 32) :
    (∃ event : UmaEvent,
      decodeSignalLog keccak (synthLog call txHash logIndex target sender) receivedAtUs allowed
          false = (if allowed = [] ∨ emitter ∈ allowed then .ok event else .error .emitter) ∧
        event.kind = call.kind.eventKind ∧
        event.chain = ⟨0, hash, logIndex, receivedAtUs, false⟩ ∧
        event.request.requester = call.requester ∧
        event.request.proposedPrice = call.price ∧
        event.request.ancillary.questionId = keccak call.ancillary.1 ∧
        event.request.conditionId =
          deriveBinaryConditionId keccak call.requester (keccak call.ancillary.1) ∧
        event.request.ancillary.marketId = fieldNumber call.ancillary.1 "market_id") ∧
      parseOnchain keccak (synthLog call txHash logIndex target sender) =
        some (call.kind, call.requestKey keccak, call.price) := by
  refine ⟨⟨signal keccak call hash logIndex receivedAtUs, ?_, signal_kind _ _ _ _ _, ?_, ?_⟩,
    parseOnchain_synthLog keccak call txHash logIndex target sender⟩
  · exact decodeSignalLog_synthLog keccak call sender receivedAtUs hutf8 hhash htarget hindex
      allowed
  · unfold signal
    cases call.kind <;> rfl
  · rw [signal_request]
    simp

def testKeccak (bytes : List UInt8) : Bytes 32 := Bytes.fill 32 (UInt8.ofNat bytes.length)

def testCall (kind : CallKind) (ts : ℕ) (price : UInt8) (ancillary : ByteVec) : OracleCall where
  kind := kind
  requester := Bytes.fill 20 1
  identifier := Bytes.fill 32 2
  timestamp := ⟨u64ToWord ts, length_u64ToWord ts⟩
  ancillary := ancillary
  price := ⟨List.replicate 31 0 ++ [price], rfl⟩
  actor := none

def testAncillary : ByteVec :=
  ⟨"q: Wird es regnen? ☔, market_id: 907474 res_data: p1".toUTF8.toList, by decide +kernel⟩

/-- The log of a dispute whose ancillary data is no multiple of a word, sent to a contract written
in capitals and without a mark. -/
theorem pending_dispute_is_its_log :
    ∃ event, decodeSignalLog testKeccak
        (synthLog (testCall .dispute 10 1 testAncillary) (hex0x (List.replicate 32 7)) 3
          (List.replicate 40 'A') (Bytes.fill 20 9)) 5 [] false = .ok event ∧
      event.kind = .dispute ∧ event.request.ancillary.marketId = some 907474 := by
  have hhash : decodeFixed 32 (hex0x (List.replicate 32 7)) "transactionHash" =
      .ok (Bytes.fill 32 7) := rfl
  have htarget : decodeFixed 20 (List.replicate 40 'A') "address" = .ok (Bytes.fill 20 0xaa) := rfl
  have hindex : 3 < 2 ^ 32 := by decide
  obtain ⟨⟨event, hdecode, hkind, -, -, -, -, -, hmarket⟩, -⟩ :=
    pending_call_is_its_log testKeccak (testCall .dispute 10 1 testAncillary) (Bytes.fill 20 9) 5 []
      (by decide +kernel) hhash htarget hindex
  exact ⟨event, hdecode, hkind, hmarket.trans (by decide +kernel)⟩

end RustUma.Mempool
