import RustUma.Mempool.Abi

/-!
# Two decoders of a log (`src/mempool/feed.rs` `parse_onchain`, `src/uma/events/mod.rs`
`decode_signal_log`)

The gate learns of confirmations through one reader of logs, the service broadcasts through another.
The first takes the last eight bytes of the words with the offset and the length, whatever the
others are, and adds to the offset without a check.
-/

namespace RustUma.Mempool

open RustUma.Found RustUma.Model RustUma.Uma

/-! ## Logs -/

def LowerHex (text : List Char) : Prop :=
  text.take 2 = ['0', 'x'] ∧ ∀ c ∈ text.drop 2, c ∈ "0123456789abcdef".toList

structure Presentable (raw : RpcLog) : Prop where
  topics : ∀ topic ∈ raw.topics, LowerHex topic
  data : LowerHex raw.data
  emitter : ∃ emitter, decodeFixed 20 raw.address "address" = .ok emitter
  block : ∃ n, parseHexU64 raw.blockNumber "blockNumber" = .ok n
  transaction : ∃ hash, decodeFixed 32 raw.transactionHash "transactionHash" = .ok hash
  index : ∃ n, parseHexU64 raw.logIndex "logIndex" = .ok n ∧ n < 2 ^ 32
  proposed : ∀ first ∈ raw.topics.head?, first.map Char.toLower = topicProposePrice →
    3 ≤ raw.topics.length
  disputed : ∀ first ∈ raw.topics.head?, first.map Char.toLower = topicDisputePrice →
    4 ≤ raw.topics.length
  utf8 : ∀ data value, hexDecode (raw.data.drop 2) = some data →
    BytesAt data (natAt data 64) value → isUtf8 value = true
  size : raw.data.length < 2 ^ 63

def onchainText (data : List UInt8) : Option (List UInt8) :=
  (argWord data 2).bind fun offset =>
    (slice data (usizeAdd (u64Word offset) 24) (usizeAdd (u64Word offset) 32)).bind fun low =>
      slice data (usizeAdd (u64Word offset) 32)
        (usizeAdd (usizeAdd (u64Word offset) 32) (fromBeBytes low))

/-! ## Marks -/

section Marks

variable {text : List Char}

lemma stripMark_of_lowerHex (h : LowerHex text) : stripMark text = text.drop 2 := by
  have hsplit := List.take_append_drop 2 text
  rw [h.1] at hsplit
  rw [← hsplit]
  rfl

lemma trimMarks_of_lowerHex (h : LowerHex text) : trimMarks text = text.drop 2 := by
  have hsplit := List.take_append_drop 2 text
  rw [h.1] at hsplit
  have hmarked : trimMarks text = trimMarks (text.drop 2) := by
    rw [← hsplit]
    rfl
  have hdigits := h.2
  rw [hmarked]
  generalize text.drop 2 = digits at hdigits
  unfold trimMarks
  split
  · simp_all
  · rfl

end Marks

/-! ## The ancillary bytes -/

section Text

variable {data value : List UInt8}

lemma fromBeBytes_drop {word : List UInt8} (hword : word.length = 32)
    (hlt : fromBeBytes word < 2 ^ 64) : fromBeBytes (word.drop 24) = fromBeBytes word := by
  have hlow := (lowU64_eq_some_iff hword).mpr ⟨rfl, hlt⟩
  unfold lowU64 at hlow
  simp_all

lemma lengthDigits {o : ℕ} (hinside : o + 32 ≤ data.length) (hlt : natAt data o < 2 ^ 64) :
    fromBeBytes ((data.drop (o + 24)).take (o + 32 - (o + 24))) = natAt data o := by
  have hbytes : (data.drop (o + 24)).take (o + 32 - (o + 24)) = (wordAt data o).drop 24 := by
    unfold wordAt
    rw [List.drop_take, List.drop_drop, Nat.add_sub_add_left]
  rw [hbytes]
  exact fromBeBytes_drop (length_take_drop hinside) hlt

lemma onchainText_of_bytesAt (hsize : data.length < 2 ^ 63) (hwords : 96 ≤ data.length)
    (h : BytesAt data (natAt data 64) value) : onchainText data = some value := by
  obtain ⟨hinside, rfl⟩ := h
  have hword : (wordAt data 64).length = 32 := length_take_drop hwords
  have hfirst : argWord data 2 = some ⟨wordAt data 64, hword⟩ :=
    argWord_eq_some_iff.mpr ⟨hwords, rfl⟩
  have hoff : u64Word ⟨wordAt data 64, hword⟩ = natAt data 64 :=
    fromBeBytes_drop hword (show natAt data 64 < 2 ^ 64 by omega)
  have hnumber : natAt data (natAt data 64) < 2 ^ 64 := by omega
  unfold onchainText
  rw [hfirst, Option.bind_some, hoff, usizeAdd_of_lt (by omega), usizeAdd_of_lt (by omega),
    Option.bind_eq_some_iff]
  refine ⟨_, slice_eq_some_iff.mpr ⟨by omega, by omega, rfl⟩, ?_⟩
  rw [lengthDigits (by omega) hnumber]
  exact (slice_usizeAdd_eq_some_iff (by omega) hnumber).mpr ⟨by omega, hinside, rfl⟩

end Text

/-! ## The two decoders -/

structure LogReading (text : List UInt8 → List UInt8 → Prop) (raw : RpcLog) (kind : CallKind)
    (requester : Bytes 20) (value : List UInt8) (price : Bytes 32) : Prop where
  kind : ∃ first, raw.topics[0]? = some first ∧ topicKind (first.map Char.toLower) = some kind
  requester : ∃ topic word, raw.topics[1]? = some topic ∧ hexDecode (topic.drop 2) = some word ∧
    word.length = 32 ∧ requester.1 = word.drop 12
  data : ∃ data, hexDecode (raw.data.drop 2) = some data ∧ 128 ≤ data.length ∧
    text data value ∧ price.1 = wordAt data 96

def AbiText (data value : List UInt8) : Prop := BytesAt data (natAt data 64) value

def FeedText (data value : List UInt8) : Prop := onchainText data = some value

def TextInside (raw : RpcLog) : Prop :=
  ∀ kind requester value price, LogReading FeedText raw kind requester value price →
    ∀ data, hexDecode (raw.data.drop 2) = some data →
      natAt data 64 + 32 + natAt data (natAt data 64) ≤ data.length

def Agree (keccak : List UInt8 → Bytes 32) (raw : RpcLog) (receivedAtUs : ℕ) : Prop :=
  ((parseOnchain keccak raw).isSome = true ↔
    ∃ event, decodeSignalLog keccak raw receivedAtUs [] false = .ok event) ∧
  ∀ kind key price event, parseOnchain keccak raw = some (kind, key, price) →
    decodeSignalLog keccak raw receivedAtUs [] false = .ok event →
    event.kind = kind.eventKind ∧ event.request.requester = key.requester ∧
    event.request.ancillary.questionId = key.questionId ∧
    event.request.proposedPrice = price

section Log

variable {keccak : List UInt8 → Bytes 32} {raw : RpcLog} {kind : CallKind} {requester : Bytes 20}
  {question price : Bytes 32} {receivedAtUs : ℕ} {event : UmaEvent}

lemma Presentable.data_lt (h : Presentable raw) {data : List UInt8}
    (hdata : hexDecode (raw.data.drop 2) = some data) : data.length < 2 ^ 63 := by
  have hhalf := length_of_hexDecode hdata
  have hsize := h.size
  grind

lemma Presentable.trimMarks_topic (h : Presentable raw) {topic : List Char} {i : ℕ}
    (htopic : raw.topics[i]? = some topic) : trimMarks topic = topic.drop 2 :=
  trimMarks_of_lowerHex (h.topics topic (List.mem_of_getElem? htopic))

lemma Presentable.stripMark_topic (h : Presentable raw) {topic : List Char} {i : ℕ}
    (htopic : raw.topics[i]? = some topic) : stripMark topic = topic.drop 2 :=
  stripMark_of_lowerHex (h.topics topic (List.mem_of_getElem? htopic))

lemma Presentable.parseOnchain_eq_some_iff (h : Presentable raw) :
    (∃ timestamp, parseOnchain keccak raw =
        some (kind, ⟨requester, question, timestamp⟩, price)) ↔
      ∃ value, LogReading FeedText raw kind requester value price ∧ question = keccak value := by
  unfold parseOnchain
  simp only [Option.bind_eq_bind, Option.bind_eq_some_iff, Option.pure_def, Option.some_inj,
    Prod.mk.injEq, RequestKey.mk.injEq, trimMarks_of_lowerHex h.data]
  constructor
  · rintro ⟨timestamp, first, hfirst, kind', hkind, topic, htopic, word, hword, last, hlast,
      requester', hrequester, data, hdata, ts, hts, offset, hoffset, low, hlow, value, hvalue,
      price', hprice, rfl, ⟨rfl, rfl, -⟩, rfl⟩
    rw [h.trimMarks_topic htopic] at hword
    obtain ⟨hlong, -, rfl⟩ := slice_eq_some_iff.mp hlast
    have hwidth := requester'.2
    rw [fixed_eq_some_iff.mp hrequester, List.length_take, List.length_drop] at hwidth
    obtain ⟨hwords, hfourth⟩ := argWord_eq_some_iff.mp hprice
    have htext : onchainText data = some value := by
      unfold onchainText
      simp_all
    refine ⟨value, ⟨⟨first, hfirst, hkind⟩, ⟨topic, word, htopic, hword, by omega, ?_⟩,
      ⟨data, hdata, hwords, htext, hfourth⟩⟩, rfl⟩
    rw [fixed_eq_some_iff.mp hrequester, List.take_of_length_le (by rw [List.length_drop])]
  · rintro ⟨value, ⟨⟨first, hfirst, hkind⟩, ⟨topic, word, htopic, hword, hwidth, hrequester⟩,
      ⟨data, hdata, hwords, htext, hprice⟩⟩, rfl⟩
    obtain ⟨offset, hoffset, htext⟩ := Option.bind_eq_some_iff.mp htext
    obtain ⟨low, hlow, htext⟩ := Option.bind_eq_some_iff.mp htext
    have hsecond : (wordAt data 32).length = 32 := length_take_drop (by omega)
    refine ⟨_, first, hfirst, kind, hkind, topic, htopic, word, ?_, word.drop 12, ?_, requester,
      fixed_eq_some_iff.mpr hrequester, data, hdata, ⟨wordAt data 32, hsecond⟩,
      argWord_eq_some_iff.mpr ⟨by omega, rfl⟩, offset, hoffset, low, hlow, value, htext, price,
      argWord_eq_some_iff.mpr ⟨hwords, hprice⟩, rfl, ⟨rfl, rfl, rfl⟩, rfl⟩
    · rw [h.trimMarks_topic htopic]
      exact hword
    · refine slice_eq_some_iff.mpr ⟨by omega, le_rfl, ?_⟩
      grind

lemma exists_of_parseEvent {make : ChainLog → PriceRequest → UmaEvent} {topics : ℕ}
    (h : parseEvent keccak make topics raw receivedAtUs = .ok event) :
    ∃ chain request, event = make chain request := by
  unfold parseEvent at h
  split at h
  · split_ifs at h
    · cases h
    · obtain ⟨data, -, h⟩ := bind_eq_ok_iff.mp h
      obtain ⟨chain, -, h⟩ := bind_eq_ok_iff.mp h
      obtain ⟨request, -, h⟩ := bind_eq_ok_iff.mp h
      cases h
      simp
  · cases h

lemma decodeSignalLog_kind
    (h : decodeSignalLog keccak raw receivedAtUs [] false = .ok event) :
    ∃ kind, event.kind = CallKind.eventKind kind ∧ ∃ first, raw.topics[0]? = some first ∧
      topicKind (first.map Char.toLower) = some kind := by
  obtain ⟨emitter, -, h⟩ := bind_eq_ok_iff.mp h
  rw [if_neg (fun hfalse => hfalse.1 rfl)] at h
  have hrest : ∀ event', ¬ (false = true ∧ UmaEvent.marketId event' = 0) :=
    fun _ hfalse => Bool.false_ne_true hfalse.1
  cases hfirst : raw.topics.head? with
  | none =>
    simp_all
  | some first =>
    rw [hfirst] at h
    rw [List.head?_eq_getElem?] at hfirst
    simp only [Option.map_some, if_neg (hrest _)] at h
    split_ifs at h with hpropose hdispute
    · obtain ⟨event', hevent, h⟩ := bind_eq_ok_iff.mp h
      cases h
      obtain ⟨chain, request, rfl⟩ := exists_of_parseEvent hevent
      exact ⟨.propose, rfl, first, hfirst, if_pos hpropose⟩
    · obtain ⟨event', hevent, h⟩ := bind_eq_ok_iff.mp h
      cases h
      obtain ⟨chain, request, rfl⟩ := exists_of_parseEvent hevent
      exact ⟨.dispute, rfl, first, hfirst, (if_neg hpropose).trans (if_pos hdispute)⟩
    · cases h

lemma CallKind.eventKind_injective : Function.Injective CallKind.eventKind := by
  intro k k' h
  cases k <;> cases k' <;> first | rfl | cases h

lemma Presentable.recognised (h : Presentable raw)
    (hkind : ∃ first, raw.topics[0]? = some first ∧
      topicKind (first.map Char.toLower) = some kind) : Recognised raw [] := by
  obtain ⟨first, hfirst, hkind⟩ := hkind
  rw [← List.head?_eq_getElem?] at hfirst
  obtain ⟨emitter, hemitter⟩ := h.emitter
  refine ⟨⟨emitter, hemitter, Or.inl rfl⟩, h.block, h.transaction, h.index, ⟨first, hfirst, ?_⟩,
    h.size⟩
  unfold topicKind at hkind
  split_ifs at hkind with hpropose hdispute
  · exact Or.inl ⟨hpropose, h.proposed first hfirst hpropose⟩
  · exact Or.inr ⟨hdispute, h.disputed first hfirst hdispute⟩

lemma Presentable.decodeSignalLog_eq_ok_iff (h : Presentable raw) :
    (∃ event, decodeSignalLog keccak raw receivedAtUs [] false = .ok event ∧
        event.kind = kind.eventKind ∧ event.request.requester = requester ∧
        event.request.ancillary.questionId = question ∧
        event.request.proposedPrice = price) ↔
      ∃ value, LogReading AbiText raw kind requester value price ∧ question = keccak value := by
  constructor
  · rintro ⟨event, hevent, hkind, hrequester, hquestion, hprice⟩
    obtain ⟨kind', hkind', hfirst⟩ := decodeSignalLog_kind hevent
    obtain rfl := CallKind.eventKind_injective (hkind'.symm.trans hkind)
    obtain ⟨make, hmake, hiff⟩ := (h.recognised hfirst).decode_eq_ok_iff keccak receivedAtUs
    obtain ⟨data, o, n, requester', topic, hlayout, htopic, haddress, price', hfourth, rfl⟩ :=
      (hiff event).mp hevent
    rw [hmake] at hrequester hquestion hprice
    have hhex := hlayout.hex
    rw [stripMark_of_lowerHex h.data] at hhex
    obtain rfl := hlayout.offset
    obtain rfl := hlayout.length
    refine ⟨_, ⟨hfirst, ?_, ⟨data, hhex, hlayout.words, ⟨hlayout.inside, rfl⟩, ?_⟩⟩,
      hquestion.symm⟩
    · obtain ⟨word, hword, hwidth, hlast⟩ := topicAddress_eq_ok_iff.mp haddress
      rw [h.stripMark_topic htopic] at hword
      simp_all
    · rw [← hprice]
      exact hfourth
  · rintro ⟨value, ⟨hfirst, ⟨topic, word, htopic, hword, hwidth, hrequester⟩,
      ⟨data, hdata, hwords, hvalue, hprice⟩⟩, rfl⟩
    obtain ⟨make, hmake, hiff⟩ := (h.recognised hfirst).decode_eq_ok_iff keccak receivedAtUs
    have hinside := hvalue.inside
    have hsize := h.data_lt hdata
    have haddress : topicAddress topic = .ok requester := by
      refine topicAddress_eq_ok_iff.mpr ⟨word, ?_, hwidth, hrequester⟩
      rw [h.stripMark_topic htopic]
      exact hword
    have hlayout : AbiLayout raw data (natAt data 64) (natAt data (natAt data 64)) :=
      { hex := by rw [stripMark_of_lowerHex h.data, hdata]
        words := hwords
        requester := by
          obtain ⟨w, hw⟩ := topicAddress_eq_ok.mp ⟨requester, haddress⟩
          simp_all
        offset := rfl
        offset_lt := by omega
        length := rfl
        length_lt := by omega
        inside := hinside
        text := by
          rw [← hvalue.eq]
          exact isUtf8_iff.mp (h.utf8 data value hdata hvalue) }
    have hevent := (hiff _).mpr ⟨data, _, _, requester, topic, hlayout, htopic, haddress, price,
      hprice, rfl⟩
    obtain ⟨kind', hkind', first, hfirst', htopicKind⟩ := decodeSignalLog_kind hevent
    obtain ⟨first', hfirst, hkind⟩ := hfirst
    obtain rfl := Option.some_inj.mp (hfirst'.symm.trans hfirst)
    obtain rfl := Option.some_inj.mp (htopicKind.symm.trans hkind)
    refine ⟨_, hevent, hkind', ?_⟩
    rw [hmake, hvalue.eq]
    simp

lemma Presentable.feedReading (h : Presentable raw) {value : List UInt8}
    (hread : LogReading AbiText raw kind requester value price) :
    LogReading FeedText raw kind requester value price := by
  obtain ⟨data, hdata, hwords, htext, hprice⟩ := hread.data
  exact ⟨hread.kind, hread.requester, data, hdata, hwords,
    onchainText_of_bytesAt (h.data_lt hdata) (by omega) htext, hprice⟩

lemma Presentable.abiReading (h : Presentable raw) (hinside : TextInside raw) {value : List UInt8}
    (hread : LogReading FeedText raw kind requester value price) :
    LogReading AbiText raw kind requester value price := by
  obtain ⟨data, hdata, hwords, htext, hprice⟩ := hread.data
  have habi : AbiText data _ := ⟨hinside kind requester value price hread data hdata, rfl⟩
  have hsame := onchainText_of_bytesAt (h.data_lt hdata) (by omega) habi
  rw [show onchainText data = some value from htext, Option.some_inj] at hsame
  exact ⟨hread.kind, hread.requester, data, hdata, hwords, hsame ▸ habi, hprice⟩

end Log

/-! ## Logs that are read, and logs that only one reads -/

def markedData (offset : List UInt8) : List UInt8 :=
  List.replicate 64 0 ++ offset ++ toBeBytes 32 7 ++ toBeBytes 32 2 ++ [104, 105]

def markedLog (offset : List UInt8) : RpcLog where
  address := hex0x (List.replicate 20 17)
  topics := [topicProposePrice, hex0x (List.replicate 32 3), hex0x (List.replicate 32 4)]
  data := hex0x (markedData offset)
  blockNumber := ['0', 'x', '1', '0']
  blockHash := []
  transactionHash := hex0x (List.replicate 32 9)
  transactionIndex := none
  logIndex := ['0', 'x', '1']
  removed := false

lemma hexDecode_markedLog (offset : List UInt8) :
    hexDecode ((markedLog offset).data.drop 2) = some (markedData offset) :=
  hexDecode_encode (markedData offset)

lemma lowerHex_hex0x (bytes : List UInt8) : LowerHex (hex0x bytes) := by
  have hdigit : ∀ n < 16, n.digitChar ∈ "0123456789abcdef".toList := by decide
  refine ⟨rfl, fun c hc => ?_⟩
  obtain ⟨b, -, hc⟩ := List.mem_flatMap.mp hc
  have hlt := b.toNat_lt
  grind

lemma lowerHex_topicProposePrice : LowerHex topicProposePrice := by
  have hdigits :
      (topicProposePrice.drop 2).all (fun c => c ∈ "0123456789abcdef".toList) = true := by
    decide +kernel
  refine ⟨by decide +kernel, fun c hc => ?_⟩
  simp_all

lemma presentable_markedLog {offset : List UInt8}
    (hsize : (hex0x (markedData offset)).length < 2 ^ 63)
    (hutf8 : ∀ value, BytesAt (markedData offset) (natAt (markedData offset) 64) value →
      isUtf8 value = true) : Presentable (markedLog offset) where
  topics := by
    intro topic htopic
    rcases List.mem_cons.mp htopic with rfl | htopic
    · exact lowerHex_topicProposePrice
    · rcases List.mem_cons.mp htopic with rfl | htopic
      · exact lowerHex_hex0x _
      · rw [List.mem_singleton.mp htopic]
        exact lowerHex_hex0x _
  data := lowerHex_hex0x _
  emitter := ⟨Bytes.fill 20 17, show decodeFixed 20 (hex0x (List.replicate 20 17)) "address" = _ by
    decide +kernel⟩
  block := ⟨16, show parseHexU64 ['0', 'x', '1', '0'] "blockNumber" = _ by decide +kernel⟩
  transaction := ⟨Bytes.fill 32 9,
    show decodeFixed 32 (hex0x (List.replicate 32 9)) "transactionHash" = _ by decide +kernel⟩
  index := ⟨1, show parseHexU64 ['0', 'x', '1'] "logIndex" = _ by decide +kernel, by decide⟩
  proposed _ _ _ := le_rfl
  disputed := by
    intro first hfirst hdispute
    cases hfirst
    exact absurd hdispute (by decide +kernel)
  utf8 data value hhex := by
    rw [hexDecode_markedLog] at hhex
    simp_all
  size := hsize

end RustUma.Mempool
