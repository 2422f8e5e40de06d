import Mathlib.Data.List.TakeWhile
import Mathlib.Data.Nat.Digits.Defs
import RustUma.Found.Fallible
import RustUma.Found.Text
import RustUma.Uma.Events

/-!
# The layout of a log (`src/uma/events/mod.rs`, `src/uma/events/ancillary.rs`)

`Checked` has the functions of `Uma.Events` once more, with every index, range and expectation of
the source that aborts the process when it fails, and with the text as characters that are indexed
by bytes. None of them ever aborts, and they return what the functions of `Uma.Events` do.
-/

namespace RustUma.Uma

open RustUma.Found RustUma.Model

/-! ## With everything that could abort -/

namespace Checked

def sliceAt (bytes : List UInt8) (start stop : ℕ) : Aborting DecodeError (List UInt8) :=
  orAbort (slice bytes start stop)

def expect (n : ℕ) (bytes : List UInt8) : Aborting DecodeError (Bytes n) := orAbort (fixed n bytes)

def word (data : List UInt8) (index : ℕ) : Aborting DecodeError (Bytes 32) := do
  expect 32 (← sliceAt data (index * 32) ((index + 1) * 32))

def lowU64 (value : List UInt8) (error : DecodeError) : Aborting DecodeError ℕ := do
  if (← sliceAt value 0 24).any (· ≠ 0) then throw error
  let low ← expect 8 (← sliceAt value 24 value.length)
  return fromBeBytes low.1

def wordU64 (data : List UInt8) (index : ℕ) (field : String) : Aborting DecodeError ℕ := do
  let value ← word data index
  lowU64 value.1 (.number field)

def dynamicWord (data : List UInt8) (index : ℕ) : Aborting DecodeError (List UInt8) := do
  let offset ← wordU64 data index "dynamic offset"
  match slice data offset (usizeAdd offset 32) with
  | none => throw .dynamicOffset
  | some lengthWord =>
    let length ← lowU64 lengthWord .dynamicOffset
    match slice data (usizeAdd offset 32) (usizeAdd (usizeAdd offset 32) length) with
    | none => throw .dynamicOffset
    | some value => return value

def topicAddress (value : List Char) : Aborting DecodeError (Bytes 20) := do
  let topic ← returns (decodeFixed 32 value "topic")
  expect 20 (← sliceAt topic.1 12 topic.1.length)

def parseData (raw : RpcLog) (words : ℕ) : Aborting DecodeError (List UInt8) := do
  let data ← returns (decodeHex raw.data "data")
  if words * 32 ≤ data.length then return data else throw .shortData

def boundary (text : List UInt8) (index : ℕ) : Aborting DecodeError Bool :=
  if index = 0 then return true
  else do
    let previous ← orAbort text[index - 1]?
    return isAsciiWhitespace previous || previous == 44

def findBoundary (text : List UInt8) : List ℕ → Aborting DecodeError (Option ℕ)
  | [] => return none
  | index :: rest => do
      if ← boundary text index then return some index else findBoundary text rest

def findKey (text : List UInt8) (key : String) : Aborting DecodeError (Option ℕ) :=
  findBoundary text (matchIndices (key.toUTF8.toList ++ [58]) text)

def valueStart (text : List UInt8) (index : ℕ) (key : String) : ℕ :=
  let start := index + (key.toUTF8.toList.length + 1)
  start + ((text.drop start).takeWhile isAsciiWhitespace).length

def fieldNumber (text : List Char) (key : String) : Aborting DecodeError (Option ℕ) := do
  match ← findKey (utf8 text) key with
  | none => return none
  | some index =>
    let rest ← orAbort (dropBytes text (valueStart (utf8 text) index key))
    return parseDigits (utf8 (rest.takeWhile Char.isDigit))

section Keccak

variable (keccak : List UInt8 → Bytes 32)

def parseAncillary (raw : List UInt8) : Aborting DecodeError PolymarketAncillary :=
  match fromUtf8 raw with
  | none => throw .ancillaryUtf8
  | some text => do return ⟨keccak raw, ← fieldNumber text "market_id"⟩

def parseRequest (raw : RpcLog) (data : List UInt8) : Aborting DecodeError PriceRequest := do
  let requester ← topicAddress (← orAbort raw.topics[1]?)
  let ancillary ← parseAncillary keccak (← dynamicWord data 2)
  let price ← word data 3
  return ⟨requester, deriveBinaryConditionId keccak requester ancillary.questionId, ancillary,
    price⟩

def parseEvent (kind : ChainLog → PriceRequest → UmaEvent) (topics : ℕ) (raw : RpcLog)
    (receivedAtUs : ℕ) : Aborting DecodeError UmaEvent :=
  if raw.topics.length < topics then throw .topic
  else do
    let data ← parseData raw 4
    let chain ← returns (buildChain raw receivedAtUs)
    let request ← parseRequest keccak raw data
    return kind chain request

def decodeSignalLog (raw : RpcLog) (receivedAtUs : ℕ) (allowedEmitters : List (Bytes 20))
    (requireMarketId : Bool) : Aborting DecodeError UmaEvent := do
  let emitter ← returns (decodeFixed 20 raw.address "address")
  if allowedEmitters ≠ [] ∧ allowedEmitters.contains emitter = false then throw .emitter
  let event ← match raw.topics.head?.map (List.map Char.toLower) with
    | some topic =>
      if topic = topicProposePrice then parseEvent keccak .proposePrice 3 raw receivedAtUs
      else if topic = topicDisputePrice then parseEvent keccak .disputePrice 4 raw receivedAtUs
      else throw .topic
    | none => throw .topic
  if requireMarketId ∧ event.marketId = 0 then throw .missingMarketId
  return event

end Keccak

end Checked

/-! ## Words -/

lemma slice_of_le {bytes : List UInt8} {start stop : ℕ} (h : start ≤ stop)
    (h' : stop ≤ bytes.length) :
    slice bytes start stop = some ((bytes.drop start).take (stop - start)) := if_pos ⟨h, h'⟩

namespace Checked

lemma sliceAt_of_le {bytes : List UInt8} {start stop : ℕ} (h : start ≤ stop)
    (h' : stop ≤ bytes.length) :
    sliceAt bytes start stop = returns (.ok ((bytes.drop start).take (stop - start))) := by
  unfold sliceAt
  rw [slice_of_le h h', orAbort_some]

lemma expect_of_length {n : ℕ} {bytes : List UInt8} (h : bytes.length = n) :
    expect n bytes = returns (.ok ⟨bytes, h⟩) := by
  unfold expect fixed
  simp_all

lemma word_eq {words : ℕ} (data : AbiData words) (index : Fin words) :
    word data.1 index = returns (.ok (Uma.word data index)) := by
  unfold word
  rw [sliceAt_of_le (by omega) (by omega)]
  have hwidth : (index.val + 1) * 32 - index.val * 32 = 32 := by omega
  rw [hwidth]
  exact expect_of_length (Uma.word data index).2

lemma lowU64_eq {value : List UInt8} (h : value.length = 32) (error : DecodeError) :
    lowU64 value error =
      returns ((Uma.lowU64 value).elim (.error error) .ok) := by
  unfold lowU64 Uma.lowU64
  rw [sliceAt_of_le (by omega) (by omega), returns_ok_bind, List.drop_zero]
  by_cases hany : (value.take 24).any (· ≠ 0) = true
  · rw [if_pos hany, if_pos hany]
    rfl
  · rw [if_neg hany, if_neg hany, sliceAt_of_le (by omega) le_rfl, returns_ok_bind]
    have hrest : (value.drop 24).take (value.length - 24) = value.drop 24 :=
      List.take_of_length_le (by rw [List.length_drop])
    rw [hrest, expect_of_length (by simp_all)]
    rfl

lemma wordU64_eq {words : ℕ} (data : AbiData words) (index : Fin words) (field : String) :
    wordU64 data.1 index field = returns (Uma.wordU64 data index field) := by
  unfold wordU64 Uma.wordU64
  rw [word_eq, returns_ok_bind, lowU64_eq (Uma.word data index).2]
  grind

end Checked

variable {value : List UInt8} {words : ℕ}

lemma lowU64_eq_some_iff (h : value.length = 32) {n : ℕ} :
    lowU64 value = some n ↔ fromBeBytes value = n ∧ n < 2 ^ 64 := by
  have hsplit : fromBeBytes value =
      fromBeBytes (value.take 24) * 2 ^ 64 + fromBeBytes (value.drop 24) := by
    have happend := fromBeBytes_append (value.take 24) (value.drop 24)
    simp_all
  have hlow : fromBeBytes (value.drop 24) < 2 ^ 64 := by
    have hlt := fromBeBytes_lt (value.drop 24)
    simp_all
  have hzero : (value.take 24).any (· ≠ 0) = true ↔ fromBeBytes (value.take 24) ≠ 0 := by
    rw [Ne, fromBeBytes_eq_zero_iff]
    simp
  unfold lowU64
  grind

lemma slice_usizeAdd_eq_some_iff {bytes : List UInt8} {start k : ℕ} (hstart : start < 2 ^ 64)
    (hk : k < 2 ^ 64) :
    slice bytes start (usizeAdd start k) = some value ↔
      start + k < 2 ^ 64 ∧ start + k ≤ bytes.length ∧ value = (bytes.drop start).take k := by
  by_cases hfits : start + k < 2 ^ 64
  · rw [usizeAdd_of_lt hfits]
    unfold slice
    grind
  · refine iff_of_false (fun h => ?_) fun h => hfits h.1
    unfold slice usizeAdd at h
    grind

lemma elim_eq_ok_iff {α : Type} {x : Option α} {e : DecodeError} {a : α} :
    x.elim (.error e) .ok = Except.ok a ↔ x = some a := by
  cases x with
  | none => simp
  | some b => simp

lemma wordU64_eq_ok_iff (data : AbiData words) (index : Fin words) (field : String) {n : ℕ} :
    wordU64 data index field = .ok n ↔ fromBeBytes (word data index).1 = n ∧ n < 2 ^ 64 := by
  rw [← lowU64_eq_some_iff (word data index).2,
    ← elim_eq_ok_iff]
  unfold wordU64
  cases lowU64 (word data index).1 <;> rfl

lemma dynamicWord_eq (data : AbiData words) (index : Fin words) :
    dynamicWord data index =
      wordU64 data index "dynamic offset" >>= fun o =>
        ((slice data.1 o (usizeAdd o 32)).bind fun lengthWord =>
          (lowU64 lengthWord).bind fun n =>
            slice data.1 (usizeAdd o 32) (usizeAdd (usizeAdd o 32) n)).elim
              (.error .dynamicOffset) .ok := by
  unfold dynamicWord
  congr 1
  funext o
  cases slice data.1 o (usizeAdd o 32) with
  | none => rfl
  | some lengthWord =>
    dsimp only [Option.bind_some]
    cases lowU64 lengthWord with
    | none => rfl
    | some n =>
      dsimp only [Option.bind_some]
      cases slice data.1 (usizeAdd o 32) (usizeAdd (usizeAdd o 32) n) <;> rfl

lemma length_take_drop {bytes : List UInt8} {start k : ℕ} (h : start + k ≤ bytes.length) :
    ((bytes.drop start).take k).length = k := by
  grind

lemma Checked.dynamicWord_eq (data : AbiData words) (index : Fin words) :
    Checked.dynamicWord data.1 index = returns (Uma.dynamicWord data index) := by
  unfold Checked.dynamicWord
  rw [Checked.wordU64_eq]
  refine returns_bind fun o hoffset => ?_
  have ho : o < 2 ^ 64 := ((wordU64_eq_ok_iff data index _).mp hoffset).2
  cases hslice : slice data.1 o (usizeAdd o 32) with
  | none => rfl
  | some lengthWord =>
    obtain ⟨-, hinside, hword⟩ := (slice_usizeAdd_eq_some_iff ho (by decide)).mp hslice
    dsimp only [Option.bind_some]
    rw [Checked.lowU64_eq (hword ▸ length_take_drop hinside)]
    cases Uma.lowU64 lengthWord with
    | none => rfl
    | some n =>
      rw [Option.elim_some, returns_ok_bind]
      dsimp only [Option.bind_some]
      cases slice data.1 (usizeAdd o 32) (usizeAdd (usizeAdd o 32) n) <;> rfl

theorem dynamicWord_eq_ok_iff (data : AbiData words) (index : Fin words)
    (hsize : data.1.length < 2 ^ 64) :
    dynamicWord data index = .ok value ↔
      ∃ o n, fromBeBytes (word data index).1 = o ∧ o < 2 ^ 64 ∧
        fromBeBytes ((data.1.drop o).take 32) = n ∧ n < 2 ^ 64 ∧ o + 32 + n ≤ data.1.length ∧
        value = (data.1.drop (o + 32)).take n := by
  rw [dynamicWord_eq, bind_eq_ok_iff]
  constructor
  · rintro ⟨o, hoffset, h⟩
    obtain ⟨hword, ho⟩ := (wordU64_eq_ok_iff data index _).mp hoffset
    obtain ⟨lengthWord, hslice, h⟩ := Option.bind_eq_some_iff.mp (elim_eq_ok_iff.mp h)
    obtain ⟨n, hlow, hvalue⟩ := Option.bind_eq_some_iff.mp h
    obtain ⟨hfits, hinside, rfl⟩ := (slice_usizeAdd_eq_some_iff ho (by decide)).mp hslice
    obtain ⟨hn, hnlt⟩ := (lowU64_eq_some_iff (length_take_drop hinside)).mp hlow
    rw [usizeAdd_of_lt hfits] at hvalue
    obtain ⟨-, hend, rfl⟩ := (slice_usizeAdd_eq_some_iff hfits hnlt).mp hvalue
    simp_all
  · rintro ⟨o, n, hword, ho, hn, hnlt, hinside, rfl⟩
    have hlengthWord : o + 32 ≤ data.1.length := by omega
    refine ⟨o, (wordU64_eq_ok_iff data index _).mpr ⟨hword, ho⟩, elim_eq_ok_iff.mpr ?_⟩
    refine Option.bind_eq_some_iff.mpr ⟨(data.1.drop o).take 32, ?_, ?_⟩
    · exact (slice_usizeAdd_eq_some_iff ho (by decide)).mpr ⟨by omega, hlengthWord, rfl⟩
    · refine Option.bind_eq_some_iff.mpr ⟨n, ?_, ?_⟩
      · exact (lowU64_eq_some_iff (length_take_drop hlengthWord)).mpr ⟨hn, hnlt⟩
      · rw [usizeAdd_of_lt (by omega)]
        exact (slice_usizeAdd_eq_some_iff (by omega) hnlt).mpr ⟨by omega, hinside, rfl⟩

/-! ## The number in the text -/

def boundaryAt (text : List UInt8) (i : ℕ) : Bool :=
  i == 0 || text[i - 1]?.any fun b => isAsciiWhitespace b || b == 44

def firstKey (needle text : List UInt8) : Option ℕ :=
  (List.range text.length).find? fun i => occursAt needle text i && boundaryAt text i

namespace Checked

lemma boundary_eq {text : List UInt8} {i : ℕ} (h : i < text.length) :
    boundary text i = returns (.ok (boundaryAt text i)) := by
  unfold boundary boundaryAt
  by_cases hi : i = 0
  · subst hi
    rfl
  · rw [if_neg hi, List.getElem?_eq_getElem (show i - 1 < text.length by omega), beq_false_of_ne hi]
    rfl

lemma findBoundary_eq {text : List UInt8} {indices : List ℕ} (h : ∀ i ∈ indices, i < text.length) :
    findBoundary text indices = returns (.ok (indices.find? (boundaryAt text))) := by
  induction indices with
  | nil => rfl
  | cons i indices ih =>
    rw [findBoundary, boundary_eq (h i List.mem_cons_self), List.find?_cons]
    cases boundaryAt text i with
    | true => rfl
    | false => simp_all

lemma findKey_eq {key : String} {first : UInt8} {tail : List UInt8}
    (hkey : key.toUTF8.toList ++ [58] = first :: tail) (hfirst : first ∉ tail) (text : List UInt8) :
    findKey text key = returns (.ok (firstKey (first :: tail) text)) := by
  unfold findKey
  rw [hkey, matchIndices_eq_filter hfirst, findBoundary_eq, List.find?_filter]
  · unfold firstKey
    simp
  simp_all

end Checked

lemma findKey_eq (needle text : List UInt8) :
    findKey needle none text =
      (firstKey needle text).map fun i => text.drop (i + needle.length) := by
  have hfrom : ∀ rest i, text.drop i = rest →
      findKey needle (if i = 0 then none else text[i - 1]?) rest =
        ((List.range' i rest.length).find? fun i =>
          occursAt needle text i && boundaryAt text i).map fun i =>
            text.drop (i + needle.length) := by
    intro rest
    induction rest with
    | nil => exact fun i _ => rfl
    | cons b rest ih =>
      intro i hrest
      have hlength : i < text.length := by
        have hlen := congrArg List.length hrest
        grind
      have hnext : text.drop (i + 1) = rest := by
        rw [← List.drop_drop, hrest]
        rfl
      have hletter : text[i]? = some b := by
        have hzero := congrArg (·[0]?) hrest
        simpa using hzero
      have hbefore : (if i = 0 then none else text[i - 1]?).all
          (fun p => isAsciiWhitespace p || p == 44) = boundaryAt text i := by
        unfold boundaryAt
        grind
      have hoccurs : needle.isPrefixOf (b :: rest) = occursAt needle text i := by
        unfold occursAt
        rw [hrest]
      rw [findKey, hoccurs, hbefore, List.length_cons, List.range'_succ, List.find?_cons]
      cases hfound : occursAt needle text i && boundaryAt text i with
      | true =>
        rw [if_pos (Bool.and_eq_true_iff.mp hfound), ← hrest, List.drop_drop]
        rfl
      | false =>
        grind
  have hall := hfrom text 0 rfl
  rwa [← List.range_eq_range'] at hall

def marketIdKey : List UInt8 := utf8 "market_id:".toList

lemma marketIdKey_eq :
    "market_id".toUTF8.toList ++ [58] = marketIdKey ∧
      marketIdKey = 109 :: [97, 114, 107, 101, 116, 95, 105, 100, 58] := by
  decide +kernel

lemma fieldNumber_eq (text : List UInt8) :
    fieldNumber text "market_id" = (firstKey marketIdKey text).bind fun i =>
      parseDigits (((text.drop (i + marketIdKey.length)).dropWhile isAsciiWhitespace).takeWhile
        isAsciiDigit) := by
  unfold fieldNumber
  rw [marketIdKey_eq.1, findKey_eq]
  grind

lemma isAsciiWhitespace_lt {b : UInt8} (h : isAsciiWhitespace b = true) : b.toNat < 128 := by
  unfold isAsciiWhitespace at h
  simp only [Bool.or_eq_true, beq_iff_eq] at h
  rcases h with (((rfl | rfl) | rfl) | rfl) | rfl <;> decide

lemma isAsciiDigit_iff {b : UInt8} :
    isAsciiDigit b = true ↔ 48 ≤ b.toNat ∧ b.toNat ≤ 57 := by
  unfold isAsciiDigit
  rw [Bool.and_eq_true, decide_eq_true_iff, decide_eq_true_iff]
  rfl

lemma utf8_takeWhile_isDigit (text : List Char) :
    utf8 (text.takeWhile Char.isDigit) = (utf8 text).takeWhile isAsciiDigit := by
  have hdigit : ∀ c : Char, c.isDigit = true ↔ 48 ≤ c.toNat ∧ c.toNat ≤ 57 := by
    intro c
    unfold Char.isDigit
    rw [Bool.and_eq_true, decide_eq_true_iff, decide_eq_true_iff]
    rfl
  refine utf8_takeWhile (fun c hc => ?_) (fun b hb => ?_) (fun c hc => ?_) text
  · grind
  · have hle := isAsciiDigit_iff.mp hb
    omega
  · rw [Bool.eq_iff_iff, hdigit, isAsciiDigit_iff, UInt8.toNat_ofNat', Nat.mod_eq_of_lt (by omega)]

lemma Checked.fieldNumber_eq (text : List Char) :
    Checked.fieldNumber text "market_id" =
      returns (.ok (Uma.fieldNumber (utf8 text) "market_id")) := by
  obtain ⟨hkey, hletters⟩ := marketIdKey_eq
  rw [Uma.fieldNumber_eq]
  unfold Checked.fieldNumber
  rw [Checked.findKey_eq (hkey.trans hletters) (by decide), ← hletters, returns_ok_bind]
  cases hfirst : firstKey marketIdKey (utf8 text) with
  | none => rfl
  | some i =>
    have hfound := List.find?_some hfirst
    obtain ⟨after, hafter⟩ := occursAt_iff.mp (Bool.and_eq_true_iff.mp hfound).1
    have hrest : (utf8 text).drop (i + marketIdKey.length) = after := by
      rw [← List.drop_drop, ← hafter, List.drop_left]
    have hascii : ∀ b ∈ marketIdKey ++ after.takeWhile isAsciiWhitespace, b.toNat < 128 := by
      intro b hb
      rcases List.mem_append.mp hb with hb | hb
      · exact (show ∀ b ∈ marketIdKey, b.toNat < 128 by decide +kernel) b hb
      · exact isAsciiWhitespace_lt (List.mem_takeWhile_imp hb)
    have hword : marketIdKey ++ after.takeWhile isAsciiWhitespace <+: (utf8 text).drop i := by
      rw [← hafter]
      exact List.prefix_append_right_inj _ |>.mpr (List.takeWhile_prefix _)
    obtain ⟨rest, hdrop, hbytes⟩ := dropBytes_of_ascii hword (by rw [hletters]; simp) hascii
    have hstart : Checked.valueStart (utf8 text) i "market_id" =
        i + (marketIdKey ++ after.takeWhile isAsciiWhitespace).length := by
      have hlength : "market_id".toUTF8.toList.length + 1 = marketIdKey.length := by
        grind
      unfold Checked.valueStart
      grind
    have hvalue : utf8 rest = after.dropWhile isAsciiWhitespace := by
      rw [hbytes, ← List.drop_drop, ← hafter, List.length_append, ← List.drop_drop,
        List.drop_left]
      nth_rewrite 2 [← List.takeWhile_append_dropWhile (l := after)]
      rw [List.drop_left]
    dsimp only [Option.bind_some]
    rw [hstart, hdrop, orAbort_some, returns_ok_bind, utf8_takeWhile_isDigit, hvalue, hrest]
    rfl

/-! ## Nothing aborts -/

section Keccak

variable (keccak : List UInt8 → Bytes 32)

lemma isUtf8_iff {bytes : List UInt8} : isUtf8 bytes = true ↔ ∃ text, utf8 text = bytes := by
  unfold isUtf8
  rw [← isSome_fromUtf8, Option.isSome_iff_exists]
  constructor
  · rintro ⟨text, h⟩
    exact ⟨text, utf8_of_fromUtf8 h⟩
  · rintro ⟨text, rfl⟩
    exact ⟨text, fromUtf8_utf8 text⟩

namespace Checked

lemma parseAncillary_eq (raw : List UInt8) :
    parseAncillary keccak raw = returns (Uma.parseAncillary keccak raw) := by
  unfold parseAncillary Uma.parseAncillary isUtf8
  rw [← isSome_fromUtf8]
  cases htext : fromUtf8 raw with
  | none => rfl
  | some text =>
    dsimp only
    rw [fieldNumber_eq, utf8_of_fromUtf8 htext]
    rfl

lemma topicAddress_eq (value : List Char) :
    topicAddress value = returns (Uma.topicAddress value) := by
  refine returns_bind fun topic _ => ?_
  have hrest : (topic.1.drop 12).take (topic.1.length - 12) = topic.1.drop 12 :=
    List.take_of_length_le (by rw [List.length_drop])
  rw [sliceAt_of_le (by omega) le_rfl, hrest]
  exact expect_of_length (length_drop_twelve topic)

lemma parseRequest_eq {raw : RpcLog} {requesterTopic : List Char}
    (htopic : raw.topics[1]? = some requesterTopic) (data : AbiData 4) :
    parseRequest keccak raw data.1 = returns (Uma.parseRequest keccak requesterTopic data) := by
  have hdynamic : dynamicWord data.1 2 = returns (Uma.dynamicWord data 2) := dynamicWord_eq data 2
  have hprice : word data.1 3 = returns (.ok (Uma.word data 3)) := word_eq data 3
  unfold parseRequest
  rw [htopic, orAbort_some, returns_ok_bind, topicAddress_eq]
  refine returns_bind fun requester _ => ?_
  rw [hdynamic]
  refine returns_bind fun value _ => ?_
  rw [parseAncillary_eq]
  refine returns_bind fun ancillary _ => ?_
  rw [hprice]
  rfl

lemma parseData_bind {β : Type} (raw : RpcLog) {f : List UInt8 → Aborting DecodeError β}
    {g : AbiData 4 → Except DecodeError β} (h : ∀ data : AbiData 4, f data.1 = returns (g data)) :
    (parseData raw 4 >>= f) = returns (Uma.parseData raw 4 >>= g) := by
  unfold parseData Uma.parseData
  cases decodeHex raw.data "data" with
  | error e => rfl
  | ok data =>
    rw [returns_ok_bind]
    show _ = returns ((if h : 4 * 32 ≤ data.length then _ else _) >>= g)
    by_cases hwords : 4 * 32 ≤ data.length
    · simp_all
    · rw [if_neg hwords, dif_neg hwords]
      rfl

lemma parseEvent_eq (kind : ChainLog → PriceRequest → UmaEvent) {topics : ℕ} (htopics : 2 ≤ topics)
    (raw : RpcLog) (receivedAtUs : ℕ) :
    parseEvent keccak kind topics raw receivedAtUs =
      returns (Uma.parseEvent keccak kind topics raw receivedAtUs) := by
  unfold parseEvent Uma.parseEvent
  by_cases hfew : raw.topics.length < topics
  · rw [if_pos hfew]
    split
    · rw [if_pos hfew]
      rfl
    · rfl
  · rw [if_neg hfew]
    split
    · next first requesterTopic rest hraw =>
      rw [if_neg hfew]
      have htopic : raw.topics[1]? = some requesterTopic := by rw [hraw]; rfl
      refine parseData_bind raw fun data => ?_
      refine returns_bind fun chain _ => ?_
      rw [parseRequest_eq keccak htopic]
      exact returns_bind fun request _ => rfl
    · next hraw =>
      exfalso
      match hcase : raw.topics with
      | [] | [_] => grind
      | first :: second :: rest => simp_all

theorem decodeSignalLog_eq (raw : RpcLog) (receivedAtUs : ℕ) (allowedEmitters : List (Bytes 20))
    (requireMarketId : Bool) :
    decodeSignalLog keccak raw receivedAtUs allowedEmitters requireMarketId =
      returns (Uma.decodeSignalLog keccak raw receivedAtUs allowedEmitters requireMarketId) := by
  have hcontains : ∀ emitter : Bytes 20,
      (allowedEmitters ≠ [] ∧ emitter ∉ allowedEmitters) =
        (allowedEmitters ≠ [] ∧ allowedEmitters.contains emitter = false) := by
    simp
  refine returns_bind fun emitter _ => ?_
  by_cases hemitter : allowedEmitters ≠ [] ∧ emitter ∉ allowedEmitters
  · rw [if_pos (hcontains emitter ▸ hemitter), if_pos hemitter]
    rfl
  · rw [if_neg (hcontains emitter ▸ hemitter), if_neg hemitter]
    have hfinish : ∀ {kind : ChainLog → PriceRequest → UmaEvent} {topics : ℕ}, 2 ≤ topics →
        (parseEvent keccak kind topics raw receivedAtUs >>= fun event => do
          if requireMarketId ∧ event.marketId = 0 then throw .missingMarketId
          return event) =
        returns (Uma.parseEvent keccak kind topics raw receivedAtUs >>= fun event => do
          if requireMarketId ∧ event.marketId = 0 then throw .missingMarketId
          return event) := by
      intro kind topics htopics
      rw [parseEvent_eq keccak kind htopics]
      refine returns_bind fun event _ => ?_
      split_ifs <;> rfl
    cases raw.topics.head?.map (List.map Char.toLower) with
    | none => rfl
    | some topic =>
      dsimp only
      by_cases hpropose : topic = topicProposePrice
      · rw [if_pos hpropose, if_pos hpropose]
        exact hfinish (by decide)
      · rw [if_neg hpropose, if_neg hpropose]
        by_cases hdispute : topic = topicDisputePrice
        · rw [if_pos hdispute, if_pos hdispute]
          exact hfinish (by decide)
        · rw [if_neg hdispute, if_neg hdispute]
          rfl

end Checked

/-! ## What the layout is -/

def KeyMayFollow (before : List UInt8) : Prop :=
  ∀ b ∈ before.getLast?, isAsciiWhitespace b = true ∨ b = 44

structure KeyBetween (text before after : List UInt8) : Prop where
  split : text = before ++ (marketIdKey ++ after)
  boundary : KeyMayFollow before

def HasMarketId (text : List UInt8) (id : ℕ) : Prop :=
  ∃ before space digits rest, KeyBetween text before (space ++ (digits ++ rest)) ∧
    (∀ before' after', KeyBetween text before' after' → before.length ≤ before'.length) ∧
    (∀ b ∈ space, isAsciiWhitespace b = true) ∧ digits ≠ [] ∧
    (∀ b ∈ digits, isAsciiDigit b = true) ∧ (∀ b ∈ rest.head?, isAsciiDigit b = false) ∧
    id = Nat.ofDigits 10 ((digits.map fun b => b.toNat - 48).reverse) ∧ id < 2 ^ 64

structure AbiLayout (raw : RpcLog) (data : List UInt8) (o n : ℕ) : Prop where
  hex : hexDecode (stripMark raw.data) = some data
  words : 4 * 32 ≤ data.length
  requester : ∃ topic word, raw.topics[1]? = some topic ∧
    hexDecode (stripMark topic) = some word ∧ word.length = 32
  offset : fromBeBytes ((data.drop 64).take 32) = o
  offset_lt : o < 2 ^ 64
  length : fromBeBytes ((data.drop o).take 32) = n
  length_lt : n < 2 ^ 64
  inside : o + 32 + n ≤ data.length
  text : ∃ text, utf8 text = (data.drop (o + 32)).take n

/-! ### The key -/

variable {text : List UInt8}

lemma keyBetween_iff {i : ℕ} :
    (i < text.length ∧ (occursAt marketIdKey text i && boundaryAt text i) = true) ↔
      ∃ before after, before.length = i ∧ KeyBetween text before after := by
  constructor
  · rintro ⟨hi, h⟩
    obtain ⟨hoccurs, hboundary⟩ := Bool.and_eq_true_iff.mp h
    obtain ⟨after, hafter⟩ := occursAt_iff.mp hoccurs
    refine ⟨text.take i, after, List.length_take_of_le hi.le, ?_, ?_⟩
    · simp_all
    · intro b hb
      unfold boundaryAt at hboundary
      grind
  · rintro ⟨before, after, rfl, hsplit, hboundary⟩
    have hkey : 0 < marketIdKey.length := by rw [marketIdKey_eq.2]; simp
    refine ⟨?_, ?_⟩
    · simp_all
    · refine Bool.and_eq_true_iff.mpr ⟨?_, ?_⟩
      · rw [occursAt_iff, hsplit, List.drop_left]
        simp
      · unfold boundaryAt
        cases hlast : before.getLast? with
        | none =>
          simp_all
        | some b =>
          have hclass := hboundary b hlast
          grind

lemma firstKey_eq_some_iff {i : ℕ} :
    firstKey marketIdKey text = some i ↔
      ∃ before after, before.length = i ∧ KeyBetween text before after ∧
        ∀ before' after', KeyBetween text before' after' → before.length ≤ before'.length := by
  unfold firstKey
  rw [List.find?_range_eq_some, List.mem_range]
  constructor
  · rintro ⟨hfound, hi, hleast⟩
    obtain ⟨before, after, hlength, hkey⟩ := keyBetween_iff.mp ⟨hi, hfound⟩
    refine ⟨before, after, hlength, hkey, fun before' after' hkey' => ?_⟩
    by_contra hlt
    have hearlier := (keyBetween_iff.mpr ⟨before', after', rfl, hkey'⟩).2
    grind
  · rintro ⟨before, after, hlength, hkey, hleast⟩
    obtain ⟨hi, hfound⟩ := keyBetween_iff.mpr ⟨before, after, hlength, hkey⟩
    refine ⟨hfound, hi, fun j hj => ?_⟩
    cases hcase : occursAt marketIdKey text j && boundaryAt text j with
    | false => rfl
    | true =>
      obtain ⟨before', after', hlength', hkey'⟩ := keyBetween_iff.mp ⟨by omega, hcase⟩
      grind

/-! ### The number -/

lemma foldl_digits (digits : List UInt8) :
    digits.foldl (fun n b => 10 * n + (b.toNat - 48)) 0 =
      Nat.ofDigits 10 ((digits.map fun b => b.toNat - 48).reverse) := by
  induction digits using List.reverseRecOn with
  | nil => rfl
  | append_singleton digits b ih =>
    rw [List.foldl_append, ih, List.map_append, List.reverse_append]
    exact Nat.add_comm _ _

lemma parseDigits_eq_some_iff {digits : List UInt8} {id : ℕ} :
    parseDigits digits = some id ↔ digits ≠ [] ∧
      id = Nat.ofDigits 10 ((digits.map fun b => b.toNat - 48).reverse) ∧ id < 2 ^ 64 := by
  unfold parseDigits
  dsimp only
  rw [foldl_digits]
  grind

lemma takeWhile_dropWhile_append {space digits rest : List UInt8}
    (hspace : ∀ b ∈ space, isAsciiWhitespace b = true) (hne : digits ≠ [])
    (hdigits : ∀ b ∈ digits, isAsciiDigit b = true)
    (hrest : ∀ b ∈ rest.head?, isAsciiDigit b = false) :
    ((space ++ (digits ++ rest)).dropWhile isAsciiWhitespace).takeWhile isAsciiDigit = digits := by
  obtain ⟨first, tail, rfl⟩ := List.exists_cons_of_ne_nil hne
  have hfirst : isAsciiWhitespace first = false := by
    have hdigit := isAsciiDigit_iff.mp (hdigits first List.mem_cons_self)
    cases hcase : isAsciiWhitespace first with
    | false => rfl
    | true =>
      unfold isAsciiWhitespace at hcase
      simp only [Bool.or_eq_true, beq_iff_eq] at hcase
      rcases hcase with (((rfl | rfl) | rfl) | rfl) | rfl <;> revert hdigit <;> decide
  have hstop : rest.takeWhile isAsciiDigit = [] := by
    cases rest with
    | nil => rfl
    | cons b rest => simp_all
  simp_all

theorem fieldNumber_eq_some_iff {id : ℕ} :
    fieldNumber text "market_id" = some id ↔ HasMarketId text id := by
  rw [fieldNumber_eq, Option.bind_eq_some_iff]
  constructor
  · rintro ⟨i, hfirst, hdigits⟩
    obtain ⟨before, after, rfl, hkey, hleast⟩ := firstKey_eq_some_iff.mp hfirst
    obtain ⟨hne, hid, hlt⟩ := parseDigits_eq_some_iff.mp hdigits
    have hafter : text.drop (before.length + marketIdKey.length) = after := by
      rw [hkey.split, ← List.drop_drop, List.drop_left, List.drop_left]
    rw [hafter] at hne hid
    refine ⟨before, after.takeWhile isAsciiWhitespace,
      (after.dropWhile isAsciiWhitespace).takeWhile isAsciiDigit,
      (after.dropWhile isAsciiWhitespace).dropWhile isAsciiDigit, ?_, hleast,
      fun b hb => List.mem_takeWhile_imp hb, hne, fun b hb => List.mem_takeWhile_imp hb, ?_, hid,
      hlt⟩
    · simp_all
    · intro b hb
      have hhead := List.head?_dropWhile_not isAsciiDigit (after.dropWhile isAsciiWhitespace)
      simp_all
  · rintro ⟨before, space, digits, rest, hkey, hleast, hspace, hne, hdigits, hrest, hid, hlt⟩
    refine ⟨before.length, firstKey_eq_some_iff.mpr ⟨before, _, rfl, hkey, hleast⟩, ?_⟩
    have hafter : text.drop (before.length + marketIdKey.length) = space ++ (digits ++ rest) := by
      rw [hkey.split, ← List.drop_drop, List.drop_left, List.drop_left]
    rw [hafter, takeWhile_dropWhile_append hspace hne hdigits hrest]
    exact parseDigits_eq_some_iff.mpr ⟨hne, hid, hlt⟩

/-! ## The whole log -/

structure Recognised (raw : RpcLog) (allowedEmitters : List (Bytes 20)) : Prop where
  emitter : ∃ emitter, decodeFixed 20 raw.address "address" = .ok emitter ∧
    (allowedEmitters = [] ∨ emitter ∈ allowedEmitters)
  block : ∃ n, parseHexU64 raw.blockNumber "blockNumber" = .ok n
  transaction : ∃ hash, decodeFixed 32 raw.transactionHash "transactionHash" = .ok hash
  index : ∃ n, parseHexU64 raw.logIndex "logIndex" = .ok n ∧ n < 2 ^ 32
  topic : ∃ first, raw.topics.head? = some first ∧
    (first.map Char.toLower = topicProposePrice ∧ 3 ≤ raw.topics.length ∨
      first.map Char.toLower = topicDisputePrice ∧ 4 ≤ raw.topics.length)
  size : raw.data.length < 2 ^ 63

variable {keccak} {raw : RpcLog} {allowedEmitters : List (Bytes 20)}

lemma Recognised.exists_chain (h : Recognised raw allowedEmitters) (receivedAtUs : ℕ) :
    ∃ chain, buildChain raw receivedAtUs = .ok chain := by
  obtain ⟨blockNumber, hblock⟩ := h.block
  obtain ⟨hash, hhash⟩ := h.transaction
  obtain ⟨logIndex, hindex, hlt⟩ := h.index
  refine ⟨⟨blockNumber, hash, logIndex, receivedAtUs, raw.removed⟩, ?_⟩
  simp only [buildChain, hblock, hhash, hindex, bind, Except.bind, if_pos hlt]
  rfl

lemma Recognised.decodeSignalLog_eq (h : Recognised raw allowedEmitters)
    (keccak : List UInt8 → Bytes 32) (receivedAtUs : ℕ) :
    ∃ kind : PriceRequest → UmaEvent, ∃ requesterTopic,
      (∀ request, (kind request).request = request) ∧ raw.topics[1]? = some requesterTopic ∧
      decodeSignalLog keccak raw receivedAtUs allowedEmitters false =
        parseData raw 4 >>= fun data =>
          parseRequest keccak requesterTopic data >>= fun request => pure (kind request) := by
  obtain ⟨emitter, hemitter, hallowed⟩ := h.emitter
  obtain ⟨first, hfirst, htopic⟩ := h.topic
  obtain ⟨chain, hchain⟩ := h.exists_chain receivedAtUs
  have hpermitted : ¬ (allowedEmitters ≠ [] ∧ emitter ∉ allowedEmitters) := by
    grind
  have hlong : 3 ≤ raw.topics.length := by
    omega
  obtain ⟨t, requesterTopic, rest, htopics⟩ : ∃ t requesterTopic rest,
      raw.topics = t :: requesterTopic :: rest := by
    match hcase : raw.topics with
    | [] | [_] => simp [hcase] at hlong
    | t :: requesterTopic :: rest => simp
  have hdecode : ∃ kind topics, (∀ chain request, UmaEvent.request (kind chain request) = request) ∧
      ¬ raw.topics.length < topics ∧
      decodeSignalLog keccak raw receivedAtUs allowedEmitters false =
        parseEvent keccak kind topics raw receivedAtUs := by
    rcases htopic with ⟨hkind, hlen⟩ | ⟨hkind, hlen⟩
    · refine ⟨.proposePrice, 3, fun _ _ => rfl, not_lt.mpr hlen, ?_⟩
      simp only [decodeSignalLog, hemitter, hfirst, bind, Except.bind, if_neg hpermitted,
        Option.map_some, hkind, if_true, proposePriceParse]
      cases parseEvent keccak .proposePrice 3 raw receivedAtUs with
      | error e => rfl
      | ok event => rfl
    · refine ⟨.disputePrice, 4, fun _ _ => rfl, not_lt.mpr hlen, ?_⟩
      simp only [decodeSignalLog, hemitter, hfirst, bind, Except.bind, if_neg hpermitted,
        Option.map_some, hkind, if_neg topics_ne, if_true, disputePriceParse]
      cases parseEvent keccak .disputePrice 4 raw receivedAtUs with
      | error e => rfl
      | ok event => rfl
  obtain ⟨kind, topics, hkind, hlen, heq⟩ := hdecode
  refine ⟨kind chain, requesterTopic, hkind chain, by rw [htopics]; rfl, ?_⟩
  rw [heq]
  unfold parseEvent
  rw [htopics] at hlen ⊢
  dsimp only
  rw [if_neg hlen, hchain]
  rfl

lemma parseData_eq_ok_iff {words : ℕ} {data : AbiData words} :
    parseData raw words = .ok data ↔ hexDecode (stripMark raw.data) = some data.1 := by
  unfold parseData decodeHex
  cases hexDecode (stripMark raw.data) with
  | none => exact iff_of_false (fun h => by cases h) fun h => by cases h
  | some bytes =>
    show (if h : words * 32 ≤ bytes.length then _ else _) = _ ↔ _
    by_cases hwords : words * 32 ≤ bytes.length
    · rw [dif_pos hwords]
      constructor
      · intro h
        cases h
        rfl
      · intro h
        cases h
        rfl
    · rw [dif_neg hwords]
      refine iff_of_false (fun h => by cases h) fun h => hwords ?_
      grind

lemma topicAddress_eq_ok_iff {value : List Char} {requester : Bytes 20} :
    topicAddress value = .ok requester ↔
      ∃ word, hexDecode (stripMark value) = some word ∧ word.length = 32 ∧
        requester.1 = word.drop 12 := by
  unfold topicAddress decodeFixed decodeHex
  cases hexDecode (stripMark value) with
  | none =>
    refine iff_of_false (fun h => by cases h) ?_
    simp
  | some word =>
    by_cases hwidth : word.length = 32
    · simp only [fixed, dif_pos hwidth, bind, Except.bind]
      constructor
      · intro h
        cases h
        simp_all
      · rintro ⟨other, h, -, hrequester⟩
        cases h
        exact congrArg Except.ok (Subtype.ext hrequester.symm)
    · refine iff_of_false (fun h => ?_) ?_
      · simp only [fixed, dif_neg hwidth, bind, Except.bind] at h
        cases h
      simp_all

lemma topicAddress_eq_ok {value : List Char} :
    (∃ requester, topicAddress value = .ok requester) ↔
      ∃ word, hexDecode (stripMark value) = some word ∧ word.length = 32 := by
  constructor
  · rintro ⟨requester, h⟩
    obtain ⟨word, hword, hwidth, -⟩ := topicAddress_eq_ok_iff.mp h
    simp_all
  · rintro ⟨word, hword, hwidth⟩
    exact ⟨⟨word.drop 12, length_drop_twelve ⟨word, hwidth⟩⟩,
      topicAddress_eq_ok_iff.mpr ⟨word, hword, hwidth, rfl⟩⟩

lemma parseRequest_eq_ok_iff {requesterTopic : List Char} {data : AbiData 4}
    {request : PriceRequest} :
    parseRequest keccak requesterTopic data = .ok request ↔
      ∃ requester value, topicAddress requesterTopic = .ok requester ∧
        dynamicWord data 2 = .ok value ∧ isUtf8 value = true ∧
        request = ⟨requester, deriveBinaryConditionId keccak requester (keccak value),
          ⟨keccak value, fieldNumber value "market_id"⟩, word data 3⟩ := by
  unfold parseRequest
  rw [bind_eq_ok_iff]
  refine exists_congr fun requester => ?_
  rw [bind_eq_ok_iff]
  constructor
  · rintro ⟨hrequester, value, hvalue, h⟩
    obtain ⟨ancillary, hancillary, h⟩ := bind_eq_ok_iff.mp h
    unfold parseAncillary at hancillary
    split_ifs at hancillary with hutf8
    cases hancillary
    cases h
    simp_all
  · rintro ⟨value, hrequester, hvalue, hutf8, rfl⟩
    refine ⟨hrequester, value, hvalue, bind_eq_ok_iff.mpr ⟨_, if_pos hutf8, rfl⟩⟩

lemma stripMark_length_le (text : List Char) : (stripMark text).length ≤ text.length := by
  unfold stripMark
  grind

lemma Recognised.decode_eq_ok_iff (h : Recognised raw allowedEmitters)
    (keccak : List UInt8 → Bytes 32) (receivedAtUs : ℕ) :
    ∃ kind : PriceRequest → UmaEvent, (∀ request, (kind request).request = request) ∧
      ∀ event, decodeSignalLog keccak raw receivedAtUs allowedEmitters false = .ok event ↔
        ∃ data o n requester topic, AbiLayout raw data o n ∧ raw.topics[1]? = some topic ∧
          topicAddress topic = .ok requester ∧
          ∃ price : Bytes 32, price.1 = (data.drop 96).take 32 ∧
            event = kind ⟨requester, deriveBinaryConditionId keccak requester
              (keccak ((data.drop (o + 32)).take n)),
              ⟨keccak ((data.drop (o + 32)).take n),
                fieldNumber ((data.drop (o + 32)).take n) "market_id"⟩, price⟩ := by
  obtain ⟨kind, topic, hkind, htopic, hdecode⟩ :=
    h.decodeSignalLog_eq keccak receivedAtUs
  have hsize : ∀ data, hexDecode (stripMark raw.data) = some data → data.length < 2 ^ 64 := by
    intro data hdata
    have hhalf := length_of_hexDecode hdata
    have hstrip := stripMark_length_le raw.data
    have hraw := h.size
    omega
  refine ⟨kind, hkind, fun event => ?_⟩
  rw [hdecode, bind_eq_ok_iff]
  constructor
  · rintro ⟨data, hdata, h'⟩
    obtain ⟨request, hrequest, hevent⟩ := bind_eq_ok_iff.mp h'
    have hhex := parseData_eq_ok_iff.mp hdata
    obtain ⟨requester, value, hrequester, hvalue, hutf8, rfl⟩ := parseRequest_eq_ok_iff.mp hrequest
    obtain ⟨o, n, hoffset, ho, hlength, hn, hinside, rfl⟩ :=
      (dynamicWord_eq_ok_iff data 2 (hsize _ hhex)).mp hvalue
    obtain ⟨requesterWord, hword, hwidth⟩ := topicAddress_eq_ok.mp ⟨requester, hrequester⟩
    cases hevent
    exact ⟨data.1, o, n, requester, topic,
      ⟨hhex, data.2, ⟨topic, requesterWord, htopic, hword, hwidth⟩, hoffset, ho, hlength, hn,
        hinside, isUtf8_iff.mp hutf8⟩, htopic, hrequester, word data 3, rfl, rfl⟩
  · rintro ⟨data, o, n, requester, topic', hlayout, htopic', hrequester, price, hprice, rfl⟩
    obtain rfl : topic = topic' := Option.some_inj.mp (htopic.symm.trans htopic')
    refine ⟨⟨data, hlayout.words⟩, parseData_eq_ok_iff.mpr hlayout.hex, ?_⟩
    refine bind_eq_ok_iff.mpr ⟨_, ?_, rfl⟩
    refine parseRequest_eq_ok_iff.mpr ⟨requester, (data.drop (o + 32)).take n, hrequester, ?_,
      isUtf8_iff.mpr hlayout.text, ?_⟩
    · exact (dynamicWord_eq_ok_iff _ 2 (hsize _ hlayout.hex)).mpr ⟨o, n, hlayout.offset,
        hlayout.offset_lt, hlayout.length, hlayout.length_lt, hlayout.inside, rfl⟩
    · have hfourth : price = word ⟨data, hlayout.words⟩ 3 := Subtype.ext hprice
      rw [hfourth]

lemma AbiLayout.unique {data data' : List UInt8} {o o' n n' : ℕ} (h : AbiLayout raw data o n)
    (h' : AbiLayout raw data' o' n') : data = data' ∧ o = o' ∧ n = n' := by
  obtain rfl : data = data' := Option.some_inj.mp (h.hex.symm.trans h'.hex)
  obtain rfl : o = o' := h.offset.symm.trans h'.offset
  exact ⟨rfl, rfl, h.length.symm.trans h'.length⟩

end Keccak

theorem decode_reads_abi_layout (keccak : List UInt8 → Bytes 32) (raw : RpcLog) (receivedAtUs : ℕ)
    (allowedEmitters : List (Bytes 20)) :
    (∀ requireMarketId,
      (Checked.decodeSignalLog keccak raw receivedAtUs allowedEmitters requireMarketId).run =
        some (decodeSignalLog keccak raw receivedAtUs allowedEmitters requireMarketId)) ∧
    (Recognised raw allowedEmitters →
      ((∃ event, decodeSignalLog keccak raw receivedAtUs allowedEmitters false = .ok event) ↔
        ∃ data o n, AbiLayout raw data o n) ∧
      ∀ event data o n,
        decodeSignalLog keccak raw receivedAtUs allowedEmitters false = .ok event →
        AbiLayout raw data o n →
        event.request.ancillary.questionId = keccak ((data.drop (o + 32)).take n) ∧
        event.request.proposedPrice.1 = (data.drop 96).take 32 ∧
        ∀ id, event.request.ancillary.marketId = some id ↔
          HasMarketId ((data.drop (o + 32)).take n) id) := by
  refine ⟨fun requireMarketId => ?_, fun hrecognised => ?_⟩
  · rw [Checked.decodeSignalLog_eq, run_returns]
  · obtain ⟨kind, hkind, hiff⟩ := hrecognised.decode_eq_ok_iff keccak receivedAtUs
    refine ⟨⟨?_, ?_⟩, ?_⟩
    · grind
    · rintro ⟨data, o, n, hlayout⟩
      obtain ⟨topic, requesterWord, htopic, hword, hwidth⟩ := hlayout.requester
      obtain ⟨requester, hrequester⟩ := topicAddress_eq_ok.mpr ⟨requesterWord, hword, hwidth⟩
      exact ⟨_, (hiff _).mpr ⟨data, o, n, requester, topic, hlayout, htopic, hrequester,
        word ⟨data, hlayout.words⟩ 3, rfl, rfl⟩⟩
    · intro event data o n hevent hlayout
      obtain ⟨data', o', n', requester, topic, hlayout', -, -, price, hprice, rfl⟩ :=
        (hiff event).mp hevent
      obtain ⟨rfl, rfl, rfl⟩ := hlayout.unique hlayout'
      rw [hkind]
      exact ⟨rfl, hprice, fun id => fieldNumber_eq_some_iff⟩

def sampleText : List UInt8 := utf8 "market_id: 42".toList

def sampleData : List UInt8 :=
  List.replicate 64 0 ++ toBeBytes 32 128 ++ toBeBytes 32 7 ++ toBeBytes 32 13 ++ sampleText

def sampleLog : RpcLog where
  address := hexEncode (List.replicate 20 17)
  topics := [topicProposePrice, hexEncode (List.replicate 32 3), hexEncode (List.replicate 32 4)]
  data := hexEncode sampleData
  blockNumber := ['1', '0']
  blockHash := []
  transactionHash := hexEncode (List.replicate 32 9)
  transactionIndex := none
  logIndex := ['1']
  removed := false

/-- The sample log is decoded, and its market is the one in the text. -/
theorem decode_reads_sample_layout :
    ∃ event, decodeSignalLog (fun _ => Bytes.fill 32 5) sampleLog 8 [] false = .ok event ∧
      event.request.ancillary.marketId = some 42 ∧
      event.request.proposedPrice.1 = toBeBytes 32 7 := by
  have hrecognised : Recognised sampleLog [] :=
    { emitter := ⟨Bytes.fill 20 17, by decide +kernel, Or.inl rfl⟩
      block := ⟨16, by decide +kernel⟩
      transaction := ⟨Bytes.fill 32 9, by decide +kernel⟩
      index := ⟨1, by decide +kernel, by decide⟩
      topic := ⟨topicProposePrice, rfl, Or.inl ⟨by decide +kernel, by decide⟩⟩
      size := by decide +kernel }
  have hlayout : AbiLayout sampleLog sampleData 128 13 :=
    { hex := by decide +kernel
      words := by decide +kernel
      requester := ⟨hexEncode (List.replicate 32 3), List.replicate 32 3, rfl, by decide +kernel,
        by decide⟩
      offset := by decide +kernel
      offset_lt := by decide
      length := by decide +kernel
      length_lt := by decide
      inside := by decide +kernel
      text := ⟨"market_id: 42".toList, by decide +kernel⟩ }
  have hmarket : HasMarketId ((sampleData.drop (128 + 32)).take 13) 42 := by
    exact ⟨[], [32], [52, 50], [], ⟨by decide +kernel, fun b hb => nomatch hb⟩,
      fun before' after' _ => Nat.zero_le _, by decide +kernel, by decide +kernel,
      by decide +kernel, (fun b hb => nomatch hb), by decide +kernel, by decide +kernel⟩
  obtain ⟨hiff, hfields⟩ := (decode_reads_abi_layout (fun _ => Bytes.fill 32 5) sampleLog 8 []).2
    hrecognised
  obtain ⟨event, hevent⟩ := hiff.mpr ⟨sampleData, 128, 13, hlayout⟩
  obtain ⟨-, hprice, hid⟩ := hfields event sampleData 128 13 hevent hlayout
  refine ⟨event, hevent, (hid 42).mpr hmarket, ?_⟩
  rw [hprice]
  decide +kernel

end RustUma.Uma
