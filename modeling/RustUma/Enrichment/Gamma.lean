import Mathlib.Data.Finset.Card
import Mathlib.Data.List.Destutter
import Mathlib.Data.List.Sort
import RustUma.Uma.Events

/-!
# The market listing (`src/enrichment.rs` `GammaClient`, `compact_market`)

Gamma lists the active markets newest id first, a hundred to a page. A market may be listed before
it has a condition; `compact_market` refuses it until then.
-/

namespace RustUma.Enrichment

open RustUma.Found RustUma.Model

/-! ## Markets -/

inductive EnrichmentError where
  | http
  | status (code : ℕ)
  | oversized
  | json
  | storage
  | identity (field : String)
  deriving DecidableEq

structure GammaMarket where
  id : List Char
  conditionId : List Char
  clobTokenIds : List (List Char)
  tags : List (List Char)
  events : List (List (List Char))
  negRisk : Bool
  sportsMarketType : Option (List Char)
  question : Option (List Char)
  deriving DecidableEq

def parseUint (bits : ℕ) (text : List Char) : Option ℕ :=
  let digits := if text.head? = some '+' then text.tail else text
  let n := Nat.ofDigitChars 10 digits 0
  if digits ≠ [] ∧ digits.all Char.isDigit ∧ n < 2 ^ bits then some n else none

def parseHex32 (value : List Char) : Except EnrichmentError (Bytes 32) :=
  match (hexDecode (Uma.stripMark value)).bind (fixed 32) with
  | some bytes => .ok bytes
  | none => .error (.identity "condition_id")

def pushDigit (bytes : List UInt8) (digit : ℕ) : List UInt8 × ℕ :=
  bytes.foldr (fun byte acc =>
    let next := byte.toNat * 10 + acc.2
    (UInt8.ofNat next :: acc.1, next / 256)) ([], digit)

lemma length_pushDigit (bytes : List UInt8) (digit : ℕ) :
    (pushDigit bytes digit).1.length = bytes.length := by
  induction bytes with
  | nil => rfl
  | cons byte bytes ih => exact congrArg (· + 1) ih

def parseDecimal256 : Bytes 32 → List Char → Except EnrichmentError (Bytes 32)
  | bytes, [] => .ok bytes
  | bytes, c :: rest =>
    if c.isDigit then
      let pushed := pushDigit bytes.1 (c.toNat - 48)
      if pushed.2 ≠ 0 then .error (.identity "token_id overflow")
      else parseDecimal256 ⟨pushed.1, (length_pushDigit _ _).trans bytes.2⟩ rest
    else .error (.identity "token_id")

def parseUint256 (value : List Char) : Except EnrichmentError (Bytes 32) :=
  if ['0', 'x'].isPrefixOf value ∨ ['0', 'X'].isPrefixOf value then
    match parseHex32 value with
    | .ok bytes => .ok bytes
    | .error _ => .error (.identity "token_id")
  else if value = [] then .error (.identity "token_id")
  else parseDecimal256 (Bytes.fill 32 0) value

abbrev Classify := List ℕ → Option (List Char) → Option (List Char) → Category × BetType

def compactMarket (classify : Classify) (raw : GammaMarket) :
    Except EnrichmentError MarketEnrichment := do
  match parseUint 64 raw.id with
  | none => throw (.identity "market_id")
  | some marketId =>
    let conditionId ← parseHex32 raw.conditionId
    let tokenIds ← raw.clobTokenIds.mapM parseUint256
    let tagIds := (((raw.tags ++ raw.events.flatten).filterMap (parseUint 32)).insertionSort
      (· ≤ ·)).destutter (· ≠ ·)
    let kind := classify tagIds raw.sportsMarketType raw.question
    return { marketId, conditionId, tokenIds, tagIds, category := kind.1, betType := kind.2,
             negRisk := raw.negRisk }

lemma marketId_of_compactMarket {classify : Classify} {raw : GammaMarket} {row : MarketEnrichment}
    {m : ℕ} (hid : parseUint 64 raw.id = some m) (h : compactMarket classify raw = .ok row) :
    row.marketId = m := by
  unfold compactMarket at h
  rw [hid] at h
  cases hcondition : parseHex32 raw.conditionId with
  | error e =>
    rw [hcondition] at h
    cases h
  | ok conditionId =>
    rw [hcondition] at h
    cases htokens : raw.clobTokenIds.mapM parseUint256 with
    | error e =>
      rw [htokens] at h
      cases h
    | ok tokenIds =>
      rw [htokens] at h
      cases h
      rfl

/-! ## Pages -/

structure ActiveMarkets where
  entries : List (ℕ × GammaMarket)
  parsed : ∀ e ∈ entries, parseUint 64 e.2.id = some e.1
  sorted : entries.Pairwise fun a b => b.1 < a.1

structure GammaPage where
  markets : List GammaMarket
  nextCursor : String
  deriving DecidableEq

def keysetLimit : ℕ := 100

structure Keyset where
  encode : ℕ → String
  decode : String → Option ℕ
  decode_encode : ∀ id, decode (encode id) = some id
  encode_ne_empty : ∀ id, encode id ≠ ""
  encode_ne_end : ∀ id, encode id ≠ "LTE="

def below (position : Option ℕ) (id : ℕ) : Bool := position.all fun c => decide (id < c)

namespace ActiveMarkets

def ids (listing : ActiveMarkets) : Finset ℕ := (listing.entries.map Prod.fst).toFinset

def after (listing : ActiveMarkets) (position : Option ℕ) : List (ℕ × GammaMarket) :=
  listing.entries.filter fun e => below position e.1

def passed (listing : ActiveMarkets) (position : Option ℕ) : ℕ :=
  (listing.ids.filter fun id => below position id = false).card

end ActiveMarkets

def Keyset.serve (k : Keyset) (listing : ActiveMarkets) (cursor : Option String) : GammaPage :=
  let rest := listing.after (cursor.bind k.decode)
  { markets := (rest.take keysetLimit).map Prod.snd
    nextCursor :=
      if keysetLimit < rest.length then
        ((rest.take keysetLimit).getLast?.map fun e => k.encode e.1).getD ""
      else "LTE=" }

variable {listing listing' : ActiveMarkets} {position : Option ℕ} {m : ℕ}

lemma Keyset.encode_injective (k : Keyset) {a b : ℕ} (h : k.encode a = k.encode b) : a = b := by
  have hdecode := congrArg k.decode h
  rw [k.decode_encode, k.decode_encode] at hdecode
  simp_all

lemma Keyset.bind_decode (k : Keyset) (position : Option ℕ) :
    (position.map k.encode).bind k.decode = position := by
  cases position with
  | none => rfl
  | some c => exact k.decode_encode c

lemma Keyset.length_serve (k : Keyset) (listing : ActiveMarkets) (cursor : Option String) :
    (k.serve listing cursor).markets.length ≤ keysetLimit := by
  unfold Keyset.serve
  simp

@[simp] lemma below_some {c id : ℕ} : below (some c) id = true ↔ id < c := by
  unfold below
  rw [Option.all_some, decide_eq_true_iff]

lemma below_of_lt {a b : ℕ} (h : below position b = true) (hlt : a < b) :
    below position a = true := by
  cases position with
  | none => rfl
  | some c => exact below_some.mpr (hlt.trans (below_some.mp h))

namespace ActiveMarkets

lemma mem_ids {id : ℕ} : id ∈ listing.ids ↔ ∃ raw, (id, raw) ∈ listing.entries := by
  unfold ids
  simp

lemma passed_mono (h : listing.ids ⊆ listing'.ids) (position : Option ℕ) :
    listing.passed position ≤ listing'.passed position :=
  Finset.card_le_card (Finset.filter_subset_filter _ h)

@[simp] lemma passed_none (listing : ActiveMarkets) : listing.passed none = 0 := by
  unfold passed
  rw [Finset.card_eq_zero, Finset.filter_eq_empty_iff]
  intro id _ hfalse
  cases hfalse

lemma passed_le_card {c : ℕ} (h : m < c) :
    listing.passed (some c) ≤ (listing.ids.filter fun id => m < id).card := by
  refine Finset.card_le_card fun id hid => ?_
  rw [Finset.mem_filter] at hid ⊢
  refine ⟨hid.1, ?_⟩
  by_contra hle
  rw [below_some.mpr (by omega)] at hid
  cases hid.2

lemma sorted_after (listing : ActiveMarkets) (position : Option ℕ) :
    (listing.after position).Pairwise fun a b => b.1 < a.1 :=
  listing.sorted.filter _

lemma passed_add_length_le {page : List (ℕ × GammaMarket)} {c : ℕ}
    (hpage : ∀ e ∈ page, e ∈ listing.after position)
    (hsorted : page.Pairwise fun a b => b.1 < a.1) (hbelow : below position c = true)
    (hleast : ∀ e ∈ page, c ≤ e.1) :
    listing.passed position + page.length ≤ listing.passed (some c) := by
  have hnodup : (page.map Prod.fst).Nodup := by
    grind
  have hcard : page.length = (page.map Prod.fst).toFinset.card := by
    rw [List.toFinset_card_of_nodup hnodup, List.length_map]
  have hmem : ∀ id ∈ (page.map Prod.fst).toFinset,
      id ∈ listing.ids ∧ below position id = true ∧ c ≤ id := by
    intro id hid
    obtain ⟨e, he, rfl⟩ := List.mem_map.mp (List.mem_toFinset.mp hid)
    obtain ⟨hentry, hafter⟩ := List.mem_filter.mp (hpage e he)
    exact ⟨mem_ids.mpr ⟨e.2, hentry⟩, hafter, hleast e he⟩
  unfold passed
  rw [hcard, ← Finset.card_union_of_disjoint]
  · refine Finset.card_le_card fun id hid => ?_
    rw [Finset.mem_filter]
    rcases Finset.mem_union.mp hid with hid | hid
    · obtain ⟨hids, hpassed⟩ := Finset.mem_filter.mp hid
      refine ⟨hids, ?_⟩
      cases hcase : below (some c) id with
      | false => rfl
      | true =>
        rw [below_of_lt hbelow (below_some.mp hcase)] at hpassed
        cases hpassed
    · obtain ⟨hids, -, hle⟩ := hmem id hid
      refine ⟨hids, ?_⟩
      cases hcase : below (some c) id with
      | false => rfl
      | true => exact absurd (below_some.mp hcase) (by omega)
  · rw [Finset.disjoint_left]
    grind

lemma getLast_le {page : List (ℕ × GammaMarket)} (hsorted : page.Pairwise fun a b => b.1 < a.1)
    (hne : page ≠ []) : ∀ e ∈ page, (page.getLast hne).1 ≤ e.1 := by
  intro e he
  rw [← List.dropLast_append_getLast hne] at he hsorted
  grind

lemma mem_page_or_passed (k : Keyset) {raw : GammaMarket} (hmem : (m, raw) ∈ listing.entries)
    (hbelow : below position m = true) :
    (m, raw) ∈ (listing.after position).take keysetLimit ∨
      (∀ e ∈ (listing.after position).take keysetLimit, m < e.1) ∧
      ∃ c, (k.serve listing (position.map k.encode)).nextCursor = k.encode c ∧
        below position c = true ∧ m < c ∧
        listing.passed position + keysetLimit ≤ listing.passed (some c) := by
  have hafter : (m, raw) ∈ listing.after position := List.mem_filter.mpr ⟨hmem, hbelow⟩
  have hsorted := listing.sorted_after position
  rw [← List.take_append_drop keysetLimit (listing.after position)] at hafter hsorted
  refine (List.mem_append.mp hafter).imp id fun hdrop => ?_
  obtain ⟨htake, -, hcross⟩ := List.pairwise_append.mp hsorted
  have hnewer : ∀ e ∈ (listing.after position).take keysetLimit, m < e.1 :=
    fun e he => hcross e he (m, raw) hdrop
  refine ⟨hnewer, ?_⟩
  have hlong : keysetLimit < (listing.after position).length := by
    by_contra hshort
    rw [List.drop_of_length_le (by omega)] at hdrop
    cases hdrop
  have hfull : ((listing.after position).take keysetLimit).length = keysetLimit :=
    List.length_take_of_le hlong.le
  have hne : (listing.after position).take keysetLimit ≠ [] := by
    intro hnil
    rw [hnil] at hfull
    cases hfull
  -- the page ends at the least id it has
  have hlast := List.getLast_mem hne
  refine ⟨(((listing.after position).take keysetLimit).getLast hne).1, ?_, ?_, hnewer _ hlast, ?_⟩
  · unfold Keyset.serve
    dsimp only
    rw [k.bind_decode, if_pos hlong, List.getLast?_eq_some_getLast hne]
    rfl
  · exact (List.mem_filter.mp (List.mem_of_mem_take hlast)).2
  · have hcount := passed_add_length_le (fun e he => List.mem_of_mem_take he) htake
      (List.mem_filter.mp (List.mem_of_mem_take hlast)).2 (getLast_le htake hne)
    rwa [hfull] at hcount

end ActiveMarkets

end RustUma.Enrichment
