import Mathlib.Data.List.Sort
import RustUma.Found.Reader
import RustUma.Model.Projection
import RustUma.Storage.Journal

/-!
# The catalog file (`src/storage.rs` `Storage::save_catalog`, `Storage::load_catalog`)

`catalog.bin` is a magic number, a count and the rows in the order of their market ids. The count of
a row's tokens or tags has two bytes; a row with more of them stops the writer with an error.
-/

namespace RustUma.Storage

open RustUma.Found RustUma.Model

/-! ## Writing -/

def catalogMagic : List UInt8 := [85, 77, 65, 67, 65, 84, 51, 0]

def catalogMagicV1 : List UInt8 := [85, 77, 65, 67, 65, 84, 49, 0]

def catalogMagicV2 : List UInt8 := [85, 77, 65, 67, 65, 84, 50, 0]

def encodeMarket [numbers : PbNumbers] (market : MarketEnrichment) : List UInt8 :=
  toBeBytes 8 market.marketId ++ (market.conditionId.1 ++
    (toBeBytes 2 market.tokenIds.length ++ (market.tokenIds.flatMap Subtype.val ++
      (toBeBytes 2 market.tagIds.length ++ (market.tagIds.flatMap (toBeBytes 4) ++
        (toBeBytes 1 (numbers.category.number market.category.toProto % 256).toNat ++
          (toBeBytes 4 (numbers.betType.number market.betType.toProto % 2 ^ 32).toNat ++
            toBeBytes 1 market.negRisk.toNat)))))))

def Writable (market : MarketEnrichment) : Prop :=
  market.tokenIds.length ≤ 65535 ∧ market.tagIds.length ≤ 65535

instance (market : MarketEnrichment) : Decidable (Writable market) :=
  inferInstanceAs (Decidable (_ ∧ _))

def ordered (markets : List MarketEnrichment) : List MarketEnrichment :=
  markets.insertionSort fun a b => a.marketId ≤ b.marketId

lemma ordered_perm (markets : List MarketEnrichment) : (ordered markets).Perm markets :=
  List.perm_insertionSort _ markets

def catalogBytes [PbNumbers] (markets : List MarketEnrichment) : List UInt8 :=
  catalogMagic ++ (toBeBytes 4 markets.length ++
    ((ordered markets).takeWhile fun market => decide (Writable market)).flatMap encodeMarket)

def Savable (markets : List MarketEnrichment) : Prop := ∀ market ∈ markets, Writable market

instance (markets : List MarketEnrichment) : Decidable (Savable markets) :=
  inferInstanceAs (Decidable (∀ market ∈ markets, Writable market))

/-! ## Reading -/

def readBytes32 : Reader StorageError (Bytes 32) := do
  match fixed 32 (← readExact .io 32) with
  | some bytes => return bytes
  | none => throw .io

def readMarket [numbers : PbNumbers] : Reader StorageError MarketEnrichment := do
  let marketId ← readBe .io 8
  let conditionId ← readBytes32
  let tokenCount ← readBe .io 2
  let tokenIds ← readMany readBytes32 tokenCount
  let tagCount ← readBe .io 2
  let tagIds ← readMany (readBe .io 4) tagCount
  let category ← readBe .io 1
  let betType ← readBe .io 4
  let negRisk ← readBe .io 1
  return {
    marketId := marketId
    conditionId := conditionId
    tokenIds := tokenIds
    tagIds := tagIds
    category := Category.fromProto (numbers.category.tryFrom category)
    betType := BetType.fromProto (numbers.betType.tryFrom ((betType : ℤ).bmod (2 ^ 32)))
    negRisk := decide (negRisk ≠ 0) }

structure LoadedCatalog where
  markets : List MarketEnrichment
  discarded : Bool
  deriving DecidableEq

def readCatalog [PbNumbers] : Reader StorageError LoadedCatalog := do
  let magic ← readExact .io 8
  if magic = catalogMagicV1 ∨ magic = catalogMagicV2 then return ⟨[], true⟩
  else if magic ≠ catalogMagic then throw (.format "catalog magic")
  else
    let count ← readBe .io 4
    let markets ← readMany readMarket count
    return ⟨markets, false⟩

def loadCatalog [PbNumbers] (file : Option (List UInt8)) : Except StorageError LoadedCatalog :=
  match file with
  | none => .ok ⟨[], false⟩
  | some bytes => (readCatalog bytes).map Prod.fst

/-! ## Reading back -/

def Typed (market : MarketEnrichment) : Prop :=
  market.marketId < 2 ^ 64 ∧ ∀ tag ∈ market.tagIds, tag < 2 ^ 32

instance (market : MarketEnrichment) : Decidable (Typed market) :=
  inferInstanceAs (Decidable (_ ∧ _))

lemma reads_bytes32 (b : Bytes 32) : Reads readBytes32 b.1 b := by
  rw [← List.append_nil b.1]
  refine (reads_exact _ b.2).bind ?_
  rw [fixed_val]
  exact Reads.pure b

def rowsBytes [PbNumbers] (rows : List MarketEnrichment) : List UInt8 :=
  catalogMagic ++ (toBeBytes 4 rows.length ++ rows.flatMap encodeMarket)

variable [numbers : CatalogNumbers]

lemma category_toNat (c : PbCategory) :
    ((numbers.category.number c % 256).toNat : ℤ) = numbers.category.number c := by
  obtain ⟨hle, hlt⟩ := numbers.category_lt c
  rw [Int.emod_eq_of_lt hle hlt, Int.toNat_of_nonneg hle]

lemma betType_bmod (b : PbBetType) :
    ((numbers.betType.number b % 2 ^ 32).toNat : ℤ).bmod (2 ^ 32) = numbers.betType.number b := by
  obtain ⟨hle, hlt⟩ := numbers.betType.i32 b
  rw [Int.toNat_of_nonneg (Int.emod_nonneg _ (by decide))]
  generalize numbers.betType.number b = x at *
  exact (Int.emod_bmod x (2 ^ 32)).trans (Int.bmod_eq_of_le (by omega) (by omega))

lemma reads_market {market : MarketEnrichment} (htyped : Typed market)
    (hwritable : Writable market) :
    Reads readMarket (encodeMarket market) market := by
  refine (reads_be _ (by simpa using htyped.1)).bind ?_
  refine (reads_bytes32 _).bind ?_
  refine (reads_be _ (by have := hwritable.1; omega)).bind ?_
  refine (reads_many fun b _ => reads_bytes32 b).bind ?_
  refine (reads_be _ (by have := hwritable.2; omega)).bind ?_
  refine (reads_many fun tag htag => reads_be _ (by simpa using htyped.2 tag htag)).bind ?_
  refine (reads_be _ (by omega)).bind ?_
  refine (reads_be _ (by omega)).bind ?_
  have hlast : Reads (readBe StorageError.io 1) (toBeBytes 1 market.negRisk.toNat)
      market.negRisk.toNat := reads_be _ (by cases market.negRisk <;> decide)
  have hmarket : ({
      marketId := market.marketId
      conditionId := market.conditionId
      tokenIds := market.tokenIds
      tagIds := market.tagIds
      category := Category.fromProto (numbers.category.tryFrom
        (numbers.category.number market.category.toProto % 256).toNat)
      betType := BetType.fromProto (numbers.betType.tryFrom (((numbers.betType.number
        market.betType.toProto % 2 ^ 32).toNat : ℤ).bmod (2 ^ 32)))
      negRisk := decide (market.negRisk.toNat ≠ 0) } : MarketEnrichment) = market := by
    rw [category_toNat, betType_bmod, PbEnum.tryFrom_number, PbEnum.tryFrom_number,
      Category.fromProto_toProto, BetType.fromProto_toProto]
    cases hneg : market.negRisk <;> cases market <;> cases hneg <;> rfl
  have hmap := hlast.map (f := fun negRisk => ({
      marketId := market.marketId
      conditionId := market.conditionId
      tokenIds := market.tokenIds
      tagIds := market.tagIds
      category := Category.fromProto (numbers.category.tryFrom
        (numbers.category.number market.category.toProto % 256).toNat)
      betType := BetType.fromProto (numbers.betType.tryFrom (((numbers.betType.number
        market.betType.toProto % 2 ^ 32).toNat : ℤ).bmod (2 ^ 32)))
      negRisk := decide (negRisk ≠ 0) } : MarketEnrichment))
  rwa [hmarket] at hmap

lemma loadCatalog_rowsBytes {rows : List MarketEnrichment}
    (htyped : ∀ market ∈ rows, Typed market) (hsavable : Savable rows)
    (hcount : rows.length < 2 ^ 32) :
    loadCatalog (some (rowsBytes rows)) = .ok ⟨rows, false⟩ := by
  have hrows : Reads (readMany readMarket rows.length) (rows.flatMap encodeMarket) rows :=
    reads_many fun market hmarket => reads_market (htyped market hmarket) (hsavable market hmarket)
  have hread : Reads readCatalog (rowsBytes rows) ⟨rows, false⟩ := by
    have hmagic : Reads (readExact StorageError.io 8) catalogMagic catalogMagic :=
      reads_exact _ rfl
    refine hmagic.bind ?_
    exact (reads_be _ (by simpa using hcount)).bind hrows.map
  have happly := hread []
  rw [List.append_nil] at happly
  unfold loadCatalog
  dsimp only
  rw [happly]
  rfl

theorem loadCatalog_catalogBytes {markets : List MarketEnrichment}
    (htyped : ∀ market ∈ markets, Typed market) (hsavable : Savable markets)
    (hcount : markets.length < 2 ^ 32) :
    loadCatalog (some (catalogBytes markets)) = .ok ⟨ordered markets, false⟩ := by
  have hperm := ordered_perm markets
  have hall : (ordered markets).takeWhile (fun market => decide (Writable market)) =
      ordered markets := by
    rw [List.takeWhile_eq_self_iff]
    exact fun market hmarket => decide_eq_true (hsavable market (hperm.mem_iff.mp hmarket))
  have hbytes : catalogBytes markets = rowsBytes (ordered markets) := by
    unfold catalogBytes rowsBytes
    rw [hall, hperm.length_eq]
  rw [hbytes]
  refine loadCatalog_rowsBytes (fun market hmarket => ?_) (fun market hmarket => ?_) ?_
  · grind
  · simp_all
  · rwa [hperm.length_eq]

end RustUma.Storage
