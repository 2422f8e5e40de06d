import RustUma.Enrichment.Newest
import RustUma.Found.Paging

/-!
# Requests and retries (`src/enrichment.rs` `GammaClient`, `sync_newest_markets`)

Both walks over the listing ask for page after page. A request that fails for a reason that may pass
is made again, three times at most.
-/

namespace RustUma.Enrichment

open RustUma.Found RustUma.Model

/-! ## Pages -/

structure DatedMarket extends GammaMarket where
  updatedAt : List Char
  deriving DecidableEq

abbrev DatedPage := Page DatedMarket String

def terminal (next : String) : Bool := next = "" ∨ next = "LTE="

/-! ## Requests -/

def EnrichmentError.isTransient : EnrichmentError → Bool
  | .http | .json => true
  | .status code => (500 ≤ code ∧ code < 600) ∨ code = 429
  | .oversized | .storage | .identity _ => false

def keysetRetries : ℕ := 3

def retrying {α : Type} (keyset : ℕ → Except EnrichmentError α) :
    ℕ → ℕ → Except EnrichmentError α
  | 0, attempt => keyset attempt
  | left + 1, attempt =>
    match keyset attempt with
    | .ok page => .ok page
    | .error error =>
      if error.isTransient then retrying keyset left (attempt + 1) else .error error

def keysetWithRetry {α : Type} (keyset : ℕ → Except EnrichmentError α) :
    Except EnrichmentError α :=
  retrying keyset keysetRetries 0

abbrev Gamma := Option String → ℕ → Except EnrichmentError DatedPage

variable {α : Type} {keyset : ℕ → Except EnrichmentError α} {page : α}

lemma retrying_eq_ok {left attempt : ℕ} (h : retrying keyset left attempt = .ok page) :
    ∃ n, keyset n = .ok page := by
  induction left generalizing attempt with
  | zero => exact ⟨attempt, h⟩
  | succ left ih =>
    unfold retrying at h
    grind

lemma keysetWithRetry_eq_ok (h : keysetWithRetry keyset = .ok page) : ∃ n, keyset n = .ok page :=
  retrying_eq_ok h

lemma retrying_of_transient {left attempt n : ℕ} (hn : n ≤ left)
    (hbefore : ∀ i < n, ∃ e, keyset (attempt + i) = .error e ∧ e.isTransient = true)
    (hpage : keyset (attempt + n) = .ok page) : retrying keyset left attempt = .ok page := by
  induction n generalizing left attempt with
  | zero => cases left <;> simp only [retrying, show keyset attempt = .ok page from hpage]
  | succ n ih =>
    cases left with
    | zero => omega
    | succ left =>
      obtain ⟨e, he, htransient⟩ := hbefore 0 (by omega)
      simp only [retrying, show keyset attempt = .error e from he, htransient, if_true]
      grind

/-! ## The walk by id -/

structure Tick where
  catalog : Catalog
  changed : ℕ
  deriving DecidableEq

def Tick.upsert (tick : Tick) (market : MarketEnrichment) : Tick where
  catalog := (tick.catalog.upsert market).1
  changed := tick.changed + if (tick.catalog.upsert market).2 then 1 else 0

def Tick.store (classify : Classify) (tick : Tick) (raw : DatedMarket) : Tick :=
  match compactMarket classify raw.toGammaMarket with
  | .ok market => tick.upsert market
  | .error _ => tick

def readNewest (classify : Classify) (knownMax : ℕ) (tick : Tick) :
    List DatedMarket → Tick × Bool
  | [] => (tick, false)
  | raw :: rest =>
    if (parseUint 64 raw.id).any (· ≤ knownMax) then (tick, true)
    else readNewest classify knownMax (tick.store classify raw) rest

def walkNewest (gamma : Gamma) (classify : Classify) (knownMax : ℕ) :
    ℕ → Option String → Tick → Tick × Except EnrichmentError Unit :=
  walkPages terminal (fun cursor => keysetWithRetry (gamma cursor)) (readNewest classify knownMax)

def syncNewestMarkets (gamma : Gamma) (classify : Classify) (catalog : Catalog) (maxPages : ℕ) :
    Catalog × Except EnrichmentError ℕ :=
  let walked := walkNewest gamma classify catalog.maxMarketId (max maxPages 1) none ⟨catalog, 0⟩
  (walked.1.catalog, walked.2.map fun _ => walked.1.changed)

end RustUma.Enrichment
