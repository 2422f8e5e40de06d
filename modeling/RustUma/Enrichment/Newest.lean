import RustUma.Enrichment.Catalog
import RustUma.Enrichment.Gamma
import RustUma.Found.Reach

/-!
# The new-market watch (`src/enrichment.rs` `run_new_market_watch`, `sync_newest_markets`)

Every few seconds a tick walks the listing from the newest market down to the highest id the catalog
had when the tick began, and upserts what it can make a row of. Whoever upserts a newer market
raises that id, past markets that were listed and not stored.
-/

namespace RustUma.Enrichment

open RustUma.Found RustUma.Model

/-! ## The machine -/

inductive WatchPhase where
  | idle
  | asking (knownMax : ℕ) (cursor : Option String) (left changed : ℕ)
  | reading (knownMax : ℕ) (cursor : Option String) (left : ℕ) (rest : List GammaMarket)
      (next : String) (changed : ℕ)
  deriving DecidableEq

structure Watch where
  catalog : Catalog
  listing : ActiveMarkets
  phase : WatchPhase
  catalogMarkets : ℕ
  newMarketsAdded : ℕ

inductive WatchAction where
  | list (listing : ActiveMarkets)
  | upsert (market : MarketEnrichment)
  | begin
  | page
  | fail (error : EnrichmentError)
  | take

def WatchAction.Succeeds : WatchAction → Prop
  | .fail _ => False
  | _ => True

instance : DecidablePred WatchAction.Succeeds
  | .fail _ => .isFalse id
  | .list _ | .upsert _ | .begin | .page | .take => .isTrue trivial

namespace Watch

def start (markets : List MarketEnrichment) (listing : ActiveMarkets) : Watch where
  catalog := Catalog.new markets
  listing := listing
  phase := .idle
  catalogMarkets := (Catalog.new markets).byCondition.entries.length
  newMarketsAdded := 0

def finish (s : Watch) (changed : ℕ) : Watch :=
  { s with
    phase := .idle
    catalogMarkets :=
      if changed = 0 then s.catalogMarkets else s.catalog.byCondition.entries.length
    newMarketsAdded := s.newMarketsAdded + changed }

def Last (cursor : Option String) (left : ℕ) (next : String) : Prop :=
  next = "" ∨ next = "LTE=" ∨ cursor = some next ∨ left = 0

instance (cursor : Option String) (left : ℕ) (next : String) : Decidable (Last cursor left next) :=
  inferInstanceAs (Decidable (_ ∨ _ ∨ _ ∨ _))

def store (classify : Classify) (s : Watch) (raw : GammaMarket) (knownMax : ℕ)
    (cursor : Option String) (left : ℕ) (rest : List GammaMarket) (next : String) (changed : ℕ) :
    Watch :=
  match compactMarket classify raw with
  | .ok market =>
    { s with
      catalog := (s.catalog.upsert market).1
      phase := .reading knownMax cursor left rest next
        (changed + if (s.catalog.upsert market).2 then 1 else 0) }
  | .error _ => { s with phase := .reading knownMax cursor left rest next changed }

def step (k : Keyset) (classify : Classify) (maxPages : ℕ) (s : Watch) :
    WatchAction → Option Watch
  | .list listing =>
    if s.listing.ids ⊆ listing.ids then some { s with listing := listing } else none
  | .upsert market => some { s with catalog := (s.catalog.upsert market).1 }
  | .begin =>
    match s.phase with
    | .idle =>
      some { s with phase := .asking s.catalog.maxMarketId none (max maxPages 1 - 1) 0 }
    | _ => none
  | .page =>
    match s.phase with
    | .asking knownMax cursor left changed =>
      if (k.serve s.listing cursor).markets = [] then some (s.finish changed)
      else some { s with
        phase := .reading knownMax cursor left (k.serve s.listing cursor).markets
          (k.serve s.listing cursor).nextCursor changed }
    | _ => none
  | .fail _ =>
    match s.phase with
    | .asking _ _ _ _ => some { s with phase := .idle }
    | _ => none
  | .take =>
    match s.phase with
    | .reading knownMax cursor left [] next changed =>
      if Last cursor left next then some (s.finish changed)
      else some { s with phase := .asking knownMax (some next) (left - 1) changed }
    | .reading knownMax cursor left (raw :: rest) next changed =>
      if (parseUint 64 raw.id).any (· ≤ knownMax) then some (s.finish changed)
      else some (s.store classify raw knownMax cursor left rest next changed)
    | _ => none

inductive Step (k : Keyset) (classify : Classify) (maxPages : ℕ) (s : Watch) :
    WatchAction → Watch → Prop where
  | list (listing : ActiveMarkets) (hgrows : s.listing.ids ⊆ listing.ids) :
      Step k classify maxPages s (.list listing) { s with listing := listing }
  | upsert (market : MarketEnrichment) :
      Step k classify maxPages s (.upsert market)
        { s with catalog := (s.catalog.upsert market).1 }
  | begin (hphase : s.phase = .idle) :
      Step k classify maxPages s .begin
        { s with phase := .asking s.catalog.maxMarketId none (max maxPages 1 - 1) 0 }
  | empty (knownMax : ℕ) (cursor : Option String) (left changed : ℕ)
      (hphase : s.phase = .asking knownMax cursor left changed)
      (hempty : (k.serve s.listing cursor).markets = []) :
      Step k classify maxPages s .page (s.finish changed)
  | page (knownMax : ℕ) (cursor : Option String) (left changed : ℕ)
      (hphase : s.phase = .asking knownMax cursor left changed) :
      Step k classify maxPages s .page
        { s with
          phase := .reading knownMax cursor left (k.serve s.listing cursor).markets
            (k.serve s.listing cursor).nextCursor changed }
  | fail (error : EnrichmentError) : Step k classify maxPages s (.fail error)
      { s with phase := .idle }
  | last (knownMax : ℕ) (cursor : Option String) (left : ℕ) (next : String) (changed : ℕ)
      (hphase : s.phase = .reading knownMax cursor left [] next changed)
      (hlast : Last cursor left next) :
      Step k classify maxPages s .take (s.finish changed)
  | next (knownMax : ℕ) (cursor : Option String) (left : ℕ) (next : String) (changed : ℕ)
      (hphase : s.phase = .reading knownMax cursor left [] next changed)
      (hlast : ¬ Last cursor left next) :
      Step k classify maxPages s .take
        { s with phase := .asking knownMax (some next) (left - 1) changed }
  | known (knownMax : ℕ) (cursor : Option String) (left : ℕ) (raw : GammaMarket)
      (rest : List GammaMarket) (next : String) (changed : ℕ)
      (hphase : s.phase = .reading knownMax cursor left (raw :: rest) next changed)
      (hknown : (parseUint 64 raw.id).any (· ≤ knownMax) = true) :
      Step k classify maxPages s .take (s.finish changed)
  | store (knownMax : ℕ) (cursor : Option String) (left : ℕ) (raw : GammaMarket)
      (rest : List GammaMarket) (next : String) (changed : ℕ)
      (hphase : s.phase = .reading knownMax cursor left (raw :: rest) next changed)
      (hnew : ¬ (parseUint 64 raw.id).any (· ≤ knownMax) = true) :
      Step k classify maxPages s .take
        (s.store classify raw knownMax cursor left rest next changed)

variable {k : Keyset} {classify : Classify} {maxPages : ℕ} {s s' : Watch} {a : WatchAction}

theorem step_sound (h : s.step k classify maxPages a = some s') :
    Step k classify maxPages s a s' := by
  cases a with
  | list listing =>
    simp only [step] at h
    split_ifs at h with hgrows
    cases h
    exact .list listing hgrows
  | upsert market =>
    cases h
    exact .upsert market
  | begin =>
    simp only [step] at h
    split at h <;> cases h
    next hphase => exact .begin hphase
  | page =>
    simp only [step] at h
    split at h
    · next knownMax cursor left changed hphase =>
      split_ifs at h with hempty
      · cases h
        exact .empty knownMax cursor left changed hphase hempty
      · cases h
        exact .page knownMax cursor left changed hphase
    · cases h
  | fail error =>
    simp only [step] at h
    split at h <;> cases h
    exact .fail error
  | take =>
    simp only [step] at h
    split at h
    · next knownMax cursor left next changed hphase =>
      split_ifs at h with hlast
      · cases h
        exact .last knownMax cursor left next changed hphase hlast
      · cases h
        exact .next knownMax cursor left next changed hphase hlast
    · next knownMax cursor left raw rest next changed hphase =>
      split_ifs at h with hknown
      · cases h
        exact .known knownMax cursor left raw rest next changed hphase hknown
      · cases h
        exact .store knownMax cursor left raw rest next changed hphase hknown
    · cases h

end Watch

/-! ## What is asked of a run -/

def Present (m : ℕ) (catalog : Catalog) : Prop :=
  ∃ row ∈ catalog.getByMarketId m, row.marketId = m

instance (m : ℕ) (catalog : Catalog) : Decidable (Present m catalog) :=
  inferInstanceAs (Decidable (∃ _ ∈ _, _))

def Spares (m : ℕ) (catalog : Catalog) (market : MarketEnrichment) : Prop :=
  market.marketId = m ∨ ∀ c ∈ catalog.marketToCondition.lookup m, market.conditionId ≠ c ∧
    catalog.marketToCondition.lookup market.marketId ≠ some c

instance (m : ℕ) (catalog : Catalog) (market : MarketEnrichment) :
    Decidable (Spares m catalog market) :=
  inferInstanceAs (Decidable (_ ∨ ∀ _ ∈ _, _))

def WatchPhase.row? (classify : Classify) : WatchPhase → Option MarketEnrichment
  | .reading _ _ _ (raw :: _) _ _ => (compactMarket classify raw).toOption
  | _ => none

def Watched (classify : Classify) (m : ℕ) (s : Watch) : WatchAction → Prop
  | .begin => Present m s.catalog ∨ s.catalog.maxMarketId < m
  | .upsert market => Spares m s.catalog market
  | .take => ∀ market ∈ s.phase.row? classify, Spares m s.catalog market
  | _ => True

instance (classify : Classify) (m : ℕ) (s : Watch) (a : WatchAction) :
    Decidable (Watched classify m s a) := by
  delta Watched
  split <;> infer_instance

def Offered (classify : Classify) (maxPages m : ℕ) (listing : ActiveMarkets) : Prop :=
  (∃ e ∈ listing.entries, e.1 = m ∧ (compactMarket classify e.2).toOption.isSome = true) ∧
    (listing.ids.filter fun id => m < id).card < maxPages * keysetLimit

instance (classify : Classify) (maxPages m : ℕ) (listing : ActiveMarkets) :
    Decidable (Offered classify maxPages m listing) :=
  inferInstanceAs (Decidable ((∃ _ ∈ _, _) ∧ _))

/-! ## A tick on its way -/

structure Above (maxPages m : ℕ) (listing : ActiveMarkets) (position : Option ℕ) (left : ℕ) :
    Prop where
  below : below position m = true
  passed : maxPages * keysetLimit ≤ listing.passed position + left * keysetLimit

def Coming (k : Keyset) (classify : Classify) (maxPages m : ℕ) (listing : ActiveMarkets)
    (cursor : Option String) (left : ℕ) (rest : List (ℕ × GammaMarket)) (next : String) : Prop :=
  (∃ raw row, (m, raw) ∈ rest ∧ compactMarket classify raw = .ok row) ∨
    (∀ e ∈ rest, m < e.1) ∧ ∃ position c, cursor = position.map k.encode ∧ next = k.encode c ∧
      below position c = true ∧ Above maxPages m listing (some c) left

def Hunting (k : Keyset) (classify : Classify) (maxPages m : ℕ) (listing : ActiveMarkets) :
    WatchPhase → Prop
  | .idle => False
  | .asking knownMax cursor left _ =>
    knownMax < m ∧ ∃ position, cursor = position.map k.encode ∧
      Above maxPages m listing position (left + 1)
  | .reading knownMax cursor left rest next _ =>
    knownMax < m ∧ ∃ entries : List (ℕ × GammaMarket), rest = entries.map Prod.snd ∧
      (∀ e ∈ entries, parseUint 64 e.2.id = some e.1) ∧
      entries.Pairwise (fun a b => b.1 < a.1) ∧
      Coming k classify maxPages m listing cursor left entries next

structure Caught (k : Keyset) (classify : Classify) (maxPages m : ℕ) (s : Watch) : Prop where
  valid : s.catalog.Valid
  caught : Present m s.catalog ∨ Hunting k classify maxPages m s.listing s.phase

variable {k : Keyset} {classify : Classify} {maxPages m : ℕ} {s s' : Watch} {a : WatchAction}
  {listing listing' : ActiveMarkets}

/-! ### Upserts -/

lemma present_upsert_self {catalog : Catalog} (h : catalog.Valid) (market : MarketEnrichment) :
    Present market.marketId (catalog.upsert market).1 :=
  ⟨market, Catalog.getByMarketId_upsert_self h market, rfl⟩

lemma Present.upsert {catalog : Catalog} {market : MarketEnrichment} (hpresent : Present m catalog)
    (h : catalog.Valid) (hspares : Spares m catalog market) :
    Present m (catalog.upsert market).1 := by
  by_cases hm : market.marketId = m
  · subst hm
    exact present_upsert_self h market
  · obtain ⟨row, hrow, hid⟩ := hpresent
    refine ⟨row, ?_, hid⟩
    rw [Catalog.getByMarketId_upsert_of_ne h hm (hspares.resolve_left hm)]
    exact hrow

/-! ### The listing -/

lemma Above.grows {position : Option ℕ} {left : ℕ} (h : Above maxPages m listing position left)
    (hgrows : listing.ids ⊆ listing'.ids) : Above maxPages m listing' position left where
  below := h.below
  passed := h.passed.trans (Nat.add_le_add_right (ActiveMarkets.passed_mono hgrows position) _)

lemma Hunting.grows {phase : WatchPhase} (h : Hunting k classify maxPages m listing phase)
    (hgrows : listing.ids ⊆ listing'.ids) : Hunting k classify maxPages m listing' phase := by
  cases phase with
  | idle => exact h
  | asking knownMax cursor left changed =>
    obtain ⟨hmax, position, hcursor, habove⟩ := h
    exact ⟨hmax, position, hcursor, habove.grows hgrows⟩
  | reading knownMax cursor left rest next changed =>
    obtain ⟨hmax, entries, hrest, hparsed, hsorted, hcoming⟩ := h
    refine ⟨hmax, entries, hrest, hparsed, hsorted, hcoming.imp id ?_⟩
    rintro ⟨hnewer, position, c, hcursor, hnext, hbelow, habove⟩
    exact ⟨hnewer, position, c, hcursor, hnext, hbelow, habove.grows hgrows⟩

/-! ### Pages -/

lemma Hunting.page {knownMax left changed : ℕ} {cursor : Option String}
    (h : Hunting k classify maxPages m listing (.asking knownMax cursor left changed))
    (hoffered : Offered classify maxPages m listing) :
    (k.serve listing cursor).markets ≠ [] ∧
      Hunting k classify maxPages m listing (.reading knownMax cursor left
        (k.serve listing cursor).markets (k.serve listing cursor).nextCursor changed) := by
  obtain ⟨hmax, position, rfl, habove⟩ := h
  obtain ⟨⟨⟨_, raw⟩, hentry, rfl, hrow⟩, -⟩ := hoffered
  obtain ⟨row, hrow⟩ := Option.isSome_iff_exists.mp hrow
  have hcompact : compactMarket classify raw = .ok row := by
    cases hcase : compactMarket classify raw with
    | error e =>
      rw [hcase] at hrow
      cases hrow
    | ok found =>
      rw [hcase] at hrow
      cases hrow
      rfl
  have hserved : (k.serve listing (position.map k.encode)).markets =
      ((listing.after position).take keysetLimit).map Prod.snd := by
    unfold Keyset.serve
    rw [k.bind_decode]
  have hafter : (listing.after position).take keysetLimit ≠ [] := by
    intro hnil
    have hmem : (_, raw) ∈ listing.after position :=
      List.mem_filter.mpr ⟨hentry, habove.below⟩
    rcases List.take_eq_nil_iff.mp hnil with hzero | hnil
    · cases hzero
    simp_all
  refine ⟨?_, hmax, (listing.after position).take keysetLimit, hserved, ?_, ?_, ?_⟩
  · simp_all
  · intro e he
    exact listing.parsed e (List.mem_of_mem_filter (List.mem_of_mem_take he))
  · exact (listing.sorted_after position).sublist (List.take_sublist _ _)
  · rcases ActiveMarkets.mem_page_or_passed k hentry habove.below with hmem | hpassed
    · exact Or.inl ⟨raw, row, hmem, hcompact⟩
    · obtain ⟨hnewer, c, hnext, hbelow, hlt, hcount⟩ := hpassed
      refine Or.inr ⟨hnewer, position, c, rfl, hnext, hbelow, below_some.mpr hlt, ?_⟩
      have hpassed := habove.passed
      grind

lemma Hunting.turn {knownMax left changed : ℕ} {cursor : Option String} {next : String}
    (h : Hunting k classify maxPages m listing (.reading knownMax cursor left [] next changed))
    (hoffered : Offered classify maxPages m listing) :
    ¬ Watch.Last cursor left next ∧
      Hunting k classify maxPages m listing (.asking knownMax (some next) (left - 1) changed) := by
  obtain ⟨hmax, entries, hrest, -, -, hcoming⟩ := h
  obtain rfl : entries = [] := List.map_eq_nil_iff.mp hrest.symm
  rcases hcoming with ⟨raw, row, hmem, -⟩ | ⟨-, position, c, rfl, rfl, hbelow, habove⟩
  · cases hmem
  · have hleft : left ≠ 0 := by
      rintro rfl
      have hpassed := habove.passed
      have hfew := listing.passed_le_card (below_some.mp habove.below)
      have hlimit := hoffered.2
      omega
    refine ⟨?_, hmax, some c, rfl, habove.below, ?_⟩
    · rintro (hempty | hend | hsame | hzero)
      · exact k.encode_ne_empty c hempty
      · exact k.encode_ne_end c hend
      · cases position with
        | none => cases hsame
        | some c' =>
          rw [k.encode_injective (Option.some_inj.mp hsame)] at hbelow
          simp_all
      · exact hleft hzero
    · rw [Nat.sub_add_cancel (Nat.pos_of_ne_zero hleft)]
      exact habove.passed

/-! ### Markets -/

lemma Coming.le_head {cursor : Option String} {left : ℕ} {e : ℕ × GammaMarket}
    {rest : List (ℕ × GammaMarket)} {next : String}
    (h : Coming k classify maxPages m listing cursor left (e :: rest) next)
    (hsorted : (e :: rest).Pairwise fun a b => b.1 < a.1) : m ≤ e.1 := by
  rcases h with ⟨raw, row, hmem, -⟩ | ⟨hnewer, -⟩
  · rcases List.mem_cons.mp hmem with rfl | hmem
    · exact le_rfl
    · exact (List.rel_of_pairwise_cons hsorted hmem).le
  grind

lemma Hunting.not_known {knownMax left changed : ℕ} {cursor : Option String} {raw : GammaMarket}
    {rest : List GammaMarket} {next : String}
    (h : Hunting k classify maxPages m listing
      (.reading knownMax cursor left (raw :: rest) next changed)) :
    ¬ (parseUint 64 raw.id).any (· ≤ knownMax) = true := by
  obtain ⟨hmax, entries, hrest, hparsed, hsorted, hcoming⟩ := h
  cases entries with
  | nil => cases hrest
  | cons e entries =>
    obtain ⟨rfl, -⟩ := List.cons.inj hrest
    rw [hparsed e List.mem_cons_self]
    have hle := hcoming.le_head hsorted
    grind

lemma Hunting.rest {knownMax left changed : ℕ} {cursor : Option String} {raw : GammaMarket}
    {rest : List GammaMarket} {next : String}
    (h : Hunting k classify maxPages m listing
      (.reading knownMax cursor left (raw :: rest) next changed)) :
    (∃ row, compactMarket classify raw = .ok row ∧ row.marketId = m) ∨
      ∀ changed', Hunting k classify maxPages m listing
        (.reading knownMax cursor left rest next changed') := by
  obtain ⟨hmax, entries, hrest, hparsed, hsorted, hcoming⟩ := h
  cases entries with
  | nil => cases hrest
  | cons e entries =>
    obtain ⟨rfl, rfl⟩ := List.cons.inj hrest
    have htail : Coming k classify maxPages m listing cursor left entries next →
        ∀ changed', Hunting k classify maxPages m listing
          (.reading knownMax cursor left (entries.map Prod.snd) next changed') :=
      fun hcoming' _ => ⟨hmax, entries, rfl,
        fun e' he' => hparsed e' (List.mem_cons_of_mem _ he'), hsorted.tail, hcoming'⟩
    rcases hcoming with ⟨raw, row, hmem, hrow⟩ | ⟨hnewer, hend⟩
    · rcases List.mem_cons.mp hmem with rfl | hmem
      · have hid := hparsed (m, raw) List.mem_cons_self
        exact Or.inl ⟨row, hrow, marketId_of_compactMarket hid hrow⟩
      · exact Or.inr (htail (Or.inl ⟨raw, row, hmem, hrow⟩))
    · exact Or.inr (htail
        (Or.inr ⟨fun e' he' => hnewer e' (List.mem_cons_of_mem _ he'), hend⟩))

lemma Watched.spares {knownMax left changed : ℕ} {cursor : Option String} {raw : GammaMarket}
    {rest : List GammaMarket} {next : String} {market : MarketEnrichment}
    (h : Watched classify m s .take)
    (hphase : s.phase = .reading knownMax cursor left (raw :: rest) next changed)
    (hmarket : compactMarket classify raw = .ok market) : Spares m s.catalog market := by
  refine h market ?_
  rw [hphase]
  unfold WatchPhase.row?
  dsimp only
  rw [hmarket]
  rfl

lemma Caught.store {knownMax left changed : ℕ} {cursor : Option String} {raw : GammaMarket}
    {rest : List GammaMarket} {next : String} (h : Caught k classify maxPages m s)
    (hphase : s.phase = .reading knownMax cursor left (raw :: rest) next changed)
    (hwatched : Watched classify m s .take) :
    Caught k classify maxPages m
      (s.store classify raw knownMax cursor left rest next changed) := by
  unfold Watch.store
  cases hcompact : compactMarket classify raw with
  | ok market =>
    refine ⟨h.valid.upsert market, ?_⟩
    rcases h.caught with hpresent | hhunting
    · exact Or.inl (hpresent.upsert h.valid (hwatched.spares hphase hcompact))
    · rw [hphase] at hhunting
      rcases hhunting.rest with ⟨row, hrow, rfl⟩ | hrest
      · rw [hcompact] at hrow
        cases hrow
        exact Or.inl (present_upsert_self h.valid market)
      grind
  | error e =>
    refine ⟨h.valid, ?_⟩
    rcases h.caught with hpresent | hhunting
    · exact Or.inl hpresent
    · rw [hphase] at hhunting
      rcases hhunting.rest with ⟨row, hrow, -⟩ | hrest
      · simp_all
      grind

/-! ## Whole runs -/

lemma valid_step (h : s.catalog.Valid) (hstep : s.step k classify maxPages a = some s') :
    s'.catalog.Valid := by
  cases Watch.step_sound hstep with
  | upsert market => exact h.upsert market
  | store knownMax cursor left raw rest next changed hphase hnew =>
    unfold Watch.store
    cases compactMarket classify raw with
    | ok market => exact h.upsert market
    | error e => exact h
  | list | begin | empty | page | fail | last | next | known => exact h

lemma present_step (h : s.catalog.Valid) (hpresent : Present m s.catalog)
    (hwatched : Watched classify m s a) (hstep : s.step k classify maxPages a = some s') :
    Present m s'.catalog := by
  cases Watch.step_sound hstep with
  | upsert market => exact hpresent.upsert h hwatched
  | store knownMax cursor left raw rest next changed hphase hnew =>
    unfold Watch.store
    cases hcompact : compactMarket classify raw with
    | ok market => exact hpresent.upsert h (hwatched.spares hphase hcompact)
    | error e => exact hpresent
  | list | begin | empty | page | fail | last | next | known => exact hpresent

lemma caught_begin (h : s.catalog.Valid) (hwatched : Watched classify m s .begin) :
    Caught k classify maxPages m
      { s with phase := .asking s.catalog.maxMarketId none (max maxPages 1 - 1) 0 } := by
  refine ⟨h, hwatched.imp id fun hmax => ⟨hmax, none, rfl, rfl, ?_⟩⟩
  grind

lemma Caught.step (h : Caught k classify maxPages m s) (hwatched : Watched classify m s a)
    (hoffered : Offered classify maxPages m s.listing) (hsucceeds : a.Succeeds)
    (hstep : s.step k classify maxPages a = some s') : Caught k classify maxPages m s' := by
  cases Watch.step_sound hstep with
  | list listing hgrows => exact ⟨h.valid, h.caught.imp id fun hunting => hunting.grows hgrows⟩
  | upsert market =>
    refine ⟨h.valid.upsert market, h.caught.imp (fun hpresent => ?_) id⟩
    exact hpresent.upsert h.valid hwatched
  | begin hphase => exact caught_begin h.valid hwatched
  | empty knownMax cursor left changed hphase hempty =>
    refine ⟨h.valid, h.caught.imp id fun hhunting => ?_⟩
    rw [hphase] at hhunting
    exact absurd hempty (hhunting.page hoffered).1
  | page knownMax cursor left changed hphase =>
    refine ⟨h.valid, h.caught.imp id fun hhunting => ?_⟩
    rw [hphase] at hhunting
    exact (hhunting.page hoffered).2
  | fail error => exact hsucceeds.elim
  | last knownMax cursor left next changed hphase hlast =>
    refine ⟨h.valid, h.caught.imp id fun hhunting => ?_⟩
    rw [hphase] at hhunting
    exact absurd hlast (hhunting.turn hoffered).1
  | next knownMax cursor left next changed hphase hlast =>
    refine ⟨h.valid, h.caught.imp id fun hhunting => ?_⟩
    rw [hphase] at hhunting
    exact (hhunting.turn hoffered).2
  | known knownMax cursor left raw rest next changed hphase hknown =>
    refine ⟨h.valid, h.caught.imp id fun hhunting => ?_⟩
    rw [hphase] at hhunting
    exact absurd hknown hhunting.not_known
  | store knownMax cursor left raw rest next changed hphase hnew =>
    exact h.store hphase hwatched

def WatchPhase.rank : WatchPhase → ℕ
  | .idle => 0
  | .asking _ _ left _ => (left + 1) * (keysetLimit + 2)
  | .reading _ _ left rest _ _ => left * (keysetLimit + 2) + rest.length + 1

def WatchAction.Own : WatchAction → Prop
  | .page => True
  | .take => True
  | _ => False

lemma rank_step (hown : a.Own) (hstep : s.step k classify maxPages a = some s') :
    s'.phase.rank < s.phase.rank := by
  cases Watch.step_sound hstep with
  | list | upsert | begin | fail => exact hown.elim
  | empty knownMax cursor left changed hphase hempty =>
    rw [hphase]
    exact Nat.mul_pos (Nat.succ_pos left) (Nat.succ_pos _)
  | page knownMax cursor left changed hphase =>
    rw [hphase]
    have hlength := k.length_serve s.listing cursor
    have hpage : (left + 1) * (keysetLimit + 2) =
        left * (keysetLimit + 2) + (keysetLimit + 2) := Nat.succ_mul _ _
    unfold WatchPhase.rank
    dsimp only
    omega
  | last knownMax cursor left next changed hphase hlast =>
    rw [hphase]
    exact Nat.succ_pos _
  | next knownMax cursor left next changed hphase hlast =>
    rw [hphase]
    have hleft : left ≠ 0 := fun hzero => hlast (Or.inr (Or.inr (Or.inr hzero)))
    unfold WatchPhase.rank
    grind
  | known knownMax cursor left raw rest next changed hphase hknown =>
    rw [hphase]
    exact Nat.succ_pos _
  | store knownMax cursor left raw rest next changed hphase hnew =>
    rw [hphase]
    have hrest : (s.store classify raw knownMax cursor left rest next changed).phase.rank =
        left * (keysetLimit + 2) + rest.length + 1 := by
      unfold Watch.store
      cases compactMarket classify raw with
      | ok market => rfl
      | error e => rfl
    rw [hrest]
    exact Nat.lt_succ_self _

lemma exists_own_step (k : Keyset) (classify : Classify) (maxPages : ℕ)
    (hphase : s.phase ≠ .idle) :
    ∃ a : WatchAction, a.Own ∧ (s.step k classify maxPages a).isSome = true := by
  cases hcase : s.phase with
  | idle => grind
  | asking knownMax cursor left changed =>
    refine ⟨.page, trivial, ?_⟩
    simp only [Watch.step, hcase]
    split_ifs <;> rfl
  | reading knownMax cursor left rest next changed =>
    refine ⟨.take, trivial, ?_⟩
    cases rest with
    | nil | cons raw rest =>
      simp only [Watch.step, hcase]
      split_ifs <;> rfl

lemma reaches_idle (s : Watch) :
    Reaches (Watch.step k classify maxPages) WatchAction.Own (fun s => s.phase = .idle) s := by
  refine Reaches.of_rank (I := fun _ => True) (fun s => s.phase.rank) ?_ trivial
  intro s _
  by_cases hphase : s.phase = .idle
  · exact Reaches.here (Or.inl hphase)
  · obtain ⟨a, hown, hsome⟩ := exists_own_step k classify maxPages hphase
    obtain ⟨s', hstep⟩ := Option.isSome_iff_exists.mp hsome
    exact Reaches.next hown hstep (Reaches.here (Or.inr ⟨trivial, rank_step hown hstep⟩))

theorem new_market_watch_catches_up (k : Keyset) (classify : Classify) (maxPages m : ℕ)
    (markets : List MarketEnrichment) (listing : ActiveMarkets) (before tick : List WatchAction)
    (s₁ s₂ : Watch)
    (hbefore : run (Watch.step k classify maxPages) (Watch.start markets listing) before = some s₁)
    (htick : run (Watch.step k classify maxPages) s₁ (.begin :: tick) = some s₂)
    (hwatched : AllSteps (Watch.step k classify maxPages) (Watched classify m) s₁ (.begin :: tick))
    (hoffered : AllSteps (Watch.step k classify maxPages)
      (fun s _ => Offered classify maxPages m s.listing) s₁ (.begin :: tick))
    (hsucceeds : ∀ a ∈ tick, a.Succeeds) :
    Reaches (Watch.step k classify maxPages) WatchAction.Own (fun s => s.phase = .idle) s₂ ∧
      (s₂.phase = .idle → Present m s₂.catalog ∧
        ∀ later s₃, run (Watch.step k classify maxPages) s₂ later = some s₃ →
          AllSteps (Watch.step k classify maxPages) (Watched classify m) s₂ later →
          Present m s₃.catalog) := by
  have hvalid : s₁.catalog.Valid :=
    run_invariant_of_step (I := fun s => s.catalog.Valid)
      (fun s a s' hs hstep => valid_step hs hstep) (Catalog.valid_new markets) hbefore
  -- the first step puts the walk above the market; every other one keeps it there, or stores it
  have hcaught : Caught k classify maxPages m s₂ := by
    rw [run_cons, Option.bind_eq_some_iff] at htick
    obtain ⟨t, hbegin, hrun⟩ := htick
    obtain ⟨hfirst, hwatched⟩ := hwatched
    obtain ⟨-, hoffered⟩ := hoffered
    rw [hbegin] at hwatched hoffered
    have hstart : Caught k classify maxPages m t := by
      cases Watch.step_sound hbegin with
      | begin hphase => exact caught_begin hvalid hfirst
    refine run_invariant ?_ hstart
      ((hwatched.and hoffered).and (allSteps_of_forall hsucceeds t)) hrun
    rintro s a s' hs ⟨⟨hw, ho⟩, ha⟩ hstep
    exact hs.step hw ho ha hstep
  refine ⟨reaches_idle s₂, fun hidle => ?_⟩
  have hpresent : Present m s₂.catalog := by
    refine hcaught.caught.resolve_right fun hhunting => ?_
    rw [hidle] at hhunting
    exact hhunting
  refine ⟨hpresent, fun later s₃ hlater hwatched' => ?_⟩
  have hboth := run_invariant (I := fun s => s.catalog.Valid ∧ Present m s.catalog)
    (fun s a s' hs hw hstep => ⟨valid_step hs.1 hstep, present_step hs.1 hs.2 hw hstep⟩)
    ⟨hcaught.valid, hpresent⟩ hwatched' hlater
  exact hboth.2

def newMarketMaxPages : ℕ := 5

def testKeyset : Keyset where
  encode id := String.ofList ('c' :: List.replicate id 'x')
  decode text := some (text.toList.length - 1)
  decode_encode id := by simp
  encode_ne_empty id h := by simpa using congrArg String.toList h
  encode_ne_end id h := by simpa using congrArg String.toList h

def testClassify : Classify := fun _ _ _ => (.other, .unspecified)

def testGamma (id conditionId : List Char) : GammaMarket where
  id := id
  conditionId := conditionId
  clobTokenIds := []
  tags := []
  events := []
  negRisk := false
  sportsMarketType := none
  question := none

def testListing (conditionId : List Char) : ActiveMarkets where
  entries :=
    [(102, testGamma ['1', '0', '2'] (List.replicate 64 '2')),
     (101, testGamma ['1', '0', '1'] conditionId),
     (100, testGamma ['1', '0', '0'] (List.replicate 64 '0'))]
  parsed := by
    intro e he
    simp only [List.mem_cons, List.not_mem_nil, or_false] at he
    rcases he with rfl | rfl | rfl <;> rfl
  sorted := by simp

/-- A tick that failed, and one that stores market 102 and then market 101. -/
theorem new_market_watch_catches_up_with_two :
    let step := Watch.step testKeyset testClassify newMarketMaxPages
    let start := Watch.start [testRow 100 0] (testListing (List.replicate 64 '1'))
    let actions : List WatchAction := [.begin, .fail .json] ++ [.begin, .page, .take, .take, .take]
    ∃ s, run step start actions = some s ∧ start.catalog.maxMarketId < 101 ∧
      Present 101 s.catalog := by
  intro step start actions
  have hrun : (run step start actions).map (fun s => s.phase) = some .idle := by decide +kernel
  obtain ⟨s, hs, hidle⟩ := Option.map_eq_some_iff.mp hrun
  obtain ⟨s₁, hbefore, htick⟩ := run_append_eq_some.mp hs
  have hwatched : AllSteps step (Watched testClassify 101) start actions := by decide +kernel
  have hoffered : AllSteps step
      (fun s _ => Offered testClassify newMarketMaxPages 101 s.listing) start actions := by
    decide +kernel
  obtain ⟨-, hcaught⟩ := new_market_watch_catches_up testKeyset testClassify newMarketMaxPages 101
    [testRow 100 0] (testListing (List.replicate 64 '1')) _ _ s₁ s hbefore htick
    (hwatched.drop hbefore) (hoffered.drop hbefore) (by decide)
  exact ⟨s, hs, by decide +kernel, (hcaught hidle).1⟩

lemma run_tick_of_known {raw : GammaMarket} {rest : List GammaMarket} (hphase : s.phase = .idle)
    (hpage : (k.serve s.listing none).markets = raw :: rest)
    (hknown : (parseUint 64 raw.id).any (· ≤ s.catalog.maxMarketId) = true) :
    run (Watch.step k classify maxPages) s [.begin, .page, .take] = some s := by
  obtain ⟨catalog, listing, phase, catalogMarkets, newMarketsAdded⟩ := s
  cases hphase
  simp only [run_cons, run_nil, Watch.step, Option.bind_some]
  rw [hpage]
  simp only [List.cons_ne_nil, if_false, Option.bind_some, if_pos hknown]
  rfl

theorem listed_market_skipped_for_good :
    let step := Watch.step testKeyset testClassify newMarketMaxPages
    let start := Watch.start [testRow 100 0] (testListing [])
    ∃ s, run step start [.begin, .page, .take, .take, .take,
        .list (testListing (List.replicate 64 '1'))] = some s ∧
      start.catalog.maxMarketId < 101 ∧
      Offered testClassify newMarketMaxPages 101 s.listing ∧
      ∀ n, run step s (List.replicate n [.begin, .page, .take]).flatten = some s ∧
        s.catalog.getByMarketId 101 = none := by
  refine exists_some_imp (P := fun s => s.phase = .idle ∧ s.catalog.maxMarketId = 102 ∧
    s.catalog.getByMarketId 101 = none ∧ (testKeyset.serve s.listing none).markets =
      (testListing (List.replicate 64 '1')).entries.map Prod.snd ∧
    Offered testClassify newMarketMaxPages 101 s.listing) (by decide +kernel) ?_
  rintro s hs ⟨hphase, hmax, hmissing, hpage, hoffered⟩
  refine ⟨by decide +kernel, hoffered, fun n => ⟨?_, hmissing⟩⟩
  refine run_replicate (run_tick_of_known hphase hpage ?_) n
  rw [hmax]
  decide +kernel

end RustUma.Enrichment
