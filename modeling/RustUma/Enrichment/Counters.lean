import RustUma.Enrichment.Catalog
import RustUma.Found.Census
import RustUma.Pipeline.Admission

/-!
# The counters of the pipeline

What the counters of `Stats` say after any interleaving of `process` calls with a catalog that other
tasks write. The enrichment counters are written when a call has asked the catalog, before the
insert that decides whether its event counts at all.
-/

namespace RustUma.Enrichment

open RustUma.Found RustUma.Model RustUma.Hub RustUma.Pipeline

/-! ## Calls and the catalog -/

structure Counting extends Processor where
  catalog : Catalog
  found : ℕ → Bool
  origins : List (EventRecord × Bool)

inductive CountingAction where
  | call (a : Action)
  | resolve (i : ℕ)
  | upsert (market : MarketEnrichment)
  | receivers (batchTx : Channel EventRecord) (storageTx : Channel StorageCommand)
  deriving DecidableEq

def restoredStats (hits hitsViaMarketId misses latestBlock : ℕ) : Stats where
  enrichmentHits := hits
  enrichmentHitsViaMarketId := hitsViaMarketId
  enrichmentMisses := misses
  latestBlock := latestBlock

def Phase.fresh? : Pipeline.Phase → Option UmaEvent
  | .fresh event => some event
  | _ => none

namespace Counting

def start (events : EventHub) (catalog : Catalog) (batchCapacity storageCapacity : ℕ)
    (stats : Stats) (initialSequence : ℕ) : Counting where
  toProcessor := Processor.new events batchCapacity storageCapacity stats initialSequence
  catalog := catalog
  found := fun _ => false
  origins := []

def foundByMarket (catalog : Catalog) (event : UmaEvent) : Bool :=
  (event.request.ancillary.marketId.bind catalog.getByMarketId).isSome

def advance (s : Counting) (a : Action) : Option Counting :=
  (s.toProcessor.step a).map fun p =>
    { s with
      toProcessor := p
      origins := s.origins ++ (p.accepted.drop s.accepted.length).map fun record =>
        (record, (a.call?.map s.found).getD false) }

def step (s : Counting) : CountingAction → Option Counting
  | .call (.resolve _ _) => none
  | .call a => s.advance a
  | .resolve i =>
    (Phase.fresh? (s.calls i).phase).bind fun event =>
      (s.advance (.resolve i (s.catalog.resolve event.request.ancillary.marketId
        event.request.conditionId))).map fun s' =>
          { s' with found := Function.update s.found i (foundByMarket s.catalog event) }
  | .upsert market => some { s with catalog := (s.catalog.upsert market).1 }
  | .receivers batchTx storageTx => some { s with batchTx := batchTx, storageTx := storageTx }

inductive Step (s : Counting) : CountingAction → Counting → Prop where
  | call (a : Action) (p : Processor) (hstep : s.toProcessor.Step a p)
      (hresolve : ∀ i row, a ≠ .resolve i row) :
      Step s (.call a)
        { s with
          toProcessor := p
          origins := s.origins ++ (p.accepted.drop s.accepted.length).map fun record =>
            (record, (a.call?.map s.found).getD false) }
  | resolve (i : ℕ) (event : UmaEvent) (hphase : (s.calls i).phase = .fresh event) :
      Step s (.resolve i)
        { s with
          toProcessor := s.toProcessor.resolve i event
            (s.catalog.resolve event.request.ancillary.marketId event.request.conditionId)
          found := Function.update s.found i (foundByMarket s.catalog event) }
  | upsert (market : MarketEnrichment) :
      Step s (.upsert market) { s with catalog := (s.catalog.upsert market).1 }
  | receivers (batchTx : Channel EventRecord) (storageTx : Channel StorageCommand) :
      Step s (.receivers batchTx storageTx) { s with batchTx := batchTx, storageTx := storageTx }

variable {s s' : Counting}

theorem step_sound {a : CountingAction} (h : s.step a = some s') : Step s a s' := by
  cases a with
  | call a =>
    have hadvance : s.advance a = some s' ∧ ∀ i row, a ≠ .resolve i row := by
      cases a with
      | resolve i row => cases h
      | _ => exact ⟨h, fun i row hne => by cases hne⟩
    obtain ⟨p, hp, rfl⟩ := Option.map_eq_some_iff.mp hadvance.1
    exact .call a p (Processor.step_sound hp) hadvance.2
  | resolve i =>
    obtain ⟨event, hfresh, h⟩ := Option.bind_eq_some_iff.mp h
    obtain ⟨s'', hadvance, rfl⟩ := Option.map_eq_some_iff.mp h
    obtain ⟨p, hp, rfl⟩ := Option.map_eq_some_iff.mp hadvance
    have hphase : (s.calls i).phase = .fresh event := by
      cases hcase : (s.calls i).phase with
      | fresh event' =>
        rw [hcase] at hfresh
        cases hfresh
        rfl
      | _ =>
        rw [hcase] at hfresh
        cases hfresh
    have hp' : p = s.toProcessor.resolve i event
        (s.catalog.resolve event.request.ancillary.marketId event.request.conditionId) := by
      simp only [Processor.step, hphase] at hp
      simp_all
    subst hp'
    have hresolve := Step.resolve i event hphase
    simpa [Processor.resolve] using hresolve
  | upsert market =>
    cases h
    exact .upsert market
  | receivers batchTx storageTx =>
    cases h
    exact .receivers batchTx storageTx

end Counting

def CountingAction.call? : CountingAction → Option ℕ
  | .call a => a.call?
  | .resolve i => some i
  | .upsert _ => none
  | .receivers _ _ => none

lemma calls_of_untouched {s s' : Counting} {as : List CountingAction} {j : ℕ}
    (h : ∀ a ∈ as, ∀ i ∈ a.call?, i ≠ j) (hrun : run Counting.step s as = some s') :
    s'.calls j = s.calls j := by
  refine run_invariant (I := fun t : Counting => t.calls j = s.calls j) ?_ rfl
    (allSteps_of_forall h s) hrun
  intro t a t' ht ha hstep
  cases Counting.step_sound hstep with
  | call a p hcall hresolve =>
    exact (hcall.calls_of_ne fun i hi => (ha i hi).symm).trans ht
  | resolve i event hphase =>
    have hj : j ≠ i := (ha i rfl).symm
    exact (Function.update_of_ne hj _ _).trans ht
  | upsert | receivers => exact ht

/-! ## The account of the race -/

def raceReceived (race : List (String × SourceRaceStats)) : ℕ :=
  (race.map fun entry => entry.2.received).sum

def raceWon (race : List (String × SourceRaceStats)) : ℕ :=
  (race.map fun entry => entry.2.won).sum

@[simp] lemma raceReceived_recordRace (source : String) (won : Bool)
    (race : List (String × SourceRaceStats)) :
    raceReceived (recordRace source won race) = raceReceived race + 1 := by
  induction race with
  | nil => simp [recordRace, raceReceived]
  | cons entry rest ih =>
    obtain ⟨name, tally⟩ := entry
    unfold raceReceived at ih ⊢
    by_cases hname : name = source
    · simp only [recordRace, if_pos hname, List.map_cons, List.sum_cons]
      omega
    · simp only [recordRace, if_neg hname, List.map_cons, List.sum_cons, ih]
      omega

@[simp] lemma raceWon_recordRace (source : String) (won : Bool)
    (race : List (String × SourceRaceStats)) :
    raceWon (recordRace source won race) = raceWon race + won.toNat := by
  induction race with
  | nil => cases won <;> simp [recordRace, raceWon]
  | cons entry rest ih =>
    obtain ⟨name, tally⟩ := entry
    unfold raceWon at ih ⊢
    by_cases hname : name = source
    · simp only [recordRace, if_pos hname, List.map_cons, List.sum_cons]
      cases won
      · simp
      · simp only [if_true, Bool.toNat_true]
        omega
    · simp only [recordRace, if_neg hname, List.map_cons, List.sum_cons, ih]
      omega

def racing (c : Call) : Bool :=
  match c.phase with
  | .decoded _ | .fresh _ | .resolved _ _ | .sequenced _ | .inserted _ => true
  | _ => false

def entered (c : Call) : Bool :=
  match c.phase with
  | .inserted _ => true
  | _ => false

structure RaceAccount (p : Processor) (underWay uncounted : ℕ) : Prop where
  logs : p.stats.rpcLogsReceived =
    p.stats.decodeErrors + p.stats.duplicates + p.stats.eventsDecoded + underWay
  received : raceReceived p.stats.sourceRace = p.stats.eventsDecoded + p.stats.duplicates
  won : raceWon p.stats.sourceRace = p.stats.eventsDecoded
  accepted : p.accepted.length = p.stats.eventsDecoded + uncounted

def Raced (p : Processor) : Prop :=
  ∃ underWay uncounted, Census p.calls racing underWay ∧ Census p.calls entered uncounted ∧
    RaceAccount p underWay uncounted

variable {p p' : Processor} {a : Action}

lemma raced_new (events : EventHub) (batchCapacity storageCapacity : ℕ)
    (hits hitsViaMarketId misses latestBlock initialSequence : ℕ) :
    Raced (Processor.new events batchCapacity storageCapacity
      (restoredStats hits hitsViaMarketId misses latestBlock) initialSequence) :=
  ⟨0, 0, Census.zero fun _ => rfl, Census.zero fun _ => rfl, ⟨rfl, rfl, rfl, rfl⟩⟩

variable {i : ℕ}

lemma Raced.of_update {c : Call} (h : Raced p) (hcalls : p'.calls = Function.update p.calls i c)
    (haccount : ∀ underWay uncounted underWay' uncounted',
      underWay' + (racing (p.calls i)).toNat = underWay + (racing c).toNat →
      uncounted' + (entered (p.calls i)).toNat = uncounted + (entered c).toNat →
      RaceAccount p underWay uncounted → RaceAccount p' underWay' uncounted') :
    Raced p' := by
  obtain ⟨underWay, uncounted, hracing, hentered, hacc⟩ := h
  obtain ⟨underWay', hracing', hway⟩ := hracing.update i c
  obtain ⟨uncounted', hentered', hcount⟩ := hentered.update i c
  rw [← hcalls] at hracing' hentered'
  exact ⟨underWay', uncounted', hracing', hentered', haccount _ _ _ _ hway hcount hacc⟩

lemma Raced.of_quiet {c : Call} (h : Raced p) (hcalls : p'.calls = Function.update p.calls i c)
    (hracing : racing c = racing (p.calls i)) (hentered : entered c = entered (p.calls i))
    (hsame : ∀ n m, RaceAccount p n m → RaceAccount p' n m) : Raced p' := by
  refine h.of_update hcalls fun n m n' m' hn hm hacc => ?_
  simp_all

lemma recordRecentEnrichment_stats (window : List Bool) (stats : Stats) (hit : Bool) :
    ∃ hits total, (recordRecentEnrichment window stats hit).2 =
      { stats with enrichmentRecentHits := hits, enrichmentRecentTotal := total } := by
  unfold recordRecentEnrichment
  dsimp only
  split_ifs <;> exact ⟨_, _, rfl⟩

lemma resolve_stats (i : ℕ) (event : UmaEvent) (row : Option MarketEnrichment) :
    ∃ hits total, (p.resolve i event row).stats =
      { p.stats with enrichmentRecentHits := hits, enrichmentRecentTotal := total }.enrichment
        row.isSome event.request.ancillary.marketId.isSome := by
  obtain ⟨hits, total, hstats⟩ := recordRecentEnrichment_stats p.recentEnrichment p.stats row.isSome
  refine ⟨hits, total, ?_⟩
  show (recordRecentEnrichment p.recentEnrichment p.stats row.isSome).2.enrichment _ _ = _
  rw [hstats]

lemma RaceAccount.resolve {n m : ℕ} (h : RaceAccount p n m) (i : ℕ) (event : UmaEvent)
    (row : Option MarketEnrichment) : RaceAccount (p.resolve i event row) n m := by
  obtain ⟨hits, total, hstats⟩ := resolve_stats i event row
  have hcounters : (p.resolve i event row).stats.rpcLogsReceived = p.stats.rpcLogsReceived ∧
      (p.resolve i event row).stats.decodeErrors = p.stats.decodeErrors ∧
      (p.resolve i event row).stats.duplicates = p.stats.duplicates ∧
      (p.resolve i event row).stats.eventsDecoded = p.stats.eventsDecoded ∧
      (p.resolve i event row).stats.sourceRace = p.stats.sourceRace := by
    rw [hstats]
    unfold Stats.enrichment
    grind
  obtain ⟨hlogs, herrors, hduplicates, hdecoded, hrace⟩ := hcounters
  refine ⟨?_, ?_, ?_, ?_⟩
  · rw [hlogs, herrors, hduplicates, hdecoded]
    exact h.logs
  · rw [hrace, hdecoded, hduplicates]
    exact h.received
  · rw [hrace, hdecoded]
    exact h.won
  · rw [hdecoded]
    exact h.accepted

lemma Raced.duplicate (h : Raced p) (hracing : racing (p.calls i) = true)
    (hentered : entered (p.calls i) = false) : Raced (p.duplicate i) := by
  refine h.of_update rfl fun n m n' m' hn hm hacc => ?_
  rw [hracing] at hn
  rw [hentered] at hm
  simp only [racing, entered, Bool.toNat_true, Bool.toNat_false, Nat.add_zero] at hn hm
  obtain ⟨hlogs, hreceived, hwon, haccepted⟩ := hacc
  refine ⟨?_, ?_, ?_, ?_⟩
  · show p.stats.rpcLogsReceived =
      p.stats.decodeErrors + (p.stats.duplicates + 1) + p.stats.eventsDecoded + n'
    omega
  · show raceReceived (recordRace _ false p.stats.sourceRace) =
      p.stats.eventsDecoded + (p.stats.duplicates + 1)
    rw [raceReceived_recordRace]
    omega
  · show raceWon (recordRace _ false p.stats.sourceRace) = p.stats.eventsDecoded
    simp_all
  · show p.accepted.length = p.stats.eventsDecoded + m'
    omega

lemma Raced.step (h : Raced p) (hstep : p.Step a p') : Raced p' := by
  cases hstep with
  | undecodable i receivedAtUs source hphase =>
    refine h.of_update rfl fun n m n' m' hn hm hacc => ?_
    simp only [racing, entered, hphase, Bool.toNat_false, Nat.add_zero] at hn hm
    obtain ⟨hlogs, hreceived, hwon, haccepted⟩ := hacc
    refine ⟨?_, hreceived, hwon, hm ▸ haccepted⟩
    show p.stats.rpcLogsReceived + 1 =
      p.stats.decodeErrors + 1 + p.stats.duplicates + p.stats.eventsDecoded + n'
    omega
  | decode i event receivedAtUs source hphase =>
    refine h.of_update rfl fun n m n' m' hn hm hacc => ?_
    simp only [racing, entered, hphase, Bool.toNat_false, Bool.toNat_true, Nat.add_zero] at hn hm
    obtain ⟨hlogs, hreceived, hwon, haccepted⟩ := hacc
    refine ⟨?_, hreceived, hwon, hm ▸ haccepted⟩
    show p.stats.rpcLogsReceived + 1 =
      p.stats.decodeErrors + p.stats.duplicates + p.stats.eventsDecoded + n'
    omega
  | known i event hphase hkey | lose i record hphase hkey =>
    exact h.duplicate (by simp only [racing, hphase]) (by simp only [entered, hphase])
  | unknown i event hphase hkey | fetchAdd i event row hphase | blocked i record matchId hphase
  | unblocked i record hphase | sendFailed i record hphase _ | send i record hphase _ =>
    exact h.of_quiet rfl (by simp only [racing, hphase]) (by simp only [entered, hphase])
      fun n m hacc => ⟨hacc.1, hacc.2, hacc.3, hacc.4⟩
  | resolve i event row hphase =>
    exact h.of_quiet rfl (by simp only [racing, hphase]) (by simp only [entered, hphase])
      fun n m hacc => hacc.resolve i event row
  | accept i record hphase hkey =>
    refine h.of_update rfl fun n m n' m' hn hm hacc => ?_
    simp only [racing, entered, hphase, Bool.toNat_false, Bool.toNat_true, Nat.add_zero,
      Nat.add_right_cancel_iff] at hn hm
    obtain ⟨hlogs, hreceived, hwon, haccepted⟩ := hacc
    refine ⟨hn ▸ hlogs, hreceived, hwon, ?_⟩
    show (p.accepted ++ [record]).length = p.stats.eventsDecoded + m'
    grind
  | credit i record hphase =>
    refine h.of_update rfl fun n m n' m' hn hm hacc => ?_
    simp only [racing, entered, hphase, Bool.toNat_false, Bool.toNat_true, Nat.add_zero] at hn hm
    obtain ⟨hlogs, hreceived, hwon, haccepted⟩ := hacc
    refine ⟨?_, ?_, ?_, ?_⟩
    · show p.stats.rpcLogsReceived =
        p.stats.decodeErrors + p.stats.duplicates + (p.stats.eventsDecoded + 1) + n'
      omega
    · show raceReceived (recordRace _ true p.stats.sourceRace) =
        p.stats.eventsDecoded + 1 + p.stats.duplicates
      rw [raceReceived_recordRace]
      omega
    · show raceWon (recordRace _ true p.stats.sourceRace) = p.stats.eventsDecoded + 1
      simp_all
    · show p.accepted.length = p.stats.eventsDecoded + 1 + m'
      omega
  | store i record hphase hroom | drop i record hphase hroom =>
    refine h.of_quiet rfl ?_ ?_ fun n m hacc => ⟨hacc.1, hacc.2, hacc.3, hacc.4⟩
    · simp only [racing, hphase, Pipeline.Phase.afterStore]
      split_ifs <;> rfl
    · simp only [entered, hphase, Pipeline.Phase.afterStore]
      split_ifs <;> rfl
  | checkpoint block hroom | checkpointDropped block hroom =>
    obtain ⟨n, m, hracing, hentered, hacc⟩ := h
    exact ⟨n, m, hracing, hentered, hacc.1, hacc.2, hacc.3, hacc.4⟩

/-! ## The account of the enrichment -/

def CountedOnce (s : Counting) : CountingAction → Prop
  | .call (.insert i) => ∀ record ∈ (s.calls i).phase.record?, record.key ∉ s.events.keys
  | .resolve i =>
    ∀ event ∈ Phase.fresh? (s.calls i).phase, event.request.ancillary.marketId.isSome →
      (s.catalog.resolve event.request.ancillary.marketId event.request.conditionId).isSome →
        Counting.foundByMarket s.catalog event = true
  | _ => True

instance (s : Counting) (a : CountingAction) : Decidable (CountedOnce s a) := by
  delta CountedOnce
  split <;> infer_instance

def asked (c : Call) : Bool :=
  match c.phase with
  | .resolved _ _ | .sequenced _ | .inserted _ => true
  | _ => false

def findingByMarket (entry : Call × Bool) : Bool :=
  match entry.1.phase with
  | .resolved _ _ | .sequenced _ => entry.2
  | _ => false

structure EnrichmentAccount (base : Stats) (s : Counting) (n m : ℕ) : Prop where
  counted : s.stats.enrichmentHits + s.stats.enrichmentMisses =
    base.enrichmentHits + base.enrichmentMisses + s.stats.eventsDecoded + n
  byMarket : s.stats.enrichmentHitsViaMarketId =
    base.enrichmentHitsViaMarketId + s.origins.countP Prod.snd + m
  origins : s.origins.map Prod.fst = s.accepted

def Enriched (base : Stats) (s : Counting) : Prop :=
  ∃ n m, Census s.calls asked n ∧ Census (fun i => (s.calls i, s.found i)) findingByMarket m ∧
    EnrichmentAccount base s n m

variable {base : Stats} {s s' : Counting}

lemma update_pair {α β : Type*} (f : ℕ → α) (g : ℕ → β) (i : ℕ) (x : α) (y : β) :
    (fun j => (Function.update f i x j, Function.update g i y j)) =
      Function.update (fun j => (f j, g j)) i (x, y) := by
  grind

variable {i : ℕ}

lemma Enriched.of_update {c : Call} {b : Bool} (h : Enriched base s)
    (hcalls : s'.calls = Function.update s.calls i c)
    (hfound : s'.found = Function.update s.found i b)
    (haccount : ∀ n m n' m', n' + (asked (s.calls i)).toNat = n + (asked c).toNat →
      m' + (findingByMarket (s.calls i, s.found i)).toNat = m + (findingByMarket (c, b)).toNat →
      EnrichmentAccount base s n m → EnrichmentAccount base s' n' m') :
    Enriched base s' := by
  obtain ⟨n, m, hasked, hfinding, hacc⟩ := h
  obtain ⟨n', hasked', hn⟩ := hasked.update i c
  obtain ⟨m', hfinding', hm⟩ := hfinding.update i (c, b)
  rw [← hcalls] at hasked'
  rw [← update_pair, ← hcalls, ← hfound] at hfinding'
  exact ⟨n', m', hasked', hfinding', haccount _ _ _ _ hn hm hacc⟩

lemma Enriched.of_quiet {c : Call} (h : Enriched base s)
    (hcalls : s'.calls = Function.update s.calls i c) (hfound : s'.found = s.found)
    (hasked : asked c = asked (s.calls i))
    (hfinding : findingByMarket (c, s.found i) = findingByMarket (s.calls i, s.found i))
    (hsame : ∀ n m, EnrichmentAccount base s n m → EnrichmentAccount base s' n m) :
    Enriched base s' := by
  refine h.of_update (b := s.found i) hcalls ?_ fun n m n' m' hn hm hacc => ?_
  · simp_all
  simp_all

lemma EnrichmentAccount.of_eq {n m : ℕ} (h : EnrichmentAccount base s n m)
    (hhits : s'.stats.enrichmentHits = s.stats.enrichmentHits)
    (hmisses : s'.stats.enrichmentMisses = s.stats.enrichmentMisses)
    (hvia : s'.stats.enrichmentHitsViaMarketId = s.stats.enrichmentHitsViaMarketId)
    (hdecoded : s'.stats.eventsDecoded = s.stats.eventsDecoded) (horigins : s'.origins = s.origins)
    (haccepted : s'.accepted = s.accepted) : EnrichmentAccount base s' n m := by
  refine ⟨?_, ?_, ?_⟩
  · rw [hhits, hmisses, hdecoded]
    exact h.counted
  · rw [hvia, horigins]
    exact h.byMarket
  · rw [horigins, haccepted]
    exact h.origins

lemma foundByMarket_imp {catalog : Catalog} {event : UmaEvent}
    (h : Counting.foundByMarket catalog event = true) :
    event.request.ancillary.marketId.isSome = true ∧
      (catalog.resolve event.request.ancillary.marketId event.request.conditionId).isSome =
        true := by
  unfold Counting.foundByMarket at h
  unfold Catalog.resolve
  cases hmarket : event.request.ancillary.marketId with
  | none =>
    simp_all
  | some marketId =>
    simp_all

lemma Enriched.resolve (h : Enriched base s) {event : UmaEvent}
    (hphase : (s.calls i).phase = .fresh event) (hok : CountedOnce s (.resolve i)) :
    Enriched base
      { s with
        toProcessor := s.toProcessor.resolve i event
          (s.catalog.resolve event.request.ancillary.marketId event.request.conditionId)
        found := Function.update s.found i (Counting.foundByMarket s.catalog event) } := by
  have hbyMarket := hok event (by rw [hphase]; rfl)
  set row := s.catalog.resolve event.request.ancillary.marketId event.request.conditionId with hrow
  refine h.of_update
    rfl rfl fun n m n' m' hn hm hacc => ?_
  simp only [asked, findingByMarket, hphase, Bool.toNat_false, Bool.toNat_true, Nat.add_zero]
    at hn hm
  obtain ⟨hits, total, hstats⟩ := resolve_stats i event row
  obtain ⟨hcounted, hvia, horigins⟩ := hacc
  refine ⟨?_, ?_, horigins⟩
  · rw [hstats]
    unfold Stats.enrichment
    grind
  · have hflag : Counting.foundByMarket s.catalog event =
        (row.isSome && event.request.ancillary.marketId.isSome) := by
      rw [Bool.eq_iff_iff, Bool.and_eq_true]
      refine ⟨fun hfound => ?_, fun hboth => hbyMarket hboth.2 hboth.1⟩
      obtain ⟨hmarket, hsome⟩ := foundByMarket_imp hfound
      grind
    rw [hflag] at hm
    rw [hstats]
    unfold Stats.enrichment
    cases hsome : row.isSome with
    | false =>
      simp_all
    | true =>
      grind

lemma Enriched.call (h : Enriched base s) (hok : CountedOnce s (.call a))
    (hcall : s.toProcessor.Step a p) (hresolve : ∀ i row, a ≠ .resolve i row) :
    Enriched base
      { s with
        toProcessor := p
        origins := s.origins ++ (p.accepted.drop s.accepted.length).map fun record =>
          (record, (a.call?.map s.found).getD false) } := by
  -- only the accepting step has something to record
  have hnone : s.origins ++ (s.accepted.drop s.accepted.length).map (fun record =>
      (record, (a.call?.map s.found).getD false)) = s.origins := by
    simp
  cases hcall with
  | undecodable i receivedAtUs source hphase | decode i event receivedAtUs source hphase
  | known i event hphase hkey | unknown i event hphase hkey | fetchAdd i event row hphase
  | blocked i record matchId hphase | unblocked i record hphase | sendFailed i record hphase _
  | send i record hphase _ =>
    exact h.of_quiet rfl rfl (by simp only [asked, hphase])
      (by simp only [findingByMarket, hphase])
      fun n m hacc => hacc.of_eq rfl rfl rfl rfl hnone rfl
  | resolve i event row hphase => simp_all
  | lose i record hphase hkey => exact absurd hkey (hok record (by rw [hphase]; rfl))
  | accept i record hphase hkey =>
    refine h.of_update rfl (Function.update_eq_self i s.found).symm
      fun n m n' m' hn hm hacc => ?_
    simp only [asked, findingByMarket, hphase, Bool.toNat_true, Bool.toNat_false,
      Nat.add_zero, Nat.add_right_cancel_iff] at hn hm
    have hrecorded : s.origins ++ ((s.accepted ++ [record]).drop s.accepted.length).map
        (fun r => (r, ((Action.insert i).call?.map s.found).getD false)) =
          s.origins ++ [(record, s.found i)] := by
      rw [List.drop_left]
      rfl
    obtain ⟨hcounted, hvia, horigins⟩ := hacc
    refine ⟨?_, ?_, ?_⟩
    · show s.stats.enrichmentHits + s.stats.enrichmentMisses =
        base.enrichmentHits + base.enrichmentMisses + s.stats.eventsDecoded + n'
      omega
    · show s.stats.enrichmentHitsViaMarketId =
        base.enrichmentHitsViaMarketId + List.countP Prod.snd (s.origins ++
          ((s.accepted ++ [record]).drop s.accepted.length).map _) + m'
      grind
    · show (s.origins ++ ((s.accepted ++ [record]).drop s.accepted.length).map _).map
        Prod.fst = s.accepted ++ [record]
      simp_all
  | credit i record hphase =>
    refine h.of_update rfl (Function.update_eq_self i s.found).symm
      fun n m n' m' hn hm hacc => ?_
    simp only [asked, findingByMarket, hphase, Bool.toNat_true, Bool.toNat_false,
      Nat.add_zero] at hn hm
    obtain ⟨hcounted, hvia, horigins⟩ := hacc
    refine ⟨?_, ?_, ?_⟩
    · show s.stats.enrichmentHits + s.stats.enrichmentMisses =
        base.enrichmentHits + base.enrichmentMisses + (s.stats.eventsDecoded + 1) + n'
      omega
    · rw [hnone, hm]
      exact hvia
    simp_all
  | store i record hphase hroom | drop i record hphase hroom =>
    refine h.of_quiet rfl rfl ?_ ?_
      fun n m hacc => hacc.of_eq rfl rfl rfl rfl hnone rfl
    · simp only [asked, hphase, Pipeline.Phase.afterStore]
      split_ifs <;> rfl
    · simp only [findingByMarket, hphase, Pipeline.Phase.afterStore]
      split_ifs <;> rfl
  | checkpoint block hroom | checkpointDropped block hroom =>
    obtain ⟨n, m, hasked, hfinding, hacc⟩ := h
    exact ⟨n, m, hasked, hfinding, hacc.of_eq rfl rfl rfl rfl hnone rfl⟩

lemma Enriched.step {a : CountingAction} (h : Enriched base s) (hok : CountedOnce s a)
    (hstep : s.step a = some s') : Enriched base s' := by
  cases Counting.step_sound hstep with
  | call a p hcall hresolve => exact h.call hok hcall hresolve
  | resolve i event hphase => exact h.resolve hphase hok
  | upsert market | receivers batchTx storageTx =>
    obtain ⟨n, m, hasked, hfinding, hacc⟩ := h
    exact ⟨n, m, hasked, hfinding, hacc.of_eq rfl rfl rfl rfl rfl rfl⟩

/-! ## No call in progress -/

def Quiet (p : Processor) : Prop := ∀ i, (p.calls i).phase = .idle ∨ (p.calls i).phase = .done

theorem pipeline_counters_add_up (events : EventHub) (catalog : Catalog)
    (batchCapacity storageCapacity initialSequence hits hitsViaMarketId misses latestBlock : ℕ)
    (as : List CountingAction) (s : Counting)
    (hrun : run Counting.step (Counting.start events catalog batchCapacity storageCapacity
      (restoredStats hits hitsViaMarketId misses latestBlock) initialSequence) as = some s)
    (hquiet : Quiet s.toProcessor) :
    s.stats.rpcLogsReceived =
      s.stats.decodeErrors + s.stats.duplicates + s.stats.eventsDecoded ∧
    raceWon s.stats.sourceRace = s.stats.eventsDecoded ∧
    raceReceived s.stats.sourceRace = s.stats.eventsDecoded + s.stats.duplicates ∧
    s.accepted.length = s.stats.eventsDecoded ∧
    (AllSteps Counting.step CountedOnce (Counting.start events catalog batchCapacity
        storageCapacity (restoredStats hits hitsViaMarketId misses latestBlock)
        initialSequence) as →
      s.stats.enrichmentHits + s.stats.enrichmentMisses = hits + misses + s.stats.eventsDecoded ∧
      s.origins.map Prod.fst = s.accepted ∧
      s.stats.enrichmentHitsViaMarketId = hitsViaMarketId + s.origins.countP Prod.snd) := by
  have hnone : ∀ {f : Call → Bool}, (∀ c : Call, c.phase = .idle ∨ c.phase = .done → f c = false) →
      ∀ i, f (s.calls i) = false := fun hf i => hf _ (hquiet i)
  have hraced : Raced s.toProcessor := by
    refine run_invariant_of_step (I := fun t : Counting => Raced t.toProcessor) ?_
      (raced_new ..) hrun
    intro t a t' ht hstep
    cases Counting.step_sound hstep with
    | call a p hcall hresolve => exact ht.step hcall
    | resolve i event hphase => exact ht.step (.resolve i event _ hphase)
    | upsert | receivers =>
      obtain ⟨n, m, hracing, hentered, hacc⟩ := ht
      exact ⟨n, m, hracing, hentered, hacc.1, hacc.2, hacc.3, hacc.4⟩
  obtain ⟨n, m, hracing, hentered, hacc⟩ := hraced
  obtain rfl : n = 0 := hracing.eq_zero
    (hnone fun c hc => by rcases hc with hc | hc <;> simp only [racing, hc])
  obtain rfl : m = 0 := hentered.eq_zero
    (hnone fun c hc => by rcases hc with hc | hc <;> simp only [entered, hc])
  refine ⟨hacc.logs, hacc.won, hacc.received, hacc.accepted, fun hok => ?_⟩
  have henriched : Enriched (restoredStats hits hitsViaMarketId misses latestBlock) s :=
    run_invariant
      (fun _ _ _ h hok hstep => h.step hok hstep)
      ⟨0, 0, Census.zero fun _ => rfl, Census.zero fun _ => rfl, ⟨rfl, rfl, rfl⟩⟩ hok hrun
  obtain ⟨n, m, hasked, hfinding, haccount⟩ := henriched
  obtain rfl : n = 0 := hasked.eq_zero
    (hnone fun c hc => by rcases hc with hc | hc <;> simp only [asked, hc])
  obtain rfl : m = 0 := hfinding.eq_zero fun i => by
    rcases hquiet i with hc | hc <;> simp only [findingByMarket, hc]
  exact ⟨haccount.counted, haccount.origins, haccount.byMarket⟩

def sampleRow (marketId : ℕ) (condition : UInt8) : MarketEnrichment where
  marketId := marketId
  conditionId := Bytes.fill 32 condition
  tokenIds := [Bytes.fill 32 1, Bytes.fill 32 2]
  tagIds := []
  category := .other
  betType := .unspecified
  negRisk := false

def untilInsert (i : ℕ) (event : UmaEvent) : List CountingAction :=
  [.call (.receive i (some event) 8 "wss[0]"), .call (.contains i), .resolve i,
    .call (.fetchAdd i)]

def afterInsert (i : ℕ) : List CountingAction :=
  [.call (.insert i), .call (.credit i), .call (.store i), .call (.lookup i none), .call (.send i)]

def sampleStart (catalog : Catalog) : Counting :=
  Counting.start (EventHub.new 4) catalog 4 4 (restoredStats 5 4 3 0) 0

lemma quiet_of_two {catalog : Catalog} {as : List CountingAction}
    (hrun : run Counting.step (sampleStart catalog) as = some s)
    (hcalls : ∀ a ∈ as, ∀ i ∈ a.call?, i < 2)
    (hzero : (s.calls 0).phase = .idle ∨ (s.calls 0).phase = .done)
    (hone : (s.calls 1).phase = .idle ∨ (s.calls 1).phase = .done) : Quiet s.toProcessor := by
  intro i
  rcases Nat.lt_or_ge i 2 with hi | hi
  · grind
  · refine Or.inl ?_
    rw [calls_of_untouched (fun a ha k hk => by grind) hrun]
    rfl

/-- An event of market 1, found under its market id. -/
theorem pipeline_counters_add_up_of_hit :
    ∃ s, run Counting.step (sampleStart (Catalog.new [sampleRow 1 11]))
        (untilInsert 0 (testUmaEvent 1 1) ++ afterInsert 0) = some s ∧
      s.stats.eventsDecoded = 1 ∧ s.stats.enrichmentHits + s.stats.enrichmentMisses = 5 + 3 + 1 ∧
      s.stats.enrichmentHitsViaMarketId = 4 + s.origins.countP Prod.snd := by
  refine exists_some_imp (P := fun s => s.stats.eventsDecoded = 1 ∧ (s.calls 0).phase = .done ∧
    (s.calls 1).phase = .idle) (by decide +kernel) ?_
  rintro s hs ⟨hdecoded, hdone, hidle⟩
  have hquiet : Quiet s.toProcessor :=
    quiet_of_two hs (by decide) (Or.inr hdone) (Or.inl hidle)
  obtain ⟨-, -, -, -, henriched⟩ := pipeline_counters_add_up (EventHub.new 4)
    (Catalog.new [sampleRow 1 11]) 4 4 0 5 4 3 0 _ s hs hquiet
  obtain ⟨hcounted, -, hvia⟩ := henriched (by decide +kernel)
  omega

theorem lost_copy_counted_twice :
    (∃ s, run Counting.step (sampleStart Catalog.empty)
        (untilInsert 0 (testUmaEvent 1 1) ++ untilInsert 1 (testUmaEvent 1 1) ++
          [.call (.insert 0), .call (.credit 0), .call (.store 0), .call (.insert 1)]) = some s ∧
      Quiet s.toProcessor ∧ s.stats.eventsDecoded = 1 ∧ s.stats.enrichmentHits = 5 ∧
      s.stats.enrichmentMisses = 3 + 2) ∧
    ∃ s, run Counting.step (sampleStart (Catalog.new [sampleRow 2 10]))
        (untilInsert 0 (testUmaEvent 1 1) ++ afterInsert 0) = some s ∧
      Quiet s.toProcessor ∧ s.stats.eventsDecoded = 1 ∧
      s.stats.enrichmentHitsViaMarketId = 4 + 1 ∧ s.origins.countP Prod.snd = 0 := by
  constructor
  · refine exists_some_imp (P := fun s => (s.calls 0).phase = .done ∧ (s.calls 1).phase = .done ∧
      s.stats.eventsDecoded = 1 ∧ s.stats.enrichmentHits = 5 ∧ s.stats.enrichmentMisses = 3 + 2)
      (by decide +kernel) ?_
    rintro s hs ⟨h0, h1, hvals⟩
    exact ⟨quiet_of_two hs (by decide) (Or.inr h0) (Or.inr h1), hvals⟩
  · refine exists_some_imp (P := fun s => (s.calls 0).phase = .done ∧ (s.calls 1).phase = .idle ∧
      s.stats.eventsDecoded = 1 ∧ s.stats.enrichmentHitsViaMarketId = 4 + 1 ∧
      s.origins.countP Prod.snd = 0) (by decide +kernel) ?_
    rintro s hs ⟨h0, h1, hvals⟩
    exact ⟨quiet_of_two hs (by decide) (Or.inr h0) (Or.inl h1), hvals⟩

end RustUma.Enrichment
