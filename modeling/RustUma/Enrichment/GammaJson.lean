import RustUma.Edge.Server
import RustUma.Enrichment.Incremental
import RustUma.Found.Json

/-!
# Pages as they are answered (`src/enrichment.rs` `get_json`, `GammaPage`, `string_list`)

A page is read from JSON as a whole before a walk looks at its first row. What `compact_market`
refuses is passed over row by row; what cannot be read at all takes the whole page with it, and a
page that cannot be read is asked for again and then fails the walk.
-/

namespace RustUma.Enrichment

open RustUma.Found RustUma.Model

/-! ## Rows -/

def decodeTag (json : Json) : Option (List Char) :=
  Json.required Json.text (json.member ["id"] "id")

def decodeEvent (json : Json) : Option (List (List Char)) :=
  Json.defaulted (Json.listOf decodeTag) [] (json.member ["tags"] "tags")

def stringList (parse : List Char → Option Json) : Json → Option (List (List Char))
  | .null => some []
  | .str value =>
    if Edge.trim value = [] then some [] else (parse value).bind (Json.listOf Json.text)
  | json => Json.listOf Json.text json

def marketFields : List String :=
  ["id", "updatedAt", "conditionId", "clobTokenIds", "tags", "events", "negRisk",
    "sportsMarketType", "question"]

def decodeMarket (parse : List Char → Option Json) (json : Json) : Option DatedMarket := do
  let field := fun name => json.member marketFields name
  let id ← Json.required Json.text (field "id")
  let updatedAt ← Json.defaulted Json.text [] (field "updatedAt")
  let conditionId ← Json.required Json.text (field "conditionId")
  let clobTokenIds ← Json.defaulted (stringList parse) [] (field "clobTokenIds")
  let tags ← Json.defaulted (Json.listOf decodeTag) [] (field "tags")
  let events ← Json.defaulted (Json.listOf decodeEvent) [] (field "events")
  let negRisk ← Json.defaulted Json.flag false (field "negRisk")
  let sportsMarketType ← Json.defaulted (Json.optional Json.text) none (field "sportsMarketType")
  let question ← Json.defaulted (Json.optional Json.text) none (field "question")
  return { id, conditionId, clobTokenIds, tags, events, negRisk, sportsMarketType, question,
           updatedAt }

/-! ## Pages -/

def pageFields : List String := ["markets", "next_cursor"]

def decodePage (parse : List Char → Option Json) (json : Json) : Option DatedPage := do
  let markets ← Json.defaulted (Json.listOf (decodeMarket parse)) []
    (json.member pageFields "markets")
  let next ← Json.defaulted Json.text [] (json.member pageFields "next_cursor")
  return ⟨markets, String.ofList next⟩

structure PageBody (body : Json) (rows : List Json) (next : List Char) : Prop where
  markets : body.member pageFields "markets" = some (some (.arr rows))
  cursor : Json.defaulted Json.text [] (body.member pageFields "next_cursor") = some next

inductive Reply where
  | lost
  | answered (status : ℕ) (body : Option (ℕ × Option Json))

def getJson {α : Type} (decode : Json → Option α) : Reply → Except EnrichmentError α
  | .lost => .error .http
  | .answered status body =>
    if ¬ (200 ≤ status ∧ status < 300) then .error (.status status)
    else
      match body with
      | none => .error .http
      | some (length, json) =>
        if 16 * 2 ^ 20 < length then .error .oversized
        else
          match json.bind decode with
          | some value => .ok value
          | none => .error .json

def gammaOf (parse : List Char → Option Json) (replies : Option String → ℕ → Reply) : Gamma :=
  fun cursor attempt => getJson (decodePage parse) (replies cursor attempt)

def Reply.Carries (body : Json) (reply : Reply) : Prop :=
  ∃ status length, reply = .answered status (some (length, some body)) ∧
    (200 ≤ status ∧ status < 300) ∧ length ≤ 16 * 2 ^ 20

structure Delivers (parse : List Char → Option Json) (replies : Option String → ℕ → Reply)
    (cursor : Option String) (body : Json) : Prop where
  carried : ∃ n ≤ keysetRetries, (replies cursor n).Carries body
  retried : ∀ n, (replies cursor n).Carries body ∨
    ∃ e, gammaOf parse replies cursor n = .error e ∧ e.isTransient = true

section Pages

variable {parse : List Char → Option Json} {body row : Json} {rows : List Json} {next : List Char}

lemma decodePage_eq_some (hbody : PageBody body rows next)
    (hrows : ∀ row ∈ rows, (decodeMarket parse row).isSome = true) :
    decodePage parse body = some ⟨rows.filterMap (decodeMarket parse), String.ofList next⟩ := by
  unfold decodePage
  rw [hbody.markets, hbody.cursor, Json.defaulted, Json.listOf_eq_some hrows]
  rfl

lemma decodePage_eq_none (hbody : PageBody body rows next) (hmem : row ∈ rows)
    (hrow : decodeMarket parse row = none) : decodePage parse body = none := by
  unfold decodePage
  rw [hbody.markets, Json.defaulted, Json.listOf_eq_none hmem hrow]
  rfl

lemma getJson_of_carries {α : Type} {decode : Json → Option α} {reply : Reply}
    (h : reply.Carries body) :
    getJson decode reply =
      match decode body with
      | some value => .ok value
      | none => .error .json := by
  obtain ⟨status, length, rfl, hstatus, hlength⟩ := h
  simp only [getJson, hstatus, and_self, not_true_eq_false, if_false, Nat.not_lt.mpr hlength,
    Option.bind_some]

lemma Delivers.keysetWithRetry_eq {replies : Option String → ℕ → Reply} {cursor : Option String}
    {page : DatedPage} (h : Delivers parse replies cursor body) :
    keysetWithRetry (gammaOf parse replies cursor) = .ok page ↔
      decodePage parse body = some page := by
  classical
  constructor
  · intro hok
    obtain ⟨n, hn⟩ := keysetWithRetry_eq_ok hok
    rcases h.retried n with hcarries | ⟨e, he, -⟩
    · rw [gammaOf, getJson_of_carries hcarries] at hn
      grind
    · rw [he] at hn
      cases hn
  · intro hpage
    have hfirst := Nat.find_spec h.carried
    refine retrying_of_transient hfirst.1 (fun i hi => ?_) ?_
    · rw [Nat.zero_add]
      refine (h.retried i).resolve_left fun hcarries => ?_
      exact Nat.find_min h.carried hi ⟨hi.le.trans hfirst.1, hcarries⟩
    · rw [Nat.zero_add, gammaOf, getJson_of_carries hfirst.2, hpage]

lemma keysetWithRetry_of_unreadable {replies : Option String → ℕ → Reply} {cursor : Option String}
    (hcarries : ∀ n, (replies cursor n).Carries body) (hbody : PageBody body rows next)
    (hmem : row ∈ rows) (hrow : decodeMarket parse row = none) :
    keysetWithRetry (gammaOf parse replies cursor) = .error .json := by
  have hattempt : ∀ n, gammaOf parse replies cursor n = .error .json := fun n => by
    rw [gammaOf, getJson_of_carries (hcarries n), decodePage_eq_none hbody hmem hrow]
  simp only [keysetWithRetry, keysetRetries, retrying, hattempt, EnrichmentError.isTransient,
    if_true]

end Pages

/-! ## Rows that are passed over -/

def validRow (parse : List Char → Option Json) (classify : Classify) (json : Json) : Bool :=
  (decodeMarket parse json).any fun raw => (raw.row? classify).isSome

section Rows

variable {parse : List Char → Option Json} {classify : Classify}

lemma isSome_of_validRow {row : Json} (h : validRow parse classify row = true) :
    (decodeMarket parse row).isSome = true := by
  obtain ⟨raw, hraw, -⟩ := (Option.any_eq_true _ _).mp h
  simp_all

lemma filterMap_validRow (rows : List Json) :
    (rows.filter (validRow parse classify)).filterMap (decodeMarket parse) =
      (rows.filterMap (decodeMarket parse)).filter fun raw => (raw.row? classify).isSome := by
  rw [List.filterMap_filter, List.filter_filterMap]
  congr 1
  funext json
  unfold validRow
  cases decodeMarket parse json with
  | none => simp
  | some raw =>
    rfl

lemma Tick.store_of_none {tick : Tick} {raw : DatedMarket} (h : raw.row? classify = none) :
    tick.store classify raw = tick := by
  unfold Tick.store
  cases hcompact : compactMarket classify raw.toGammaMarket with
  | error e => rfl
  | ok row =>
    rw [row?_eq_some_iff.mpr hcompact] at h
    cases h

lemma syncNewestMarkets_of_error {gamma : Gamma} {e : EnrichmentError}
    (h : keysetWithRetry (gamma none) = .error e) (catalog : Catalog) (maxPages : ℕ) :
    syncNewestMarkets gamma classify catalog maxPages = (catalog, .error e) := by
  unfold syncNewestMarkets walkNewest
  rw [← Nat.sub_add_cancel (le_max_right maxPages 1), walkPages_error h]
  rfl

lemma syncIncremental_of_error {gamma : Gamma} {e : EnrichmentError}
    (h : keysetWithRetry (gamma none) = .error e) (catalog : Catalog)
    (previous : Option EnrichmentCursor) (boundary : Option (List Char)) (maxPages : ℕ) :
    syncIncremental gamma classify catalog previous boundary maxPages = (catalog, .error e) := by
  unfold syncIncremental walkIncremental
  rw [← Nat.sub_add_cancel (le_max_right maxPages 1), walkPages_error h]
  rfl

def known (knownMax : ℕ) (raw : DatedMarket) : Bool := (parseUint 64 raw.id).any (· ≤ knownMax)

def newestReading (classify : Classify) (knownMax : ℕ) (markets : List DatedMarket) :
    List DatedMarket × Bool :=
  ((markets.takeWhile fun raw => !known knownMax raw).filter fun raw => (raw.row? classify).isSome,
    markets.any (known knownMax))

def incrementalReading (classify : Classify) (previous : Option EnrichmentCursor)
    (boundary : Option (List Char)) (markets : List DatedMarket) : List DatedMarket × Bool :=
  ((markets.filter fun raw => !stale previous boundary raw).filter
    fun raw => (raw.row? classify).isSome, markets.any (stale previous boundary))

lemma readNewest_eq (knownMax : ℕ) (tick : Tick) (markets : List DatedMarket) :
    readNewest classify knownMax tick markets =
      ((newestReading classify knownMax markets).1.foldl (Tick.store classify) tick,
        (newestReading classify knownMax markets).2) := by
  induction markets generalizing tick with
  | nil => rfl
  | cons raw markets ih =>
    unfold newestReading at ih ⊢
    rw [readNewest, List.takeWhile_cons, List.any_cons, ← known]
    cases known knownMax raw with
    | true => rfl
    | false =>
      cases hrow : raw.row? classify with
      | none =>
        rw [Tick.store_of_none hrow]
        simpa [hrow] using ih tick
      | some row => simpa [hrow] using ih (tick.store classify raw)

lemma readIncremental_eq (previous : Option EnrichmentCursor) (boundary : Option (List Char))
    (pass : Pass) (markets : List DatedMarket) :
    readIncremental classify previous boundary pass markets =
      ((incrementalReading classify previous boundary markets).1.foldl (Pass.settle classify) pass,
        (incrementalReading classify previous boundary markets).2) := by
  rw [skipping_readIncremental, incrementalReading]
  refine Prod.ext ?_ rfl
  dsimp only
  generalize markets.filter _ = fresh
  rw [List.foldl_filter]
  refine List.foldl_ext _ _ _ fun pass raw _ => ?_
  cases hrow : raw.row? classify with
  | none => exact pass.settle_of_none hrow
  | some row => rfl

variable {replies : Option String → ℕ → Reply} {cursor : Option String} {body : Json}
  {rows : List Json} {next : List Char}

def PassedOver (gamma : Gamma) (cursor : Option String) (rows : List Json) (next : List Char)
    (reading : List DatedMarket → List DatedMarket × Bool) (valid : List DatedMarket) : Prop :=
  dealt terminal (fun cursor => keysetWithRetry (gamma cursor)) reading cursor =
    .ok ((reading valid).1,
      if rows.isEmpty ∨ (reading valid).2 = true ∨ LastPage terminal cursor (String.ofList next)
      then none else some (String.ofList next))

lemma passedOver_iff (hbody : PageBody body rows next)
    (hdelivers : Delivers parse replies cursor body)
    {reading : List DatedMarket → List DatedMarket × Bool} (hnil : reading [] = ([], false)) :
    PassedOver (gammaOf parse replies) cursor rows next reading
        ((rows.filter (validRow parse classify)).filterMap (decodeMarket parse)) ↔
      (∀ row ∈ rows, (decodeMarket parse row).isSome = true) ∧
      (reading (rows.filterMap (decodeMarket parse))).1 =
        (reading ((rows.filterMap (decodeMarket parse)).filter
          fun raw => (raw.row? classify).isSome)).1 ∧
      (LastPage terminal cursor (String.ofList next) ∨
        (reading (rows.filterMap (decodeMarket parse))).2 =
          (reading ((rows.filterMap (decodeMarket parse)).filter
            fun raw => (raw.row? classify).isSome)).2) := by
  rw [filterMap_validRow]
  unfold PassedOver dealt
  dsimp only
  by_cases hrows : ∀ row ∈ rows, (decodeMarket parse row).isSome = true
  · rw [hdelivers.keysetWithRetry_eq.mpr (decodePage_eq_some hbody hrows), and_iff_right hrows]
    cases rows with
    | nil => simp [Except.map, hnil]
    | cons row rows =>
      obtain ⟨raw, hraw⟩ := Option.isSome_iff_exists.mp (hrows row List.mem_cons_self)
      have hitems : ((row :: rows).filterMap (decodeMarket parse)).isEmpty = false := by
        rw [List.filterMap_cons_some hraw]
        rfl
      generalize (row :: rows).filterMap (decodeMarket parse) = markets at hitems
      simp only [Except.map, hitems, Except.ok.injEq, List.isEmpty_cons, Bool.false_eq_true,
        if_false, false_or, Prod.mk.injEq]
      refine and_congr_right fun _ => ?_
      grind
  · refine iff_of_false (fun hok => hrows fun row hrow => ?_) fun h => hrows h.1
    cases hask : keysetWithRetry (gammaOf parse replies cursor) with
    | error e =>
      rw [hask] at hok
      cases hok
    | ok page =>
      by_contra hnone
      have hpage := hdelivers.keysetWithRetry_eq.mp hask
      rw [decodePage_eq_none hbody hrow (Option.not_isSome_iff_eq_none.mp hnone)] at hpage
      cases hpage

lemma takeWhile_filter_iff {α : Type} (p q : α → Bool) (last : Prop) (l : List α) :
    (l.takeWhile fun a => !p a).filter q = ((l.filter q).takeWhile fun a => !p a).filter q ∧
        (last ∨ l.any p = (l.filter q).any p) ↔
      l.dropWhile (fun a => !p a) = [] ∨
        ((l.dropWhile fun a => !p a).find? q).elim last fun a => p a = true := by
  induction l with
  | nil => simp
  | cons a l ih =>
    cases hp : p a with
    | false => cases hq : q a <;> simpa [hp, hq] using ih
    | true =>
      cases hq : q a with
      | true => simp [hp, hq]
      | false =>
        -- the first of the others that come behind decides
        have hhead : (a :: l).find? q = (l.filter q).head? := by
          rw [List.find?_cons_of_neg (by simp [hq]), List.head?_filter]
        have hmem : ∀ b ∈ l.filter q, q b = true := fun b hb => (List.mem_filter.mp hb).2
        simp only [List.takeWhile_cons, hp, List.dropWhile_cons, List.filter_cons, hq,
          List.any_cons, Bool.not_true, Bool.false_eq_true, if_false, hhead]
        cases hrest : l.filter q with
        | nil => simp
        | cons b rest =>
          have hb := hmem b (hrest ▸ List.mem_cons_self)
          cases hpb : p b <;> simp [hpb, hb]

end Rows

theorem malformed_rows_passed_over (parse : List Char → Option Json) (classify : Classify)
    (replies : Option String → ℕ → Reply) (cursor : Option String) (body : Json)
    (rows : List Json) (next : List Char) (hbody : PageBody body rows next)
    (hdelivers : Delivers parse replies cursor body) :
    let gamma := gammaOf parse replies
    let ask := fun cursor => keysetWithRetry (gamma cursor)
    let markets := rows.filterMap (decodeMarket parse)
    let valid := (rows.filter (validRow parse classify)).filterMap (decodeMarket parse)
    let last := LastPage terminal cursor (String.ofList next)
    (∀ without, PageBody without (rows.filter (validRow parse classify)) next →
        decodePage parse without = some ⟨valid, String.ofList next⟩) ∧
      (∀ knownMax,
        (PassedOver gamma cursor rows next (newestReading classify knownMax) valid ↔
          (∀ row ∈ rows, (decodeMarket parse row).isSome = true) ∧
          (markets.dropWhile (fun raw => !known knownMax raw) = [] ∨
            ((markets.dropWhile fun raw => !known knownMax raw).find?
              fun raw => (raw.row? classify).isSome).elim last
              fun raw => known knownMax raw = true)) ∧
        ∀ left tick, walkNewest gamma classify knownMax (left + 1) cursor tick =
          follow (Tick.store classify) (walkNewest gamma classify knownMax left) tick
            (dealt terminal ask (newestReading classify knownMax) cursor)) ∧
      ∀ previous boundary,
        (PassedOver gamma cursor rows next (incrementalReading classify previous boundary) valid ↔
          (∀ row ∈ rows, (decodeMarket parse row).isSome = true) ∧
          ((∃ raw ∈ markets, stale previous boundary raw = true) →
            last ∨ ∃ raw ∈ valid, stale previous boundary raw = true)) ∧
        ∀ left pass,
          walkIncremental gamma classify previous boundary (left + 1) cursor pass =
            follow (Pass.settle classify) (walkIncremental gamma classify previous boundary left)
              pass (dealt terminal ask (incrementalReading classify previous boundary) cursor) := by
  refine ⟨fun without hwithout => decodePage_eq_some hwithout fun row hrow =>
      isSome_of_validRow (List.mem_filter.mp hrow).2,
    fun knownMax => ⟨?_, fun left tick => walkPages_succ (readNewest_eq knownMax)⟩,
    fun previous boundary =>
      ⟨?_, fun left pass => walkPages_succ (readIncremental_eq previous boundary)⟩⟩
  · rw [passedOver_iff hbody hdelivers rfl]
    exact and_congr_right fun _ => takeWhile_filter_iff _ _ _ _
  · rw [passedOver_iff hbody hdelivers rfl, filterMap_validRow]
    refine and_congr_right fun _ => ?_
    -- the stale rows are passed over one by one, so only the flag can differ
    have hsame : ∀ markets : List DatedMarket,
        (incrementalReading classify previous boundary markets).1 =
          (incrementalReading classify previous boundary
            (markets.filter fun raw => (raw.row? classify).isSome)).1 := fun markets => by
      simp only [incrementalReading, List.filter_filter]
      grind
    rw [and_iff_right (hsame _)]
    unfold incrementalReading
    grind

def testObject (id : Char) (others : List (String × Json)) : Json :=
  .obj (("id", .str [id]) :: others)

def testMember (digit : Char) : String × Json := ("conditionId", .str (List.replicate 64 digit))

def testBody (rows : List Json) (next : List Char) : Json :=
  .obj [("markets", .arr rows), ("next_cursor", .str next)]

def testReplies (page : Option String → Json) : Option String → ℕ → Reply :=
  fun cursor _ => .answered 200 (some (1000, some (page cursor)))

lemma pageBody_testBody (rows : List Json) (next : List Char) :
    PageBody (testBody rows next) rows next := ⟨rfl, rfl⟩

lemma carries_testReplies (page : Option String → Json) (cursor : Option String) (n : ℕ) :
    (testReplies page cursor n).Carries (page cursor) :=
  ⟨200, 1000, rfl, by decide, by decide⟩

lemma delivers_testReplies (parse : List Char → Option Json) (page : Option String → Json)
    (cursor : Option String) : Delivers parse (testReplies page) cursor (page cursor) :=
  ⟨⟨0, Nat.zero_le _, carries_testReplies page cursor 0⟩,
    fun n => Or.inl (carries_testReplies page cursor n)⟩

/-- Three rows of the first page are passed over: an id that is no number, a condition that is not
hexadecimal, a token that is no number. -/
theorem malformed_rows_passed_over_of_three :
    let rows := [testObject 'x' [testMember '1'], testObject '9' [testMember '9'],
      testObject '8' [testMember 'g'],
      testObject '7' [testMember '7', ("clobTokenIds", .arr [.str ['t']])]]
    let pages : Option String → Json := fun cursor =>
      if cursor = none then testBody rows ['c'] else testBody [testObject '6' [testMember '6']] []
    let gamma := gammaOf (fun _ => none) (testReplies pages)
    walkNewest gamma testClassify 5 2 none ⟨Catalog.new [], 0⟩ =
        walkNewest gamma testClassify 5 1 (some "c")
          (Tick.upsert ⟨Catalog.new [], 0⟩ ⟨9, Bytes.fill 32 0x99, [], [], .other, .unspecified,
            false⟩) ∧
      (walkNewest gamma testClassify 5 2 none ⟨Catalog.new [], 0⟩).1.changed = 2 := by
  intro rows pages gamma
  obtain ⟨-, hnewest, -⟩ := malformed_rows_passed_over (fun _ => none) testClassify
    (testReplies pages) none (pages none) rows ['c'] (pageBody_testBody _ _)
    (delivers_testReplies _ _ _)
  obtain ⟨hiff, hwalk⟩ := hnewest 5
  have hpage : PassedOver gamma none rows ['c'] _ _ :=
    hiff.mpr ⟨by decide +kernel, Or.inl (by decide +kernel)⟩
  refine ⟨(hwalk 1 _).trans ?_, by decide +kernel⟩
  rw [show dealt terminal _ _ none = _ from hpage]
  rfl

theorem page_lost_to_one_row :
    let good := testObject '9' [testMember '9']
    let gamma := fun rows => gammaOf (fun _ => none) (testReplies fun _ => testBody rows [])
    (∀ bad ∈ [testObject '8' [], testObject '8' [("conditionId", .null)],
        testObject '8' [testMember '8', ("clobTokenIds", .str ['['])]],
      syncNewestMarkets (gamma [good, bad]) testClassify (Catalog.new []) 5 =
          (Catalog.new [], .error .json) ∧
        syncIncremental (gamma [good, bad]) testClassify (Catalog.new []) none none 5 =
          (Catalog.new [], .error .json)) ∧
      (syncNewestMarkets (gamma [good]) testClassify (Catalog.new []) 5).2 = .ok 1 ∧
      (syncIncremental (gamma [good]) testClassify (Catalog.new []) none none 5).2 =
        .ok (1, some ⟨[], 9⟩) := by
  intro good gamma
  refine ⟨fun bad hbad => ?_, by decide +kernel, by decide +kernel⟩
  have hunreadable : decodeMarket (fun _ => none) bad = none := by
    revert bad
    decide +kernel
  have hfails : keysetWithRetry (gamma [good, bad] none) = .error .json :=
    keysetWithRetry_of_unreadable (fun _ => carries_testReplies _ _ _)
      (pageBody_testBody [good, bad] []) (List.mem_cons_of_mem _ List.mem_cons_self) hunreadable
  exact ⟨syncNewestMarkets_of_error hfails _ _, syncIncremental_of_error hfails _ _ _ _⟩

end RustUma.Enrichment
