import RustUma.Enrichment.Gamma

/-!
# Categories and bet types (`src/category.rs`, `config/category_rules.json`)

A market's category comes from its question or its tags, its bet type from the rules of the one
group that lists the category. The regular expressions and the lower case of a text are parameters.
-/

namespace RustUma.Enrichment

open RustUma.Model

/-! ## Rules -/

structure CategoryTextRule where
  regex : String
  excludeRegex : Option String
  category : Category
  deriving DecidableEq

structure BetTypeGroup where
  categories : List Category
  fallbackBetType : BetType
  tagBetTypeRules : List (ℕ × BetType)
  sportsMarketTypeRules : List (String × BetType)
  questionTextRules : List (String × BetType)
  deriving DecidableEq

structure CompiledRules where
  categoryTextRules : List CategoryTextRule
  tagRules : List (ℕ × Category)
  betTypeGroups : List BetTypeGroup
  deriving DecidableEq

def firstMatch {α β : Type*} (rules : List (α × β)) (matches_ : α → Bool) : Option β :=
  (rules.find? fun rule => matches_ rule.1).map Prod.snd

section Matching

variable (isMatch : String → List Char → Bool) (toLowercase : List Char → List Char)

def CategoryTextRule.applies (rule : CategoryTextRule) (question : List Char) : Bool :=
  isMatch rule.regex question && !rule.excludeRegex.any fun excluded => isMatch excluded question

def CompiledRules.categoryFor (rules : CompiledRules) (tagIds : List ℕ)
    (question : Option (List Char)) : Category :=
  match question.bind fun q => rules.categoryTextRules.find? (·.applies isMatch q) with
  | some rule => rule.category
  | none =>
    match firstMatch rules.tagRules (tagIds.contains ·) with
    | some category => category
    | none => if tagIds.isEmpty then .unspecified else .other

def BetTypeGroup.betTypeFor (group : BetTypeGroup) (tagIds : List ℕ)
    (sportsMarketType question : Option (List Char)) : BetType :=
  match firstMatch group.tagBetTypeRules (tagIds.contains ·) with
  | some betType => betType
  | none =>
    -- A group without such rules does not look at the field: Gamma fills it in where it is bogus.
    match sportsMarketType.filter fun _ => !group.sportsMarketTypeRules.isEmpty with
    | some text =>
      (firstMatch group.sportsMarketTypeRules fun needle =>
        decide (toLowercase needle.toList <:+: toLowercase text)).getD group.fallbackBetType
    | none =>
      match question with
      | some q => (firstMatch group.questionTextRules (isMatch · q)).getD group.fallbackBetType
      | none => .unspecified

def CompiledRules.classify (rules : CompiledRules) : Classify :=
  fun tagIds sportsMarketType question =>
    let category := rules.categoryFor isMatch tagIds question
    let group := rules.betTypeGroups.find? (·.categories.contains category)
    (category, (group.map fun group =>
      group.betTypeFor isMatch toLowercase tagIds sportsMarketType question).getD .unspecified)

end Matching

def categoryRules : CompiledRules where
  categoryTextRules :=
    [⟨"(\\b(says?|said|mentions?|posts?|tweets?)\\b[^?]*[\"“‘])|" ++
        "(\\b(says?|said|mentions?)\\b[^?]*\\b(\\d+\\s*(\\+|or more)|times)\\b)",
      some "\\bindex says\\b", .mentions⟩]
  tagRules := [(100343, .mentions), (64, .esports), (1, .sports), (84, .weather), (2, .politics),
    (21, .crypto), (596, .culture)]
  betTypeGroups :=
    [{ categories := [.sports, .esports]
       fallbackBetType := .sportsProp
       tagBetTypeRules := []
       sportsMarketTypeRules := [("child_moneyline", .gameWinner), ("moneyline", .moneyline),
         ("handicap", .spread), ("spread", .spread), ("total", .overUnder),
         ("corners", .overUnder), ("completed_match", .sportsProp), ("to_score", .sportsProp),
         ("exact_score", .sportsProp), ("to_advance", .sportsProp), ("result", .moneyline),
         ("winner", .moneyline)]
       questionTextRules := [("\\bSpread:|\\bHandicap\\b", .spread),
         ("\\bO/U\\b|Over/Under", .overUnder),
         ("\\b(Game|Map|Set|Leg)\\s*\\d+\\s*Winner\\b", .gameWinner),
         ("^[^:]+\\svs\\.?\\s[^:]+$", .moneyline),
         ("^Will\\s.+\\swin\\s(the\\s)?.+\\?$", .outright)] },
     { categories := [.weather]
       fallbackBetType := .weatherOther
       tagBetTypeRules := [(104596, .tempHigh), (104597, .tempLow), (103041, .precipitation),
         (103545, .precipitation), (103235, .precipitation), (106182, .precipitation),
         (1313, .precipitation), (102023, .storm), (85, .storm), (102186, .storm)]
       sportsMarketTypeRules := []
       questionTextRules := [("highest temperature", .tempHigh), ("lowest temperature", .tempLow),
         ("\\bsnow\\b|precipitation|rainfall", .precipitation),
         ("hurricane|tropical storm", .storm)] },
     { categories := [.crypto]
       fallbackBetType := .cryptoProp
       tagBetTypeRules := [(102134, .priceTarget), (102516, .priceThreshold), (102127, .upDown)]
       sportsMarketTypeRules := []
       questionTextRules :=
         [("\\breach(es|ed)?\\s*\\$|\\bdip(s|ped)?\\s*to\\s*\\$", .priceTarget),
          ("price of .+ be (above|below|over|under)\\s*\\$", .priceThreshold),
          ("\\bUp or Down\\b", .upDown)] },
     { categories := [.politics]
       fallbackBetType := .politicsProp
       tagBetTypeRules := [(144, .electionWinner), (100196, .fedRateDecision),
         (159, .fedRateDecision), (972, .tweetCount)]
       sportsMarketTypeRules := []
       questionTextRules :=
         [("^Will\\s.+\\swin\\s(the\\s)?.+(election|nomination|primary)\\b", .electionWinner),
          ("\\bFed\\b.*\\binterest rates?\\b", .fedRateDecision),
          ("\\bpost\\s+[<\\d].*\\b(tweets|posts)\\b", .tweetCount)] },
     { categories := [.culture]
       fallbackBetType := .cultureProp
       tagBetTypeRules := []
       sportsMarketTypeRules := []
       questionTextRules := [("^Will\\s.+\\sbe\\sthe\\s.+\\?$", .awardWinner),
         ("\\bbetween\\s*[\\d,.]+\\S*\\s+and\\s+[\\d,.]+|" ++
           "\\b(less than|more than)\\s*[\\d,.]+\\s*(million|m|k)?\\s*(views|gross)\\b",
           .mediaMetricRange)] },
     { categories := [.mentions]
       fallbackBetType := .mentionProp
       tagBetTypeRules := []
       sportsMarketTypeRules := []
       questionTextRules :=
         [("\\btimes\\b|\\b\\d+\\s*(\\+|or more|or fewer|or less)", .mentionCount),
          ("\\b(says?|said|posts?|tweets?|mentions?)\\b|" ++
            "\\bbe in the (headlines|manifesto)\\b", .mentionTerm)] }]

/-! ## What the layers give -/

lemma mem_of_firstMatch {α β : Type*} {rules : List (α × β)} {p : α → Bool} {v : β}
    (h : firstMatch rules p = some v) : v ∈ rules.map Prod.snd := by
  obtain ⟨rule, hrule, rfl⟩ := Option.map_eq_some_iff.mp h
  grind

def BetTypeGroup.values (group : BetTypeGroup) : List BetType :=
  group.fallbackBetType :: (group.tagBetTypeRules.map Prod.snd ++
    group.sportsMarketTypeRules.map Prod.snd ++ group.questionTextRules.map Prod.snd)

variable {isMatch : String → List Char → Bool} {toLowercase : List Char → List Char}
  {rules : CompiledRules} {tagIds tagIds' : List ℕ} {sportsMarketType question : Option (List Char)}

lemma BetTypeGroup.getD_firstMatch_mem {α : Type*} {group : BetTypeGroup} {p : α → Bool}
    {typed : List (α × BetType)} (h : ∀ v ∈ typed.map Prod.snd, v ∈ group.values) :
    (firstMatch typed p).getD group.fallbackBetType ∈ group.values := by
  cases hfirst : firstMatch typed p with
  | none => exact List.mem_cons_self
  | some v => exact h v (mem_of_firstMatch hfirst)

lemma BetTypeGroup.betTypeFor_mem (group : BetTypeGroup) :
    group.betTypeFor isMatch toLowercase tagIds sportsMarketType question = .unspecified ∨
      group.betTypeFor isMatch toLowercase tagIds sportsMarketType question ∈ group.values := by
  unfold betTypeFor
  split
  · next v hv =>
    simp [values, mem_of_firstMatch hv]
  · split
    · right
      apply getD_firstMatch_mem
      intro v hv
      simp [values, hv]
    · split
      · right
        apply getD_firstMatch_mem
        intro v hv
        simp [values, hv]
      · exact Or.inl rfl

lemma CompiledRules.categoryFor_of_applies (tagIds : List ℕ) {q : List Char}
    (h : ∃ rule ∈ rules.categoryTextRules, rule.applies isMatch q) :
    ∃ rule ∈ rules.categoryTextRules, rule.applies isMatch q ∧
      rules.categoryFor isMatch tagIds (some q) = rule.category := by
  obtain ⟨rule, hrule⟩ := Option.isSome_iff_exists.mp (List.find?_isSome.mpr h)
  have happlies : rule.applies isMatch q = true := by grind
  refine ⟨rule, List.mem_of_find?_eq_some hrule, happlies, ?_⟩
  simp [categoryFor, hrule]

lemma CompiledRules.classify_congr (h : ∀ t, t ∈ tagIds ↔ t ∈ tagIds') :
    rules.classify isMatch toLowercase tagIds' sportsMarketType question =
      rules.classify isMatch toLowercase tagIds sportsMarketType question := by
  have hcontains : (tagIds'.contains ·) = (tagIds.contains ·) := by
    simp [h]
  have hempty : tagIds'.isEmpty = tagIds.isEmpty := by
    rw [Bool.eq_iff_iff, List.isEmpty_iff, List.isEmpty_iff, List.eq_nil_iff_forall_not_mem,
      List.eq_nil_iff_forall_not_mem]
    simp [h]
  simp only [classify, categoryFor, BetTypeGroup.betTypeFor, hcontains, hempty]

structure CompiledRules.Scoped (rules : CompiledRules) : Prop where
  categories : ∀ g ∈ rules.betTypeGroups, ∀ g' ∈ rules.betTypeGroups, ∀ c ∈ g.categories,
    c ∈ g'.categories → g = g'
  values : ∀ g ∈ rules.betTypeGroups, ∀ g' ∈ rules.betTypeGroups, ∀ v ∈ g.values,
    v ∈ g'.values → g = g'
  untyped : ∀ g ∈ rules.betTypeGroups, .unspecified ∉ g.values ∧ .unspecified ∉ g.categories ∧
    .other ∉ g.categories

lemma scoped_categoryRules : categoryRules.Scoped where
  categories := by decide +kernel
  values := by decide +kernel
  untyped := by decide +kernel

lemma CompiledRules.betType_cases (rules : CompiledRules) {kind : Category × BetType}
    (h : rules.classify isMatch toLowercase tagIds sportsMarketType question = kind) :
    kind.2 = .unspecified ∨
      ∃ g ∈ rules.betTypeGroups, kind.1 ∈ g.categories ∧ kind.2 ∈ g.values := by
  subst h
  unfold classify
  dsimp only
  cases hgroup : rules.betTypeGroups.find?
      (·.categories.contains (rules.categoryFor isMatch tagIds question)) with
  | none => exact Or.inl rfl
  | some g =>
    refine g.betTypeFor_mem.imp_right fun hmem => ?_
    grind

theorem classify_stays_in_group (isMatch : String → List Char → Bool)
    (toLowercase : List Char → List Char) (tagIds : List ℕ)
    (sportsMarketType question : Option (List Char)) :
    let kind := categoryRules.classify isMatch toLowercase tagIds sportsMarketType question
    (kind.2 = .unspecified ∨ ∃ g ∈ categoryRules.betTypeGroups, kind.1 ∈ g.categories ∧
      kind.2 ∈ g.values ∧ ∀ g' ∈ categoryRules.betTypeGroups,
        kind.1 ∈ g'.categories ∨ kind.2 ∈ g'.values → g' = g) ∧
    (kind.1 = .unspecified ∨ kind.1 = .other → kind.2 = .unspecified) ∧
    (∀ rule ∈ categoryRules.categoryTextRules, ∀ q, question = some q →
      rule.applies isMatch q → kind.1 = rule.category) ∧
    ∀ tagIds' : List ℕ, (∀ t, t ∈ tagIds ↔ t ∈ tagIds') →
      categoryRules.classify isMatch toLowercase tagIds' sportsMarketType question = kind := by
  intro kind
  have hscoped := scoped_categoryRules
  have hcases := categoryRules.betType_cases (rfl : _ = kind)
  refine ⟨?_, ?_, ?_, fun tagIds' h => CompiledRules.classify_congr h⟩
  · refine hcases.imp_right ?_
    rintro ⟨g, hg, hcategory, hvalue⟩
    refine ⟨g, hg, hcategory, hvalue, ?_⟩
    rintro g' hg' (hcategory' | hvalue')
    · exact hscoped.categories g' hg' g hg _ hcategory' hcategory
    · exact hscoped.values g' hg' g hg _ hvalue' hvalue
  · intro hnone
    rcases hcases with h | ⟨g, hg, hcategory, -⟩
    · exact h
    · obtain ⟨-, hunspecified, hother⟩ := hscoped.untyped g hg
      grind
  · rintro rule hrule q rfl happlies
    obtain ⟨rule', hrule', -, hcategory⟩ :=
      CompiledRules.categoryFor_of_applies tagIds ⟨rule, hrule, happlies⟩
    rw [List.mem_singleton.mp hrule, ← List.mem_singleton.mp hrule']
    exact hcategory

end RustUma.Enrichment
