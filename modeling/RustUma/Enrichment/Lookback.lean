import RustUma.Enrichment.Incremental
import RustUma.Found.Calendar
import RustUma.Found.Text

/-!
# The lookback boundary (`src/enrichment.rs` `lookback_boundary_date`, `civil_from_days`)

A pass over the closed markets goes back to a date. The date is computed from the clock by counting
days in eras of four hundred years that begin on the first of March, and compared with timestamps as
a text.
-/

namespace RustUma.Enrichment

open RustUma.Found RustUma.Calendar

def sub64 (a b : ℕ) : Option ℕ := if b ≤ a then some (a - b) else none

def civilFromDays (z : ℤ) : Option (ℤ × ℕ × ℕ) := do
  let z := z + 719468
  let era := (if z ≥ 0 then z else z - 146096).tdiv 146097
  let doe := (z - era * 146097).toNat
  let yoe := (← sub64 ((← sub64 doe (doe / 1460)) + doe / 36524) (doe / 146096)) / 365
  let y := yoe + era * 400
  let doy ← sub64 doe (← sub64 (365 * yoe + yoe / 4) (yoe / 100))
  let mp := (5 * doy + 2) / 153
  let d := (← sub64 doy ((153 * mp + 2) / 5)) + 1
  let m ← if mp < 10 then some (mp + 3) else sub64 mp 9
  some (if m ≤ 2 then y + 1 else y, m, d)

def formatDate : ℤ × ℕ × ℕ → List Char
  | (y, m, d) => (if y < 0 then '-' :: zeroPadded 3 y.natAbs else zeroPadded 4 y.natAbs) ++
      '-' :: (zeroPadded 2 m ++ '-' :: zeroPadded 2 d)

def boundaryDays (nowSecs daysAgo : ℕ) : ℕ := nowSecs / 86400 - min daysAgo (nowSecs / 86400)

def lookbackBoundaryDate (nowSecs daysAgo : ℕ) : Option (List Char) :=
  (civilFromDays (boundaryDays nowSecs daysAgo)).map formatDate

/-! ## The date -/

lemma sub64_of_le {a b : ℕ} (h : b ≤ a) : sub64 a b = some (a - b) := if_pos h

lemma era_eq {z era doe : ℕ} (hz : z + 719468 = 146097 * era + doe) (hlt : doe < 146097) :
    (if (z : ℤ) + 719468 ≥ 0 then (z : ℤ) + 719468 else z + 719468 - 146096).tdiv 146097 = era ∧
      ((z : ℤ) + 719468 - era * 146097).toNat = doe := by
  rw [if_pos (by omega), Int.tdiv_eq_ediv_of_nonneg (by omega)]
  omega

lemma month_bounds {mp doy : ℕ} (h : mp = (5 * doy + 2) / 153) :
    (153 * mp + 2) / 5 ≤ doy ∧ doy < (153 * (mp + 1) + 2) / 5 := by
  omega

structure EraDay (c q r doy doe : ℕ) : Prop where
  century_le : c ≤ 3
  block_le : q ≤ 24
  year_le : r ≤ 3
  doy_le : doy ≤ 365
  leap : doy = 365 → r = 3 ∧ (q < 24 ∨ c = 3)
  doe_eq : doe = 36524 * c + 1461 * q + 365 * r + doy

lemma exists_eraDay {doe : ℕ} (h : doe < 146097) : ∃ c q r doy, EraDay c q r doy doe := by
  obtain ⟨c, hc⟩ : ∃ c, c = min (doe / 36524) 3 := ⟨_, rfl⟩
  obtain ⟨doc, hdoc⟩ : ∃ doc, doe = 36524 * c + doc := ⟨doe - 36524 * c, by omega⟩
  have hcentury : doc ≤ 36524 ∧ (doc = 36524 → c = 3) := by omega
  obtain ⟨r, hr⟩ : ∃ r, r = min (doc % 1461 / 365) 3 := ⟨_, rfl⟩
  refine ⟨c, doc / 1461, r, doc % 1461 - 365 * r, ?_, ?_, ?_, ?_, ?_, ?_⟩ <;> omega

namespace EraDay

variable {c q r doy doe : ℕ} (h : EraDay c q r doy doe)

include h

lemma div_century : doe / 36524 = c + doe / 146096 := by
  obtain ⟨hc, hq, hr, hdoy, hleap, hdoe⟩ := h
  grind

lemma div_block : doe / 1460 = 25 * c + q + (24 * c + q + 365 * r + doy) / 1460 := by
  have hdoe : doe = 1460 * (25 * c + q) + (24 * c + q + 365 * r + doy) := by
    have := h.doe_eq
    omega
  omega

lemma yoe_eq : doe / 146096 ≤ doe - doe / 1460 + doe / 36524 ∧
    (doe - doe / 1460 + doe / 36524 - doe / 146096) / 365 = 100 * c + 4 * q + r := by
  have hδ : (24 * c + q + 365 * r + doy) / 1460 ≤ doy := by
    obtain ⟨hc, hq, hr, -, -, -⟩ := h
    omega
  have hdays : doe - doe / 1460 + doe / 36524 - doe / 146096 =
      365 * (100 * c + 4 * q + r) + (doy - (24 * c + q + 365 * r + doy) / 1460) := by
    rw [h.div_century, h.div_block]
    have := h.doe_eq
    omega
  obtain ⟨hc, hq, hr, hdoy, hleap, hdoe⟩ := h
  omega

lemma doy_eq : (100 * c + 4 * q + r) / 100 ≤ 365 * (100 * c + 4 * q + r) + (100 * c + 4 * q + r) / 4 ∧
    365 * (100 * c + 4 * q + r) + (100 * c + 4 * q + r) / 4 - (100 * c + 4 * q + r) / 100 + doy =
      doe := by
  obtain ⟨hc, hq, hr, -, -, hdoe⟩ := h
  omega

lemma yearStart_eq (era : ℕ) : yearStart (400 * era + (100 * c + 4 * q + r) + 1) + doy =
    146097 * era + doe + 366 := by
  obtain ⟨hc, hq, hr, -, -, hdoe⟩ := h
  have hfour : (400 * era + (100 * c + 4 * q + r) + 1 + 3) / 4 = 100 * era + 25 * c + q + 1 := by
    omega
  have hhundred : (400 * era + (100 * c + 4 * q + r) + 1 + 99) / 100 = 4 * era + c + 1 := by omega
  have hfourHundred : (400 * era + (100 * c + 4 * q + r) + 1 + 399) / 400 = era + 1 := by omega
  unfold yearStart
  omega

lemma isLeap (era : ℕ) (hdoy : doy = 365) :
    IsLeap (400 * era + (100 * c + 4 * q + r) + 1) := by
  obtain ⟨hc, hq, hr, -, hleap, -⟩ := h
  obtain ⟨rfl, hq | rfl⟩ := hleap hdoy <;> unfold IsLeap <;> omega

lemma doe_lt : doe < 146097 := by
  obtain ⟨hc, hq, hr, hdoy, hleap, hdoe⟩ := h
  omega

variable {z era year mp : ℕ} (hz : z + 719468 = 146097 * era + doe)
  (hyear : year = 400 * era + (100 * c + 4 * q + r)) (hmp : mp = (5 * doy + 2) / 153)

include hz hyear hmp

lemma civilFromDays_eq : civilFromDays z =
    some (if mp < 10 then ((year : ℤ), mp + 3, doy - (153 * mp + 2) / 5 + 1)
      else (((year + 1 : ℕ) : ℤ), mp - 9, doy - (153 * mp + 2) / 5 + 1)) := by
  obtain ⟨hera, hdoe⟩ := era_eq hz h.doe_lt
  obtain ⟨hyoe, hyoe'⟩ := h.yoe_eq
  obtain ⟨hstart, hdoy⟩ := h.doy_eq
  have hmonth : (153 * mp + 2) / 5 ≤ doy := (month_bounds hmp).1
  unfold civilFromDays
  simp only [hera, hdoe, Option.bind_eq_bind, sub64_of_le (Nat.div_le_self doe 1460),
    Option.bind_some, sub64_of_le hyoe, hyoe', sub64_of_le hstart]
  rw [sub64_of_le (Nat.le.intro hdoy), Option.bind_some, ← hdoy, Nat.add_sub_cancel_left, ← hmp,
    sub64_of_le hmonth, Option.bind_some]
  clear hera hdoe
  by_cases hlast : mp < 10
  · grind
  · have hfirst : mp - 9 ≤ 2 := by
      have := h.doy_le
      omega
    rw [if_neg hlast, if_neg hlast, sub64_of_le (by omega), Option.bind_some, if_pos hfirst, hyear]
    push_cast
    ring_nf

lemma civilFromDays_exact : ∃ (year month day : ℕ), civilFromDays z = some (↑year, month, day) ∧
    Valid year month day ∧ 1970 ≤ year ∧ dayNumber 1970 year month day = z := by
  have hcivil := h.civilFromDays_eq hz hyear hmp
  have hnext := h.yearStart_eq era
  rw [← hyear] at hnext
  have hmonth := month_bounds hmp
  have hepoch : yearStart 1970 = 719528 := by decide
  split_ifs at hcivil with hlast
  · have hvalid : Valid year (mp + 3) (doy - (153 * mp + 2) / 5 + 1) := by
      have hlength : (153 * mp + 2) / 5 + monthLength year (mp + 3) = (153 * (mp + 1) + 2) / 5 := by
        clear hmp hcivil hmonth
        interval_cases mp <;> rfl
      exact ⟨by omega, by omega, by omega, by omega⟩
    refine ⟨year, _, _, hcivil, hvalid, hvalid.dayNumber_eq ?_⟩
    have hstart : monthStart year (mp + 3) + 306 = yearLength year + (153 * mp + 2) / 5 := by
      rw [monthStart_eq _ _ (by omega), yearLength]
      clear hmp hcivil hmonth hvalid
      interval_cases mp <;> by_cases hleap : IsLeap year <;> simp [hleap]
    rw [yearStart_succ] at hnext
    omega
  · have hmp' : mp = 10 ∨ mp = 11 := by
      have := h.doy_le
      omega
    have hdoy := h.doy_le
    have hvalid : Valid (year + 1) (mp - 9) (doy - (153 * mp + 2) / 5 + 1) := by
      rcases hmp' with rfl | rfl
      · exact ⟨by decide, by decide, by omega, by show _ ≤ 31; omega⟩
      · refine ⟨by decide, by decide, by omega, ?_⟩
        show _ ≤ if IsLeap (year + 1) then 29 else 28
        split_ifs with hleap
        · omega
        · have : doy ≠ 365 := fun hdoy => hleap (hyear ▸ h.isLeap era hdoy)
          omega
    refine ⟨year + 1, _, _, hcivil, hvalid, hvalid.dayNumber_eq ?_⟩
    rw [monthStart_eq _ _ (by omega)]
    grind

end EraDay

lemma exists_date (z : ℕ) : ∃ year month day : ℕ, civilFromDays z = some (↑year, month, day) ∧
    Valid year month day ∧ 1970 ≤ year ∧ dayNumber 1970 year month day = z := by
  obtain ⟨c, q, r, doy, h⟩ := exists_eraDay (Nat.mod_lt (z + 719468) (by decide : 0 < 146097))
  exact h.civilFromDays_exact (Nat.div_add_mod ..).symm rfl rfl

example : civilFromDays 11016 = some (2000, 2, 29) := by decide

/-! ## The text -/

variable {year year' month month' day day' : ℕ}

lemma monthLength_le (year month : ℕ) : monthLength year month ≤ 31 := by
  unfold monthLength
  grind

lemma formatDate_eq (year month day : ℕ) : formatDate (↑year, month, day) =
    zeroPadded 4 year ++ '-' :: (zeroPadded 2 month ++ '-' :: zeroPadded 2 day) := by
  rfl

lemma formatDate_append_lt (h : Valid year month day) (h' : Valid year' month' day')
    (hyear : year ≤ 9999) (hyear' : year' ≤ 9999) (rest : List Char) :
    formatDate (↑year, month, day) ++ rest < formatDate (↑year', month', day') ↔
      year < year' ∨ year = year' ∧ (month < month' ∨ month = month' ∧ day < day') := by
  have htwo : ∀ {n n' : ℕ}, n ≤ 31 → n' ≤ 31 → ∀ rest rest' : List Char,
      zeroPadded 2 n ++ rest < zeroPadded 2 n' ++ rest' ↔ n < n' ∨ n = n' ∧ rest < rest' :=
    fun hn hn' _ _ => zeroPadded_append_lt (by decide) (hn.trans_lt (by decide))
      (hn'.trans_lt (by decide))
  have hdash : ∀ rest rest' : List Char, '-' :: rest < '-' :: rest' ↔ rest < rest' := by
    simp
  have hmonth := htwo (h.month_le.trans (by decide)) (h'.month_le.trans (by decide))
  have hday := htwo (h.day_le.trans (monthLength_le _ _)) (h'.day_le.trans (monthLength_le _ _))
  rw [formatDate_eq, formatDate_eq, List.append_assoc, List.cons_append, List.append_assoc,
    List.cons_append, zeroPadded_append_lt (by decide) (Nat.lt_succ_of_le hyear)
      (Nat.lt_succ_of_le hyear'), hdash, hmonth, hdash, ← List.append_nil (zeroPadded 2 day'), hday]
  simp

abbrev lastDay : ℕ := dayNumber 1970 9999 12 31

lemma year_le {n : ℕ} (hn : n ≤ lastDay)
    (hnumber : dayNumber 1970 year month day = n) : year ≤ 9999 := by
  by_contra hlt
  have hlast : Valid 9999 12 31 := ⟨by decide, by decide, by decide, by decide⟩
  have hnumber' := hlast.dayNumber_lt (by decide : 1970 ≤ 9999) (not_le.mp hlt)
  unfold lastDay at hn
  rw [← hnumber] at hn
  have hsum : ∑ k ∈ Finset.Ico 1970 year, yearLength k ≤ dayNumber 1970 year month day :=
    (Nat.le_add_right ..).trans (Nat.le_add_right ..)
  omega

theorem lookback_boundary_exact :
    (∀ z ≤ lastDay, ∃ year month day : ℕ, civilFromDays z = some (↑year, month, day) ∧
      Valid year month day ∧ 1970 ≤ year ∧ year ≤ 9999 ∧ dayNumber 1970 year month day = z) ∧
    (∀ nowSecs daysAgo, boundaryDays nowSecs daysAgo ≤ lastDay →
      ∃ text, lookbackBoundaryDate nowSecs daysAgo = some text ∧
      (∀ nowSecs' daysAgo', boundaryDays nowSecs' daysAgo' ≤ lastDay →
        ∃ text', lookbackBoundaryDate nowSecs' daysAgo' = some text' ∧
          (text < text' ↔ boundaryDays nowSecs daysAgo < boundaryDays nowSecs' daysAgo')) ∧
      ∀ year month day rest, Valid year month day → 1970 ≤ year → year ≤ 9999 →
        ∀ (classify : Classify) (previous : Option EnrichmentCursor) (acc : Pass × Bool)
          (raw : DatedMarket), raw.updatedAt = formatDate (↑year, month, day) ++ rest →
          readMarket classify previous (some text) acc raw =
            if boundaryDays nowSecs daysAgo ≤ dayNumber 1970 year month day
            then readMarket classify previous none acc raw else (acc.1, true)) := by
  have hdate : ∀ z ≤ lastDay, ∃ year month day : ℕ, civilFromDays z = some (↑year, month, day) ∧
      Valid year month day ∧ 1970 ≤ year ∧ year ≤ 9999 ∧ dayNumber 1970 year month day = z := by
    intro z hz
    obtain ⟨year, month, day, hcivil, hvalid, hyear, hnumber⟩ := exists_date z
    exact ⟨year, month, day, hcivil, hvalid, hyear, year_le hz hnumber, hnumber⟩
  refine ⟨hdate, fun nowSecs daysAgo hle => ?_⟩
  obtain ⟨year, month, day, hcivil, hvalid, hyear, hyear', hnumber⟩ := hdate _ hle
  refine ⟨_, congrArg (Option.map formatDate) hcivil, fun nowSecs' daysAgo' hle' => ?_, ?_⟩
  · obtain ⟨year₁, month₁, day₁, hcivil₁, hvalid₁, hyear₁, hyear₁', hnumber₁⟩ := hdate _ hle'
    refine ⟨_, congrArg (Option.map formatDate) hcivil₁, ?_⟩
    have horder := formatDate_append_lt hvalid hvalid₁ hyear' hyear₁' []
    rwa [List.append_nil, ← hvalid.dayNumber_lt_iff hvalid₁ hyear hyear₁, hnumber, hnumber₁] at horder
  · intro year₁ month₁ day₁ rest hvalid₁ hyear₁ hyear₁' classify previous acc raw hraw
    have horder := formatDate_append_lt hvalid₁ hvalid hyear₁' hyear' rest
    rw [← hvalid₁.dayNumber_lt_iff hvalid hyear₁ hyear, hnumber, ← hraw] at horder
    have htest : (some (formatDate (↑year, month, day))).any (raw.updatedAt < ·) =
        !decide (boundaryDays nowSecs daysAgo ≤ dayNumber 1970 year₁ month₁ day₁) := by
      grind
    unfold readMarket
    grind

end RustUma.Enrichment
