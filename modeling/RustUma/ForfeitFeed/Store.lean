import RustUma.Found.Text

/-!
# The event log of the forfeit feed (`tools/forfeit-feed/forfeit_ws.py` `Store`)

An event gets the next sequence number and is appended to a file as a line of JSON. At the start the
file is read line by line, and a line that is no JSON is passed over.
-/

namespace RustUma.ForfeitFeed

open RustUma.Found

structure Stored (α : Type) where
  event : α
  seq : ℕ
  emittedAt : ℕ
  deriving DecidableEq

structure JsonLines (α : Type) where
  dumps : Stored α → List Char
  loads : List Char → Option (Stored α)
  loads_dumps : ∀ e, loads (dumps e) = some e
  loads_nil : loads [] = none
  loads_take : ∀ e k, k < (dumps e).length → loads ((dumps e).take k) = none
  loads_append : ∀ e e' k, 0 < k → loads ((dumps e).take k ++ dumps e') = none
  one_line : ∀ e, ∀ c ∈ dumps e, c ≠ '\n' ∧ c ≠ '\r'

structure Store (α : Type) where
  events : List (Stored α)
  seq : ℕ
  file : List UInt8
  deriving DecidableEq

namespace Store

variable {α κ : Type} [DecidableEq κ] (json : JsonLines α) (key : α → κ)

def line (e : Stored α) : List Char := json.dumps e ++ ['\n']

def add (s : Store α) (event : α) (now : ℕ) : Store α × Option (Stored α) :=
  if s.events.any fun e => key e.event = key event then (s, none)
  else
    let e : Stored α := ⟨event, s.seq + 1, now⟩
    (⟨s.events ++ [e], s.seq + 1, s.file ++ utf8 (line json e)⟩, some e)

def keep (events : List α) (event : α) : List α :=
  if events.any fun e => key e = key event then events else events ++ [event]

def addAll (s : Store α) : List (α × ℕ) → Store α × List (Stored α)
  | [] => (s, [])
  | (event, now) :: rest =>
    let added := s.add json key event now
    let after := added.1.addAll rest
    (after.1, added.2.toList ++ after.2)

def parse (text : List Char) : List (Stored α) :=
  (text.splitOnP fun c => c = '\n' || c = '\r').filterMap json.loads

def «open» (file : List UInt8) : Option (Store α) :=
  (fromUtf8 file).map fun text =>
    ⟨parse json text, ((parse json text).map Stored.seq).foldl max 0, file⟩

structure Intact (s : Store α) : Prop where
  file : s.file = utf8 (s.events.flatMap (line json))
  rising : (s.events.map Stored.seq).Pairwise (· < ·)
  below : ∀ e ∈ s.events, e.seq ≤ s.seq

def tornFile (kept : List (Stored α)) (last : Stored α) (k : ℕ) : List UInt8 :=
  utf8 (kept.flatMap (line json)) ++ (utf8 (line json last)).take k

def Survives (kept : List (Stored α)) (last : Stored α) (k : ℕ) (later : List (α × ℕ)) : Prop :=
  ∃ s₁ s₃, Store.open json (tornFile json kept last k) = some s₁ ∧
    Store.open json (s₁.addAll json key later).1.file = some s₃ ∧
    (∀ e, e ∈ kept ∨ (utf8 (line json last)).length ≤ k ∧ e = last ∨
      e ∈ (s₁.addAll json key later).2 → e ∈ s₃.events) ∧
    (s₃.events.map Stored.seq).Nodup ∧ ∀ e ∈ s₃.events, e.seq < s₃.seq + 1

def written (kept : List (Stored α)) (last : Stored α) (k : ℕ) : List (Stored α) :=
  kept ++ if (utf8 (line json last)).length ≤ k + 1 then [last] else []

def reloaded (kept : List (Stored α)) (last : Stored α) (k : ℕ) : Store α :=
  ⟨written json kept last k, ((written json kept last k).map Stored.seq).foldl max 0,
    tornFile json kept last k⟩

variable {json key} {s : Store α}

lemma dumps_not_end (e : Stored α) : ∀ c ∈ json.dumps e, (c = '\n' || c = '\r') = false := by
  intro c hc
  simpa using json.one_line e c hc

lemma parse_cons {text : List Char} (h : ∀ c ∈ text, (c = '\n' || c = '\r') = false)
    (rest : List Char) :
    parse json (text ++ '\n' :: rest) = (json.loads text).toList ++ parse json rest := by
  rw [parse, List.splitOnP_append_cons_of_forall_mem h _ rfl, List.filterMap_cons]
  cases json.loads text <;> rfl

lemma parse_lines_append (events : List (Stored α)) (rest : List Char) :
    parse json (events.flatMap (line json) ++ rest) = events ++ parse json rest := by
  induction events with
  | nil => rfl
  | cons e events ih =>
    rw [List.flatMap_cons, line, List.append_assoc, List.append_assoc,
      List.singleton_append, parse_cons (dumps_not_end e), json.loads_dumps, ih]
    rfl

lemma parse_lines (events : List (Stored α)) :
    parse json (events.flatMap (line json)) = events := by
  have hnil : parse json [] = [] := by simp [parse, List.splitOnP_nil, json.loads_nil]
  have hlines : parse json (events.flatMap (line json) ++ []) = _ := parse_lines_append events []
  rwa [hnil, List.append_nil, List.append_nil] at hlines

lemma parse_line {text : List Char} (h : ∀ c ∈ text, (c = '\n' || c = '\r') = false) :
    parse json text = (json.loads text).toList := by
  rw [parse, List.splitOnP_eq_singleton h, List.filterMap_cons]
  cases json.loads text <;> rfl

lemma le_foldl_max (l : List ℕ) (m : ℕ) : m ≤ l.foldl max m ∧ ∀ n ∈ l, n ≤ l.foldl max m := by
  induction l generalizing m with
  | nil => simp
  | cons a l ih =>
    grind

lemma open_utf8 (text : List Char) : Store.open json (utf8 text) =
    some ⟨parse json text, ((parse json text).map Stored.seq).foldl max 0, utf8 text⟩ := by
  rw [Store.open, fromUtf8_utf8, Option.map_some]

variable (json) in
lemma open_lines {events : List (Stored α)} (hrising : (events.map Stored.seq).Pairwise (· < ·)) :
    ∃ s, Store.open json (utf8 (events.flatMap (line json))) = some s ∧ s.events = events ∧
      s.Intact json := by
  refine ⟨⟨events, (events.map Stored.seq).foldl max 0, utf8 (events.flatMap (line json))⟩, ?_, rfl,
    rfl, hrising, ?_⟩
  · rw [open_utf8, parse_lines]
  · intro e he
    exact (le_foldl_max _ 0).2 _ (List.mem_map_of_mem he)

structure Grown (json : JsonLines α) (s s' : Store α) (added : List (Stored α)) : Prop where
  events : s'.events = s.events ++ added
  file : s'.file = s.file ++ utf8 (added.flatMap (line json))
  rising : (added.map Stored.seq).Pairwise (· < ·)
  between : ∀ e ∈ added, s.seq < e.seq ∧ e.seq ≤ s'.seq
  seq_le : s.seq ≤ s'.seq

variable (json key)

lemma addAll_grown (s : Store α) (calls : List (α × ℕ)) :
    Grown json s (s.addAll json key calls).1 (s.addAll json key calls).2 := by
  induction calls generalizing s with
  | nil => exact ⟨by simp [addAll], by simp [addAll, utf8], by simp [addAll], by simp [addAll], le_rfl⟩
  | cons call calls ih =>
    simp only [addAll]
    unfold add
    split_ifs with hknown
    · exact ih s
    · have h := ih ⟨s.events ++ [⟨call.1, s.seq + 1, call.2⟩], s.seq + 1,
        s.file ++ utf8 (line json ⟨call.1, s.seq + 1, call.2⟩)⟩
      have hseq : s.seq < (addAll json key _ calls).1.seq := h.seq_le
      refine ⟨?_, ?_, ?_, ?_, hseq.le⟩
      · simp [h.events]
      · simp [h.file, utf8_append]
      · simp only [Option.toList_some, List.singleton_append, List.map_cons, List.pairwise_cons]
        refine ⟨fun n hn => ?_, h.rising⟩
        obtain ⟨e, he, rfl⟩ := List.mem_map.mp hn
        exact (h.between e he).1
      · simp only [Option.toList_some, List.singleton_append, List.forall_mem_cons]
        refine ⟨⟨Nat.lt_succ_self _, hseq⟩, fun e he => ?_⟩
        exact ⟨Nat.lt_of_succ_lt (h.between e he).1, (h.between e he).2⟩

lemma addAll_eq_nil_iff (s : Store α) (calls : List (α × ℕ)) :
    (s.addAll json key calls).2 = [] ↔
      ∀ call ∈ calls, ∃ e ∈ s.events, key e.event = key call.1 := by
  induction calls with
  | nil => simp [addAll]
  | cons call calls ih =>
    simp only [addAll, List.forall_mem_cons]
    unfold add
    split_ifs with hknown
    · simpa [ih] using fun _ => hknown
    · refine iff_of_false (by simp) fun h => hknown ?_
      simpa using h.1

variable {json key}

lemma Intact.grown {s' : Store α} {added : List (Stored α)} (h : s.Intact json)
    (hgrown : Grown json s s' added) : s'.Intact json where
  file := by rw [hgrown.file, h.file, hgrown.events, List.flatMap_append, utf8_append]
  rising := by
    rw [hgrown.events, List.map_append, List.pairwise_append]
    refine ⟨h.rising, hgrown.rising, ?_⟩
    simp only [List.mem_map]
    rintro _ ⟨e, he, rfl⟩ _ ⟨e', he', rfl⟩
    exact (h.below e he).trans_lt (hgrown.between e' he').1
  below := by
    rw [hgrown.events]
    intro e he
    rcases List.mem_append.mp he with he | he
    · exact (h.below e he).trans hgrown.seq_le
    · exact (hgrown.between e he).2

lemma exists_torn {kept : List (Stored α)} {last : Stored α} {k : ℕ} (hk : 0 < k)
    (hlt : k < (utf8 (line json last)).length)
    (hread : (fromUtf8 (tornFile json kept last k)).isSome = true) :
    ∃ j, 0 < j ∧ (utf8 (line json last)).take k = utf8 ((json.dumps last).take j) ∧
      ((json.dumps last).length ≤ j ↔ (utf8 (line json last)).length ≤ k + 1) := by
  obtain ⟨text, htext⟩ := Option.isSome_iff_exists.mp hread
  obtain ⟨torn, -, htorn⟩ := exists_rest_of_utf8 (utf8_of_fromUtf8 htext)
  obtain ⟨rest, hline, hdrop⟩ := exists_rest_of_utf8
    ((List.take_append_drop k (utf8 (line json last))).symm.trans (by rw [htorn]))
  have hlength := congrArg List.length htorn
  rw [List.length_take, min_eq_left hlt.le] at hlength
  have hpos : torn ≠ [] := by
    rintro rfl
    exact hk.ne' hlength
  have hrest : rest ≠ [] := by
    rintro rfl
    rw [hline, List.append_nil] at hlt
    omega
  -- What is missing ends with the line feed.
  obtain ⟨missing, c, rfl⟩ := (List.eq_nil_or_concat' rest).resolve_left hrest
  rw [line, ← List.append_assoc] at hline
  obtain ⟨hdumps, hc⟩ := List.append_inj' hline rfl
  have hbytes : (utf8 (line json last)).length = k + (utf8 missing).length + 1 := by
    rw [line, hdumps, utf8_append, utf8_append, List.length_append, List.length_append, ← hlength]
    rfl
  refine ⟨torn.length, List.length_pos_iff.mpr hpos, by rw [hdumps, List.take_left, htorn], ?_⟩
  rw [hbytes, hdumps, List.length_append]
  rcases missing with _ | ⟨d, missing⟩
  · simp [utf8]
  · have := length_le_utf8 (d :: missing)
    rw [List.length_cons] at this ⊢
    exact iff_of_false (by omega) (by omega)

lemma open_torn {kept : List (Stored α)} {last : Stored α} {k j : ℕ}
    (htorn : (utf8 (line json last)).take k = utf8 ((json.dumps last).take j))
    (hall : (json.dumps last).length ≤ j ↔ (utf8 (line json last)).length ≤ k + 1) :
    Store.open json (tornFile json kept last k) = some (reloaded json kept last k) := by
  have hloads : (json.loads ((json.dumps last).take j)).toList =
      if (utf8 (line json last)).length ≤ k + 1 then [last] else [] := by
    rw [← if_congr hall rfl rfl]
    split_ifs with hj
    · rw [List.take_of_length_le hj, json.loads_dumps]
      rfl
    · rw [json.loads_take last j (by omega)]
      rfl
  have hparse : parse json (kept.flatMap (line json) ++ (json.dumps last).take j) =
      written json kept last k := by
    rw [parse_lines_append,
      parse_line fun c hc => dumps_not_end last c (List.mem_of_mem_take hc), hloads, written]
  rw [reloaded, tornFile, htorn, ← utf8_append, open_utf8, hparse]

lemma survives_of_lines {kept events : List (Stored α)} {last : Stored α} {k : ℕ}
    (hfile : tornFile json kept last k = utf8 (events.flatMap (line json)))
    (hrising : (events.map Stored.seq).Pairwise (· < ·))
    (hevents : ∀ e, e ∈ kept ∨ (utf8 (line json last)).length ≤ k ∧ e = last → e ∈ events)
    (later : List (α × ℕ)) : Survives json key kept last k later := by
  obtain ⟨s₁, hopen, hevents₁, hintact⟩ := open_lines json hrising
  have hgrown := addAll_grown json key s₁ later
  have hafter := hintact.grown hgrown
  obtain ⟨s₃, hopen₃, hevents₃, hintact₃⟩ := open_lines json hafter.rising
  refine ⟨s₁, s₃, hfile ▸ hopen, hafter.file ▸ hopen₃, fun e he => ?_,
    hintact₃.rising.imp fun h => h.ne, fun e he => Nat.lt_succ_of_le (hintact₃.below e he)⟩
  rw [hevents₃, hgrown.events, hevents₁, List.mem_append]
  rcases he with he | he | he
  · exact Or.inl (hevents e (Or.inl he))
  · exact Or.inl (hevents e (Or.inr he))
  · exact Or.inr he

lemma survives_of_known {kept : List (Stored α)} {last : Stored α} {k : ℕ} {later : List (α × ℕ)}
    (hlt : k < (utf8 (line json last)).length)
    (hopen : Store.open json (tornFile json kept last k) = some (reloaded json kept last k))
    (hrising : ((kept ++ [last]).map Stored.seq).Pairwise (· < ·))
    (hknown : ∀ call ∈ later, ∃ e ∈ written json kept last k, key e.event = key call.1) :
    Survives json key kept last k later := by
  have hnone := (addAll_eq_nil_iff json key (reloaded json kept last k) later).mpr hknown
  have hfile := (addAll_grown json key (reloaded json kept last k) later).file
  rw [hnone, List.flatMap_nil, utf8, List.flatMap_nil, List.append_nil] at hfile
  have hopen₃ := (congrArg (Store.open json) hfile).trans hopen
  have hsub : (written json kept last k).Sublist (kept ++ [last]) := by
    refine List.Sublist.append_left ?_ kept
    split_ifs
    · exact List.Sublist.refl _
    · exact List.nil_sublist _
  refine ⟨_, _, hopen, hopen₃, fun e he => ?_, ?_, fun e he => ?_⟩
  · rcases he with he | ⟨hle, -⟩ | he
    · exact List.mem_append_left _ he
    · exact absurd hle hlt.not_ge
    · rw [hnone] at he
      exact absurd he List.not_mem_nil
  · exact (hrising.sublist (hsub.map _)).imp fun h => h.ne
  · exact Nat.lt_succ_of_le ((le_foldl_max _ 0).2 _ (List.mem_map_of_mem he))

lemma not_survives_of_new {kept : List (Stored α)} {last : Stored α} {k j : ℕ}
    {later : List (α × ℕ)} (hj : 0 < j)
    (htorn : (utf8 (line json last)).take k = utf8 ((json.dumps last).take j))
    (hopen : Store.open json (tornFile json kept last k) = some (reloaded json kept last k))
    (hnew : ((reloaded json kept last k).addAll json key later).2 ≠ []) :
    ¬Survives json key kept last k later := by
  rintro ⟨s₁, s₃, hopen₁, hopen₃, hall, -, -⟩
  cases Option.some.inj (hopen₁.symm.trans hopen)
  have hgrown := addAll_grown json key (reloaded json kept last k) later
  obtain ⟨e, added, hadded⟩ := List.exists_cons_of_ne_nil hnew
  rw [hadded] at hgrown
  have hend : ∀ c ∈ (json.dumps last).take j ++ json.dumps e, (c = '\n' || c = '\r') = false := by
    intro c hc
    rcases List.mem_append.mp hc with hc | hc
    · exact dumps_not_end last c (List.mem_of_mem_take hc)
    · exact dumps_not_end e c hc
  have hfile : (reloaded json kept last k).file =
      utf8 (kept.flatMap (line json) ++ (json.dumps last).take j) := by
    rw [reloaded, tornFile, htorn, utf8_append]
  rw [hgrown.file, hfile, List.flatMap_cons, line, ← utf8_append, open_utf8] at hopen₃
  have hparse : s₃.events = kept ++ added := by
    rw [← Option.some.inj hopen₃]
    simp only [List.append_assoc, List.singleton_append]
    rw [parse_lines_append, ← List.append_assoc, parse_cons hend, json.loads_append last e j hj,
      parse_lines]
    rfl
  have hmem := hall e (Or.inr (Or.inr (hadded ▸ List.mem_cons_self)))
  rw [hparse] at hmem
  rcases List.mem_append.mp hmem with hmem | hmem
  · have hle : e.seq ≤ (reloaded json kept last k).seq :=
      (le_foldl_max _ 0).2 _ (List.mem_map_of_mem (List.mem_append_left _ hmem))
    exact absurd (hgrown.between e List.mem_cons_self).1 hle.not_gt
  · have hlt := (List.pairwise_cons.mp hgrown.rising).1 _ (List.mem_map_of_mem hmem)
    exact absurd hlt (lt_irrefl _)

end Store

open Store

/-- **The log survives a crash** if and only if the crash leaves nothing of the last line or all of
it, or it leaves whole characters and no event is added afterwards. -/
theorem store_survives_crash {α κ : Type} [DecidableEq κ] (json : JsonLines α) (key : α → κ)
    (before later : List (α × ℕ)) (kept : List (Stored α)) (last : Stored α)
    (hlast : ((⟨[], 0, []⟩ : Store α).addAll json key before).1.events = kept ++ [last]) (k : ℕ) :
    Survives json key kept last k later ↔
      k = 0 ∨ (utf8 (line json last)).length ≤ k ∨
        (fromUtf8 ((utf8 (line json last)).take k)).isSome = true ∧
          ∀ call ∈ later, ∃ e ∈ written json kept last k, key e.event = key call.1 := by
  have hempty : (⟨[], 0, []⟩ : Store α).Intact json := ⟨rfl, by simp, by simp⟩
  have hrising := (hempty.grown (addAll_grown json key _ before)).rising
  rw [hlast] at hrising
  rcases Nat.eq_zero_or_pos k with rfl | hk
  · have hfile : tornFile json kept last 0 = utf8 (kept.flatMap (line json)) := by simp [tornFile]
    refine iff_of_true (survives_of_lines hfile ?_ ?_ later) (Or.inl rfl)
    · exact hrising.sublist ((List.sublist_append_left _ _).map _)
    · rintro e (he | ⟨hle, rfl⟩)
      · exact he
      · have := (length_le_utf8 (line json e)).trans hle
        simp [line] at this
  rcases Nat.lt_or_ge k (utf8 (line json last)).length with hlt | hge
  · rw [or_iff_right hk.ne', or_iff_right hlt.not_ge]
    constructor
    · intro hsurvives
      have ⟨s₁, _, hopen₁, _⟩ := hsurvives
      have hread : (fromUtf8 (tornFile json kept last k)).isSome = true := by
        rw [← Option.isSome_map (f := _), ← Store.open, hopen₁]
        rfl
      obtain ⟨j, hj, htorn, hall⟩ := exists_torn hk hlt hread
      refine ⟨by rw [htorn, fromUtf8_utf8]; rfl, ?_⟩
      refine (addAll_eq_nil_iff json key (reloaded json kept last k) later).mp ?_
      by_contra hnew
      exact not_survives_of_new hj htorn (open_torn htorn hall) hnew hsurvives
    · rintro ⟨hwhole, hknown⟩
      obtain ⟨text, htext⟩ := Option.isSome_iff_exists.mp hwhole
      have hread : (fromUtf8 (tornFile json kept last k)).isSome = true := by
        rw [tornFile, ← utf8_of_fromUtf8 htext, ← utf8_append, fromUtf8_utf8]
        rfl
      obtain ⟨j, -, htorn, hall⟩ := exists_torn hk hlt hread
      exact survives_of_known hlt (open_torn htorn hall) hrising hknown
  · refine iff_of_true (survives_of_lines ?_ hrising ?_ later) (Or.inr (Or.inl hge))
    · rw [tornFile, List.take_of_length_le hge, List.flatMap_append, utf8_append]
      simp
    · rintro e (he | ⟨-, rfl⟩) <;> simp [*]

def testBody (e : Stored ℕ) : List Char :=
  [','].intercalate ([e.event, e.seq, e.emittedAt].map (Nat.toDigits 10))

def testDumps (e : Stored ℕ) : List Char := '[' :: testBody e ++ [']']

lemma testDumps_eq (e : Stored ℕ) : (testDumps e).tail.dropLast.splitOn ',' =
    [e.event, e.seq, e.emittedAt].map (Nat.toDigits 10) := by
  have hcomma : ∀ l ∈ [e.event, e.seq, e.emittedAt].map (Nat.toDigits 10), ',' ∉ l := by
    intro l hl hc
    obtain ⟨n, -, rfl⟩ := List.mem_map.mp hl
    exact absurd (Nat.isDigit_of_mem_toDigits (by decide) (by decide) hc) (by decide)
  rw [testDumps, List.cons_append, List.tail_cons, List.dropLast_concat, testBody,
    List.splitOn_intercalate ',' hcomma (by simp)]

lemma testBody_chars {e : Stored ℕ} {c : Char} (hc : c ∈ testBody e) :
    c = ',' ∨ c.isDigit = true := by
  have hdigit : ∀ n, c ∈ Nat.toDigits 10 n → c.isDigit = true := fun n hc =>
    Nat.isDigit_of_mem_toDigits (by decide) (by decide) hc
  simp only [testBody, List.intercalate, List.map_cons, List.map_nil,
    List.intersperse_cons_cons, List.intersperse_singleton, List.flatten_cons,
    List.flatten_nil, List.mem_append, List.mem_cons, List.not_mem_nil, or_false] at hc
  grind

lemma not_mem_testBody (e : Stored ℕ) {c : Char} (hc : ¬(c = ',' ∨ c.isDigit = true)) :
    c ∉ testBody e := fun h => hc (testBody_chars h)

lemma testDumps_one_line (e : Stored ℕ) (c : Char) (hc : c ∈ testDumps e) :
    c ≠ '\n' ∧ c ≠ '\r' := by
  have hchar : c = '[' ∨ c = ']' ∨ c = ',' ∨ c.isDigit = true := by
    have := @testBody_chars e c
    simp only [testDumps, List.cons_append, List.mem_cons, List.mem_append, List.not_mem_nil,
      or_false] at hc
    tauto
  constructor <;> rintro rfl <;> exact absurd hchar (by decide)

def testLoads (text : List Char) : Option (Stored ℕ) :=
  match (text.tail.dropLast.splitOn ',').map (Nat.ofDigitChars 10 · 0) with
  | [event, seq, emittedAt] =>
    if testDumps ⟨event, seq, emittedAt⟩ = text then some ⟨event, seq, emittedAt⟩ else none
  | _ => none

lemma testLoads_testDumps (e : Stored ℕ) : testLoads (testDumps e) = some e := by
  simp [testLoads, testDumps_eq, Nat.ofDigitChars_ten_toDigits]

lemma testLoads_nil : testLoads [] = none := by decide +kernel

lemma testLoads_eq_none {text : List Char} (h : ∀ e, testDumps e ≠ text) : testLoads text = none := by
  unfold testLoads
  split
  · rw [if_neg (h _)]
  · rfl

lemma testLoads_take (e : Stored ℕ) (k : ℕ) (hk : k < (testDumps e).length) :
    testLoads ((testDumps e).take k) = none := by
  refine testLoads_eq_none fun e' h => ?_
  have hmem : ']' ∈ (testDumps e).take k := h ▸ List.mem_append_right _ List.mem_cons_self
  rw [testDumps, List.length_append, List.length_singleton] at hk
  rw [testDumps, List.take_append_of_le_length (by omega)] at hmem
  rcases List.mem_cons.mp (List.mem_of_mem_take hmem) with hopen | hbody
  · exact absurd hopen (by decide)
  · exact not_mem_testBody e (by decide) hbody

lemma testLoads_append (e e' : Stored ℕ) (k : ℕ) (hk : 0 < k) :
    testLoads ((testDumps e).take k ++ testDumps e') = none := by
  obtain ⟨k, rfl⟩ := Nat.exists_eq_succ_of_ne_zero hk.ne'
  refine testLoads_eq_none fun e'' h => ?_
  rw [testDumps, testDumps, List.cons_append, List.cons_append, List.take_succ_cons,
    List.cons_append] at h
  have hmem : '[' ∈ testBody e'' ++ [']'] := by
    rw [(List.cons.inj h).2]
    exact List.mem_append_right _ List.mem_cons_self
  rcases List.mem_append.mp hmem with hbody | hclose
  · exact not_mem_testBody e'' (by decide) hbody
  · exact absurd (List.mem_singleton.mp hclose) (by decide)

def testJson : JsonLines ℕ where
  dumps := testDumps
  loads := testLoads
  loads_dumps := testLoads_testDumps
  loads_nil := testLoads_nil
  loads_take := testLoads_take
  loads_append := testLoads_append
  one_line := testDumps_one_line

theorem store_survives_crash_of_two :
    Survives testJson id [⟨7, 1, 0⟩] ⟨8, 2, 0⟩ 0 [(9, 0)] ∧
      Survives testJson id [⟨7, 1, 0⟩] ⟨8, 2, 0⟩ 4 [(7, 0)] :=
  ⟨(store_survives_crash testJson id [(7, 0), (8, 0)] [(9, 0)] [⟨7, 1, 0⟩] ⟨8, 2, 0⟩ rfl 0).mpr
      (Or.inl rfl),
    (store_survives_crash testJson id [(7, 0), (8, 0)] [(7, 0)] [⟨7, 1, 0⟩] ⟨8, 2, 0⟩ rfl 4).mpr
      (Or.inr (Or.inr (by decide +kernel)))⟩

/-- Four bytes of the second line are left. The line of the next event is written behind them, so
that event is lost, and its number is given out again. -/
theorem torn_line_takes_the_next :
    ((⟨[], 0, []⟩ : Store ℕ).addAll testJson id [(7, 0), (8, 0)]).1.events =
      [⟨7, 1, 0⟩, ⟨8, 2, 0⟩] ∧
    ∃ s₁ s₃, Store.open testJson (tornFile testJson [⟨7, 1, 0⟩] ⟨8, 2, 0⟩ 4) = some s₁ ∧
      (s₁.addAll testJson id [(9, 0)]).2 = [⟨9, 2, 0⟩] ∧
      Store.open testJson (s₁.addAll testJson id [(9, 0)]).1.file = some s₃ ∧
      s₃.events = [⟨7, 1, 0⟩] ∧ (s₃.add testJson id 10 0).2 = some ⟨10, 2, 0⟩ := by
  have htorn : tornFile testJson [⟨7, 1, 0⟩] ⟨8, 2, 0⟩ 4 = utf8 "[7,1,0]\n[8,2".toList := by
    decide +kernel
  have hmerged : ((⟨[⟨7, 1, 0⟩], 1, utf8 "[7,1,0]\n[8,2".toList⟩ : Store ℕ).addAll testJson id
      [(9, 0)]).1.file = utf8 "[7,1,0]\n[8,2[9,2,0]\n".toList := by decide +kernel
  refine ⟨by decide +kernel, ⟨[⟨7, 1, 0⟩], 1, utf8 "[7,1,0]\n[8,2".toList⟩,
    ⟨[⟨7, 1, 0⟩], 1, utf8 "[7,1,0]\n[8,2[9,2,0]\n".toList⟩, ?_, by decide +kernel, ?_, rfl,
    by decide +kernel⟩
  · rfl
  rfl

end RustUma.ForfeitFeed
