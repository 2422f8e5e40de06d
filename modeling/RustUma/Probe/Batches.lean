import RustUma.Edge.Cursor

/-!
# The batches that the probe reads (`tools/p2p-mempool-probe/main.go` `walkBatch`, `walkEvent`)

`protowire` is known by the lengths it returns: negative for what is malformed or cut off.
-/

namespace RustUma.Probe

open RustUma.Found RustUma.Model

structure Protowire where
  /-- The number, the wire type and the length. -/
  tag : List UInt8 → Option (ℕ × ℕ × ℕ)
  varint : List UInt8 → Option (ℕ × ℕ)
  bytes : List UInt8 → Option (List UInt8 × ℕ)
  fieldValue : ℕ → ℕ → List UInt8 → Option ℕ
  tag_length : ∀ b num typ n, tag b = some (num, typ, n) → 0 < n ∧ n ≤ b.length
  fieldValue_length : ∀ num typ b m, fieldValue num typ b = some m → m ≤ b.length
  fieldValue_varint : ∀ num b, fieldValue num 0 b = (varint b).map Prod.snd
  fieldValue_bytes : ∀ num b, fieldValue num 2 b = (bytes b).map Prod.snd

structure UmaEv where
  eventType : ℕ := 0
  upstream : ℕ := 0
  marketId : ℕ := 0
  category : ℕ := 0
  betType : ℕ := 0
  outcome : ℕ := 0
  negRisk : Bool := false
  deriving DecidableEq

def UmaEv.set (e : UmaEv) (num v : ℕ) : UmaEv :=
  match num with
  | 2 => { e with eventType := v }
  | 5 => { e with marketId := v }
  | 12 => { e with outcome := v }
  | 13 => { e with category := v }
  | 14 => { e with betType := v }
  | 15 => { e with negRisk := decide (v ≠ 0) }
  | _ => e

def bytesToHash (b : List UInt8) : Bytes 32 :=
  let kept := b.drop (b.length - 32)
  ⟨List.replicate (32 - kept.length) 0 ++ kept, by
    rw [List.length_append, List.length_replicate, List.length_drop]
    omega⟩

section Walk

variable (wire : Protowire)

def walkEventFrom : ℕ → Bytes 32 × UmaEv → List UInt8 → Option (List (Bytes 32 × UmaEv))
  | _, (h, e), [] => some (if h ≠ Bytes.fill 32 0 then [(h, e)] else [])
  | 0, _, _ :: _ => none
  | fuel + 1, (h, e), b =>
    match wire.tag b with
    | none => some []
    | some (num, typ, n) =>
      let b := b.drop n
      if typ = 0 ∧ num ∈ [2, 5, 12, 13, 14, 15] then do
        let (v, m) ← wire.varint b
        walkEventFrom fuel (h, e.set num v) (b.drop m)
      else if num = 3 ∧ typ = 2 then do
        let (v, m) ← wire.bytes b
        walkEventFrom fuel (bytesToHash v, e) (b.drop m)
      else if num = 9 ∧ typ = 0 then do
        let (v, m) ← wire.varint b
        walkEventFrom fuel (h, { e with upstream := v }) (b.drop m)
      else
        match wire.fieldValue num typ b with
        | none => some []
        | some m => walkEventFrom fuel (h, e) (b.drop m)

def walkEvent (b : List UInt8) : Option (List (Bytes 32 × UmaEv)) :=
  walkEventFrom wire b.length (Bytes.fill 32 0, {}) b

def walkBatchFrom :
    ℕ → List (Bytes 32 × UmaEv) → List UInt8 → Option (List (Bytes 32 × UmaEv))
  | _, calls, [] => some calls
  | 0, _, _ :: _ => none
  | fuel + 1, calls, b =>
    match wire.tag b with
    | none => some calls
    | some (num, typ, n) =>
      let b := b.drop n
      if num = 4 ∧ typ = 2 then
        match wire.bytes b with
        | none => some calls
        | some (event, m) => do
          let more ← walkEvent wire event
          walkBatchFrom fuel (calls ++ more) (b.drop m)
      else
        match wire.fieldValue num typ b with
        | none => some calls
        | some m => walkBatchFrom fuel calls (b.drop m)

def walkBatch (b : List UInt8) : Option (List (Bytes 32 × UmaEv)) :=
  walkBatchFrom wire b.length [] b

inductive Fields : List UInt8 → List (ℕ × ℕ) → List UInt8 → Prop
  | nil (b : List UInt8) : Fields b [] b
  | cons {b rest : List UInt8} {num typ n m : ℕ} {fields : List (ℕ × ℕ)}
      (htag : wire.tag b = some (num, typ, n))
      (hvalue : wire.fieldValue num typ (b.drop n) = some m)
      (hrest : Fields ((b.drop n).drop m) fields rest) : Fields b ((num, typ) :: fields) rest

def EventIn (b event : List UInt8) : Prop :=
  ∃ fields rest n m, Fields wire b fields rest ∧ wire.tag rest = some (4, 2, n) ∧
    wire.bytes (rest.drop n) = some (event, m)

def unchecked : List (ℕ × ℕ) := (3, 2) :: [2, 5, 9, 12, 13, 14, 15].map fun num => (num, 0)

def Cut (b : List UInt8) : Prop :=
  ∃ fields rest num typ n, Fields wire b fields rest ∧ wire.tag rest = some (num, typ, n) ∧
    (num, typ) ∈ unchecked ∧ wire.fieldValue num typ (rest.drop n) = none

def Carries (b : List UInt8) (field : ℕ × ℕ) : Prop :=
  ∃ fields rest, Fields wire b fields rest ∧ field ∈ fields

end Walk

variable {wire : Protowire} {b : List UInt8} {num typ n m fuel : ℕ}

lemma length_rest_lt (htag : wire.tag b = some (num, typ, n)) (m : ℕ) :
    ((b.drop n).drop m).length < b.length := by
  have hpos := wire.tag_length _ _ _ _ htag
  grind

lemma exists_cons_of_tag (htag : wire.tag b = some (num, typ, n)) : ∃ x rest, b = x :: rest := by
  have hpos := wire.tag_length _ _ _ _ htag
  exact List.exists_cons_of_ne_nil (List.length_pos_iff.mp (hpos.1.trans_le hpos.2))

section Event

variable {s : Bytes 32 × UmaEv} {calls : List (Bytes 32 × UmaEv)}

lemma walkEventFrom_whole (fuel : ℕ) (s : Bytes 32 × UmaEv)
    (htag : wire.tag b = some (num, typ, n))
    (hvalue : wire.fieldValue num typ (b.drop n) = some m) :
    ∃ s', walkEventFrom wire (fuel + 1) s b = walkEventFrom wire fuel s' ((b.drop n).drop m) ∧
      (s'.1 = s.1 ∨ (num, typ) = (3, 2)) := by
  obtain ⟨x, b, rfl⟩ := exists_cons_of_tag htag
  have hvarint := wire.fieldValue_varint num ((x :: b).drop n)
  have hbytes := wire.fieldValue_bytes num ((x :: b).drop n)
  simp only [walkEventFrom, htag]
  split_ifs with hnumber hhash htime
  · rw [← hnumber.1, hvalue] at hvarint
    obtain ⟨⟨v, _⟩, hv, rfl⟩ := Option.map_eq_some_iff.mp hvarint.symm
    exact ⟨(s.1, s.2.set num v), by rw [hv]; rfl, .inl rfl⟩
  · rw [← hhash.2, hvalue] at hbytes
    obtain ⟨⟨v, _⟩, hv, rfl⟩ := Option.map_eq_some_iff.mp hbytes.symm
    exact ⟨_, by rw [hv]; rfl, .inr (Prod.ext hhash.1 hhash.2)⟩
  · rw [← htime.2, hvalue] at hvarint
    obtain ⟨⟨v, _⟩, hv, rfl⟩ := Option.map_eq_some_iff.mp hvarint.symm
    exact ⟨(s.1, { s.2 with upstream := v }), by rw [hv]; rfl, .inl rfl⟩
  · exact ⟨s, by rw [hvalue], .inl rfl⟩

lemma walkEventFrom_cut (fuel : ℕ) (s : Bytes 32 × UmaEv)
    (htag : wire.tag b = some (num, typ, n)) (hvalue : wire.fieldValue num typ (b.drop n) = none) :
    walkEventFrom wire (fuel + 1) s b = if (num, typ) ∈ unchecked then none else some [] := by
  obtain ⟨x, b, rfl⟩ := exists_cons_of_tag htag
  have hvarint := wire.fieldValue_varint num ((x :: b).drop n)
  have hbytes := wire.fieldValue_bytes num ((x :: b).drop n)
  simp only [walkEventFrom, htag]
  split_ifs with hnumber hin hin hhash hin hin htime
  all_goals simp_all [unchecked]
  omega

lemma walkEventFrom_eq_none_iff (hfuel : b.length ≤ fuel) :
    walkEventFrom wire fuel s b = none ↔ Cut wire b := by
  have hempty : ¬Cut wire [] := by
    rintro ⟨_, rest, num, typ, n, hfields, htag, -⟩
    cases hfields with
    | nil =>
      obtain ⟨x, rest, hnil⟩ := exists_cons_of_tag htag
      cases hnil
    | cons htag =>
      obtain ⟨x, rest, hnil⟩ := exists_cons_of_tag htag
      cases hnil
  induction fuel generalizing s b with
  | zero =>
    rw [List.eq_nil_of_length_eq_zero (Nat.le_zero.mp hfuel)]
    exact iff_of_false nofun hempty
  | succ fuel ih =>
    cases htag : wire.tag b with
    | none =>
      refine iff_of_false (fun h => ?_) ?_
      · cases b with
        | nil => cases h
        | cons x b =>
          simp only [walkEventFrom, htag] at h
          cases h
      · rintro ⟨_, rest, num, typ, n, hfields, htag', -⟩
        cases hfields with
        | nil => simp_all
        | cons htag' => simp_all
    | some field =>
      obtain ⟨num, typ, n⟩ := field
      cases hvalue : wire.fieldValue num typ (b.drop n) with
      | none =>
        rw [walkEventFrom_cut fuel s htag hvalue]
        refine (show _ ↔ (num, typ) ∈ unchecked by simp).trans ⟨fun hin => ⟨[], b, num, typ, n, .nil b, htag, hin, hvalue⟩, ?_⟩
        rintro ⟨_, rest, num', typ', n', hfields, htag', hin, -⟩
        cases hfields with
        | nil => simp_all
        | cons htag' hvalue' => simp_all
      | some m =>
        obtain ⟨s', hnext, -⟩ := walkEventFrom_whole fuel s htag hvalue
        have hlt := length_rest_lt htag m
        rw [hnext]
        refine (ih (by omega)).trans ⟨?_, ?_⟩
        · rintro ⟨fields, rest, num', typ', n', hfields, hcut⟩
          exact ⟨_, rest, num', typ', n', .cons htag hvalue hfields, hcut⟩
        · rintro ⟨_, rest, num', typ', n', hfields, htag', hin, hvalue'⟩
          cases hfields with
          | nil => simp_all
          | cons htag₁ hvalue₁ hrest =>
            rw [htag] at htag₁
            cases htag₁
            rw [hvalue] at hvalue₁
            cases hvalue₁
            exact ⟨_, rest, num', typ', n', hrest, htag', hin, hvalue'⟩

lemma carries_of_walkEventFrom (h : walkEventFrom wire fuel s b = some calls)
    (hcalls : calls ≠ []) : s.1 ≠ Bytes.fill 32 0 ∨ Carries wire b (3, 2) := by
  induction fuel generalizing s b with
  | zero =>
    cases b with
    | nil =>
      refine Or.inl fun hzero => hcalls ?_
      simpa [walkEventFrom, hzero] using h.symm
    | cons x b => cases h
  | succ fuel ih =>
    rcases eq_or_ne b [] with rfl | hb
    · refine Or.inl fun hzero => hcalls ?_
      simpa [walkEventFrom, hzero] using h.symm
    obtain ⟨x, b, rfl⟩ := List.exists_cons_of_ne_nil hb
    cases htag : wire.tag (x :: b) with
    | none =>
      simp only [walkEventFrom, htag, Option.some.injEq] at h
      exact absurd h.symm hcalls
    | some field =>
      obtain ⟨num, typ, n⟩ := field
      cases hvalue : wire.fieldValue num typ ((x :: b).drop n) with
      | none =>
        rw [walkEventFrom_cut fuel s htag hvalue] at h
        split_ifs at h
        exact absurd (Option.some_inj.mp h).symm hcalls
      | some m =>
        obtain ⟨s', hnext, hhash⟩ := walkEventFrom_whole fuel s htag hvalue
        rcases ih (hnext ▸ h) with hset | ⟨fields, rest, hfields, hmem⟩
        · rcases hhash with hsame | hthird
          · exact Or.inl (hsame ▸ hset)
          · exact Or.inr ⟨_, _, .cons htag hvalue (.nil _), hthird ▸ List.mem_cons_self⟩
        · exact Or.inr ⟨_, rest, .cons htag hvalue hfields, List.mem_cons_of_mem _ hmem⟩

end Event

lemma walkBatchFrom_eq_none_iff {calls : List (Bytes 32 × UmaEv)} (hfuel : b.length ≤ fuel) :
    walkBatchFrom wire fuel calls b = none ↔ ∃ event, EventIn wire b event ∧ Cut wire event := by
  constructor
  · intro h
    induction fuel generalizing calls b with
    | zero =>
      rw [List.eq_nil_of_length_eq_zero (Nat.le_zero.mp hfuel)] at h
      cases h
    | succ fuel ih =>
      cases b with
      | nil => cases h
      | cons x b =>
        simp only [walkBatchFrom] at h
        split at h
        · cases h
        next num typ n htag =>
        have hrest : ∀ m calls, wire.fieldValue num typ ((x :: b).drop n) = some m →
            walkBatchFrom wire fuel calls (((x :: b).drop n).drop m) = none →
            ∃ event, EventIn wire (x :: b) event ∧ Cut wire event := by
          intro m calls hvalue hnone
          have hlt := length_rest_lt htag m
          obtain ⟨event, ⟨fields, rest, n', m', hfields, hread⟩, hevent⟩ := ih (by omega) hnone
          exact ⟨event, ⟨_, rest, n', m', .cons htag hvalue hfields, hread⟩, hevent⟩
        split_ifs at h with hevent
        · obtain ⟨rfl, rfl⟩ := hevent
          split at h
          · cases h
          next event m hread =>
          cases hwalk : walkEvent wire event with
          | none =>
            exact ⟨event, ⟨[], _, n, m, .nil _, htag, hread⟩,
              (walkEventFrom_eq_none_iff le_rfl).mp hwalk⟩
          | some more =>
            rw [hwalk] at h
            exact hrest m _ (by rw [wire.fieldValue_bytes, hread]; rfl) h
        · split at h
          · cases h
          next m hvalue => exact hrest m _ hvalue h
  · -- along the whole fields in front of the event, of which another one may panic first
    rintro ⟨event, ⟨fields, rest, n, m, hfields, htag, hread⟩, hcut⟩
    have hpanics : walkEvent wire event = none := (walkEventFrom_eq_none_iff le_rfl).mpr hcut
    induction hfields generalizing fuel calls with
    | nil b =>
      obtain ⟨x, b, rfl⟩ := exists_cons_of_tag htag
      cases fuel with
      | zero => cases hfuel
      | succ fuel => simp [walkBatchFrom, htag, hread, hpanics]
    | @cons b rest num typ n₁ m₁ fields htag₁ hvalue hrest ih =>
      have hlt := length_rest_lt htag₁ m₁
      obtain ⟨x, b, rfl⟩ := exists_cons_of_tag htag₁
      cases fuel with
      | zero => cases hfuel
      | succ fuel =>
        have hnext : ∀ calls,
            walkBatchFrom wire fuel calls (((x :: b).drop n₁).drop m₁) = none :=
          fun calls => @ih fuel calls (by omega) htag hread
        simp only [walkBatchFrom, htag₁]
        split_ifs with hevent
        · obtain ⟨rfl, rfl⟩ := hevent
          rw [wire.fieldValue_bytes] at hvalue
          obtain ⟨⟨event₁, _⟩, hread₁, rfl⟩ := Option.map_eq_some_iff.mp hvalue
          simp only [hread₁]
          cases walkEvent wire event₁ with
          | none => rfl
          | some more => exact hnext _
        · rw [hvalue]
          exact hnext _

/-- **The walker panics on a batch** if and only if one of its events is cut in a number or the
hash, and the callback is called only for events that carry field 3. -/
theorem batch_walker_never_panics (wire : Protowire) (b : List UInt8) :
    ((walkBatch wire b).isSome = true ↔ ∀ event, EventIn wire b event → ¬Cut wire event) ∧
      ∀ event calls, walkEvent wire event = some calls → calls ≠ [] →
        Carries wire event (3, 2) := by
  constructor
  · rw [Option.isSome_iff_ne_none, Ne, walkBatch, walkBatchFrom_eq_none_iff le_rfl]
    simp
  · intro event calls hwalk hcalls
    exact (carries_of_walkEventFrom hwalk hcalls).resolve_left (not_not.mpr rfl)

def testTag (b : List UInt8) : Option (ℕ × ℕ × ℕ) :=
  (Edge.varint b).toOption.map fun (key, rest) => (key >>> 3, key &&& 7, b.length - rest.length)

def testVarint (b : List UInt8) : Option (ℕ × ℕ) :=
  (Edge.varint b).toOption.map fun (v, rest) => (v, b.length - rest.length)

def testBytes (b : List UInt8) : Option (List UInt8 × ℕ) :=
  (Edge.lengthDelimited b).toOption.map fun (v, rest) => (v, b.length - rest.length)

def testFieldValue (_ typ : ℕ) (b : List UInt8) : Option ℕ :=
  (Edge.skip typ b).toOption.map fun rest => b.length - rest.length

lemma testTag_length (b : List UInt8) (num typ n : ℕ) (h : testTag b = some (num, typ, n)) :
    0 < n ∧ n ≤ b.length := by
  unfold testTag at h
  cases hread : Edge.varint b with
  | error e =>
    rw [hread] at h
    cases h
  | ok read =>
    rw [hread] at h
    cases h
    obtain ⟨bytes, ⟨-, m, hbytes, -⟩, rfl⟩ := Edge.varint_sound hread
    have hpos := List.length_pos_of_ne_nil hbytes.ne_nil
    rw [List.length_append]
    omega

lemma testFieldValue_length (num typ : ℕ) (b : List UInt8) (m : ℕ)
    (h : testFieldValue num typ b = some m) : m ≤ b.length := by
  obtain ⟨rest, -, rfl⟩ := Option.map_eq_some_iff.mp h
  exact Nat.sub_le _ _

lemma testFieldValue_varint (num : ℕ) (b : List UInt8) :
    testFieldValue num 0 b = (testVarint b).map Prod.snd := by
  unfold testFieldValue testVarint Edge.skip
  cases Edge.varint b <;> rfl

lemma testFieldValue_bytes (num : ℕ) (b : List UInt8) :
    testFieldValue num 2 b = (testBytes b).map Prod.snd := by
  unfold testFieldValue testBytes Edge.skip
  cases Edge.lengthDelimited b <;> rfl

def testWire : Protowire where
  tag := testTag
  varint := testVarint
  bytes := testBytes
  fieldValue := testFieldValue
  tag_length := testTag_length
  fieldValue_length := testFieldValue_length
  fieldValue_varint := testFieldValue_varint
  fieldValue_bytes := testFieldValue_bytes

/-- A batch with one event, which has a hash. -/
theorem batch_walker_never_panics_of_hash :
    (walkBatch testWire [0x22, 0x03, 0x1a, 0x01, 0x07]).isSome = true := by
  have hnil : ∀ fields rest, Fields testWire [] fields rest → rest = [] := by
    rintro _ _ (_ | ⟨htag, -, -⟩)
    · rfl
    · cases htag
  refine (batch_walker_never_panics testWire _).1.mpr ?_
  rintro event ⟨_, _, n, m, _ | ⟨htag, hvalue, hrest⟩, hevent, hbytes⟩
  · cases hevent
    cases hbytes
    rintro ⟨_, _, num, typ, n, _ | ⟨htag, hvalue, hrest⟩, hnext, -, hnone⟩
    · cases hnext
      cases hnone
    · cases htag
      cases hvalue
      rw [hnil _ _ hrest] at hnext
      cases hnext
  · cases htag
    cases hvalue
    rw [hnil _ _ hrest] at hevent
    cases hevent

/-- **The event of the batch ends after a tag**: `ConsumeVarint` returns a negative length, and the
slice from it panics. -/
theorem cut_event_panics : ¬(walkBatch testWire [0x22, 0x01, 0x10]).isSome = true := by decide

end RustUma.Probe
