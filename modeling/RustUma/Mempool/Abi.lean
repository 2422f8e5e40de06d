import RustUma.Found.Abi
import RustUma.Mempool.Calldata
import RustUma.Uma.Layout

/-!
# Calldata and the contract ABI (`src/mempool/calldata.rs`)

What `decode_input` reads against what the ABI says stands there, with offsets and lengths as
natural numbers. The decoder adds them as `usize`, which wraps around; in all places but one the
wrapped end of a range lies before its start and nothing is read.
-/

namespace RustUma.Mempool

open RustUma.Found RustUma.Model RustUma.Uma

/-! ## The parts of a call -/

def actorAt (args : List UInt8) (o : ℕ) : Option (Option (Bytes 20)) :=
  if o = 1 then (argWord args 0).map fun w => some (address w) else some none

def priceAt (args : List UInt8) (kind : CallKind) (o : ℕ) : Option (Bytes 32) :=
  if kind = .propose then argWord args (o + 4) else some (Bytes.fill 32 0)

lemma decodeOne_eq_bind (call : List UInt8) :
    decodeOne call = (slice call 0 4).bind fun sel => (selector sel).bind fun found =>
      (actorAt (call.drop 4) found.2).bind fun actor =>
        (argWord (call.drop 4) found.2).bind fun requester =>
          (argWord (call.drop 4) (found.2 + 1)).bind fun identifier =>
            (argWord (call.drop 4) (found.2 + 2)).bind fun timestamp =>
              (dynamicBytes (call.drop 4) (found.2 + 3)).bind fun ancillary =>
                (priceAt (call.drop 4) found.1 found.2).bind fun price =>
                  some ⟨found.1, address requester, identifier, timestamp, ancillary, price,
                    actor⟩ := by
  unfold actorAt priceAt
  refine Option.bind_congr fun sel _ => Option.bind_congr fun found _ => ?_
  dsimp only
  split_ifs <;> rfl

/-! ## With everything that could abort -/

namespace Checked

def got {α : Type} (x : Option α) : Aborting Unit α := returns (x.elim (.error ()) .ok)

def attempt {α : Type} (x : Aborting Unit α) : Aborting Unit (Option α) :=
  ExceptT.mk (x.run.map fun result => .ok result.toOption)

def word (b : List UInt8) (i : ℕ) : Aborting Unit (Bytes 32) := do
  orAbort (fixed 32 (← got (slice b (i * 32) ((i + 1) * 32))))

def usizeAt (b : List UInt8) (offset : ℕ) : Aborting Unit ℕ := do
  let w ← got ((slice b offset (usizeAdd offset 32)).bind (fixed 32))
  if (← orAbort (slice w.1 0 24)).any (· ≠ 0) then throw ()
  let low ← got (fixed 8 (← orAbort (slice w.1 24 w.1.length)))
  return fromBeBytes low.1

def dynamicBytes (args : List UInt8) (headIndex : ℕ) : Aborting Unit ByteVec := do
  let off ← usizeAt args (headIndex * 32)
  let len ← usizeAt args off
  let start := usizeAdd off 32
  orAbort (byteVec? (← got (slice args start (usizeAdd start len))))

def address (w : Bytes 32) : Aborting Unit (Bytes 20) := do
  orAbort (fixed 20 (← orAbort (slice w.1 12 w.1.length)))

def actorAt (args : List UInt8) (o : ℕ) : Aborting Unit (Option (Bytes 20)) :=
  if o = 1 then do return some (← address (← word args 0)) else return none

def priceAt (args : List UInt8) (kind : CallKind) (o : ℕ) : Aborting Unit (Bytes 32) :=
  if kind = .propose then word args (o + 4) else return Bytes.fill 32 0

def decodeOne (call : List UInt8) : Aborting Unit OracleCall := do
  let sel ← got (slice call 0 4)
  let args ← got (slice call 4 call.length)
  let (kind, o) ← got (selector sel)
  let actor ← actorAt args o
  let requester ← address (← word args o)
  let identifier ← word args (o + 1)
  let timestamp ← word args (o + 2)
  let ancillary ← dynamicBytes args (o + 3)
  let price ← priceAt args kind o
  return ⟨kind, requester, identifier, timestamp, ancillary, price, actor⟩

def decodeItems (args : List UInt8) (base i : ℕ) : ℕ → Aborting Unit (List OracleCall)
  | 0 => return []
  | left + 1 => do
      match ← attempt (usizeAt args (usizeAdd base (32 * i))) with
      | none => return []
      | some eo =>
        match ← attempt (usizeAt args (usizeAdd base eo)) with
        | none => return []
        | some len =>
          let start := usizeAdd (usizeAdd base eo) 32
          let call ← attempt (got (slice args start (usizeAdd start len)) >>= decodeOne)
          return call.toList ++ (← decodeItems args base (i + 1) left)

def decodeInput (input : List UInt8) : Aborting Unit (List OracleCall) := do
  if slice input 0 4 = some selMulticall then
    let args ← orAbort (slice input 4 input.length)
    match ← attempt (usizeAt args 0) with
    | none => return []
    | some off =>
      match ← attempt (usizeAt args off) with
      | none => return []
      | some n => decodeItems args (usizeAdd off 32) 0 (min n 256)
  else return (← attempt (decodeOne input)).toList

/-! ### It never aborts -/

@[simp] lemma attempt_got {α : Type} (x : Option α) : attempt (got x) = returns (.ok x) := by
  cases x <;> rfl

@[simp] lemma got_some {α : Type} (a : α) : got (some a) = returns (.ok a) := rfl

lemma got_bind {α β : Type} {x : Option α} {f : α → Aborting Unit β} {g : α → Option β}
    (h : ∀ a, x = some a → f a = got (g a)) : (got x >>= f) = got (x.bind g) := by
  cases x with
  | none => rfl
  | some a => exact h a rfl

lemma word_eq (b : List UInt8) (i : ℕ) : word b i = got (argWord b i) := by
  refine got_bind fun bytes hslice => ?_
  have hlength : bytes.length = 32 := by
    rw [length_slice hslice]
    omega
  have hfixed : fixed 32 bytes = some ⟨bytes, hlength⟩ := dif_pos hlength
  rw [hfixed]
  rfl

lemma slice_rest {bytes : List UInt8} {start : ℕ} (h : start ≤ bytes.length) :
    slice bytes start bytes.length = some (bytes.drop start) :=
  slice_eq_some_iff.mpr ⟨h, le_rfl, by rw [List.take_of_length_le (by rw [List.length_drop])]⟩

lemma address_eq (w : Bytes 32) : address w = returns (.ok (Mempool.address w)) := by
  unfold address
  rw [slice_rest (by rw [w.2]; decide), orAbort_some, returns_ok_bind]
  have hfixed : fixed 20 (w.1.drop 12) = some (Mempool.address w) := dif_pos _
  rw [hfixed]
  rfl

lemma length_slice_word {b bytes : List UInt8} {offset : ℕ}
    (h : slice b offset (usizeAdd offset 32) = some bytes) : bytes.length = 32 := by
  have hle := (slice_eq_some_iff.mp h).1
  rw [length_slice h]
  unfold usizeAdd at hle ⊢
  omega

lemma usizeAt_eq (b : List UInt8) (offset : ℕ) :
    usizeAt b offset = got (Mempool.usizeAt b offset) := by
  unfold usizeAt Mempool.usizeAt
  cases hslice : slice b offset (usizeAdd offset 32) with
  | none => rfl
  | some bytes =>
    have hlength := length_slice_word hslice
    have hfixed : fixed 32 bytes = some ⟨bytes, hlength⟩ := dif_pos hlength
    have hhigh : slice bytes 0 24 = some (bytes.take 24) :=
      slice_eq_some_iff.mpr ⟨by decide, by omega, rfl⟩
    have hrest : slice bytes 24 bytes.length = some (bytes.drop 24) := slice_rest (by omega)
    have hlow : (bytes.drop 24).length = 8 := by
      simp_all
    have hfixed' : fixed 8 (bytes.drop 24) = some ⟨bytes.drop 24, hlow⟩ := dif_pos hlow
    rw [Option.bind_some, Option.bind_some, hfixed, got_some, returns_ok_bind, hhigh,
      orAbort_some, returns_ok_bind, hrest]
    unfold lowU64
    by_cases hany : (bytes.take 24).any (· ≠ 0) = true
    · rw [if_pos hany, if_pos hany]
      rfl
    · rw [if_neg hany, if_neg hany, orAbort_some]
      simp_all

lemma dynamicBytes_eq {args : List UInt8} (hargs : args.length < 2 ^ 63) (headIndex : ℕ) :
    dynamicBytes args headIndex = got (Mempool.dynamicBytes args headIndex) := by
  unfold dynamicBytes
  rw [usizeAt_eq]
  refine got_bind fun off _ => ?_
  rw [usizeAt_eq]
  refine got_bind fun len _ => ?_
  refine got_bind fun bytes hbytes => ?_
  have hlength : bytes.length < 2 ^ 63 := by
    rw [length_slice hbytes]
    have hstop := (slice_eq_some_iff.mp hbytes).2.1
    omega
  have hvec : byteVec? bytes = some ⟨bytes, hlength⟩ := dif_pos hlength
  rw [hvec]
  rfl

lemma actorAt_eq (args : List UInt8) (o : ℕ) : actorAt args o = got (Mempool.actorAt args o) := by
  unfold actorAt Mempool.actorAt
  split_ifs
  · rw [word_eq, Option.map_eq_bind]
    refine got_bind fun w _ => ?_
    rw [address_eq]
    rfl
  · rfl

lemma priceAt_eq (args : List UInt8) (kind : CallKind) (o : ℕ) :
    priceAt args kind o = got (Mempool.priceAt args kind o) := by
  unfold priceAt Mempool.priceAt
  split_ifs
  · exact word_eq args (o + 4)
  · rfl

lemma decodeOne_eq {call : List UInt8} (hcall : call.length < 2 ^ 63) :
    decodeOne call = got (Mempool.decodeOne call) := by
  rw [decodeOne_eq_bind]
  refine got_bind fun sel hsel => ?_
  have hargs : slice call 4 call.length = some (call.drop 4) :=
    slice_rest (slice_eq_some_iff.mp hsel).2.1
  have hsize : (call.drop 4).length < 2 ^ 63 := by
    grind
  rw [hargs, got_some]
  refine got_bind fun found _ => ?_
  dsimp only
  rw [actorAt_eq]
  refine got_bind fun actor _ => ?_
  rw [word_eq]
  refine got_bind fun requester _ => ?_
  rw [address_eq, word_eq]
  refine got_bind fun identifier _ => ?_
  rw [word_eq]
  refine got_bind fun timestamp _ => ?_
  rw [dynamicBytes_eq hsize]
  refine got_bind fun ancillary _ => ?_
  rw [priceAt_eq]
  exact got_bind fun price _ => rfl

lemma decodeItems_eq {args : List UInt8} (hargs : args.length < 2 ^ 63) (base i left : ℕ) :
    decodeItems args base i left = returns (.ok (Mempool.decodeItems args base i left)) := by
  induction left generalizing i with
  | zero => rfl
  | succ left ih =>
    unfold decodeItems Mempool.decodeItems
    rw [usizeAt_eq, attempt_got, returns_ok_bind]
    cases Mempool.usizeAt args (usizeAdd base (32 * i)) with
    | none => rfl
    | some eo =>
      dsimp only
      rw [usizeAt_eq, attempt_got, returns_ok_bind]
      cases Mempool.usizeAt args (usizeAdd base eo) with
      | none => rfl
      | some len =>
        dsimp only
        have hitem : ∀ start stop, (got (slice args start stop) >>= decodeOne) =
            got ((slice args start stop).bind Mempool.decodeOne) := by
          intro start stop
          refine got_bind fun bytes hbytes => decodeOne_eq ?_
          rw [length_slice hbytes]
          have hstop := (slice_eq_some_iff.mp hbytes).2.1
          omega
        simp_all

lemma decodeInput_eq {input : List UInt8} (hinput : input.length < 2 ^ 63) :
    decodeInput input = returns (.ok (Mempool.decodeInput input)) := by
  unfold decodeInput Mempool.decodeInput
  split_ifs with hsel
  · have hlength : 4 ≤ input.length := (slice_eq_some_iff.mp hsel).2.1
    have hargs : (input.drop 4).length < 2 ^ 63 := by
      grind
    rw [slice_rest hlength, orAbort_some, returns_ok_bind, usizeAt_eq, attempt_got,
      returns_ok_bind]
    dsimp only
    cases Mempool.usizeAt (input.drop 4) 0 with
    | none => rfl
    | some off =>
      dsimp only
      rw [usizeAt_eq]
      cases Mempool.usizeAt (input.drop 4) off with
      | none => rfl
      | some n => exact decodeItems_eq hargs _ _ _
  · rw [decodeOne_eq hinput, attempt_got]
    rfl

end Checked

/-! ## What the ABI says -/

def selectorOf : CallKind → Bool → List UInt8
  | .propose, false => selPropose
  | .propose, true => selProposeFor
  | .dispute, false => selDispute
  | .dispute, true => selDisputeFor

def argWords : CallKind → ℕ
  | .propose => 5
  | .dispute => 4

structure AbiCall (bytes : List UInt8) (call : OracleCall) : Prop where
  selector : bytes.take 4 = selectorOf call.kind call.actor.isSome
  words : (call.actor.isSome.toNat + argWords call.kind) * 32 ≤ (bytes.drop 4).length
  actor : ∀ a ∈ call.actor, a.1 = (wordAt (bytes.drop 4) 0).drop 12
  requester : call.requester.1 =
    (wordAt (bytes.drop 4) (call.actor.isSome.toNat * 32)).drop 12
  identifier : call.identifier.1 = wordAt (bytes.drop 4) ((call.actor.isSome.toNat + 1) * 32)
  timestamp : call.timestamp.1 = wordAt (bytes.drop 4) ((call.actor.isSome.toNat + 2) * 32)
  ancillary : BytesAt (bytes.drop 4)
    (natAt (bytes.drop 4) ((call.actor.isSome.toNat + 3) * 32)) call.ancillary.1
  proposed : call.kind = .propose →
    call.price.1 = wordAt (bytes.drop 4) ((call.actor.isSome.toNat + 4) * 32)
  disputed : call.kind = .dispute → call.price = Bytes.fill 32 0

def Reading (input : List UInt8) (call : OracleCall) : Prop :=
  AbiCall input call ∨
    input.take 4 = selMulticall ∧ 32 ≤ (input.drop 4).length ∧
      ∃ i bytes, ItemAt (input.drop 4) (natAt (input.drop 4) 0) i bytes ∧ AbiCall bytes call

def readItems (args : List UInt8) (base i : ℕ) : ℕ → List (ℕ × Option (List UInt8))
  | 0 => []
  | left + 1 =>
    match usizeAt args (usizeAdd base (32 * i)) with
    | none => []
    | some eo =>
      match usizeAt args (usizeAdd base eo) with
      | none => []
      | some len =>
        let start := usizeAdd (usizeAdd base eo) 32
        (base + eo, slice args start (usizeAdd start len)) :: readItems args base (i + 1) left

def itemsRead (input : List UInt8) : List (ℕ × Option (List UInt8)) :=
  if slice input 0 4 = some selMulticall then
    match usizeAt (input.drop 4) 0 with
    | none => []
    | some off =>
      match usizeAt (input.drop 4) off with
      | none => []
      | some n => readItems (input.drop 4) (usizeAdd off 32) 0 (min n 256)
  else []

def WrapsHarmless (input : List UInt8) : Prop :=
  ∀ item ∈ itemsRead input, 2 ^ 64 ≤ item.1 → ∀ bytes ∈ item.2, ∀ call, AbiCall bytes call →
    Reading input call

/-! ## Reading words -/

section Words

variable {args : List UInt8} {position n i : ℕ}

lemma usizeAt_eq_some_iff (hargs : args.length < 2 ^ 64) (hposition : position < 2 ^ 64) :
    usizeAt args position = some n ↔
      position + 32 ≤ args.length ∧ natAt args position = n ∧ n < 2 ^ 64 := by
  unfold usizeAt
  rw [Option.bind_eq_some_iff]
  constructor
  · rintro ⟨bytes, hslice, hlow⟩
    obtain ⟨-, hinside, rfl⟩ := (slice_usizeAdd_eq_some_iff hposition (by decide)).mp hslice
    exact ⟨hinside, (lowU64_eq_some_iff (length_take_drop hinside)).mp hlow⟩
  · rintro ⟨hinside, hn⟩
    refine ⟨wordAt args position, ?_, (lowU64_eq_some_iff (length_take_drop hinside)).mpr hn⟩
    exact (slice_usizeAdd_eq_some_iff hposition (by decide)).mpr ⟨by omega, hinside, rfl⟩

lemma argWord_eq_some_iff {w : Bytes 32} :
    argWord args i = some w ↔ (i + 1) * 32 ≤ args.length ∧ w.1 = wordAt args (i * 32) := by
  have hwidth : (i + 1) * 32 - i * 32 = 32 := by omega
  unfold argWord
  rw [Option.bind_eq_some_iff]
  constructor
  · rintro ⟨bytes, hslice, hfixed⟩
    obtain ⟨-, hinside, rfl⟩ := slice_eq_some_iff.mp hslice
    rw [hwidth] at hfixed
    exact ⟨hinside, fixed_eq_some_iff.mp hfixed⟩
  · rintro ⟨hinside, hw⟩
    refine ⟨w.1, slice_eq_some_iff.mpr ⟨by omega, hinside, ?_⟩, fixed_val w⟩
    rw [hwidth]
    exact hw

lemma bytesAt_iff (hargs : args.length < 2 ^ 63) (hposition : position < 2 ^ 64)
    {value : List UInt8} :
    BytesAt args position value ↔
      ∃ n ∈ usizeAt args position, slice args (usizeAdd position 32)
        (usizeAdd (usizeAdd position 32) n) = some value := by
  constructor
  · rintro ⟨hinside, rfl⟩
    refine ⟨natAt args position, ?_, ?_⟩
    · exact (usizeAt_eq_some_iff (by omega) hposition).mpr ⟨by omega, rfl, by omega⟩
    · rw [usizeAdd_of_lt (by omega)]
      exact (slice_usizeAdd_eq_some_iff (by omega) (by omega)).mpr ⟨by omega, hinside, rfl⟩
  · rintro ⟨n, hn, hslice⟩
    obtain ⟨hword, rfl, hlt⟩ := (usizeAt_eq_some_iff (by omega) hposition).mp hn
    rw [usizeAdd_of_lt (by omega)] at hslice
    obtain ⟨-, hinside, rfl⟩ := (slice_usizeAdd_eq_some_iff (by omega) hlt).mp hslice
    exact ⟨hinside, rfl⟩

lemma dynamicBytes_eq_some_iff (hargs : args.length < 2 ^ 63) (hi : i * 32 < 2 ^ 64)
    {value : ByteVec} :
    dynamicBytes args i = some value ↔
      (i + 1) * 32 ≤ args.length ∧ BytesAt args (natAt args (i * 32)) value.1 := by
  have hvec : ∀ {bytes}, byteVec? bytes = some value ↔ bytes = value.1 := by
    intro bytes
    unfold byteVec?
    grind
  unfold dynamicBytes
  simp only [Option.bind_eq_bind, Option.bind_eq_some_iff, hvec]
  constructor
  · rintro ⟨off, hoff, len, hlen, bytes, hslice, rfl⟩
    obtain ⟨hinside, rfl, hlt⟩ := (usizeAt_eq_some_iff (by omega) hi).mp hoff
    exact ⟨by omega, (bytesAt_iff hargs hlt).mpr ⟨len, hlen, hslice⟩⟩
  · rintro ⟨hinside, hbytes⟩
    have hlt : natAt args (i * 32) < 2 ^ 64 := by
      have := hbytes.inside
      omega
    obtain ⟨len, hlen, hslice⟩ := (bytesAt_iff hargs hlt).mp hbytes
    exact ⟨_, (usizeAt_eq_some_iff (by omega) hi).mpr ⟨by omega, rfl, hlt⟩, len, hlen, _, hslice,
      rfl⟩

end Words

/-! ## One call -/

section Call

variable {bytes args : List UInt8} {call : OracleCall}

lemma selector_eq_some_iff {sel : List UInt8} {kind : CallKind} {o : ℕ} :
    selector sel = some (kind, o) ↔ ∃ b : Bool, o = b.toNat ∧ sel = selectorOf kind b := by
  constructor
  · intro h
    unfold selector at h
    split_ifs at h with hpropose hproposeFor hdispute hdisputeFor
    · cases h
      exact ⟨false, rfl, hpropose⟩
    · cases h
      exact ⟨true, rfl, hproposeFor⟩
    · cases h
      exact ⟨false, rfl, hdispute⟩
    · cases h
      exact ⟨true, rfl, hdisputeFor⟩
  · rintro ⟨b, rfl, rfl⟩
    cases kind <;> cases b <;> decide

lemma address_argWord_iff {i : ℕ} {a : Bytes 20} :
    (∃ w, argWord args i = some w ∧ address w = a) ↔
      (i + 1) * 32 ≤ args.length ∧ a.1 = (wordAt args (i * 32)).drop 12 := by
  constructor
  · rintro ⟨w, hw, rfl⟩
    obtain ⟨hinside, hw⟩ := argWord_eq_some_iff.mp hw
    exact ⟨hinside, congrArg (List.drop 12) hw⟩
  · rintro ⟨hinside, ha⟩
    have hlength : (wordAt args (i * 32)).length = 32 := length_take_drop (by omega)
    exact ⟨⟨wordAt args (i * 32), hlength⟩, argWord_eq_some_iff.mpr ⟨hinside, rfl⟩,
      Subtype.ext ha.symm⟩

lemma actorAt_eq_some_iff {b : Bool} {actor : Option (Bytes 20)} :
    actorAt args b.toNat = some actor ↔
      b = actor.isSome ∧ ∀ a ∈ actor, 32 ≤ args.length ∧ a.1 = (wordAt args 0).drop 12 := by
  unfold actorAt
  cases b with
  | false =>
    cases actor with
    | none => simp
    | some a => simp
  | true =>
    rw [if_pos (by decide), Option.map_eq_some_iff]
    cases actor with
    | none => simp
    | some a =>
      simp only [Option.some_inj, Option.isSome_some, true_and, Option.mem_def, forall_eq']
      exact address_argWord_iff

lemma priceAt_eq_some_iff {kind : CallKind} {o : ℕ} {price : Bytes 32} :
    priceAt args kind o = some price ↔
      (kind = .propose → (o + 5) * 32 ≤ args.length ∧ price.1 = wordAt args ((o + 4) * 32)) ∧
        (kind = .dispute → price = Bytes.fill 32 0) := by
  unfold priceAt
  cases kind with
  | propose =>
    rw [if_pos rfl, argWord_eq_some_iff]
    simp
  | dispute =>
    simp [eq_comm]

lemma decodeOne_eq_some_iff (hbytes : bytes.length < 2 ^ 63) :
    decodeOne bytes = some call ↔ AbiCall bytes call := by
  have hargs : (bytes.drop 4).length < 2 ^ 63 := by
    grind
  have hb : ∀ b : Bool, b.toNat ≤ 1 := Bool.toNat_le
  rw [decodeOne_eq_bind]
  simp only [Option.bind_eq_some_iff]
  constructor
  · rintro ⟨sel, hsel, ⟨kind, o⟩, hfound, actor, hactor, requester, hrequester, identifier,
      hidentifier, timestamp, htimestamp, ancillary, hancillary, price, hprice, heq⟩
    cases heq
    obtain ⟨b, rfl, rfl⟩ := selector_eq_some_iff.mp hfound
    obtain ⟨rfl, hactors⟩ := actorAt_eq_some_iff.mp hactor
    obtain ⟨-, -, hsel⟩ := slice_eq_some_iff.mp hsel
    have hlt := hb actor.isSome
    obtain ⟨hinside, hancillary⟩ := (dynamicBytes_eq_some_iff hargs (by omega)).mp hancillary
    obtain ⟨hproposed, hdisputed⟩ := priceAt_eq_some_iff.mp hprice
    refine ⟨hsel.symm, ?_, fun a ha => (hactors a ha).2,
      (address_argWord_iff.mp ⟨_, hrequester, rfl⟩).2, (argWord_eq_some_iff.mp hidentifier).2,
      (argWord_eq_some_iff.mp htimestamp).2, hancillary, fun h => (hproposed h).2, hdisputed⟩
    cases kind with
    | propose => exact (hproposed rfl).1
    | dispute => exact hinside
  · intro h
    have hwords := h.words
    have hfour : 4 ≤ argWords call.kind := by cases call.kind <;> decide
    have hsel : slice bytes 0 4 = some (selectorOf call.kind call.actor.isSome) := by
      refine slice_eq_some_iff.mpr ⟨by decide, ?_, h.selector.symm⟩
      grind
    have hword : ∀ i < 4, (call.actor.isSome.toNat + i + 1) * 32 ≤ (bytes.drop 4).length :=
      fun i hi => by nlinarith
    obtain ⟨requester, hrequester, hrequester'⟩ := address_argWord_iff.mpr
      ⟨hword 0 (by decide), h.requester⟩
    refine ⟨_, hsel, (call.kind, call.actor.isSome.toNat),
      selector_eq_some_iff.mpr ⟨_, rfl, rfl⟩, call.actor, actorAt_eq_some_iff.mpr ⟨rfl, ?_⟩,
      requester, hrequester, call.identifier,
      argWord_eq_some_iff.mpr ⟨hword 1 (by decide), h.identifier⟩, call.timestamp,
      argWord_eq_some_iff.mpr ⟨hword 2 (by decide), h.timestamp⟩, call.ancillary,
      (dynamicBytes_eq_some_iff hargs (by omega)).mpr ⟨hword 3 (by decide), h.ancillary⟩,
      call.price, priceAt_eq_some_iff.mpr ⟨fun hkind => ⟨?_, h.proposed hkind⟩, h.disputed⟩, ?_⟩
    · intro a ha
      exact ⟨by omega, h.actor a ha⟩
    · rw [show call.kind = .propose from hkind] at hwords
      exact hwords
    · rw [hrequester']

end Call

/-! ## The items of a `multicall` -/

section Items

variable {args : List UInt8} {base i left : ℕ} {call : OracleCall}

lemma decodeItems_eq_flatMap (args : List UInt8) (base i left : ℕ) :
    decodeItems args base i left =
      (readItems args base i left).flatMap fun item => (item.2.bind decodeOne).toList := by
  induction left generalizing i with
  | zero => rfl
  | succ left ih =>
    unfold decodeItems readItems
    cases usizeAt args (usizeAdd base (32 * i)) with
    | none => rfl
    | some eo =>
      dsimp only
      cases usizeAt args (usizeAdd base eo) with
      | none => rfl
      | some len => simp [ih]

lemma bytesAt_of_mem_readItems {item : ℕ × Option (List UInt8)} {bytes : List UInt8}
    (hargs : args.length < 2 ^ 63) (hbase : base + 32 * (i + left) < 2 ^ 64)
    (h : item ∈ readItems args base i left) (hfit : item.1 < 2 ^ 64) (hbytes : item.2 = some bytes) :
    ∃ k < left, base + 32 * (i + k) + 32 ≤ args.length ∧
      BytesAt args (base + natAt args (base + 32 * (i + k))) bytes := by
  induction left generalizing i with
  | zero => cases h
  | succ left ih =>
    unfold readItems at h
    rw [usizeAdd_of_lt (by omega)] at h
    cases hoffset : usizeAt args (base + 32 * i) with
    | none => simp [hoffset] at h
    | some eo =>
      obtain ⟨hinside, hnat, -⟩ := (usizeAt_eq_some_iff (by omega) (by omega)).mp hoffset
      rw [hoffset] at h
      dsimp only at h
      cases hlen : usizeAt args (usizeAdd base eo) with
      | none => simp [hlen] at h
      | some len =>
        rw [hlen] at h
        rcases List.mem_cons.mp h with rfl | hrest
        · rw [usizeAdd_of_lt hfit] at hlen hbytes
          refine ⟨0, by omega, hinside, ?_⟩
          rw [Nat.add_zero, hnat]
          exact (bytesAt_iff hargs hfit).mpr ⟨len, hlen, hbytes⟩
        · have hshift : ∀ k, i + 1 + k = i + (k + 1) := fun k => by omega
          obtain ⟨k, hk, hitem⟩ := ih (by omega) hrest
          rw [hshift] at hitem
          exact ⟨k + 1, by omega, hitem⟩

lemma length_le_of_mem_readItems {item : ℕ × Option (List UInt8)} {bytes : List UInt8}
    (h : item ∈ readItems args base i left) (hbytes : item.2 = some bytes) :
    bytes.length ≤ args.length := by
  induction left generalizing i with
  | zero => cases h
  | succ left ih =>
    unfold readItems at h
    dsimp only at h
    split at h
    · cases h
    · split at h
      · cases h
      · rcases List.mem_cons.mp h with rfl | hrest
        · have hstop := (slice_eq_some_iff.mp hbytes).2.1
          rw [length_slice hbytes]
          omega
        · exact ih hrest

lemma decodeItems_of_items (hargs : args.length < 2 ^ 63) {items : List (List UInt8)}
    (h : ∀ (k : ℕ) (hk : k < items.length), base + 32 * (i + k) + 32 ≤ args.length ∧
      BytesAt args (base + natAt args (base + 32 * (i + k))) items[k]) :
    decodeItems args base i items.length = items.flatMap fun bytes => (decodeOne bytes).toList := by
  induction items generalizing i with
  | nil => rfl
  | cons item items ih =>
    obtain ⟨hinside, hitem⟩ := h 0 (by simp)
    simp only [Nat.add_zero] at hinside hitem
    have hend := hitem.inside
    have hlt : natAt args (base + 32 * i) < 2 ^ 64 := by omega
    obtain ⟨len, hlen, hslice⟩ := (bytesAt_iff hargs (by omega)).mp hitem
    have hrest := ih fun k hk => by
      rw [show i + 1 + k = i + (k + 1) by omega]
      exact h (k + 1) (by simpa using hk)
    rw [List.flatMap_cons, ← hrest]
    conv_lhs => unfold decodeItems
    rw [usizeAdd_of_lt (by omega),
      (usizeAt_eq_some_iff (by omega) (by omega)).mpr ⟨hinside, rfl, hlt⟩]
    dsimp only
    rw [usizeAdd_of_lt (by omega), Option.mem_def.mp hlen]
    simp_all

end Items

/-! ## The encodings -/

def addressWord (a : Bytes 20) : List UInt8 := List.replicate 12 0 ++ a.1

def WellFormed (call : OracleCall) : Prop := call.kind = .dispute → call.price = Bytes.fill 32 0

instance (call : OracleCall) : Decidable (WellFormed call) := inferInstanceAs (Decidable (_ → _))

def actorWord (call : OracleCall) : List UInt8 := call.actor.elim [] addressWord

def priceWord (call : OracleCall) : List UInt8 :=
  match call.kind with
  | .propose => call.price.1
  | .dispute => []

def encodeCall (call : OracleCall) : List UInt8 :=
  selectorOf call.kind call.actor.isSome ++ (actorWord call ++ (addressWord call.requester ++
    (call.identifier.1 ++ (call.timestamp.1 ++
      (toBeBytes 32 ((call.actor.isSome.toNat + argWords call.kind) * 32) ++ (priceWord call ++
        encodeBytes call.ancillary.1))))))

def encodeMulticall (calls : List OracleCall) : List UInt8 :=
  selMulticall ++ (toBeBytes 32 32 ++ encodeArray (calls.map encodeCall))

section Encoding

variable (call : OracleCall)

lemma length_selectorOf (kind : CallKind) (b : Bool) : (selectorOf kind b).length = 4 := by
  cases kind <;> cases b <;> rfl

lemma length_addressWord (a : Bytes 20) : (addressWord a).length = 32 := by
  rw [addressWord, List.length_append, List.length_replicate, a.2]

lemma length_actorWord : (actorWord call).length = call.actor.isSome.toNat * 32 := by
  unfold actorWord
  cases call.actor with
  | none => rfl
  | some a => exact length_addressWord a

lemma length_priceWord : (priceWord call).length = (argWords call.kind - 4) * 32 := by
  unfold priceWord
  cases call.kind with
  | propose => exact call.price.2
  | dispute => rfl

lemma drop_addressWord (a : Bytes 20) : (addressWord a).drop 12 = a.1 :=
  List.drop_left' List.length_replicate

def fixedWords : List UInt8 :=
  actorWord call ++ (addressWord call.requester ++ (call.identifier.1 ++ call.timestamp.1))

lemma length_fixedWords : (fixedWords call).length = (call.actor.isSome.toNat + 3) * 32 := by
  simp only [fixedWords, List.length_append, length_actorWord, length_addressWord,
    call.identifier.2, call.timestamp.2]
  omega

lemma drop_encodeCall : (encodeCall call).drop 4 = fixedWords call ++
    (toBeBytes 32 ((call.actor.isSome.toNat + argWords call.kind) * 32) ++ (priceWord call ++
      encodeBytes call.ancillary.1)) := by
  simp only [fixedWords, List.append_assoc]
  exact List.drop_left' (length_selectorOf _ _)

lemma wordAt_encodeCall {front word back : List UInt8} {i : ℕ}
    (hfixed : fixedWords call = front ++ (word ++ back)) (hfront : front.length = i * 32)
    (hword : word.length = 32) : wordAt ((encodeCall call).drop 4) (i * 32) = word := by
  rw [drop_encodeCall, hfixed, List.append_assoc, List.append_assoc]
  exact wordAt_append hfront hword

lemma abiCall_encodeCall (h : WellFormed call) : AbiCall (encodeCall call) call := by
  have hone : call.actor.isSome.toNat ≤ 1 := Bool.toNat_le _
  have hwords : 4 ≤ argWords call.kind ∧ argWords call.kind ≤ 5 := by
    cases call.kind <;> decide
  have hactor := length_actorWord call
  have hprice := length_priceWord call
  have haddress := length_addressWord call.requester
  have hanc := call.ancillary.2
  have hoffset : natAt ((encodeCall call).drop 4) ((call.actor.isSome.toNat + 3) * 32) =
      (call.actor.isSome.toNat + argWords call.kind) * 32 := by
    rw [drop_encodeCall]
    exact natAt_append (length_fixedWords call) (by omega)
  -- the words up to the ancillary data
  have hhead : (fixedWords call ++ (toBeBytes 32
      ((call.actor.isSome.toNat + argWords call.kind) * 32) ++ priceWord call)).length =
      (call.actor.isSome.toNat + argWords call.kind) * 32 := by
    rw [List.length_append, List.length_append, length_fixedWords, length_toBeBytes]
    omega
  refine ⟨List.take_left' (length_selectorOf _ _), ?_, fun a ha => ?_, ?_, ?_, ?_, ?_,
    fun hkind => ?_, h⟩
  · rw [drop_encodeCall]
    simp only [List.length_append, length_fixedWords, length_toBeBytes, hprice]
    omega
  · have hword : fixedWords call = [] ++ (addressWord a ++ (addressWord call.requester ++
        (call.identifier.1 ++ call.timestamp.1))) := by
      rw [fixedWords, actorWord, Option.mem_def.mp ha]
      rfl
    have hat := wordAt_encodeCall (i := 0) call hword rfl (length_addressWord a)
    rw [hat, drop_addressWord]
  · rw [wordAt_encodeCall call rfl hactor haddress, drop_addressWord]
  · refine (wordAt_encodeCall call (List.append_assoc ..).symm ?_ call.identifier.2).symm
    rw [List.length_append]
    omega
  · have hlast : fixedWords call = (actorWord call ++ (addressWord call.requester ++
        call.identifier.1)) ++ (call.timestamp.1 ++ []) := by
      simp only [fixedWords, List.append_assoc, List.append_nil]
    refine (wordAt_encodeCall call hlast ?_ call.timestamp.2).symm
    rw [List.length_append, List.length_append, call.identifier.2]
    omega
  · rw [hoffset, drop_encodeCall]
    have hcut : BytesAt ((fixedWords call ++ (toBeBytes 32
        ((call.actor.isSome.toNat + argWords call.kind) * 32) ++ priceWord call)) ++
          (encodeBytes call.ancillary.1 ++ [])) _ call.ancillary.1 :=
      bytesAt_encodeBytes hhead (hanc.trans (by decide))
    simp_all
  · have hpriceWord : priceWord call = call.price.1 := by
      unfold priceWord
      rw [hkind]
    rw [drop_encodeCall, ← List.append_assoc, hpriceWord]
    refine (wordAt_append ?_ call.price.2).symm
    rw [List.length_append, length_fixedWords, length_toBeBytes]
    omega

lemma decodeOne_encodeCall (h : WellFormed call) (hsize : (encodeCall call).length < 2 ^ 63) :
    decodeOne (encodeCall call) = some call :=
  (decodeOne_eq_some_iff hsize).mpr (abiCall_encodeCall call h)

lemma decodeInput_encodeCall (h : WellFormed call) (hsize : (encodeCall call).length < 2 ^ 63) :
    decodeInput (encodeCall call) = [call] := by
  have hother : slice (encodeCall call) 0 4 ≠ some selMulticall := by
    intro heq
    obtain ⟨-, -, hsel⟩ := slice_eq_some_iff.mp heq
    have htake : (encodeCall call).take 4 = selectorOf call.kind call.actor.isSome :=
      List.take_left' (length_selectorOf _ _)
    rw [List.drop_zero, htake] at hsel
    revert hsel
    cases call.kind <;> cases call.actor.isSome <;> decide
  unfold decodeInput
  rw [if_neg hother, decodeOne_encodeCall call h hsize]
  rfl

lemma decodeInput_encodeMulticall {calls : List OracleCall} (hcalls : calls.length ≤ 256)
    (h : ∀ call ∈ calls, WellFormed call) (hsize : (encodeMulticall calls).length < 2 ^ 63) :
    decodeInput (encodeMulticall calls) = calls := by
  have hdrop : (encodeMulticall calls).drop 4 =
      toBeBytes 32 32 ++ (encodeArray (calls.map encodeCall) ++ []) := by
    rw [List.append_nil]
    rfl
  have hargs : ((encodeMulticall calls).drop 4).length < 2 ^ 63 := by
    rw [List.length_drop]
    omega
  have hitems : (calls.map encodeCall).length ≤ 256 := by rwa [List.length_map]
  have hfirst : usizeAt ((encodeMulticall calls).drop 4) 0 = some 32 := by
    rfl
  have hnumber : usizeAt ((encodeMulticall calls).drop 4) 32 =
      some (calls.map encodeCall).length := by
    refine (usizeAt_eq_some_iff (by omega) (by decide)).mpr ⟨?_, ?_, by omega⟩
    · rw [hdrop, encodeArray]
      simp only [List.length_append, length_toBeBytes]
      omega
    · rw [hdrop]
      exact natAt_encodeArray (length_toBeBytes 32 32) (by omega)
  have hitem : ∀ (k : ℕ) (hk : k < (calls.map encodeCall).length),
      ItemAt ((encodeMulticall calls).drop 4) 32 k (calls.map encodeCall)[k] := by
    intro k hk
    rw [hdrop] at hargs ⊢
    exact itemAt_encodeArray hk (length_toBeBytes 32 32) (hargs.trans (by decide))
  have hdecoded : decodeItems ((encodeMulticall calls).drop 4) 64 0 (calls.map encodeCall).length =
      (calls.map encodeCall).flatMap fun bytes => (decodeOne bytes).toList := by
    refine decodeItems_of_items hargs fun k hk => ?_
    rw [Nat.zero_add]
    exact ⟨(hitem k hk).inside, (hitem k hk).item⟩
  have hone : ∀ call ∈ calls, (decodeOne (encodeCall call)).toList = [call] := by
    intro call hcall
    obtain ⟨k, hk, heq⟩ := List.getElem_of_mem (List.mem_map_of_mem hcall)
    have hbytes := (hitem k hk).item.eq
    have hlength : (encodeCall call).length < 2 ^ 63 := by
      rw [← heq, hbytes, List.length_take, List.length_drop]
      omega
    rw [decodeOne_encodeCall call (h call hcall) hlength]
    rfl
  unfold decodeInput
  dsimp only
  rw [hfirst]
  dsimp only
  rw [hnumber]
  dsimp only
  rw [min_eq_left hitems]
  refine hdecoded.trans ?_
  rw [List.flatMap_map, List.flatMap_congr hone]
  simp

end Encoding

lemma reading_of_mem_itemsRead {input bytes : List UInt8} {item : ℕ × Option (List UInt8)}
    {call : OracleCall} (hinput : input.length < 2 ^ 63) (h : item ∈ itemsRead input)
    (hfit : item.1 < 2 ^ 64) (hbytes : item.2 = some bytes) (hcall : AbiCall bytes call) :
    Reading input call := by
  have hargs : (input.drop 4).length < 2 ^ 63 := by
    rw [List.length_drop]
    omega
  unfold itemsRead at h
  split_ifs at h with hsel
  · cases hoff : usizeAt (input.drop 4) 0 with
    | none => simp [hoff] at h
    | some off =>
      rw [hoff] at h
      dsimp only at h
      cases hn : usizeAt (input.drop 4) off with
      | none => simp [hn] at h
      | some n =>
        rw [hn] at h
        obtain ⟨hfirst, hoffset, hlt⟩ := (usizeAt_eq_some_iff (by omega) (by decide)).mp hoff
        obtain ⟨hinside, hnumber, -⟩ := (usizeAt_eq_some_iff (by omega) hlt).mp hn
        dsimp only at h
        rw [usizeAdd_of_lt (by omega)] at h
        obtain ⟨k, hk, hword, hitem⟩ := bytesAt_of_mem_readItems hargs (by omega) h hfit hbytes
        rw [Nat.zero_add] at hword hitem
        refine Or.inr ⟨(slice_eq_some_iff.mp hsel).2.2.symm, by omega, k, bytes, ?_, hcall⟩
        rw [hoffset]
        exact ⟨by omega, hword, hitem⟩
  · cases h

lemma length_lt_of_mem_itemsRead {input bytes : List UInt8} {item : ℕ × Option (List UInt8)}
    (hinput : input.length < 2 ^ 63) (h : item ∈ itemsRead input) (hbytes : item.2 = some bytes) :
    bytes.length < 2 ^ 63 := by
  unfold itemsRead at h
  split_ifs at h
  · split at h
    · cases h
    · split at h
      · cases h
      · have hle := length_le_of_mem_readItems h hbytes
        rw [List.length_drop] at hle
        omega
  · cases h

lemma mem_decodeInput_iff {input : List UInt8} {call : OracleCall} (hinput : input.length < 2 ^ 63) :
    call ∈ decodeInput input ↔ (slice input 0 4 ≠ some selMulticall ∧ AbiCall input call) ∨
      ∃ item ∈ itemsRead input, ∃ bytes, item.2 = some bytes ∧ AbiCall bytes call := by
  by_cases hsel : slice input 0 4 = some selMulticall
  · have hitems : decodeInput input =
        (itemsRead input).flatMap fun item => (item.2.bind decodeOne).toList := by
      unfold decodeInput itemsRead
      rw [if_pos hsel, if_pos hsel]
      dsimp only
      cases usizeAt (input.drop 4) 0 with
      | none => rfl
      | some off =>
        dsimp only
        cases usizeAt (input.drop 4) off with
        | none => rfl
        | some n => exact decodeItems_eq_flatMap _ _ _ _
    rw [hitems, List.mem_flatMap, or_iff_right fun h => h.1 hsel]
    refine exists_congr fun item => and_congr_right fun hitem => ?_
    rw [Option.mem_toList, Option.bind_eq_some_iff]
    exact exists_congr fun bytes => and_congr_right fun hbytes =>
      decodeOne_eq_some_iff (length_lt_of_mem_itemsRead hinput hitem hbytes)
  · unfold decodeInput itemsRead
    rw [if_neg hsel, if_neg hsel, Option.mem_toList, decodeOne_eq_some_iff hinput]
    simp [hsel]

lemma forall_reading_iff {input : List UInt8} (hinput : input.length < 2 ^ 63) :
    (∀ call ∈ decodeInput input, Reading input call) ↔ WrapsHarmless input := by
  constructor
  · intro h item hitem _ bytes hbytes call hcall
    exact h call ((mem_decodeInput_iff hinput).mpr (Or.inr ⟨item, hitem, bytes, hbytes, hcall⟩))
  · intro h call hmem
    obtain ⟨-, hcall⟩ | ⟨item, hitem, bytes, hbytes, hcall⟩ := (mem_decodeInput_iff hinput).mp hmem
    · exact Or.inl hcall
    · rcases Nat.lt_or_ge item.1 (2 ^ 64) with hfit | hwrap
      · exact reading_of_mem_itemsRead hinput hitem hfit hbytes hcall
      · exact h item hitem hwrap bytes hbytes call hcall

theorem decode_input_agrees_with_abi (input : ByteVec) (call : OracleCall)
    (calls : List OracleCall) :
    ((Checked.decodeInput input.1).run = some (.ok (decodeInput input.1)) ∧
      ((∀ call ∈ decodeInput input.1, Reading input.1 call) ↔ WrapsHarmless input.1)) ∧
    (WellFormed call → (encodeCall call).length < 2 ^ 63 →
      decodeInput (encodeCall call) = [call]) ∧
    (calls.length ≤ 256 → (∀ call ∈ calls, WellFormed call) →
      (encodeMulticall calls).length < 2 ^ 63 → decodeInput (encodeMulticall calls) = calls) := by
  refine ⟨⟨?_, forall_reading_iff input.2⟩, decodeInput_encodeCall call,
    decodeInput_encodeMulticall⟩
  rw [Checked.decodeInput_eq input.2]
  rfl

def shortDispute : OracleCall := testCall .dispute 10 0 ⟨[1, 2, 3], by decide⟩

/-- A `multicall` with a proposal for somebody and a dispute. -/
theorem decode_input_agrees_with_abi_of_two :
    let calls := [{ testCall .propose 7 1 ⟨[1, 2, 3], by decide⟩ with
      actor := some (Bytes.fill 20 5) }, shortDispute]
    decodeInput (encodeMulticall calls) = calls ∧
      ∀ call ∈ calls, Reading (encodeMulticall calls) call := by
  intro calls
  have hsize : (encodeMulticall calls).length < 2 ^ 63 := by decide +kernel
  obtain ⟨⟨-, hreading⟩, -, hmulticall⟩ :=
    decode_input_agrees_with_abi ⟨encodeMulticall calls, hsize⟩ shortDispute calls
  have hdecode := hmulticall (by decide) (by decide +kernel) hsize
  have hsmall : ∀ item ∈ itemsRead (encodeMulticall calls), item.1 < 2 ^ 64 := by decide +kernel
  refine ⟨hdecode, ?_⟩
  rw [hdecode] at hreading
  exact hreading.mpr fun item hitem hwrap => absurd (hsmall item hitem) hwrap.not_gt

def wrappedInput : List UInt8 :=
  let item := encodeBytes (encodeCall shortDispute)
  selMulticall ++ (toBeBytes 32 (32 + item.length) ++
    (item ++ (toBeBytes 32 1 ++ toBeBytes 32 (2 ^ 64 - item.length - 32))))

/-- **A call that is read where the ABI has none.** -/
theorem call_behind_a_wrapped_offset :
    wrappedInput.length < 2 ^ 63 ∧ decodeInput wrappedInput = [shortDispute] ∧
      ¬ Reading wrappedInput shortDispute := by
  refine ⟨by decide +kernel, by decide +kernel, ?_⟩
  rintro (hcall | ⟨-, -, i, bytes, hitem, -⟩)
  · have hsel := hcall.selector
    revert hsel
    decide +kernel
  · have hoffset : natAt (wrappedInput.drop 4) 0 = 288 := by decide +kernel
    rw [hoffset] at hitem
    have hnumber : natAt (wrappedInput.drop 4) 288 = 1 := by decide +kernel
    have hlt := hitem.lt
    obtain rfl : i = 0 := by omega
    have hinside := hitem.item.inside
    have hfar : 2 ^ 63 < natAt (wrappedInput.drop 4) (288 + 32 + 32 * 0) := by decide +kernel
    have hsize : (wrappedInput.drop 4).length < 2 ^ 63 := by decide +kernel
    omega

end RustUma.Mempool
