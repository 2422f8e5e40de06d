import Mathlib.Tactic.Ring
import RustUma.Edge.Frame
import RustUma.Model.Protobuf

/-!
# The cursor on any bytes (`src/edge/frame.rs` `Cursor`, `walk_batch`, `walk_event`)

The reads in front of whatever follows, and what a read that succeeded has found.
-/

namespace RustUma.Edge

open RustUma.Found RustUma.Model

/-! ## The cursor -/

lemma varintFrom_written {bytes : List UInt8} {n shift value : ℕ} (h : Varint bytes n)
    (hshift : shift + 7 * bytes.length ≤ 77) (hvalue : value < 2 ^ 64)
    (hlow : shift < 64 → value < 2 ^ shift) (rest : List UInt8) :
    varintFrom shift value (bytes ++ rest) = .ok ((value + n * 2 ^ shift) % 2 ^ 64, rest) := by
  induction h generalizing shift value with
  | last hlast =>
    rw [List.singleton_append, varintFrom, toNat_and_low, or_shiftLeft_mod hvalue hlow,
      Nat.mod_eq_of_lt hlast]
    exact if_pos ((and_eighth_eq_zero_iff _).mpr hlast)
  | @more b bytes n hmore hrest ih =>
    have hpos := List.length_pos_of_ne_nil hrest.ne_nil
    have hlt := Nat.mod_lt b.toNat (y := 128) (by decide)
    rw [List.length_cons] at hshift
    rw [List.cons_append, varintFrom, toNat_and_low, or_shiftLeft_mod hvalue hlow, if_neg (mt (and_eighth_eq_zero_iff _).mp hmore.not_gt), if_neg (by omega),
      ih (by omega) (Nat.mod_lt _ (by decide)) fun hnext => ?_]
    · congr 2
      rw [Nat.mod_add_mod]
      ring_nf
    · calc (value + b.toNat % 128 * 2 ^ shift) % 2 ^ 64
          ≤ value + b.toNat % 128 * 2 ^ shift := Nat.mod_le _ _
        _ < (b.toNat % 128 + 1) * 2 ^ shift := by
          grind
        _ ≤ 128 * 2 ^ shift := Nat.mul_le_mul_right _ hlt
        _ = 2 ^ (shift + 7) := by ring

section Written

variable {k : ℕ} (hk : k ≤ 11)

include hk

lemma varint_written {bytes : List UInt8} {n : ℕ} (h : Varint64 k bytes n) (rest : List UInt8) :
    varint (bytes ++ rest) = .ok (n, rest) := by
  obtain ⟨hlen, m, hm, rfl⟩ := h
  have hread : varintFrom 0 0 (bytes ++ rest) = .ok ((0 + m * 2 ^ 0) % 2 ^ 64, rest) :=
    varintFrom_written hm (by omega) (by decide) (fun _ => Nat.one_pos) rest
  rwa [pow_zero, mul_one, zero_add] at hread

lemma lengthDelimited_written {len value : List UInt8} (h : Varint64 k len value.length)
    (rest : List UInt8) : lengthDelimited (len ++ value ++ rest) = .ok (value, rest) := by
  unfold lengthDelimited
  rw [List.append_assoc, varint_written hk h]
  simp

omit hk in
lemma advance_append (value rest : List UInt8) :
    advance value.length (value ++ rest) = .ok rest := by
  unfold advance
  rw [if_pos (by rw [List.length_append]; exact Nat.le_add_right _ _), List.drop_left]

lemma skip_written {value : PbValue} {text : List UInt8} (h : value.Written (Varint64 k) text)
    (rest : List UInt8) : skip value.wire (text ++ rest) = .ok rest := by
  cases value with
  | varint n =>
    show (varint (text ++ rest)).map Prod.snd = _
    rw [varint_written hk h]
    rfl
  | fixed64 bytes | fixed32 bytes =>
    have hread := advance_append bytes.1 rest
    rw [bytes.2] at hread
    rwa [show text = bytes.1 from h]
  | delimited bytes =>
    obtain ⟨len, hlen, rfl⟩ := h
    show (lengthDelimited (len ++ bytes ++ rest)).map Prod.snd = _
    rw [lengthDelimited_written hk hlen]
    rfl

end Written

/-! ## What a read has read -/

lemma varintFrom_sound {shift value v : ℕ} {buf rest : List UInt8} (hshift : shift ≤ 70)
    (h : varintFrom shift value buf = .ok (v, rest)) :
    ∃ bytes n, Varint bytes n ∧ buf = bytes ++ rest ∧ shift + 7 * bytes.length ≤ 77 := by
  induction buf generalizing shift value with
  | nil => cases h
  | cons byte buf ih =>
    rw [varintFrom] at h
    generalize (if shift < 64 then _ else value) = next at h
    split_ifs at h with hlast hlong
    · cases h
      rw [and_eighth_eq_zero_iff] at hlast
      exact ⟨[byte], _, .last hlast, rfl, by simpa using hshift⟩
    · rw [and_eighth_eq_zero_iff, not_lt] at hlast
      obtain ⟨bytes, n, hbytes, rfl, hlen⟩ := ih (by omega) h
      refine ⟨byte :: bytes, _, .more hlast hbytes, rfl, ?_⟩
      grind

lemma varint_sound {v : ℕ} {buf rest : List UInt8} (h : varint buf = .ok (v, rest)) :
    ∃ bytes, Varint64 11 bytes v ∧ buf = bytes ++ rest := by
  obtain ⟨bytes, m, hm, rfl, hlen⟩ := varintFrom_sound (by decide) h
  have hbytes : Varint64 11 bytes (m % 2 ^ 64) := ⟨by omega, m, hm, rfl⟩
  rw [varint_written le_rfl hbytes] at h
  simp_all

lemma advance_sound {n : ℕ} {buf rest : List UInt8} (h : advance n buf = .ok rest) :
    ∃ bytes : Bytes n, buf = bytes.1 ++ rest := by
  unfold advance at h
  split_ifs at h with hle
  cases h
  exact ⟨⟨buf.take n, List.length_take_of_le hle⟩, (List.take_append_drop n buf).symm⟩

lemma skip_sound {wire : ℕ} {buf rest : List UInt8} (h : skip wire buf = .ok rest) :
    ∃ (value : PbValue) (text : List UInt8), value.wire = wire ∧
      value.Written (Varint64 11) text ∧ buf = text ++ rest := by
  unfold skip at h
  split at h
  · obtain ⟨⟨n, _⟩, hn, rfl⟩ := exceptMap_eq_ok h
    obtain ⟨text, htext, rfl⟩ := varint_sound hn
    exact ⟨.varint n, text, rfl, htext, rfl⟩
  · obtain ⟨bytes, rfl⟩ := advance_sound h
    exact ⟨.fixed64 bytes, _, rfl, rfl, rfl⟩
  · obtain ⟨⟨bytes, _⟩, hbytes, rfl⟩ := exceptMap_eq_ok h
    unfold lengthDelimited at hbytes
    split at hbytes
    · next n tail hn =>
      split_ifs at hbytes with hle
      cases hbytes
      obtain ⟨len, hlen, rfl⟩ := varint_sound hn
      refine ⟨.delimited (tail.take n), len ++ tail.take n, rfl, ⟨len, ?_, rfl⟩, ?_⟩
      · simp_all
      simp
    · cases hbytes
  · obtain ⟨bytes, rfl⟩ := advance_sound h
    exact ⟨.fixed32 bytes, _, rfl, rfl, rfl⟩
  · cases h

lemma field_sound {key : ℕ} {buf buf' rest : List UInt8} (hkey : varint buf = .ok (key, buf'))
    (h : skip (key &&& 7) buf' = .ok rest) :
    ∃ (f : PbField) (text : List UInt8), f.Written (Varint64 11) text ∧ buf = text ++ rest := by
  obtain ⟨text, htext, rfl⟩ := varint_sound hkey
  obtain ⟨value, tail, hwire, hvalue, rfl⟩ := skip_sound h
  refine ⟨⟨key >>> 3, value⟩, text ++ tail, ⟨text, tail, ?_, hvalue, rfl⟩,
    (List.append_assoc ..).symm⟩
  have hsplit : key >>> 3 * 8 + (key &&& 7) = key := by
    rw [show (7 : ℕ) = 2 ^ 3 - 1 from rfl, Nat.and_two_pow_sub_one_eq_mod]
    omega
  rwa [hwire, hsplit]

lemma written_ne_nil {f : PbField} {k : ℕ} {text : List UInt8} (h : f.Written (Varint64 k) text) :
    text ≠ [] := by
  obtain ⟨key, value, ⟨-, m, hkey, -⟩, -, rfl⟩ := h
  exact List.append_ne_nil_of_left_ne_nil hkey.ne_nil _

lemma consumes_of_sound {σ : Type} {body : σ → List UInt8 → Except BadFrame (σ × List UInt8)}
    (h : ∀ {s buf s' rest}, body s buf = .ok (s', rest) →
      ∃ (f : PbField) (text : List UInt8), f.Written (Varint64 11) text ∧ buf = text ++ rest) :
    Consumes body := by
  intro s b buf s' rest hpass
  obtain ⟨f, text, hf, htext⟩ := h hpass
  have hlen := congrArg List.length htext
  have hpos := List.length_pos_of_ne_nil (written_ne_nil hf)
  grind

lemma eventField_sound {seq seq' : ℕ} {buf rest : List UInt8}
    (h : eventField seq buf = .ok (seq', rest)) :
    ∃ (f : PbField) (text : List UInt8), f.Written (Varint64 11) text ∧ buf = text ++ rest := by
  unfold eventField at h
  split at h
  · next key buf' hkey =>
    refine field_sound hkey ?_
    split_ifs at h with hread
    · rw [hread.2]
      exact congrArg (Except.map Prod.snd) h
    · obtain ⟨rest', hskip, heq⟩ := exceptMap_eq_ok h
      grind
  · cases h

lemma batchField_sound {info info' : FrameInfo} {buf rest : List UInt8}
    (h : batchField info buf = .ok (info', rest)) :
    ∃ (f : PbField) (text : List UInt8), f.Written (Varint64 11) text ∧ buf = text ++ rest := by
  unfold batchField at h
  split at h
  · next key buf' hkey =>
    refine field_sound hkey ?_
    split at h
    · next hnumber hwire =>
      obtain ⟨⟨v, rest'⟩, hv, heq⟩ := exceptMap_eq_ok h
      cases heq
      rw [hwire]
      exact congrArg (Except.map Prod.snd) hv
    · next hnumber hwire =>
      obtain ⟨⟨v, rest'⟩, hv, heq⟩ := exceptMap_eq_ok h
      cases heq
      rw [hwire]
      exact congrArg (Except.map Prod.snd) hv
    · next hnumber hwire =>
      split at h
      · next event rest' hevent =>
        obtain ⟨seq, -, heq⟩ := exceptMap_eq_ok h
        cases heq
        rw [hwire]
        exact congrArg (Except.map Prod.snd) hevent
      · cases h
    · obtain ⟨rest', hskip, heq⟩ := exceptMap_eq_ok h
      grind
  · cases h

/-! ## Fields -/

lemma key_shiftRight (f : PbField) : (f.number * 8 + f.value.wire) >>> 3 = f.number := by
  have hwire := wire_lt f.value
  omega

lemma key_and (f : PbField) : (f.number * 8 + f.value.wire) &&& 7 = f.value.wire := by
  have hwire := wire_lt f.value
  rw [show (7 : ℕ) = 2 ^ 3 - 1 from rfl, Nat.and_two_pow_sub_one_eq_mod]
  omega

lemma varint?_cases (number : ℕ) (f : PbField) :
    (f.number = number ∧ f.value.wire = 0 ∧ ∃ n, f.value = .varint n ∧ f.varint? number = some n) ∨
      (¬(f.number = number ∧ f.value.wire = 0) ∧ f.varint? number = none) := by
  obtain ⟨number', value⟩ := f
  cases value with
  | varint n =>
    by_cases hnumber : number' = number
    · exact Or.inl ⟨hnumber, rfl, n, rfl, if_pos hnumber⟩
    · exact Or.inr ⟨fun h => hnumber h.1, if_neg hnumber⟩
  | _ => exact Or.inr ⟨fun h => absurd h.2 (by simp [PbValue.wire]), rfl⟩

lemma delimited?_cases (number : ℕ) (f : PbField) :
    (f.number = number ∧ f.value.wire = 2 ∧
        ∃ bytes, f.value = .delimited bytes ∧ f.delimited? number = some bytes) ∨
      (¬(f.number = number ∧ f.value.wire = 2) ∧ f.delimited? number = none) := by
  obtain ⟨number', value⟩ := f
  cases value with
  | delimited bytes =>
    by_cases hnumber : number' = number
    · exact Or.inl ⟨hnumber, rfl, bytes, rfl, if_pos hnumber⟩
    · exact Or.inr ⟨fun h => hnumber h.1, if_neg hnumber⟩
  | _ => exact Or.inr ⟨fun h => absurd h.2 (by simp [PbValue.wire]), rfl⟩

section Walk

variable {k : ℕ} (hk : k ≤ 11)

include hk

lemma eventField_written {f : PbField} {text : List UInt8} (hf : f.Written (Varint64 k) text)
    (seq : ℕ) (rest : List UInt8) :
    eventField seq (text ++ rest) = .ok ((f.varint? 1).getD seq, rest) := by
  obtain ⟨key, value, hkey, hvalue, rfl⟩ := hf
  unfold eventField
  rw [List.append_assoc, varint_written hk hkey]
  dsimp only
  rw [key_shiftRight, key_and]
  rcases varint?_cases 1 f with ⟨hnumber, hwire, n, hn, hread⟩ | ⟨hother, hread⟩
  · rw [hn] at hvalue
    rw [if_pos ⟨hnumber, hwire⟩, hread]
    exact varint_written hk hvalue rest
  · rw [if_neg hother, hread, skip_written hk hvalue]
    rfl

def eventSequence (event : List UInt8) : ℕ := (walkEvent event).toOption.getD 0

def FrameInfo.read (info : FrameInfo) (f : PbField) : FrameInfo :=
  { info with
    batchSequence := (f.varint? 2).getD info.batchSequence
    sentAtUs := (f.varint? 3).getD info.sentAtUs
    lastEventSequence := (f.delimited? 4).elim info.lastEventSequence fun event =>
      max info.lastEventSequence (eventSequence event) }

lemma batchField_written {f : PbField} {text : List UInt8} (hf : f.Written (Varint64 k) text)
    (info : FrameInfo) (rest : List UInt8) :
    batchField info (text ++ rest) = match f.delimited? 4 with
      | some event => (walkEvent event).map fun _ => (info.read f, rest)
      | none => .ok (info.read f, rest) := by
  obtain ⟨key, text, hkey, hvalue, rfl⟩ := hf
  unfold batchField
  rw [List.append_assoc, varint_written hk hkey]
  dsimp only
  rw [key_shiftRight, key_and]
  rcases varint?_cases 2 f with ⟨hnumber, -, n, hn, -⟩ | ⟨hother₂, hread₂⟩
  · obtain ⟨number, value⟩ := f
    subst hnumber hn
    show (varint (text ++ rest)).map _ = _
    rw [varint_written hk hvalue]
    rfl
  rcases varint?_cases 3 f with ⟨hnumber, -, n, hn, -⟩ | ⟨hother₃, hread₃⟩
  · obtain ⟨number, value⟩ := f
    subst hnumber hn
    show (varint (text ++ rest)).map _ = _
    rw [varint_written hk hvalue]
    rfl
  rcases delimited?_cases 4 f with ⟨hnumber, -, event, hn, hread₄⟩ | ⟨hother₄, hread₄⟩
  · obtain ⟨number, value⟩ := f
    subst hnumber hn
    obtain ⟨len, hlen, rfl⟩ := hvalue
    rw [lengthDelimited_written hk hlen, hread₄]
    dsimp only [PbValue.wire, FrameInfo.read]
    rw [hread₂, hread₃, hread₄]
    cases hseq : walkEvent event with
    | error e => rfl
    | ok seq =>
      grind [eventSequence, Except.map, Except.toOption]
  unfold FrameInfo.read
  rw [hread₂, hread₃, hread₄]
  split
  · omega
  · omega
  · omega
  · rw [skip_written hk hvalue]
    rfl

end Walk

/-! ## Messages -/

lemma foldl_getD_eq_getLastD {α β : Type*} (g : α → Option β) (l : List α) (b : β) :
    l.foldl (fun b a => (g a).getD b) b = (l.filterMap g).getLastD b := by
  induction l generalizing b with
  | nil => rfl
  | cons a l ih =>
    simp_all

lemma drains_message {σ : Type} {body : σ → List UInt8 → Except BadFrame (σ × List UInt8)}
    {next : σ → PbField → σ} (hbody : Consumes body) {k : ℕ} {bytes : List UInt8}
    {fields : List PbField} (h : Message (Varint64 k) bytes fields)
    (hpass : ∀ f ∈ fields, ∀ text, f.Written (Varint64 k) text → ∀ s rest,
      body s (text ++ rest) = .ok (next s f, rest)) (s : σ) :
    Drains body s bytes (fields.foldl next s) := by
  induction h generalizing s with
  | nil => exact drains_nil s
  | @cons f text rest fields hf _ ih =>
    rw [List.forall_mem_cons] at hpass
    exact (drains_of_pass hbody (written_ne_nil hf) (hpass.1 text hf s)).append (ih hpass.2 _)

section Messages

variable {k : ℕ} (hk : k ≤ 11) {bytes : List UInt8} {fields : List PbField}
  (h : Message (Varint64 k) bytes fields)

include hk h

lemma walkEvent_written : walkEvent bytes = .ok ((varints 1 fields).getLastD 0) := by
  unfold varints
  rw [← foldl_getD_eq_getLastD]
  refine (drains_message (consumes_of_sound eventField_sound) h (fun f _ text hf seq rest => ?_) 0).eq_ok
  exact eventField_written hk hf seq rest

lemma walkBatch_written
    (hevents : ∀ event ∈ delimiteds 4 fields, ∃ seq, walkEvent event = .ok seq)
    (info : FrameInfo) : walkBatch bytes info = .ok (fields.foldl FrameInfo.read info) := by
  refine (drains_message (consumes_of_sound batchField_sound) h (fun f hmem text hf info rest => ?_) info).eq_ok
  rw [batchField_written hk hf]
  cases hevent : f.delimited? 4 with
  | none => rfl
  | some event =>
    obtain ⟨seq, hseq⟩ := hevents event (List.mem_filterMap.mpr ⟨f, hmem, hevent⟩)
    show (walkEvent event).map _ = _
    rw [hseq]
    rfl

end Messages

lemma foldl_read (fields : List PbField) (info : FrameInfo) :
    fields.foldl FrameInfo.read info =
      { info with
        batchSequence := (varints 2 fields).getLastD info.batchSequence
        sentAtUs := (varints 3 fields).getLastD info.sentAtUs
        lastEventSequence := ((delimiteds 4 fields).map eventSequence).foldl max
          info.lastEventSequence } := by
  unfold varints delimiteds
  rw [← foldl_getD_eq_getLastD, ← foldl_getD_eq_getLastD]
  induction fields generalizing info with
  | nil => rfl
  | cons f fields ih =>
    rw [List.foldl_cons, ih]
    cases hf : f.delimited? 4 with
    | none =>
      grind [FrameInfo.read]
    | some event =>
      grind [FrameInfo.read]

end RustUma.Edge
