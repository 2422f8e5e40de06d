import Mathlib.Data.List.Forall2
import RustUma.Edge.Cursor
import RustUma.Found.Fallible

/-!
# The frame walker on any bytes (`src/edge/frame.rs` `parse_frame`)
-/

namespace RustUma.Edge

open RustUma.Found RustUma.Model

/-! ## What is accepted -/

def BatchText (k : ℕ) (body : List UInt8) (fields : List PbField) (events : List (List PbField)) :
    Prop :=
  Message (Varint64 k) body fields ∧
    List.Forall₂ (Message (Varint64 k)) (delimiteds 4 fields) events

lemma walkEvent_sound {seq : ℕ} {event : List UInt8} (h : walkEvent event = .ok seq) :
    ∃ fields, Message (Varint64 11) event fields := by
  refine drain_induction (P := fun _ buf result => result = .ok seq →
    ∃ fields, Message (Varint64 11) buf fields) (consumes_of_sound eventField_sound)
    (fun _ _ => ⟨[], .nil⟩) (fun _ _ _ _ => nofun) ?_ 0 event h
  intro s buf s' rest result hpass ih hresult
  obtain ⟨f, text, hf, rfl⟩ := eventField_sound hpass
  obtain ⟨fields, hfields⟩ := ih hresult
  exact ⟨f :: fields, .cons hf hfields⟩

lemma walkBatch_sound {info info' : FrameInfo} {body : List UInt8}
    (h : walkBatch body info = .ok info') : ∃ fields events, BatchText 11 body fields events := by
  have hfields : ∃ fields, Message (Varint64 11) body fields ∧
      ∀ event ∈ delimiteds 4 fields, ∃ nested, Message (Varint64 11) event nested := by
    refine drain_induction (P := fun _ buf result => result = .ok info' →
      ∃ fields, Message (Varint64 11) buf fields ∧
        ∀ event ∈ delimiteds 4 fields, ∃ nested, Message (Varint64 11) event nested)
      (consumes_of_sound batchField_sound) (fun _ _ => ⟨[], .nil, nofun⟩) (fun _ _ _ _ => nofun)
      ?_ info body h
    intro s buf s' rest result hpass ih hresult
    obtain ⟨f, text, hf, rfl⟩ := batchField_sound hpass
    obtain ⟨fields, hfields, hevents⟩ := ih hresult
    refine ⟨f :: fields, .cons hf hfields, fun event hmem => ?_⟩
    rw [delimiteds, List.filterMap_cons] at hmem
    rw [batchField_written le_rfl hf] at hpass
    cases hread : f.delimited? 4 with
    | none =>
      rw [hread] at hmem
      exact hevents event hmem
    | some nested =>
      rw [hread] at hmem hpass
      obtain ⟨seq, hseq, -⟩ := exceptMap_eq_ok hpass
      rcases List.mem_cons.mp hmem with rfl | hmem
      · exact walkEvent_sound hseq
      · exact hevents event hmem
  obtain ⟨fields, hfields, hevents⟩ := hfields
  choose! nested hnested using hevents
  exact ⟨fields, (delimiteds 4 fields).map nested, hfields,
    List.forall₂_map_right_iff.mpr (List.forall₂_same.mpr hnested)⟩

lemma walkBatch_exact {body : List UInt8} {fields : List PbField} {events : List (List PbField)}
    (h : BatchText 10 body fields events) {info : FrameInfo}
    (hinfo : info.batchSequence = 0 ∧ info.sentAtUs = 0 ∧ info.lastEventSequence = 0) :
    walkBatch body info = .ok { info with
      batchSequence := (varints 2 fields).getLastD 0
      sentAtUs := (varints 3 fields).getLastD 0
      lastEventSequence := (events.map fun event => (varints 1 event).getLastD 0).foldl max 0 } := by
  obtain ⟨hfields, hevents⟩ := h
  have hwalk : ∀ event nested, Message (Varint64 10) event nested →
      walkEvent event = .ok ((varints 1 nested).getLastD 0) :=
    fun event nested hnested => walkEvent_written (by decide) hnested
  have hsequences : (delimiteds 4 fields).map eventSequence =
      events.map fun event => (varints 1 event).getLastD 0 := by
    rw [← List.forall₂_eq_eq_eq, List.forall₂_map_left_iff, List.forall₂_map_right_iff]
    refine hevents.imp fun event nested hnested => ?_
    rw [eventSequence, hwalk event nested hnested]
    rfl
  obtain ⟨hbatch, hsent, hlast⟩ := hinfo
  rw [walkBatch_written (by decide) hfields ?_ info, foldl_read, hsequences, hbatch, hsent, hlast]
  intro event hevent
  obtain ⟨i, hi, rfl⟩ := List.getElem_of_mem hevent
  have hi' : i < events.length := hevents.length_eq ▸ hi
  exact ⟨_, hwalk _ _ (hevents.get hi hi')⟩

/-! ## Nothing aborts -/

namespace Checked

def shl64 (value shift : ℕ) : Option ℕ :=
  if shift < 64 then some (value <<< shift % 2 ^ 64) else none

def varintFrom (shift value : ℕ) : List UInt8 → Option (Except BadFrame (ℕ × List UInt8))
  | [] => some (.error .truncatedVarint)
  | byte :: buf => do
    let value ←
      if shift < 64 then (shl64 (byte &&& 0x7f).toNat shift).map (value ||| ·) else some value
    if byte &&& 0x80 = 0 then some (.ok (value, buf))
    else if 70 < shift + 7 then some (.error .truncatedVarint)
    else varintFrom (shift + 7) value buf

def parseFrame (decompress : List UInt8 → ℕ → Option (List UInt8)) (bytes : List UInt8) :
    Aborting BadFrame FrameInfo :=
  if bytes.length < headerLen then returns (.error .tooShort)
  else do
    let start ← orAbort (if 4 ≤ bytes.length then some (bytes.take 4) else none)
    if start ≠ magic then returns (.error .badMagic)
    else do
      let flags ← orAbort bytes[4]?
      let schema ← orAbort bytes[5]?
      let size ← orAbort ([bytes[8]?, bytes[9]?, bytes[10]?, bytes[11]?].mapM id)
      let body ← orAbort (if headerLen ≤ bytes.length then some (bytes.drop headerLen) else none)
      let info : FrameInfo :=
        ⟨decide (flags &&& flagZstd ≠ 0), schema, fromBeBytes size, 0, 0, 0⟩
      returns <|
        if info.compressed then
          match decompress body (min info.payloadSize maxDecompressed) with
          | some payload => walkBatch payload info
          | none => .ok info
        else walkBatch body info

end Checked

lemma checked_varintFrom (shift value : ℕ) (buf : List UInt8) :
    Checked.varintFrom shift value buf = some (varintFrom shift value buf) := by
  induction buf generalizing shift value with
  | nil => rfl
  | cons byte buf ih =>
    simp only [Checked.varintFrom, Checked.shl64, varintFrom, ih]
    split_ifs <;> rfl

lemma checked_parseFrame (decompress : List UInt8 → ℕ → Option (List UInt8)) (bytes : List UInt8) :
    Checked.parseFrame decompress bytes = returns (parseFrame decompress bytes) := by
  unfold Checked.parseFrame parseFrame
  by_cases hshort : bytes.length < headerLen
  · simp_all
  have hlong : 12 ≤ bytes.length := not_lt.mp hshort
  rw [if_neg hshort, if_neg hshort, if_pos (by omega), orAbort_some, returns_ok_bind]
  by_cases hmagic : bytes.take 4 ≠ magic
  · simp_all
  have hget : ∀ i < 12, bytes[i]? = some (bytes.getD i 0) := fun i hi => by
    grind
  have hsize : (bytes.drop 8).take 4 =
      [bytes.getD 8 0, bytes.getD 9 0, bytes.getD 10 0, bytes.getD 11 0] := by
    rw [List.drop_eq_getElem_cons (by omega), List.drop_eq_getElem_cons (by omega),
      List.drop_eq_getElem_cons (by omega), List.drop_eq_getElem_cons (by omega)]
    grind
  rw [if_neg hmagic, if_neg hmagic, hget 4 (by decide), hget 5 (by decide), hget 8 (by decide),
    hget 9 (by decide), hget 10 (by decide), hget 11 (by decide),
    if_pos (not_lt.mp hshort), hsize]
  rfl

theorem frame_walker_exact (decompress : List UInt8 → ℕ → Option (List UInt8)) :
    (∀ buf, Checked.varintFrom 0 0 buf = some (varint buf)) ∧
    (∀ bytes, Checked.parseFrame decompress bytes = returns (parseFrame decompress bytes)) ∧
    ∀ bytes, headerLen ≤ bytes.length → bytes.take 4 = magic →
      bytes.getD 4 0 &&& flagZstd = 0 →
      (∀ fields events, BatchText 10 (bytes.drop headerLen) fields events →
        ∃ info, parseFrame decompress bytes = .ok info ∧
          info.batchSequence = (varints 2 fields).getLastD 0 ∧
          info.sentAtUs = (varints 3 fields).getLastD 0 ∧
          info.lastEventSequence =
            (events.map fun event => (varints 1 event).getLastD 0).foldl max 0) ∧
      ((¬∃ fields events, BatchText 11 (bytes.drop headerLen) fields events) →
        ∃ e, parseFrame decompress bytes = .error e) := by
  refine ⟨checked_varintFrom 0 0, checked_parseFrame decompress, ?_⟩
  intro bytes hlen hmagic hflag
  have hframe : parseFrame decompress bytes = walkBatch (bytes.drop headerLen)
      ⟨false, bytes.getD 5 0, fromBeBytes ((bytes.drop 8).take 4), 0, 0, 0⟩ := by
    unfold parseFrame
    simp_all
  rw [hframe]
  refine ⟨fun fields events h => ⟨_, walkBatch_exact h ⟨rfl, rfl, rfl⟩, rfl, rfl, rfl⟩, fun h => ?_⟩
  cases hwalk : walkBatch (bytes.drop headerLen) _ with
  | error e => exact ⟨e, rfl⟩
  | ok info => exact absurd (walkBatch_sound hwalk) h

end RustUma.Edge
