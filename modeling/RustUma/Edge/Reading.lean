import RustUma.Edge.Cursor

/-!
# The edge reads what the service writes (`src/wire.rs` `encode_frame`, `src/edge/frame.rs`)

The service writes a batch with `prost` and `zstd`; the edge walks the bytes by hand.
-/

namespace RustUma.Edge

open RustUma.Found RustUma.Model

/-! ## What is written -/

lemma varint64_encode {n : ℕ} (hn : n < 2 ^ 64) : Varint64 10 (Model.varint n) n := by
  obtain ⟨hvarint, hlen⟩ := varint_varintDigits (d := 9) (n := n) (by omega)
  exact ⟨hlen, n, hvarint, (Nat.mod_eq_of_lt hn).symm⟩

lemma message_encodeFields {fields : List PbField} (hfields : ∀ f ∈ fields, f.Fits) :
    Message (Varint64 10) (encodeFields fields) fields := by
  induction fields with
  | nil => exact .nil
  | cons f fields ih =>
    rw [List.forall_mem_cons] at hfields
    exact .cons (written_encode (fun _ => varint64_encode) hfields.1) (ih hfields.2)

section Codec

variable {codec : Codec} (hprost : codec.Conforms)

include hprost

lemma walkEvent_encodeEvent {e : PbUmaEvent} (he : e.Fits)
    (hlen : (codec.encodeEvent e).length < 2 ^ 64) :
    walkEvent (codec.encodeEvent e) = .ok e.sequence := by
  obtain ⟨fields, hencode, hfields, hsequence⟩ := hprost.event e he hlen
  rw [hencode, walkEvent_written (by decide) (message_encodeFields hfields), hsequence]

lemma walkBatch_encodeBatch {b : PbUmaBatch} (hb : b.Fits)
    (hlen : (codec.encodeBatch b).length < 2 ^ 64) {info : FrameInfo}
    (hinfo : info.batchSequence = 0 ∧ info.sentAtUs = 0 ∧ info.lastEventSequence = 0) :
    walkBatch (codec.encodeBatch b) info =
      .ok { info with
        batchSequence := b.batchSequence
        sentAtUs := b.sentAtUs
        lastEventSequence := (b.events.map PbUmaEvent.sequence).foldl max 0 } := by
  obtain ⟨fields, hencode, hfields, hbatch, hsent, hevents⟩ := hprost.batch b hb hlen
  -- an event is a field of the batch, so its length fits as well
  have hwalk : ∀ e ∈ b.events, walkEvent (codec.encodeEvent e) = .ok e.sequence := by
    intro e he
    have hmem : codec.encodeEvent e ∈ delimiteds 4 fields := by
      grind
    obtain ⟨f, hf, hread⟩ := List.mem_filterMap.mp hmem
    refine walkEvent_encodeEvent hprost (hb.events e he) ?_
    rcases delimited?_cases 4 f with ⟨-, -, event, hvalue, hread'⟩ | ⟨-, hnone⟩
    · rw [hread'] at hread
      cases hread
      have hfits := (hfields f hf).2
      rwa [hvalue] at hfits
    simp_all
  have hsequences : (delimiteds 4 fields).map eventSequence = b.events.map PbUmaEvent.sequence := by
    rw [hevents, List.map_map]
    refine List.map_congr_left fun e he => ?_
    show eventSequence (codec.encodeEvent e) = e.sequence
    unfold eventSequence
    rw [hwalk e he]
    rfl
  obtain ⟨hbatch₀, hsent₀, hlast₀⟩ := hinfo
  rw [hencode, walkBatch_written (by decide) (message_encodeFields hfields) ?_ info, foldl_read,
    hsequences, hbatch₀, hsent₀, hlast₀, hbatch, hsent]
  simp_all

end Codec

/-! ## Frames -/

lemma parseFrame_framed (decompress : List UInt8 → ℕ → Option (List UInt8)) (flags : UInt8)
    {payloadLen : ℕ} (hlen : payloadLen < 2 ^ 32) (body : List UInt8) :
    parseFrame decompress (framed flags payloadLen body) =
      let info : FrameInfo := ⟨decide (flags &&& flagZstd ≠ 0), schemaVersion, payloadLen, 0, 0, 0⟩
      if info.compressed then
        match decompress body (min payloadLen maxDecompressed) with
        | some payload => walkBatch payload info
        | none => .ok info
      else walkBatch body info := by
  have hsize : fromBeBytes (((framed flags payloadLen body).drop 8).take 4) = payloadLen :=
    fromBeBytes_toBeBytes 4 payloadLen hlen
  have hlong : ¬(framed flags payloadLen body).length < headerLen := by
    unfold framed headerLen
    simp only [List.length_append, length_toBeBytes, magic, List.length_cons, List.length_nil]
    omega
  unfold parseFrame
  rw [if_neg hlong, hsize]
  rfl

lemma parseFrame_plain (decompress : List UInt8 → ℕ → Option (List UInt8)) {payload : List UInt8}
    (hlen : payload.length < 2 ^ 32) :
    parseFrame decompress (framed 0 payload.length payload) =
      walkBatch payload ⟨false, schemaVersion, payload.length, 0, 0, 0⟩ :=
  parseFrame_framed decompress 0 hlen payload

lemma parseFrame_zstd {decompress : List UInt8 → ℕ → Option (List UInt8)}
    {payload body : List UInt8} (hlen : payload.length < 2 ^ 32)
    (hbody : decompress body (min payload.length maxDecompressed) = some payload) :
    parseFrame decompress (framed flagZstd payload.length body) =
      walkBatch payload ⟨true, schemaVersion, payload.length, 0, 0, 0⟩ := by
  refine (parseFrame_framed decompress flagZstd hlen body).trans ?_
  rw [hbody]
  rfl

lemma max?_eq_foldl {l : List ℕ} (h : l ≠ []) : l.max? = some (l.foldl max 0) := by
  obtain ⟨n, l, rfl⟩ := List.exists_cons_of_ne_nil h
  rfl

theorem edge_reads_what_is_written (codec : Codec) (hprost : codec.Conforms)
    (decompress : List UInt8 → ℕ → Option (List UInt8))
    (hzstd : ∀ payload body cap, codec.compress payload = some body → payload.length ≤ cap →
      decompress body cap = some payload)
    {config : WireConfig} (hconfig : config.maxDecompressedBytes ≤ 262144)
    {batchSequence sentAtUs : ℕ} {events : List EventRecord} (hbatch : batchSequence < 2 ^ 64)
    (hsent : sentAtUs < 2 ^ 64) (hevents : ∀ e ∈ events, e.toProto.Fits) {frame : WireFrame}
    (hframe : encodeFrame codec batchSequence events config sentAtUs = .ok frame) :
    ∃ info, parseFrame decompress frame.bytes = .ok info ∧
      info.batchSequence = batchSequence ∧ info.sentAtUs = sentAtUs ∧
      (info.compressed = true ↔ config.zstdThreshold ≤
        (codec.encodeBatch (pbBatch batchSequence events sentAtUs)).length) ∧
      info.payloadSize = (codec.encodeBatch (pbBatch batchSequence events sentAtUs)).length ∧
      (events.map EventRecord.sequence).max? = some info.lastEventSequence := by
  have hfits : (pbBatch batchSequence events sentAtUs).Fits := by
    refine ⟨Nat.one_lt_two_pow (by decide), hbatch, hsent, fun e he => ?_⟩
    obtain ⟨record, hrecord, rfl⟩ := List.mem_map.mp he
    simp_all
  obtain ⟨hne, flags, body, hbody, hbytes⟩ := encodeFrame_bytes hframe
  obtain ⟨hlarge, hbody⟩ := encodeBody_ok hbody
  have hmax : (events.map EventRecord.sequence).max? =
      some (((events.map EventRecord.toProto).map PbUmaEvent.sequence).foldl max 0) := by
    rw [max?_eq_foldl (by simp_all), List.map_map]
    rfl
  have hsize : (codec.encodeBatch (pbBatch batchSequence events sentAtUs)).length ≤ 262144 :=
    hlarge.trans hconfig
  rw [hbytes]
  rcases hbody with ⟨hthreshold, rfl, hcompress⟩ | ⟨hthreshold, rfl, rfl⟩
  · have hinflate := hzstd _ body _ hcompress (le_min le_rfl hsize)
    have hread := (parseFrame_zstd (by omega) hinflate).trans
      (walkBatch_encodeBatch hprost hfits (by omega) ⟨rfl, rfl, rfl⟩)
    exact ⟨_, hread, rfl, rfl, iff_of_true rfl hthreshold, rfl, hmax⟩
  · have hread := (parseFrame_plain decompress (by omega)).trans
      (walkBatch_encodeBatch hprost hfits (by omega) ⟨rfl, rfl, rfl⟩)
    exact ⟨_, hread, rfl, rfl, iff_of_false Bool.false_ne_true hthreshold.not_ge, rfl, hmax⟩

def testCodec : Codec := { prostCodec [] with compress := some }

/-- Two events out of order, compressed. -/
theorem edge_reads_compressed_batch :
    ∃ frame info, encodeFrame testCodec 300 [testRecord 9 1, testRecord 5 2] ⟨16, 262144⟩ 70000 =
        .ok frame ∧
      parseFrame (fun body cap => if body.length ≤ cap then some body else none) frame.bytes =
        .ok info ∧
      info.batchSequence = 300 ∧ info.sentAtUs = 70000 ∧ info.compressed = true ∧
      info.lastEventSequence = 9 := by
  have hprost : testCodec.Conforms :=
    ⟨(prostCodec_conforms []).event, (prostCodec_conforms []).batch⟩
  have hfits : ∀ e ∈ [testRecord 9 1, testRecord 5 2], e.toProto.Fits := by
    intro e he
    simp only [List.mem_cons, List.not_mem_nil, or_false] at he
    rcases he with rfl | rfl <;> exact ⟨by decide, by decide, by decide, by decide⟩
  have hsome : (encodeFrame testCodec 300 [testRecord 9 1, testRecord 5 2] ⟨16, 262144⟩
      70000).toOption.isSome = true := by decide +kernel
  cases hframe : encodeFrame testCodec 300 [testRecord 9 1, testRecord 5 2] ⟨16, 262144⟩ 70000 with
  | error e =>
    rw [hframe] at hsome
    cases hsome
  | ok frame =>
    obtain ⟨info, hread, hbatch, hsent, hcompressed, -, hlast⟩ :=
      edge_reads_what_is_written testCodec hprost
        (fun body cap => if body.length ≤ cap then some body else none)
        (fun payload body cap hbody hcap => by cases hbody; exact if_pos hcap) le_rfl
        (by decide) (by decide) hfits hframe
    refine ⟨frame, info, rfl, hread, hbatch, hsent, hcompressed.mpr (by decide +kernel), ?_⟩
    exact (Option.some_injective _ hlast).symm

end RustUma.Edge
