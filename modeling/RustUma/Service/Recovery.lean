import RustUma.Model.Projection
import RustUma.Service.Restart

/-!
# Recovering a journal and writing it again

Boot reads the journal into the event ring; a compaction writes the ring to the journal. A record
that goes through both, any number of times, is projected, read back and projected again.
-/

namespace RustUma.Service

open RustUma.Found RustUma.Model RustUma.Hub RustUma.Storage

def recoverAndRewrite (codec : Codec) (config : Config) (file : Option (List UInt8)) :
    Option (List UInt8) :=
  some ((Journal.open_ file).rewrite codec
    (recoveredHub config (recoverEvents codec config file)).snapshot).disk

variable {codec : Codec} {config : Config}

/-! ## The ring after boot -/

variable {recovered : List EventRecord}

lemma recoveredHub_concat_of_room (h : recovered.length < max config.eventRingCapacity 1)
    (event : EventRecord) :
    (recoveredHub config (recovered ++ [event])).events =
      if event.key ∈ (recoveredHub config recovered).events.map EventRecord.key then
        (recoveredHub config recovered).events
      else (recoveredHub config recovered).events ++ [event] := by
  obtain ⟨hvalid, hcapacity⟩ := recoveredHub_valid config recovered
  have hkeys : event.key ∈ (recoveredHub config recovered).keys ↔
      event.key ∈ (recoveredHub config recovered).events.map EventRecord.key := by
    rw [hvalid.keys_eq, List.mem_toFinset]
  rw [recoveredHub_concat]
  split_ifs with hmem
  · rw [EventHub.insert_of_mem (hkeys.mpr hmem)]
  · rw [EventHub.insert_of_notMem fun hin => hmem (hkeys.mp hin)]
    have hlength := (recoveredHub_sublist config recovered).length_le
    exact rtake_of_length_le (by grind)

lemma mem_recoveredHub_keys (h : recovered.length ≤ max config.eventRingCapacity 1) :
    ∀ e ∈ recovered, e.key ∈ (recoveredHub config recovered).events.map EventRecord.key := by
  induction recovered using List.reverseRecOn with
  | nil => simp
  | append_singleton recovered event ih =>
    rw [List.length_append, List.length_singleton] at h
    rw [recoveredHub_concat_of_room (by omega)]
    grind

lemma recoveredHub_of_nodup (h : recovered.length ≤ max config.eventRingCapacity 1)
    (hnodup : (recovered.map EventRecord.key).Nodup) :
    (recoveredHub config recovered).events = recovered := by
  induction recovered using List.reverseRecOn with
  | nil => rfl
  | append_singleton recovered event ih =>
    rw [List.length_append, List.length_singleton] at h
    rw [List.map_append, List.nodup_append] at hnodup
    rw [recoveredHub_concat_of_room (by omega), ih (by omega) hnodup.1, if_neg]
    simp_all

/-! ## A cycle -/

lemma flatMap_recordBytes_recovered (events : List EventRecord) :
    (events.map EventRecord.recovered).flatMap (recordBytes codec) =
      events.flatMap (recordBytes codec) := by
  rw [List.flatMap_map]
  refine List.flatMap_congr fun e _ => ?_
  unfold recordBytes
  rw [EventRecord.toProto_recovered]

lemma map_key_recovered (events : List EventRecord) :
    (events.map EventRecord.recovered).map EventRecord.key = events.map EventRecord.key := by
  simp

lemma recoverAndRewrite_of_encodes (config : Config) {bytes : List UInt8}
    {events : List EventRecord}
    (h : ∀ e ∈ events, Storable codec e) (hbytes : Encodes codec bytes events) :
    ∃ kept : List EventRecord, kept.Sublist (events.rtake (max config.eventRingCapacity 1)) ∧
      (kept.map EventRecord.key).Nodup ∧
      (∀ e ∈ events.rtake (max config.eventRingCapacity 1), e.key ∈ kept.map EventRecord.key) ∧
      recoverAndRewrite codec config (some bytes) =
        some (walMagic ++ kept.flatMap (recordBytes codec)) := by
  have hrecovered := recoverEvents_of_encodes config h hbytes
  obtain ⟨kept, hkept, hring⟩ := List.sublist_map_iff.mp
    (hrecovered ▸ recoveredHub_sublist config (recoverEvents codec config (some bytes)))
  refine ⟨kept, hkept, ?_, ?_, ?_⟩
  · rw [← map_key_recovered, ← hring]
    exact (recoveredHub_valid config _).1.nodup
  · intro e he
    have hwindow : ((events.rtake (max config.eventRingCapacity 1)).map
        EventRecord.recovered).length ≤ max config.eventRingCapacity 1 := by
      rw [List.length_map]
      exact length_rtake_le _ _
    have hkey := mem_recoveredHub_keys hwindow e.recovered (List.mem_map_of_mem he)
    simp_all
  · show some (walMagic ++ ((recoveredHub config _).events).flatMap (recordBytes codec)) = _
    rw [hrecovered, hring, flatMap_recordBytes_recovered]

lemma recoverAndRewrite_stable {events : List EventRecord} (h : ∀ e ∈ events, Storable codec e)
    (hlength : events.length ≤ max config.eventRingCapacity 1)
    (hnodup : (events.map EventRecord.key).Nodup) :
    recoverAndRewrite codec config (some (walMagic ++ events.flatMap (recordBytes codec))) =
      some (walMagic ++ events.flatMap (recordBytes codec)) := by
  have hrecovered := recoverEvents_of_encodes config h rfl
  rw [rtake_of_length_le hlength] at hrecovered
  unfold recoverAndRewrite
  rw [hrecovered]
  have hring : (recoveredHub config (events.map EventRecord.recovered)).events =
      events.map EventRecord.recovered := by
    refine recoveredHub_of_nodup ?_ ?_
    · rwa [List.length_map]
    · rwa [map_key_recovered]
  show some (walMagic ++ ((recoveredHub config _).events).flatMap (recordBytes codec)) = _
  rw [hring, flatMap_recordBytes_recovered]

/-! ## The projection and its cycles -/

theorem wire_projection_lossless (numbers : PbNumbers) (encode : PbMessage → List UInt8)
    (decode : List UInt8 → Option PbMessage) (batches : Codec) (config : Config)
    (events : List EventRecord)
    (hprost : ∀ e ∈ events, decode (encode (e.toMessage numbers)) = some (e.toMessage numbers))
    (hfits : ∀ e ∈ events, (encode (e.toMessage numbers)).length ≤ maxWalRecord) :
    let codec := numbers.codec encode decode batches
    let window := events.rtake (max config.eventRingCapacity 1)
    (∀ r : EventRecord, ∃ r', EventRecord.fromMessage numbers (r.toMessage numbers) = some r' ∧
      r'.toMessage numbers = r.toMessage numbers ∧ r'.key = r.key ∧
      r'.enrichment.isSome = r.enrichment.isSome ∧
      r'.resolvedConditionId = r.resolvedConditionId) ∧
    ∃ kept : List EventRecord, kept.Sublist window ∧ (kept.map EventRecord.key).Nodup ∧
      (∀ e ∈ window, e.key ∈ kept.map EventRecord.key) ∧
      ∀ cycles, (recoverAndRewrite codec config)^[cycles + 1]
          (some (walMagic ++ events.flatMap (recordBytes codec))) =
        some (walMagic ++ kept.flatMap (recordBytes codec)) := by
  intro codec window
  have hstorable : ∀ e ∈ events, Storable codec e := by
    intro e he
    refine ⟨hfits e he, ?_⟩
    show (decode (encode (e.toMessage numbers))).map numbers.read = _
    rw [hprost e he, Option.map_some, EventRecord.read_toMessage]
  refine ⟨fun r => ⟨r.recovered, r.fromMessage_toMessage numbers, r.toMessage_recovered numbers,
    r.recovered_key, r.recovered_enriched, r.recovered_resolvedConditionId⟩, ?_⟩
  obtain ⟨kept, hkept, hnodup, hall, hfirst⟩ :=
    recoverAndRewrite_of_encodes config hstorable rfl
  refine ⟨kept, hkept, hnodup, hall, fun cycles => ?_⟩
  have hsub : kept.Sublist events := hkept.trans (rtake_suffix _ _).sublist
  induction cycles with
  | zero => exact hfirst
  | succ cycles ih =>
    rw [Function.iterate_succ_apply', ih]
    exact recoverAndRewrite_stable (fun e he => hstorable e (hsub.subset he))
      (hkept.length_le.trans (length_rtake_le _ _)) hnodup

def sampleHit : EventRecord :=
  { testRecord 2 2 with
    enrichment := some {
      marketId := 9
      conditionId := Bytes.fill 32 11
      tokenIds := [Bytes.fill 32 12, Bytes.fill 32 13]
      tagIds := [4, 100]
      category := .sports
      betType := .overUnder
      negRisk := true } }

def sampleEncode (m : PbMessage) : List UInt8 := encodeUmaEvent (dashboardNumbers.read m)

def sampleDecode (known : List PbMessage) (bytes : List UInt8) : Option PbMessage :=
  known.find? fun m => sampleEncode m = bytes

/-- A journal of a resolved and an unresolved record, the second of them repeated. -/
theorem wire_projection_lossless_of_two :
    let events := [sampleHit, testRecord 3 3, testRecord 4 3]
    let codec := dashboardNumbers.codec sampleEncode
      (sampleDecode (events.map (EventRecord.toMessage dashboardNumbers.toPbNumbers))) (prostCodec [])
    ∃ kept : List EventRecord, kept.Sublist events ∧ (kept.map EventRecord.key).Nodup ∧
      (∀ e ∈ events, e.key ∈ kept.map EventRecord.key) ∧
      (recoverAndRewrite codec ⟨4, 4, 4, ⟨2, 1000, ⟨1000, 1000⟩⟩⟩)^[2]
          (some (walMagic ++ events.flatMap (recordBytes codec))) =
        some (walMagic ++ kept.flatMap (recordBytes codec)) := by
  intro events codec
  obtain ⟨-, kept, hkept, hnodup, hall, hcycles⟩ := wire_projection_lossless
    dashboardNumbers.toPbNumbers
    sampleEncode (sampleDecode (events.map (EventRecord.toMessage dashboardNumbers.toPbNumbers)))
    (prostCodec []) ⟨4, 4, 4, ⟨2, 1000, ⟨1000, 1000⟩⟩⟩ events (by decide +kernel)
    (by decide +kernel)
  exact ⟨kept, hkept, hnodup, hall, hcycles 1⟩

end RustUma.Service
