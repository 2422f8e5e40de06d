import RustUma.Storage.Journal
import RustUma.Model.Protobuf

/-!
# A journal whose tail was torn off

A crash leaves `events.wal` cut at some byte. The next process opens what is left in append mode,
writes its own records after it, and a later boot reads the file.
-/

namespace RustUma.Storage

open RustUma.Found RustUma.Model

def writeSession (codec : Codec) (file : Option (List UInt8)) (events : List EventRecord) :
    Except StorageError (List UInt8) :=
  (events.foldlM (Journal.append codec) (Journal.open_ file)).map fun j => j.flush.disk

def wholeRecords (codec : Codec) : ℕ → List EventRecord → List EventRecord
  | _, [] => []
  | n, e :: es =>
    if (recordBytes codec e).length ≤ n then
      e :: wholeRecords codec (n - (recordBytes codec e).length) es
    else []

def OnBoundary (codec : Codec) (n : ℕ) (events : List EventRecord) : Prop :=
  ((wholeRecords codec n events).flatMap (recordBytes codec)).length = n

instance (codec : Codec) (n : ℕ) (events : List EventRecord) :
    Decidable (OnBoundary codec n events) := inferInstanceAs (Decidable (_ = _))

def CleanCut (codec : Codec) (cut : ℕ) (before later : List EventRecord) : Prop :=
  cut = 0 ∨ 8 ≤ cut ∧ (later = [] ∨ OnBoundary codec (cut - 8) before)

variable {codec : Codec}

lemma writeSession_eq (events : List EventRecord) (h : ∀ e ∈ events, Storable codec e)
    (file : Option (List UInt8)) :
    writeSession codec file events =
      .ok ((Journal.open_ file).disk ++ events.flatMap (recordBytes codec)) := by
  have hfold : ∀ j : Journal, events.foldlM (Journal.append codec) j =
      .ok ⟨j.disk, j.buffer ++ events.flatMap (recordBytes codec), j.records + events.length⟩ := by
    induction events with
    | nil =>
      simp [pure, Except.pure]
    | cons e events ih =>
      intro j
      have hfits : ¬ maxWalRecord < (codec.encodeEvent e.toProto).length :=
        not_lt.mpr (h e List.mem_cons_self).fits
      rw [List.foldlM_cons]
      unfold Journal.append
      rw [if_neg hfits]
      show events.foldlM (Journal.append codec) _ = _
      grind
  have hbuffer : (Journal.open_ file).buffer = [] := by
    unfold Journal.open_
    grind
  unfold writeSession
  rw [hfold]
  simp [Except.map, Journal.flush, hbuffer]

lemma wholeRecords_subset (n : ℕ) (events : List EventRecord) :
    ∀ e ∈ wholeRecords codec n events, e ∈ events := by
  induction events generalizing n with
  | nil => exact fun e he => he
  | cons x events ih =>
    intro e he
    unfold wholeRecords at he
    grind

lemma take_records (codec : Codec) (n : ℕ) (events : List EventRecord) :
    ∃ torn, (events.flatMap (recordBytes codec)).take n =
        (wholeRecords codec n events).flatMap (recordBytes codec) ++ torn ∧
      (torn = [] ∨ ∃ e ∈ events, torn <+: recordBytes codec e ∧
        torn.length < (recordBytes codec e).length) := by
  induction events generalizing n with
  | nil => exact ⟨[], by simp [wholeRecords], Or.inl rfl⟩
  | cons e events ih =>
    by_cases hle : (recordBytes codec e).length ≤ n
    · obtain ⟨torn, htake, htorn⟩ := ih (n - (recordBytes codec e).length)
      refine ⟨torn, ?_, ?_⟩
      · rw [List.flatMap_cons, List.take_append, htake]
        simp [wholeRecords, hle]
      grind
    · refine ⟨(recordBytes codec e).take n, ?_, Or.inr ⟨e, List.mem_cons_self,
        List.take_prefix _ _, ?_⟩⟩
      · rw [List.flatMap_cons, List.take_append_of_le_length (by omega)]
        simp [wholeRecords, hle]
      simp_all

lemma scan_torn {torn : List UInt8} {events : List EventRecord}
    (h : ∀ e ∈ events, Storable codec e)
    (htorn : torn = [] ∨ ∃ e ∈ events, torn <+: recordBytes codec e ∧
      torn.length < (recordBytes codec e).length) :
    scan maxWalRecord crc32 torn = [] := by
  rcases htorn with rfl | ⟨e, he, hprefix, hlt⟩
  · rfl
  · exact scan_of_incomplete (splitRecord_torn (h e he).writable hprefix hlt)

lemma take_file {cut : ℕ} (hcut : 8 ≤ cut) (events : List EventRecord) :
    (walMagic ++ events.flatMap (recordBytes codec)).take cut =
      walMagic ++ (events.flatMap (recordBytes codec)).take (cut - 8) := by
  rw [List.take_append, List.take_of_length_le (by simpa [walMagic] using hcut)]
  rfl

lemma open_disk_of_length_pos {bytes : List UInt8} (h : 0 < bytes.length) :
    (Journal.open_ (some bytes)).disk = bytes := by
  unfold Journal.open_
  grind

lemma loadEvents_cleanCut {capacity cut : ℕ} {before later : List EventRecord}
    (hbefore : ∀ e ∈ before, Storable codec e) (hlater : ∀ e ∈ later, Storable codec e)
    (hcut : cut ≤ (walMagic ++ before.flatMap (recordBytes codec)).length)
    (hclean : CleanCut codec cut before later) :
    loadEvents codec capacity
        (some ((Journal.open_
            (some ((walMagic ++ before.flatMap (recordBytes codec)).take cut))).disk
          ++ later.flatMap (recordBytes codec))) =
      .ok (((wholeRecords codec (cut - 8) before ++ later).map EventRecord.recovered).rtake
        (max capacity 1)) := by
  rcases hclean with rfl | ⟨h8, hend⟩
  · -- an empty file gets its magic number back
    have hnone : wholeRecords codec (0 - 8) before = [] := by
      cases before with
      | nil => rfl
      | cons e before =>
        rfl
    rw [hnone]
    have hload := loadEvents_of_encodes_append capacity [] hlater
      (rfl : Encodes codec (walMagic ++ later.flatMap (recordBytes codec)) later) rfl
    rw [List.append_nil] at hload
    exact hload
  · have hpos : 0 < ((walMagic ++ before.flatMap (recordBytes codec)).take cut).length := by
      grind
    rw [open_disk_of_length_pos hpos, take_file h8]
    obtain ⟨torn, htake, htorn⟩ := take_records codec (cut - 8) before
    have hwhole : ∀ e ∈ wholeRecords codec (cut - 8) before, Storable codec e :=
      fun e he => hbefore e (wholeRecords_subset _ _ e he)
    rw [htake]
    rcases hend with rfl | hboundary
    · -- nothing follows the torn record
      have hload := loadEvents_of_encodes_append capacity torn hwhole
        (rfl : Encodes codec (walMagic ++
          (wholeRecords codec (cut - 8) before).flatMap (recordBytes codec)) _)
        (scan_torn hbefore htorn)
      simp_all
    · -- the cut left no torn record
      have hnil : torn = [] := by
        have hlen := congrArg List.length htake
        rw [List.length_take, List.length_append, hboundary] at hlen
        have hle : cut - 8 ≤ (before.flatMap (recordBytes codec)).length := by
          omega
        simp_all
      subst hnil
      have hall : ∀ e ∈ wholeRecords codec (cut - 8) before ++ later, Storable codec e := by
        grind
      have hload := loadEvents_of_encodes_append capacity [] hall
        (rfl : Encodes codec (walMagic ++
          (wholeRecords codec (cut - 8) before ++ later).flatMap (recordBytes codec)) _) rfl
      simp_all

lemma recordBytes_head {e : EventRecord} (h : Storable codec e) :
    (recordBytes codec e).head? = some 0 := by
  have hlen : (codec.encodeEvent e.toProto).length / 256 / 256 / 256 = 0 := by
    have hfits := h.fits
    unfold maxWalRecord at hfits
    omega
  simp [recordBytes, frame, toBeBytes, hlen]

lemma walMagic_letters : ∀ i < 7, walMagic[i]? ≠ some 0 := by decide

lemma loadEvents_cut_in_magic {capacity cut : ℕ} {before later : List EventRecord}
    (hlater : ∀ e ∈ later, Storable codec e) (hpos : 0 < cut) (hlt : cut < 8)
    (hcase : cut < 7 ∨ later = []) :
    ∃ e, loadEvents codec capacity
        (some ((Journal.open_
            (some ((walMagic ++ before.flatMap (recordBytes codec)).take cut))).disk
          ++ later.flatMap (recordBytes codec))) = .error e := by
  have hmagic : walMagic.length = 8 := rfl
  have htake : (walMagic ++ before.flatMap (recordBytes codec)).take cut = walMagic.take cut :=
    List.take_append_of_le_length (by omega)
  have hlen : (walMagic.take cut).length = cut := by
    grind
  rw [htake, open_disk_of_length_pos (by omega)]
  cases later with
  | nil =>
    refine ⟨.io, ?_⟩
    unfold loadEvents
    simp_all
  | cons e later =>
    have hcut : cut < 7 := hcase.resolve_right (by simp)
    refine ⟨.format "event WAL magic", ?_⟩
    unfold loadEvents
    have hlong :
        ¬ (walMagic.take cut ++ (e :: later).flatMap (recordBytes codec)).length < 8 := by
      simp only [List.length_append, hlen, List.flatMap_cons, recordBytes, length_frame]
      omega
    -- the first byte after the cut is the zero of a length word, where the magic has a letter
    have hbyte : ((walMagic.take cut ++ (e :: later).flatMap (recordBytes codec)).take 8)[cut]? =
        some 0 := by
      rw [List.getElem?_take_of_lt hlt, List.getElem?_append_right (by omega), hlen,
        Nat.sub_self, List.flatMap_cons]
      have hhead := recordBytes_head (hlater e List.mem_cons_self)
      rw [← List.head?_eq_getElem?, List.head?_append, hhead]
      rfl
    have hne : (walMagic.take cut ++ (e :: later).flatMap (recordBytes codec)).take 8 ≠
        walMagic := by
      intro heq
      rw [heq] at hbyte
      exact walMagic_letters cut hcut hbyte
    simp_all

theorem loadEvents_of_cleanCut (codec : Codec) (capacity cut : ℕ)
    (before later : List EventRecord) (bytes bytes' : List UInt8)
    (hstorable : ∀ e ∈ before ++ later, Storable codec e)
    (hbefore : writeSession codec none before = .ok bytes) (hcut : cut ≤ bytes.length)
    (hlater : writeSession codec (some (bytes.take cut)) later = .ok bytes') :
    (CleanCut codec cut before later →
      loadEvents codec capacity (some bytes') =
        .ok (((wholeRecords codec (cut - 8) before ++ later).map EventRecord.recovered).rtake
          (max capacity 1))) ∧
    (0 < cut → cut < 8 → cut < 7 ∨ later = [] →
      ∃ e, loadEvents codec capacity (some bytes') = .error e) := by
  have hb : ∀ e ∈ before, Storable codec e := fun e he =>
    hstorable e (List.mem_append_left _ he)
  have hl : ∀ e ∈ later, Storable codec e := fun e he =>
    hstorable e (List.mem_append_right _ he)
  rw [writeSession_eq before hb] at hbefore
  cases hbefore
  rw [writeSession_eq later hl] at hlater
  cases hlater
  refine ⟨?_, ?_⟩
  · intro hclean
    exact loadEvents_cleanCut hb hl hcut hclean
  · intro hpos hlt hcase
    exact loadEvents_cut_in_magic hl hpos hlt hcase

/-- A journal of one record cut right after it and written on: both records are read. -/
theorem loadEvents_of_cleanCut_after_one :
    let codec := prostCodec [(testRecord 1 1).toProto, (testRecord 2 2).toProto]
    ∃ bytes bytes', writeSession codec none [testRecord 1 1] = .ok bytes ∧
      writeSession codec (some (bytes.take 96)) [testRecord 2 2] = .ok bytes' ∧
      loadEvents codec 8 (some bytes') =
        .ok [(testRecord 1 1).recovered, (testRecord 2 2).recovered] := by
  intro codec
  have h1 : Storable codec (testRecord 1 1) := ⟨by decide +kernel, by decide +kernel⟩
  have h2 : Storable codec (testRecord 2 2) := ⟨by decide +kernel, by decide +kernel⟩
  have hall : ∀ e ∈ [testRecord 1 1] ++ [testRecord 2 2], Storable codec e := by
    simp [h1, h2]
  have hbefore := writeSession_eq [testRecord 1 1] (by simpa using h1) none
  have hlater := writeSession_eq [testRecord 2 2] (by simpa using h2)
    (some (((Journal.open_ none).disk ++ [testRecord 1 1].flatMap (recordBytes codec)).take 96))
  refine ⟨_, _, hbefore, hlater, ?_⟩
  have hclean : CleanCut codec 96 [testRecord 1 1] [testRecord 2 2] :=
    Or.inr ⟨by decide, Or.inr (by decide +kernel)⟩
  have hmain := (loadEvents_of_cleanCut codec 8 96 [testRecord 1 1] [testRecord 2 2] _ _ hall
    hbefore (by decide +kernel) hlater).1 hclean
  rw [hmain]
  decide +kernel

/-- The same journal cut one byte short and written on: with the torn record, the whole record
appended after it is lost. -/
theorem loadEvents_torn_then_appended :
    let codec := prostCodec [(testRecord 1 1).toProto, (testRecord 2 2).toProto]
    ∃ bytes bytes', writeSession codec none [testRecord 1 1] = .ok bytes ∧
      bytes.length = 96 ∧ wholeRecords codec (95 - 8) [testRecord 1 1] = [] ∧
      writeSession codec (some (bytes.take 95)) [testRecord 2 2] = .ok bytes' ∧
      loadEvents codec 8 (some bytes') = .ok [] ∧
      loadEvents codec 8 (some bytes') ≠ .ok [(testRecord 2 2).recovered] := by
  intro codec
  have h1 : Storable codec (testRecord 1 1) := ⟨by decide +kernel, by decide +kernel⟩
  have h2 : Storable codec (testRecord 2 2) := ⟨by decide +kernel, by decide +kernel⟩
  have hbefore := writeSession_eq [testRecord 1 1] (by simpa using h1) none
  have hlater := writeSession_eq [testRecord 2 2] (by simpa using h2)
    (some (((Journal.open_ none).disk ++ [testRecord 1 1].flatMap (recordBytes codec)).take 95))
  refine ⟨_, _, hbefore, by decide +kernel, by decide +kernel, hlater, by decide +kernel, ?_⟩
  decide +kernel

end RustUma.Storage
