import RustUma.Found.Fallible
import RustUma.Found.Files
import RustUma.Storage.TornTail

/-!
# A compaction that fails (`src/storage.rs` `Journal::rewrite`)

`rewrite` flushes, fills a temporary file, renames it over `events.wal` and opens the name again.
The writer that is in use until then goes on with the file it has open, whatever its name is by now;
the storage loop only logs an error.
-/

namespace RustUma.Storage

open RustUma.Found RustUma.Model

/-! ## The journal over files -/

inductive WalName
  | wal
  | temporary
  deriving DecidableEq

structure WalFile where
  files : Files WalName
  inode : ℕ
  buffer : List UInt8
  records : ℕ

inductive RewriteFault
  | flush (written : ℕ)
  | create
  | write (written : ℕ)
  | flushTemporary (written : ℕ)
  | sync
  | rename
  | reopen
  deriving DecidableEq

namespace WalFile

def open_ (files : Files WalName) : WalFile :=
  match files.inode .wal with
  | some i =>
    if (files.data i).length = 0 then ⟨files.setData i walMagic, i, [], 0⟩
    else ⟨files, i, [], 0⟩
  | none =>
    ⟨(files.create .wal).1.setData (files.create .wal).2 walMagic, (files.create .wal).2, [], 0⟩

def spill (f : WalFile) (n : ℕ) : WalFile :=
  { f with
    files := f.files.setData f.inode (f.files.data f.inode ++ f.buffer.take n)
    buffer := f.buffer.drop n }

def append (codec : Codec) (f : WalFile) (event : EventRecord) (spilled : ℕ) :
    Except StorageError WalFile :=
  if maxWalRecord < (codec.encodeEvent event.toProto).length then
    .error (.format "event WAL record too large")
  else
    .ok (spill { f with buffer := f.buffer ++ recordBytes codec event, records := f.records + 1 }
      spilled)

def appendAll (codec : Codec) (f : WalFile) (entries : List (EventRecord × ℕ)) :
    Except StorageError WalFile :=
  entries.foldlM (fun f entry => f.append codec entry.1 entry.2) f

def flush (f : WalFile) : WalFile := f.spill f.buffer.length

def fill (codec : Codec) (f : WalFile) (events : List EventRecord) (n : ℕ) : WalFile :=
  { f with
    files := (f.files.create .temporary).1.setData (f.files.create .temporary).2
      ((walMagic ++ events.flatMap (recordBytes codec)).take n) }

def filled (codec : Codec) (f : WalFile) (events : List EventRecord) : WalFile :=
  f.fill codec events (walMagic ++ events.flatMap (recordBytes codec)).length

def install (f : WalFile) (events : List EventRecord) (reopens : Bool) :
    WalFile × Except StorageError Unit :=
  match f.files.rename .temporary .wal with
  | none => (f, .error .io)
  | some files =>
    match reopens, files.inode .wal with
    | true, some inode => (⟨files, inode, [], events.length⟩, .ok ())
    | _, _ => ({ f with files := files }, .error .io)

def rewrite (codec : Codec) (f : WalFile) (events : List EventRecord) :
    Option RewriteFault → WalFile × Except StorageError Unit
  | some (.flush written) => (f.spill written, .error .io)
  | some .create => (f.flush, .error .io)
  | some (.write written) | some (.flushTemporary written) =>
    (f.flush.fill codec events written, .error .io)
  | some .sync | some .rename => (f.flush.filled codec events, .error .io)
  | some .reopen => (f.flush.filled codec events).install events false
  | none => (f.flush.filled codec events).install events true

end WalFile

/-! ## What the files say of the journal -/

structure Refines (f : WalFile) (j : Journal) : Prop where
  attached : f.files.inode .wal = some f.inode
  bytes : f.files.data f.inode ++ f.buffer = j.disk ++ j.buffer
  records : f.records = j.records

variable {codec : Codec} {f f' : WalFile} {j : Journal}

lemma Refines.spill (h : Refines f j) (n : ℕ) : Refines (f.spill n) j where
  attached := h.attached
  bytes := by
    show (f.files.setData f.inode (f.files.data f.inode ++ f.buffer.take n)).data f.inode ++
      f.buffer.drop n = _
    rw [Files.data_setData, List.append_assoc, List.take_append_drop]
    exact h.bytes
  records := h.records

lemma Refines.append {event : EventRecord} {spilled : ℕ} (h : Refines f j)
    (happend : f.append codec event spilled = .ok f') :
    ∃ j', j.append codec event = .ok j' ∧ Refines f' j' := by
  unfold WalFile.append at happend
  split_ifs at happend with hlarge
  cases happend
  have hpushed : Refines
      { f with buffer := f.buffer ++ recordBytes codec event, records := f.records + 1 }
      { j with buffer := j.buffer ++ recordBytes codec event, records := j.records + 1 } := by
    refine ⟨h.attached, ?_, congrArg (· + 1) h.records⟩
    rw [← List.append_assoc, h.bytes, List.append_assoc]
  exact ⟨_, if_neg hlarge, hpushed.spill spilled⟩

lemma Refines.appendAll {entries : List (EventRecord × ℕ)} (h : Refines f j)
    (happend : f.appendAll codec entries = .ok f') :
    ∃ j', (entries.map Prod.fst).foldlM (Journal.append codec) j = .ok j' ∧ Refines f' j' := by
  induction entries generalizing f j with
  | nil =>
    cases happend
    exact ⟨j, rfl, h⟩
  | cons entry entries ih =>
    obtain ⟨f₁, hfirst, hrest⟩ := foldlM_cons_eq_ok happend
    obtain ⟨j₁, hj₁, h₁⟩ := h.append hfirst
    obtain ⟨j', hfold, h'⟩ := ih h₁ hrest
    refine ⟨j', ?_, h'⟩
    rw [List.map_cons, List.foldlM_cons, hj₁]
    exact hfold

lemma Refines.read_flush (h : Refines f j) : f.flush.files.read .wal = some j.flush.disk := by
  have hbytes := (h.spill f.buffer.length).bytes
  have hbuffer : (f.spill f.buffer.length).buffer = [] := List.drop_length
  rw [hbuffer, List.append_nil] at hbytes
  show (f.files.inode .wal).map (f.spill f.buffer.length).files.data = _
  rw [h.attached]
  exact congrArg some hbytes

lemma Refines.fill (h : Refines f j) (events : List EventRecord) (n : ℕ) :
    Refines (f.fill codec events n) j := by
  obtain ⟨htemporary, -, hread⟩ := f.files.create_spec .temporary
  have hne : WalName.wal ≠ .temporary := by decide
  have hattached : (f.fill codec events n).files.inode .wal = some f.inode := by
    show (f.files.create .temporary).1.inode .wal = _
    rw [Files.inode_create_of_ne hne, h.attached]
  refine ⟨hattached, ?_, h.records⟩
  have hsame : (f.fill codec events n).files.read .wal = f.files.read .wal :=
    (Files.read_setData_of_ne htemporary hne _).trans (hread .wal hne)
  unfold Files.read at hsame
  rw [hattached, h.attached, Option.map_some, Option.map_some, Option.some_inj] at hsame
  show (f.fill codec events n).files.data f.inode ++ f.buffer = _
  rw [hsame]
  exact h.bytes

lemma Refines.failed_rewrite (codec : Codec) (h : Refines f j) (events : List EventRecord)
    {fault : RewriteFault} (hfault : fault ≠ .reopen) :
    (f.rewrite codec events (some fault)).2 = .error .io ∧
      Refines (f.rewrite codec events (some fault)).1 j := by
  have hflush : Refines f.flush j := h.spill _
  cases fault with
  | flush written => exact ⟨rfl, h.spill written⟩
  | create => exact ⟨rfl, hflush⟩
  | write written | flushTemporary written => exact ⟨rfl, hflush.fill events written⟩
  | sync | rename => exact ⟨rfl, hflush.fill events _⟩
  | reopen => exact absurd rfl hfault

/-! ## What is recovered -/

lemma foldlM_append_ok {events : List EventRecord} {j' : Journal}
    (h : events.foldlM (Journal.append codec) j = .ok j') :
    j'.disk ++ j'.buffer = j.disk ++ j.buffer ++ events.flatMap (recordBytes codec) ∧
      ∀ e ∈ events, (codec.encodeEvent e.toProto).length ≤ maxWalRecord := by
  induction events generalizing j with
  | nil =>
    cases h
    simp
  | cons e events ih =>
    obtain ⟨j₁, hfirst, hrest⟩ := foldlM_cons_eq_ok h
    obtain ⟨hbytes, hfits⟩ := ih hrest
    unfold Journal.append at hfirst
    grind

/-! ## A writer without a name -/

structure WalFile.Sound (f : WalFile) : Prop where
  made : f.inode < f.files.next
  other : f.files.inode .temporary ≠ some f.inode

structure Away (f : WalFile) (bytes : List UInt8) : Prop where
  inode : f.files.inode .wal ≠ some f.inode
  read : f.files.read .wal = some bytes

namespace Away

variable {bytes : List UInt8}

lemma spill (h : Away f bytes) (n : ℕ) : Away (f.spill n) bytes where
  inode := h.inode
  read := (Files.read_setData_of_inode_ne h.inode _).trans h.read

lemma read_flush (h : Away f bytes) : f.flush.files.read .wal = some bytes := (h.spill _).read

lemma fill (h : Away f bytes) (events : List EventRecord) (n : ℕ) :
    Away (f.fill codec events n) bytes := by
  obtain ⟨htemporary, -, hread⟩ := f.files.create_spec .temporary
  have hne : WalName.wal ≠ .temporary := by decide
  refine ⟨?_, ((Files.read_setData_of_ne htemporary hne _).trans (hread .wal hne)).trans h.read⟩
  show (f.files.create .temporary).1.inode .wal ≠ _
  rw [Files.inode_create_of_ne hne]
  exact h.inode

lemma appendAll {entries : List (EventRecord × ℕ)} (h : Away f bytes)
    (happend : f.appendAll codec entries = .ok f') : Away f' bytes := by
  induction entries generalizing f with
  | nil =>
    cases happend
    exact h
  | cons entry entries ih =>
    obtain ⟨f₁, hfirst, hrest⟩ := foldlM_cons_eq_ok happend
    unfold WalFile.append at hfirst
    split_ifs at hfirst
    cases hfirst
    have hpushed : Away { f with
        buffer := f.buffer ++ recordBytes codec entry.1, records := f.records + 1 } bytes :=
      ⟨h.inode, h.read⟩
    exact ih (hpushed.spill entry.2) hrest

lemma failed_rewrite (codec : Codec) (h : Away f bytes) (events : List EventRecord)
    {fault : RewriteFault} (hfault : fault ≠ .reopen) :
    (f.rewrite codec events (some fault)).2 = .error .io ∧
      Away (f.rewrite codec events (some fault)).1 bytes := by
  have hflush : Away f.flush bytes := h.spill _
  cases fault with
  | flush written => exact ⟨rfl, h.spill written⟩
  | create => exact ⟨rfl, hflush⟩
  | write written | flushTemporary written => exact ⟨rfl, hflush.fill events written⟩
  | sync | rename => exact ⟨rfl, hflush.fill events _⟩
  | reopen => exact absurd rfl hfault

end Away

lemma WalFile.Sound.inode_filled (h : f.Sound) (events : List EventRecord) :
    (f.filled codec events).files.inode .temporary ≠ some f.inode := by
  show (f.files.create .temporary).1.inode .temporary ≠ _
  unfold Files.create
  split
  · next i hi => exact fun hsome => h.other hsome
  · show Function.update f.files.inode .temporary (some f.files.next) .temporary ≠ _
    rw [Function.update_self, Ne, Option.some_inj]
    exact h.made.ne'

lemma away_reopen (codec : Codec) (h : f.Sound) (snapshot : List EventRecord) :
    (f.rewrite codec snapshot (some .reopen)).2 = .error .io ∧
      Away (f.rewrite codec snapshot (some .reopen)).1
        (walMagic ++ snapshot.flatMap (recordBytes codec)) := by
  have hsound : f.flush.Sound := ⟨h.made, h.other⟩
  obtain ⟨htemporary, -, -⟩ := f.flush.files.create_spec .temporary
  have hfilled : (f.flush.filled codec snapshot).files.inode .temporary = _ := htemporary
  obtain ⟨files, hrename⟩ := Files.exists_rename_of_inode hfilled .wal
  have hrewrite : f.rewrite codec snapshot (some .reopen) =
      ({ f.flush.filled codec snapshot with files := files }, .error .io) := by
    unfold WalFile.rewrite WalFile.install
    rw [hrename]
  rw [hrewrite]
  refine ⟨rfl, ?_, ?_⟩
  · show files.inode .wal ≠ _
    rw [Files.inode_rename hrename]
    exact hsound.inode_filled snapshot
  · show files.read .wal = _
    rw [Files.read_rename hrename, Files.read]
    show Option.map _ ((f.flush.files.create .temporary).1.inode .temporary) = _
    rw [htemporary, Option.map_some]
    exact congrArg some ((Files.data_setData _).trans (List.take_length))

def WalFile.visible (f : WalFile) : Option (List UInt8) :=
  if f.files.inode .wal = some f.inode then some (f.files.data f.inode ++ f.buffer)
  else f.files.read .wal

def window (capacity : ℕ) (events : List EventRecord) : List EventRecord :=
  (events.map EventRecord.recovered).rtake (max capacity 1)

lemma loadEvents_whole {events : List EventRecord} {bytes : List UInt8} (capacity : ℕ)
    (hstored : ∀ e ∈ events, Storable codec e) (h : Encodes codec bytes events) :
    loadEvents codec capacity (some bytes) = .ok (window capacity events) := by
  rw [← List.append_nil bytes]
  exact loadEvents_of_encodes_append capacity [] hstored h rfl

lemma Refines.loadEvents_appended {held : List EventRecord} {later : List (EventRecord × ℕ)}
    (capacity : ℕ) (h : Refines f j) (hheld : Encodes codec (j.disk ++ j.buffer) held)
    (hstored : ∀ e ∈ held, Storable codec e)
    (hprost : ∀ entry ∈ later, codec.decodeEvent (codec.encodeEvent entry.1.toProto) =
      some entry.1.toProto)
    (happend : f.appendAll codec later = .ok f') :
    loadEvents codec capacity (f'.flush.files.read .wal) =
      .ok (window capacity (held ++ later.map Prod.fst)) := by
  obtain ⟨j', hfold, hafter⟩ := h.appendAll happend
  obtain ⟨hbytes, hfits⟩ := foldlM_append_ok hfold
  rw [hafter.read_flush]
  refine loadEvents_whole capacity (fun e he => ?_) ?_
  · rcases List.mem_append.mp he with he | he
    · exact hstored e he
    · obtain ⟨entry, hentry, rfl⟩ := List.mem_map.mp he
      exact ⟨hfits _ he, hprost entry hentry⟩
  · show j'.disk ++ j'.buffer = _
    rw [hbytes, show j.disk ++ j.buffer = _ from hheld, List.flatMap_append, List.append_assoc]

theorem failed_rewrite_keeps_events (codec : Codec) (capacity : ℕ) (f f' : WalFile)
    (held snapshot : List EventRecord) (fault : RewriteFault) (later : List (EventRecord × ℕ))
    (bytes : List UInt8) (hsound : f.Sound) (hvisible : f.visible = some bytes)
    (hheld : Encodes codec bytes held) (hstored : ∀ e ∈ held ++ snapshot, Storable codec e)
    (hprost : ∀ entry ∈ later, codec.decodeEvent (codec.encodeEvent entry.1.toProto) =
      some entry.1.toProto)
    (happend : (f.rewrite codec snapshot (some fault)).1.appendAll codec later = .ok f') :
    (f.rewrite codec snapshot (some fault)).2 = .error .io ∧
      (loadEvents codec capacity (f'.flush.files.read .wal) =
          .ok (window capacity (held ++ later.map Prod.fst)) ↔
        (f.files.inode .wal = some f.inode ∧ fault ≠ .reopen) ∨
          window capacity (if fault = .reopen then snapshot else held) =
            window capacity (held ++ later.map Prod.fst)) := by
  rw [List.forall_mem_append] at hstored
  unfold WalFile.visible at hvisible
  by_cases hfault : fault = .reopen
  · subst hfault
    obtain ⟨herror, haway⟩ := away_reopen codec hsound snapshot
    refine ⟨herror, ?_⟩
    rw [(haway.appendAll happend).read_flush, loadEvents_whole capacity hstored.2 rfl]
    simp
  split_ifs at hvisible with hattached
  · cases hvisible
    have hrefines : Refines f ⟨f.files.data f.inode, f.buffer, f.records⟩ := ⟨hattached, rfl, rfl⟩
    obtain ⟨herror, hfailed⟩ := hrefines.failed_rewrite codec snapshot hfault
    exact ⟨herror, iff_of_true (hfailed.loadEvents_appended capacity hheld hstored.1 hprost happend)
      (Or.inl ⟨hattached, hfault⟩)⟩
  · have haway : Away f bytes := ⟨hattached, hvisible⟩
    obtain ⟨herror, hfailed⟩ := haway.failed_rewrite codec snapshot hfault
    refine ⟨herror, ?_⟩
    rw [(hfailed.appendAll happend).read_flush, loadEvents_whole capacity hstored.1 hheld]
    simp [hattached, hfault]

def twoRecords : Codec := prostCodec [(testRecord 1 1).toProto, (testRecord 2 2).toProto]

def sampleWal : WalFile :=
  { WalFile.open_ Files.empty with buffer := recordBytes twoRecords (testRecord 1 1) }

/-- The rename fails; a second event is appended and flushed. -/
theorem failed_rewrite_keeps_two :
    ∃ f', (sampleWal.rewrite twoRecords [testRecord 1 1] (some .rename)).1.appendAll twoRecords
        [(testRecord 2 2, 5)] = .ok f' ∧
      loadEvents twoRecords 4 (f'.flush.files.read .wal) =
        .ok (window 4 [testRecord 1 1, testRecord 2 2]) := by
  refine ⟨_, rfl, ?_⟩
  exact (failed_rewrite_keeps_events twoRecords 4 sampleWal _ [testRecord 1 1] [testRecord 1 1]
    .rename [(testRecord 2 2, 5)] _ ⟨by decide, by decide⟩ rfl (by rfl) (by decide +kernel)
    (by decide +kernel) rfl).2.mpr (Or.inl (by decide +kernel))

/-- **An event is lost after a failed reopen.** The rename has succeeded, and opening the name
fails. The next event is appended and flushed without an error, and no boot finds it. -/
theorem appended_after_failed_reopen :
    (sampleWal.rewrite twoRecords [testRecord 1 1] (some .reopen)).2 = .error .io ∧
      ∃ f', (sampleWal.rewrite twoRecords [testRecord 1 1] (some .reopen)).1.appendAll twoRecords
          [(testRecord 2 2, 0)] = .ok f' ∧
        f'.flush.buffer = [] ∧
        loadEvents twoRecords 4 (f'.flush.files.read .wal) = .ok [(testRecord 1 1).recovered] := by
  refine ⟨by decide +kernel, _, rfl, by decide +kernel, by decide +kernel⟩

end RustUma.Storage
