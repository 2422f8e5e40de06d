import RustUma.Edge.Upstream
import RustUma.ForfeitFeed.Store
import RustUma.Found.Csv
import RustUma.Found.Run

/-!
# Tailing the probe's file (`tools/forfeit-feed/forfeit_ws.py` `Tailer`, `build_event`)

The feed reads the file of results once from the start and then polls what is appended. The scan is
read after read, while the file grows; where a read finds nothing, what there is of a line is taken
as a line. Polling starts at the size that was read before the scan, with nothing in its buffer. The
file is taken as its text.
-/

namespace RustUma.ForfeitFeed

open RustUma.Found RustUma.Edge

/-! ## Events -/

structure PyText (φ : Type) where
  strip : List Char → List Char
  lower : List Char → List Char
  float : List Char → Option φ
  int : List Char → Option ℤ

structure FeedEvent (φ : Type) where
  source : List Char
  detectIso : Option (List Char)
  detectEpoch : Option φ
  game : Option (List Char)
  league : Option (List Char)
  matchName : Option (List Char)
  teamA : List Char
  teamB : List Char
  gameNum : List Char
  isSeries : Bool
  mapNumber : Option ℤ
  winner : List Char
  loser : List Char
  srcEndAt : Option (List Char)
  detectLagVsEndS : Option φ
  lengthS : Option ℤ
  status : Option (List Char)
  draw : Bool
  matchId : Option ℤ
  matchBeginAt : Option (List Char)
  deriving DecidableEq

def hdr : Csv.Row :=
  ["source", "detect_iso", "detect_epoch", "game", "league", "match_name", "team_a", "team_b",
    "game_num", "winner", "src_end_at", "detect_lag_vs_end_s", "length", "forfeit", "status",
    "draw", "match_id", "match_begin_at"].map String.toList

def cell (names row : Csv.Row) (name : String) : Option (List Char) :=
  ((names.zip row).find? fun p => p.1 = name.toList).map Prod.snd

section Events

variable {φ : Type} (py : PyText φ)

def truthy (v : Option (List Char)) : Bool :=
  py.lower (py.strip (v.getD [])) ∈ ["1".toList, "true".toList, "yes".toList]

def num {β : Type} (cast : List Char → Option β) (v : Option (List Char)) : Option β :=
  v.bind fun text => if py.strip text = [] then none else cast (py.strip text)

def buildEvent (row : String → Option (List Char)) : FeedEvent φ :=
  let gn := py.strip ((row "game_num").getD [])
  let winner := py.strip ((row "winner").getD [])
  let a := py.strip ((row "team_a").getD [])
  let b := py.strip ((row "team_b").getD [])
  { source := ((row "source").filter (· ≠ [])).getD "pandascore".toList
    detectIso := row "detect_iso"
    detectEpoch := num py py.float (row "detect_epoch")
    game := row "game"
    league := row "league"
    matchName := row "match_name"
    teamA := a
    teamB := b
    gameNum := gn
    isSeries := gn = "series".toList
    mapNumber := if gn = "series".toList then none else num py py.int (some gn)
    winner := winner
    loser := if winner = a ∨ winner = b then (if winner = a then b else a) else []
    srcEndAt := row "src_end_at"
    detectLagVsEndS := num py py.float (row "detect_lag_vs_end_s")
    lengthS := num py py.int (row "length")
    status := row "status"
    draw := truthy py (row "draw")
    matchId := num py py.int (row "match_id")
    matchBeginAt := row "match_begin_at" }

def eventKey (e : FeedEvent φ) : Option ℤ × List Char × Option (List Char) :=
  (e.matchId, e.gameNum, e.srcEndAt)

def forfeits (names : Csv.Row) (rows : List Csv.Row) : List (FeedEvent φ) :=
  ((rows.map (cell names)).filter fun row => truthy py (row "forfeit")).map (buildEvent py)

def scanned (rows : List Csv.Row) : List (FeedEvent φ) :=
  match rows with
  | [] => []
  | names :: rows => forfeits py names rows

def polled (text : List Char) : List (FeedEvent φ) :=
  forfeits py hdr ((Csv.read text).filter fun row => cell hdr row "source" ≠ some "source".toList)

end Events

/-! ## The tailer -/

def rsplitLine (buf : List Char) : Option (List Char × List Char) :=
  (splitOnce '\n' buf.reverse).map fun p => (p.2.reverse, p.1.reverse)

structure Scan where
  position : ℕ
  pending : Bool
  reader : Csv.Reader
  deriving DecidableEq

def Scan.take (scan : Scan) (chunk : List Char) : Scan where
  position := scan.position + chunk.length
  pending := chunk.getLast?.any fun c => !Csv.isBreak c
  reader := chunk.foldl Csv.Reader.feed scan.reader

inductive TailPhase
  | starting
  | scanning (size : ℕ) (scan : Scan)
  | tailing
  deriving DecidableEq

structure Tailer (φ : Type) where
  file : List Char
  phase : TailPhase
  offset : ℕ
  buf : List Char
  events : List (FeedEvent φ)
  deriving DecidableEq

inductive TailAction
  | write (chunk : List Char)
  | stat
  | read (n : ℕ)
  | eof
  | poll
  | raise (stored : ℕ)
  deriving DecidableEq

namespace Tailer

variable {φ : Type} (py : PyText φ)

def start : Tailer φ := ⟨[], .starting, 0, [], []⟩

def poll (s : Tailer φ) (handled : List (FeedEvent φ) → List (FeedEvent φ)) : Tailer φ :=
  if s.offset < s.file.length then
    let buf := s.buf ++ s.file.drop s.offset
    match rsplitLine buf with
    | none => { s with offset := s.file.length, buf }
    | some (complete, rest) =>
      { s with
        offset := s.file.length
        buf := rest
        events := (handled (polled py complete)).foldl (Store.keep eventKey) s.events }
  else s

def step (s : Tailer φ) : TailAction → Option (Tailer φ)
  | .write chunk => some { s with file := s.file ++ chunk }
  | .stat =>
    if s.phase = .starting then
      some { s with phase := .scanning s.file.length ⟨0, false, .empty⟩ }
    else none
  | .read n =>
    match s.phase with
    | .scanning size scan =>
      let chunk := (s.file.drop scan.position).take n
      if chunk = [] then none else some { s with phase := .scanning size (scan.take chunk) }
    | _ => none
  | .eof =>
    match s.phase with
    | .scanning size scan =>
      if scan.position < s.file.length then none
      -- the half line is handed out, and the next read may find more
      else if scan.pending then
        some { s with
          phase := .scanning size { scan with pending := false, reader := scan.reader.endLine } }
      else
        some { s with
          phase := .tailing
          offset := size
          events := (scanned py scan.reader.finish).foldl (Store.keep eventKey) s.events }
    | _ => none
  | .poll => if s.phase = .tailing then some (s.poll py id) else none
  | .raise stored => if s.phase = .tailing then some (s.poll py (·.take stored)) else none

def WholeRows (s : Tailer φ) : TailAction → Prop
  | .stat | .eof => ∀ c ∈ s.file.getLast?, c = '\n'
  | .write _ | .read _ | .poll => True
  | .raise _ => False

end Tailer

/-! ## What is stored -/

lemma foldl_keep {α κ : Type} [DecidableEq κ] {key : α → κ} (l : List α) {events : List α}
    (h : (events.map key).Nodup) :
    ((l.foldl (Store.keep key) events).map key).Nodup ∧
      (∀ e ∈ l.foldl (Store.keep key) events, e ∈ events ∨ e ∈ l) ∧
      (∀ e, e ∈ events ∨ e ∈ l → ∃ e' ∈ l.foldl (Store.keep key) events, key e' = key e) := by
  induction l generalizing events with
  | nil => grind
  | cons x l ih =>
    have hkeep : ((Store.keep key events x).map key).Nodup ∧
        (∀ e ∈ Store.keep key events x, e ∈ events ∨ e = x) ∧
        (∀ e, e ∈ events ∨ e = x → ∃ e' ∈ Store.keep key events x, key e' = key e) := by
      unfold Store.keep
      grind
    obtain ⟨hnodup, hfrom, hinto⟩ := hkeep
    obtain ⟨hnodup', hfrom', hinto'⟩ := ih hnodup
    refine ⟨hnodup', ?_, ?_⟩
    · grind
    · intro e he
      have hcases : (e ∈ events ∨ e = x) ∨ e ∈ l := by
        grind
      grind

structure ProbeRow (row : Csv.Row) : Prop where
  width : row.length = hdr.length
  source : row.head? = some "pandascore".toList
  unbroken : ∀ f ∈ row, ∀ c ∈ f, Csv.isBreak c = false

lemma rsplitLine_append {complete rest : List Char} (h : '\n' ∉ rest) :
    rsplitLine (complete ++ '\n' :: rest) = some (complete, rest) := by
  have hreverse : (complete ++ '\n' :: rest).reverse =
      rest.reverse ++ '\n' :: complete.reverse := by simp
  rw [rsplitLine, hreverse, splitOnce_append (by simpa using h)]
  simp

lemma rsplitLine_of_notMem {buf : List Char} (h : '\n' ∉ buf) : rsplitLine buf = none := by
  rw [rsplitLine, splitOnce_of_notMem (by simpa using h)]
  rfl

section Rows

variable {φ : Type} {py : PyText φ} {rows : List Csv.Row}

def unheaded (rows : List Csv.Row) : List Csv.Row :=
  rows.filter fun row => cell hdr row "source" ≠ some "source".toList

lemma unheaded_probe (h : ∀ row ∈ rows, ProbeRow row) : unheaded rows = rows := by
  apply List.filter_eq_self.mpr
  intro row hrow
  obtain ⟨rest, hrest⟩ : ∃ rest, row = "pandascore".toList :: rest := by
    have hhead := (h row hrow).source
    cases row with
    | nil => simp at hhead
    | cons f rest => simp_all
  have hcell : cell hdr ("pandascore".toList :: rest) "source" = some "pandascore".toList := rfl
  grind

lemma unheaded_hdr (rows : List Csv.Row) : unheaded (hdr :: rows) = unheaded rows := by
  rfl

lemma line_of_mem (h : ∀ row ∈ rows, ProbeRow row) {row : Csv.Row} (hrow : row ∈ hdr :: rows) :
    2 ≤ row.length ∧ ∀ f ∈ row, '\n' ∉ f := by
  rcases List.mem_cons.mp hrow with rfl | hrow
  · decide
  · refine ⟨by rw [(h row hrow).width]; decide, ?_⟩
    intro f hf hmem
    exact absurd ((h row hrow).unbroken f hf _ hmem) (by decide)

lemma scanned_eq (n : ℕ) (h : ∀ row ∈ rows, ProbeRow row) :
    scanned py ((hdr :: rows).take n) =
      forfeits py hdr (unheaded ((hdr :: rows).take n)) := by
  unfold scanned
  cases n with
  | zero => rfl
  | succ n =>
    rw [List.take_succ_cons, unheaded_hdr, unheaded_probe fun row hrow =>
      h row (List.mem_of_mem_take hrow)]

end Rows

/-! ## The invariant -/

namespace Tailer

variable {φ : Type} {py : PyText φ} {rows : List Csv.Row} {s s' : Tailer φ} {a : TailAction}

def linesText (rows : List Csv.Row) (n : ℕ) : List Char :=
  ((hdr :: rows).take n).flatMap Csv.writeRow

variable (py rows) in
def Stores (n : ℕ) (events : List (FeedEvent φ)) : Prop :=
  ∀ e ∈ forfeits py hdr (unheaded ((hdr :: rows).take n)), ∃ e' ∈ events, eventKey e' = eventKey e

variable (py rows) in
structure Follows (s : Tailer φ) : Prop where
  once : (s.events.map eventKey).Nodup
  own : ∀ e ∈ s.events, e ∈ forfeits py hdr rows
  buf : s.phase ≠ .tailing → s.buf = []
  scanning : ∀ size scan, s.phase = .scanning size scan →
    (size ≤ s.file.length ∧ ∃ n, s.file.take size = linesText rows n) ∧
    scan.position ≤ s.file.length ∧
    scan.pending = (s.file.take scan.position).getLast?.any (fun c => !Csv.isBreak c) ∧
    scan.reader = (s.file.take scan.position).foldl Csv.Reader.feed .empty
  tailing : s.phase = .tailing → s.offset ≤ s.file.length ∧ ∃ n,
    s.file.take s.offset = linesText rows n ++ s.buf ∧ '\n' ∉ s.buf ∧ Stores py rows n s.events

lemma poll_spec (py : PyText φ) (s : Tailer φ)
    (handled : List (FeedEvent φ) → List (FeedEvent φ)) :
    (s.poll py handled).file = s.file ∧ (s.poll py handled).phase = s.phase ∧
    (s.offset ≤ s.file.length → (s.poll py handled).offset = s.file.length) := by
  unfold Tailer.poll
  grind

lemma follows_start : Follows py rows (start : Tailer φ) where
  once := List.nodup_nil
  own := by simp [start]
  buf _ := rfl
  scanning _ _ h := by cases h
  tailing h := by cases h

lemma exists_more {n : ℕ} {more : List Char} (h : ∀ row ∈ rows, ProbeRow row)
    (hfile : linesText rows n ++ more <+: (hdr :: rows).flatMap Csv.writeRow) :
    ∃ m rest, more = (((hdr :: rows).drop n).take m).flatMap Csv.writeRow ++ rest ∧
      '\n' ∉ rest := by
  have hsplit : (hdr :: rows).flatMap Csv.writeRow =
      linesText rows n ++ ((hdr :: rows).drop n).flatMap Csv.writeRow := by
    rw [linesText, ← List.flatMap_append, List.take_append_drop]
  rw [hsplit, List.prefix_append_right_inj] at hfile
  exact Csv.exists_lines (fun row hrow => (line_of_mem h (List.mem_of_mem_drop hrow)).2) hfile

lemma linesText_add (n m : ℕ) : linesText rows (n + m) =
    linesText rows n ++ (((hdr :: rows).drop n).take m).flatMap Csv.writeRow := by
  rw [linesText, List.take_add, List.flatMap_append]
  rfl

lemma rest_eq_nil {text rest : List Char} (hlast : ∀ c ∈ (text ++ rest).getLast?, c = '\n')
    (hrest : '\n' ∉ rest) : rest = [] := by
  obtain rfl | ⟨front, c, rfl⟩ := List.eq_nil_or_concat rest
  · rfl
  simp_all

lemma mem_forfeits {l l' : List Csv.Row} (h : l ⊆ l') {e : FeedEvent φ}
    (he : e ∈ forfeits py hdr (unheaded l)) : e ∈ forfeits py hdr (unheaded l') := by
  simp only [forfeits, unheaded, List.mem_map, List.mem_filter] at he ⊢
  grind

lemma Follows.keep (h : Follows py rows s) (hrows : ∀ row ∈ rows, ProbeRow row)
    (lines : List Csv.Row) (hlines : lines ⊆ hdr :: rows) :
    let events := (forfeits py hdr (unheaded lines)).foldl (Store.keep eventKey) s.events
    (events.map eventKey).Nodup ∧ (∀ e ∈ events, e ∈ forfeits py hdr rows) ∧
      ∀ e, e ∈ s.events ∨ e ∈ forfeits py hdr (unheaded lines) →
        ∃ e' ∈ events, eventKey e' = eventKey e := by
  obtain ⟨honce, hfrom, hinto⟩ := foldl_keep (forfeits py hdr (unheaded lines)) h.once
  refine ⟨honce, ?_, hinto⟩
  intro e he
  rcases hfrom e he with he | he
  · exact h.own e he
  · have hall := mem_forfeits hlines he
    rwa [unheaded_hdr, unheaded_probe hrows] at hall

lemma Follows.step (h : Follows py rows s) (hrows : ∀ row ∈ rows, ProbeRow row)
    (hfull : s.file <+: (hdr :: rows).flatMap Csv.writeRow) (hok : s.WholeRows a)
    (hstep : s.step py a = some s') : Follows py rows s' := by
  cases a with
  | write chunk =>
    cases hstep
    refine { h with scanning := ?_, tailing := ?_ }
    · intro size scan hphase
      obtain ⟨⟨hle, hlines⟩, hposition, hscan⟩ := h.scanning size scan hphase
      have hgrown : s.file.length ≤ (s.file ++ chunk).length :=
        (List.prefix_append _ _).length_le
      rw [List.take_append_of_le_length hle, List.take_append_of_le_length hposition]
      exact ⟨⟨hle.trans hgrown, hlines⟩, hposition.trans hgrown, hscan⟩
    · intro hphase
      obtain ⟨hle, n, hn⟩ := h.tailing hphase
      grind
  | stat =>
    simp only [Tailer.step, Option.ite_none_right_eq_some, Option.some.injEq] at hstep
    obtain ⟨hphase, rfl⟩ := hstep
    have hbuf := h.buf (by simp [hphase])
    refine ⟨h.once, h.own, fun _ => hbuf, ?_, by simp⟩
    rintro size scan ⟨⟩
    have hbegin : linesText rows 0 ++ s.file <+: (hdr :: rows).flatMap Csv.writeRow := hfull
    obtain ⟨m, rest, hfile, hrest⟩ := exists_more hrows hbegin
    have hlast : ∀ c ∈ s.file.getLast?, c = '\n' := hok
    rw [hfile] at hlast
    obtain rfl := rest_eq_nil hlast hrest
    refine ⟨⟨le_rfl, m, ?_⟩, Nat.zero_le _, rfl, rfl⟩
    simpa [linesText] using hfile
  | read k =>
    simp only [Tailer.step] at hstep
    split at hstep
    · next size scan hphase =>
      simp only [Option.ite_none_left_eq_some, Option.some.injEq] at hstep
      obtain ⟨hchunk, rfl⟩ := hstep
      obtain ⟨hsize, hposition, -, hreader⟩ := h.scanning size scan hphase
      have hbuf := h.buf (by simp [hphase])
      refine ⟨h.once, h.own, fun _ => hbuf, ?_, by simp⟩
      rintro _ _ ⟨⟩
      generalize hc : (s.file.drop scan.position).take k = chunk at hchunk
      have htake : s.file.take (scan.position + chunk.length) =
          s.file.take scan.position ++ chunk := by
        rw [List.take_add, ← List.prefix_iff_eq_take.mp (hc ▸ List.take_prefix k _)]
      refine ⟨hsize, ?_, ?_, ?_⟩
      · have hlength := congrArg List.length hc
        rw [List.length_take, List.length_drop] at hlength
        show scan.position + chunk.length ≤ s.file.length
        omega
      · show chunk.getLast?.any _ = (s.file.take (scan.position + chunk.length)).getLast?.any _
        rw [htake, List.getLast?_append_of_ne_nil _ hchunk]
      · show chunk.foldl _ scan.reader = (s.file.take (scan.position + chunk.length)).foldl _ _
        rw [htake, List.foldl_append, ← hreader]
    · cases hstep
  | eof =>
    simp only [Tailer.step] at hstep
    split at hstep
    · next size scan hphase =>
      obtain ⟨⟨hle, n, hn⟩, hposition, hpending, hreader⟩ := h.scanning size scan hphase
      simp only [Option.ite_none_left_eq_some] at hstep
      obtain ⟨hend, hstep⟩ := hstep
      obtain hall : scan.position = s.file.length := by omega
      rw [hall, List.take_length] at hpending hreader
      have hwhole : ∀ c ∈ s.file.getLast?, c = '\n' := hok
      -- the file ends with a line break, so no line is pending
      have hnone : scan.pending = false := by
        rw [hpending, Option.any_eq_false]
        intro c hc
        rw [hwhole c hc]
        rfl
      rw [if_neg (by simp [hnone]), Option.some.injEq] at hstep
      subst hstep
      have hbuf := h.buf (by simp [hphase])
      have hfile : s.file = linesText rows n ++ s.file.drop size := by
        rw [← hn, List.take_append_drop]
      obtain ⟨m, rest, hmore, hrest⟩ := exists_more hrows (hfile ▸ hfull)
      have hlast : ∀ c ∈ (linesText rows n ++ (((hdr :: rows).drop n).take m).flatMap
          Csv.writeRow ++ rest).getLast?, c = '\n' := by
        rw [List.append_assoc, ← hmore, ← hfile]
        exact hwhole
      obtain rfl := rest_eq_nil hlast hrest
      rw [hmore, List.append_nil, ← linesText_add] at hfile
      have hread : scan.reader.finish = (hdr :: rows).take (n + m) := by
        rw [hreader, ← Csv.read, hfile]
        exact Csv.read_rows fun row hrow => (line_of_mem hrows (List.mem_of_mem_take hrow)).1
      obtain ⟨honce, hown, hinto⟩ :=
        h.keep hrows ((hdr :: rows).take (n + m)) (List.take_subset _ _)
      rw [hread, scanned_eq (n + m) hrows]
      refine ⟨honce, hown, by simp, by simp, fun _ => ⟨hle, n, ?_⟩⟩
      refine ⟨by simp_all, by simp [hbuf], fun e he => ?_⟩
      refine hinto e (Or.inr ?_)
      exact mem_forfeits (List.take_subset_take_left _ (Nat.le_add_right n m)) he
    · cases hstep
  | poll =>
    simp only [Tailer.step, Option.ite_none_right_eq_some, Option.some.injEq] at hstep
    obtain ⟨hphase, rfl⟩ := hstep
    obtain ⟨hle, n, hn, hbuf, hstores⟩ := h.tailing hphase
    unfold Tailer.poll
    split_ifs with hmore
    · have hfile : s.file = linesText rows n ++ (s.buf ++ s.file.drop s.offset) := by
        rw [← List.append_assoc, ← hn, List.take_append_drop]
      obtain ⟨m, rest, hnew, hrest⟩ := exists_more hrows (hfile ▸ hfull)
      dsimp only
      obtain hnil | ⟨front, last, hlines⟩ :=
        List.eq_nil_or_concat (((hdr :: rows).drop n).take m)
      · -- No line was completed.
        rw [hnil, List.flatMap_nil, List.nil_append] at hnew
        rw [hnew, rsplitLine_of_notMem hrest]
        refine ⟨h.once, h.own, by simp [hphase], by simp [hphase], fun _ => ⟨le_rfl, n, ?_⟩⟩
        grind
      · obtain ⟨complete, hcomplete⟩ : ∃ complete, complete ++ ['\n'] =
            (((hdr :: rows).drop n).take m).flatMap Csv.writeRow :=
          ⟨front.flatMap Csv.writeRow ++ (Csv.rowText last ++ ['\r']), by
            simp [hlines, Csv.writeRow]⟩
        have hsubset : ((hdr :: rows).drop n).take m ⊆ hdr :: rows := fun row hrow =>
          List.mem_of_mem_drop (List.mem_of_mem_take hrow)
        have hread : Csv.read complete = ((hdr :: rows).drop n).take m :=
          Csv.read_rows_of_append (fun row hrow => (line_of_mem hrows (hsubset hrow)).1) hcomplete
        have hpolled : polled py complete =
            forfeits py hdr (unheaded (((hdr :: rows).drop n).take m)) := by
          rw [polled, hread]
          rfl
        obtain ⟨honce, hown, hinto⟩ := h.keep hrows _ hsubset
        rw [← hcomplete, List.append_assoc, List.singleton_append] at hnew
        rw [hnew, rsplitLine_append hrest]
        simp only [hpolled, id]
        refine ⟨honce, hown, by simp [hphase], by simp [hphase], fun _ => ⟨le_rfl, n + m, ?_⟩⟩
        refine ⟨?_, hrest, ?_⟩
        · rw [List.take_length, linesText_add, ← hcomplete, List.append_assoc, List.append_assoc,
            List.singleton_append, ← hnew, ← hfile]
        · intro e he
          rw [List.take_add, unheaded, List.filter_append, forfeits, List.map_append,
            List.filter_append, List.map_append, List.mem_append] at he
          rcases he with he | he
          · obtain ⟨e', he', hkey⟩ := hstores e he
            grind
          · exact hinto e (Or.inr he)
    · exact h
  | raise stored => exact hok.elim

lemma file_step (hstep : s.step py a = some s') : s.file <+: s'.file := by
  cases a with
  | write chunk =>
    cases hstep
    simp
  | stat =>
    simp only [Tailer.step, Option.ite_none_right_eq_some, Option.some.injEq] at hstep
    rw [← hstep.2]
  | read n =>
    simp only [Tailer.step] at hstep
    grind
  | eof =>
    simp only [Tailer.step] at hstep
    grind
  | poll | raise stored =>
    simp only [Tailer.step, Option.ite_none_right_eq_some, Option.some.injEq] at hstep
    rw [← hstep.2, (poll_spec py s _).1]

end Tailer

def testPy : PyText ℕ where
  strip := id
  lower := List.map Char.toLower
  float _ := none
  int text := if text.all Char.isDigit then some (Nat.ofDigitChars 10 text 0) else none

def testRow : Csv.Row :=
  ["pandascore", "", "", "lol", "L", "A vs B", "A", "B", "1", "A", "", "", "", "True", "finished",
    "False", "7", ""].map String.toList

def testChunks (n : ℕ) : List Char × List Char := ((hdr :: [testRow]).flatMap Csv.writeRow).splitAt n

lemma probeRow_testRow : ProbeRow testRow where
  width := rfl
  source := rfl
  unbroken := by
    have hall : (testRow.all fun f => f.all fun c => !Csv.isBreak c) = true := by decide +kernel
    simpa using hall

end RustUma.ForfeitFeed
