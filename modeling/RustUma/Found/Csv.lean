import Mathlib.Data.List.Basic

/-!
# Comma-separated rows

A writer that puts a field in quotes where it has to, and a reader that goes through the text one
character at a time and never fails: a quoted field that is not closed ends with the text.
-/

namespace RustUma.Found.Csv

abbrev Row := List (List Char)

def isBreak (c : Char) : Bool := c = '\n' || c = '\r'

/-! ## Writing -/

def escape (f : List Char) : List Char := f.flatMap fun c => if c = '"' then ['"', '"'] else [c]

def quoteField (f : List Char) : List Char :=
  if f.any fun c => c = ',' || c = '"' || isBreak c then '"' :: (escape f ++ ['"']) else f

def rowText (row : Row) : List Char := [','].intercalate (row.map quoteField)

def writeRow (row : Row) : List Char := rowText row ++ ['\r', '\n']

/-! ## Reading -/

inductive State
  | startRecord
  | startField
  | inField
  | inQuoted
  | quoteInQuoted
  deriving DecidableEq

structure Reader where
  state : State
  field : List Char
  record : Row
  records : List Row
  deriving DecidableEq

namespace Reader

variable (r : Reader)

def saveField : Reader := ⟨.startField, [], r.record ++ [r.field], r.records⟩

def endRecord : Reader := ⟨.startRecord, [], [], r.records ++ [r.record ++ [r.field]]⟩

def addChar (c : Char) (state : State) : Reader := { r with state, field := r.field ++ [c] }

def start (c : Char) : Reader :=
  if isBreak c then r.endRecord
  else if c = '"' then { r with state := .inQuoted }
  else if c = ',' then r.saveField
  else r.addChar c .inField

def feed (c : Char) : Reader :=
  match r.state with
  | .startRecord => if isBreak c then r else r.start c
  | .startField => r.start c
  | .inField =>
    if isBreak c then r.endRecord else if c = ',' then r.saveField else r.addChar c .inField
  | .inQuoted => if c = '"' then { r with state := .quoteInQuoted } else r.addChar c .inQuoted
  | .quoteInQuoted =>
    if c = '"' then r.addChar c .inQuoted
    else if isBreak c then r.endRecord else if c = ',' then r.saveField else r.addChar c .inField

def endLine : Reader :=
  match r.state with
  | .startRecord | .inQuoted => r
  | .startField | .inField | .quoteInQuoted => r.endRecord

def finish : List Row := if r.state = .startRecord then r.records else r.endRecord.records

def empty : Reader := ⟨.startRecord, [], [], []⟩

end Reader

def read (text : List Char) : List Row := (text.foldl Reader.feed .empty).finish

/-! ## Reading what was written -/

section RoundTrip

variable {f : List Char} {record row : Row} {records rows : List Row} {state : State}

lemma foldl_inField {a : List Char} (h : ∀ c ∈ f, ¬ (c = ',' || c = '"' || isBreak c) = true) :
    f.foldl Reader.feed ⟨.inField, a, record, records⟩ = ⟨.inField, a ++ f, record, records⟩ := by
  induction f generalizing a with
  | nil => simp
  | cons c f ih =>
    rw [List.forall_mem_cons] at h
    have hc := h.1
    simp only [Bool.or_eq_true, decide_eq_true_eq, not_or, Bool.not_eq_true] at hc
    have hfeed : Reader.feed ⟨.inField, a, record, records⟩ c =
        ⟨.inField, a ++ [c], record, records⟩ := by
      simp [Reader.feed, Reader.addChar, hc]
    simp_all

lemma foldl_inQuoted {a : List Char} :
    (escape f).foldl Reader.feed ⟨.inQuoted, a, record, records⟩ =
      ⟨.inQuoted, a ++ f, record, records⟩ := by
  induction f generalizing a with
  | nil => simp [escape]
  | cons c f ih =>
    have hchar : (if c = '"' then ['"', '"'] else [c]).foldl Reader.feed
        ⟨.inQuoted, a, record, records⟩ = ⟨.inQuoted, a ++ [c], record, records⟩ := by
      split_ifs with hc
      · simp [Reader.feed, Reader.addChar, hc]
      · simp [Reader.feed, Reader.addChar, hc]
    have hescape : escape (c :: f) = (if c = '"' then ['"', '"'] else [c]) ++ escape f := rfl
    simp_all

lemma foldl_quoteField (f : List Char) (record : Row) (records : List Row)
    (hstate : state = .startRecord ∨ state = .startField) :
    ∃ state', (quoteField f).foldl Reader.feed ⟨state, [], record, records⟩ =
      ⟨state', f, record, records⟩ ∧
        (state' = state ∨ state' = .inField ∨ state' = .quoteInQuoted) := by
  unfold quoteField
  split_ifs with hquote
  · refine ⟨.quoteInQuoted, ?_, Or.inr (Or.inr rfl)⟩
    have hopen : Reader.feed ⟨state, [], record, records⟩ '"' =
        ⟨.inQuoted, [], record, records⟩ := by
      rcases hstate with rfl | rfl <;> rfl
    rw [List.foldl_cons, hopen, List.foldl_append, foldl_inQuoted]
    rfl
  · cases f with
    | nil => simp
    | cons c f =>
      rw [List.any_eq_true] at hquote
      push Not at hquote
      rw [List.forall_mem_cons] at hquote
      refine ⟨.inField, ?_, Or.inr (Or.inl rfl)⟩
      have hc := hquote.1
      simp only [ne_eq, Bool.or_eq_true, decide_eq_true_eq, not_or, Bool.not_eq_true] at hc
      have hfeed : Reader.feed ⟨state, [], record, records⟩ c =
          ⟨.inField, [c], record, records⟩ := by
        rcases hstate with rfl | rfl <;>
          simp [Reader.feed, Reader.start, Reader.addChar, hc]
      rw [List.foldl_cons, hfeed, foldl_inField hquote.2]
      rfl

lemma foldl_rowText (hrow : row ≠ [])
    (hstate : state = .startField ∨ state = .startRecord ∧ 2 ≤ row.length) :
    (rowText row ++ ['\r']).foldl Reader.feed ⟨state, [], record, records⟩ =
      ⟨.startRecord, [], [], records ++ [record ++ row]⟩ := by
  induction row generalizing state record with
  | nil => exact absurd rfl hrow
  | cons f row ih =>
    obtain ⟨state', hfeed, hstate'⟩ :=
      foldl_quoteField f record records (hstate.symm.imp_left And.left)
    cases row with
    | nil =>
      have hstart : state = .startField := hstate.resolve_right (by simp)
      have htext : rowText [f] = quoteField f := by simp [rowText]
      rw [htext, List.foldl_append, hfeed]
      rcases hstate' with rfl | rfl | rfl
      · rw [hstart]
        rfl
      · rfl
      · rfl
    | cons g row =>
      have htext : rowText (f :: g :: row) = quoteField f ++ ',' :: rowText (g :: row) := by
        rfl
      have hcomma : Reader.feed ⟨state', f, record, records⟩ ',' =
          ⟨.startField, [], record ++ [f], records⟩ := by
        rcases hstate' with rfl | rfl | rfl
        · rcases hstate with rfl | ⟨rfl, -⟩ <;> rfl
        · rfl
        · rfl
      simp_all

lemma foldl_rows (records : List Row) (h : ∀ row ∈ rows, 2 ≤ row.length) :
    (rows.flatMap writeRow).foldl Reader.feed ⟨.startRecord, [], [], records⟩ =
      ⟨.startRecord, [], [], records ++ rows⟩ := by
  induction rows generalizing records with
  | nil => simp
  | cons row rows ih =>
    rw [List.forall_mem_cons] at h
    have hne : row ≠ [] := by
      grind
    have htext : (row :: rows).flatMap writeRow =
        (rowText row ++ ['\r']) ++ '\n' :: rows.flatMap writeRow := by simp [writeRow]
    have hbreak : Reader.feed ⟨.startRecord, [], [], records ++ [row]⟩ '\n' =
        ⟨.startRecord, [], [], records ++ [row]⟩ := rfl
    rw [htext, List.foldl_append, foldl_rowText hne (Or.inr ⟨rfl, h.1⟩), List.nil_append,
      List.foldl_cons, hbreak, ih _ h.2, List.append_assoc]
    rfl

theorem read_rows (h : ∀ row ∈ rows, 2 ≤ row.length) : read (rows.flatMap writeRow) = rows := by
  rw [read, Reader.empty, foldl_rows [] h]
  rfl

theorem read_rows_of_append (h : ∀ row ∈ rows, 2 ≤ row.length) {text : List Char}
    (htext : text ++ ['\n'] = rows.flatMap writeRow) : read text = rows := by
  obtain rfl | ⟨front, row, rfl⟩ := List.eq_nil_or_concat rows
  · simp at htext
  · have hrow : 2 ≤ row.length := h row (by simp)
    have hne : row ≠ [] := by
      grind
    have hlast : text = front.flatMap writeRow ++ (rowText row ++ ['\r']) := by
      apply (List.append_left_inj ['\n']).mp
      rw [htext]
      simp [writeRow]
    have hfront := foldl_rows [] fun r (hr : r ∈ front) => h r (by simp [hr])
    rw [read, Reader.empty, hlast, List.foldl_append, hfront, foldl_rowText hne (Or.inr ⟨rfl, hrow⟩),
      List.concat_eq_append]
    rfl

end RoundTrip

/-! ## Lines -/

section Lines

variable {f : List Char} {row : Row} {rows : List Row}

lemma mem_of_mem_quoteField {c : Char} (h : c ∈ quoteField f) : c = '"' ∨ c ∈ f := by
  unfold quoteField escape at h
  grind

lemma newline_notMem_rowText (h : ∀ f ∈ row, '\n' ∉ f) : '\n' ∉ rowText row := by
  induction row with
  | nil => simp [rowText]
  | cons f row ih =>
    rw [List.forall_mem_cons] at h
    have hfield : '\n' ∉ quoteField f := by
      intro hmem
      rcases mem_of_mem_quoteField hmem with hquote | hmem
      · simp_all
      · exact h.1 hmem
    cases row with
    | nil => simpa [rowText] using hfield
    | cons g row =>
      have htext : rowText (f :: g :: row) = quoteField f ++ ',' :: rowText (g :: row) := by
        rfl
      simp_all

lemma exists_lines (h : ∀ row ∈ rows, ∀ f ∈ row, '\n' ∉ f) {text : List Char}
    (htext : text <+: rows.flatMap writeRow) :
    ∃ m rest, text = (rows.take m).flatMap writeRow ++ rest ∧ '\n' ∉ rest := by
  induction rows generalizing text with
  | nil => simp_all
  | cons row rows ih =>
    rw [List.forall_mem_cons] at h
    rw [List.flatMap_cons] at htext
    rcases Nat.lt_or_ge text.length (writeRow row).length with hlt | hge
    · refine ⟨0, text, by simp, ?_⟩
      -- Shorter than the line, it lacks the line feed at the end.
      have hline : writeRow row = (rowText row ++ ['\r']) ++ ['\n'] := by simp [writeRow]
      have hshort : text <+: rowText row ++ ['\r'] := by
        rw [hline, List.append_assoc] at htext
        apply List.prefix_of_prefix_length_le htext (List.prefix_append _ _)
        grind
      intro hmem
      have hmem' := hshort.subset hmem
      simp [newline_notMem_rowText h.1] at hmem'
    · obtain ⟨text', rfl⟩ := List.prefix_of_prefix_length_le (List.prefix_append _ _) htext hge
      obtain ⟨m, rest, hrest, hnewline⟩ := ih h.2 ((List.prefix_append_right_inj _).mp htext)
      exact ⟨m + 1, rest, by simp [hrest], hnewline⟩

end Lines

end RustUma.Found.Csv
