import RustUma.Edge.Frame
import Mathlib.Data.List.Infix

/-!
# The edge's upstream connection (`src/edge/upstream.rs`)

One task dials the upstream for ever. Between sessions it carries the last event sequence it saw and
whether a cursor was ever rejected, and the two decide the URL of the next dial.

URLs are lists of characters. Sleeping and the clock are left to the caller: a session's length and
the receive times are inputs.
-/

namespace RustUma.Edge

open RustUma.Found RustUma.Model

/-! ## The dial URL -/

def splitOnce (c : Char) : List Char → Option (List Char × List Char)
  | [] => none
  | x :: text => if x = c then some ([], text) else (splitOnce c text).map fun (a, b) => (x :: a, b)

def afterSequenceKey : List Char :=
  ['a', 'f', 't', 'e', 'r', '_', 's', 'e', 'q', 'u', 'e', 'n', 'c', 'e', '=']

def keptParams (query : List Char) (keepConfigured : Bool) : List (List Char) :=
  (query.splitOn '&').filter fun kv =>
    kv ≠ [] ∧ (keepConfigured ∨ ¬ afterSequenceKey.isPrefixOf kv)

def dialParams (query : List Char) (lastEventSequence : ℕ) (cursorRejected : Bool) :
    List (List Char) :=
  let kept := keptParams query (lastEventSequence = 0 ∧ cursorRejected = false)
  if 0 < lastEventSequence ∧ cursorRejected = false then
    kept ++ [afterSequenceKey ++ Nat.toDigits 10 lastEventSequence]
  else kept

def dialUrl (base : List Char) (lastEventSequence : ℕ) (cursorRejected : Bool) : List Char :=
  let parts := (splitOnce '?' base).getD (base, [])
  let params := dialParams parts.2 lastEventSequence cursorRejected
  if params = [] then parts.1 else parts.1 ++ '?' :: ['&'].intercalate params

def cursorValue? (kv : List Char) : Option (List Char) :=
  if afterSequenceKey.isPrefixOf kv then some (kv.drop afterSequenceKey.length) else none

def cursorParams (url : List Char) : List (List Char) :=
  ((((splitOnce '?' url).getD (url, [])).2).splitOn '&').filterMap cursorValue?

variable {c : Char} {lastEventSequence : ℕ}

lemma splitOnce_append {a b : List Char} (h : c ∉ a) :
    splitOnce c (a ++ c :: b) = some (a, b) := by
  induction a with
  | nil => simp [splitOnce]
  | cons x a ih =>
    rw [List.mem_cons, not_or] at h
    obtain ⟨hx, ha⟩ := h
    simp [splitOnce, Ne.symm hx, ih ha]

lemma splitOnce_of_notMem {text : List Char} (h : c ∉ text) :
    splitOnce c text = none := by
  induction text with
  | nil => rfl
  | cons x text ih =>
    rw [List.mem_cons, not_or] at h
    obtain ⟨hx, htext⟩ := h
    simp [splitOnce, Ne.symm hx, ih htext]

lemma splitOnce_parts (c : Char) (text : List Char) :
    c ∉ ((splitOnce c text).getD (text, [])).1 ∧
      ((splitOnce c text).getD (text, [])).1 ⊆ text ∧
      ((splitOnce c text).getD (text, [])).2 ⊆ text := by
  induction text with
  | nil => simp [splitOnce]
  | cons x text ih =>
    by_cases hx : x = c
    · simp [splitOnce, hx]
    · cases hsplit : splitOnce c text with
      | none =>
        simpa [splitOnce, hx, hsplit, Ne.symm hx] using ih.1
      | some parts =>
        rw [hsplit] at ih
        obtain ⟨hfirst, hbefore, hrest⟩ := ih
        simp only [splitOnce, hx, hsplit, if_false, Option.map_some, Option.getD_some]
        grind

lemma of_mem_splitOn {text piece : List Char} (h : piece ∈ text.splitOn c) :
    c ∉ piece ∧ piece ⊆ text := by
  induction text generalizing piece with
  | nil =>
    simp_all
  | cons x text ih =>
    rw [List.splitOn_cons_eq_if_modifyHead] at h
    split_ifs at h with hx
    · grind
    · cases hpieces : text.splitOn c with
      | nil => simp_all
      | cons first rest =>
        rw [hpieces] at h ih
        have hne : c ≠ x := fun heq => hx (by simp [heq])
        rcases List.mem_cons.mp h with rfl | h
        · simp_all
        simp_all

lemma mem_intercalate {sep : List Char} {pieces : List (List Char)} {x : Char}
    (h : x ∈ sep.intercalate pieces) : x ∈ sep ∨ ∃ piece ∈ pieces, x ∈ piece := by
  induction pieces with
  | nil => cases h
  | cons piece pieces ih =>
    cases pieces with
    | nil =>
      simp_all
    | cons next pieces =>
      rw [List.intercalate_cons_cons, List.mem_append, List.mem_append] at h
      grind

lemma cursorValue?_keptParams (query : List Char) :
    (keptParams query false).filterMap cursorValue? = [] := by
  rw [List.filterMap_eq_nil_iff]
  intro kv hkv
  have hkey := (List.mem_filter.mp hkv).2
  simp only [Bool.false_eq_true, false_or, decide_eq_true_eq] at hkey
  exact if_neg hkey.2

lemma notMem_of_mem_dialParams {query kv : List Char} {cursorRejected : Bool}
    (h : kv ∈ dialParams query lastEventSequence cursorRejected) :
    '&' ∉ kv := by
  have hkept : ∀ keep, kv ∈ keptParams query keep → '&' ∉ kv := fun keep hkv =>
    (of_mem_splitOn (List.mem_filter.mp hkv).1).1
  unfold dialParams at h
  split_ifs at h
  · rcases List.mem_append.mp h with h | h
    · exact hkept _ h
    · rw [List.mem_singleton.mp h, List.mem_append, not_or]
      refine ⟨by decide, fun hmem => ?_⟩
      have hdigit := Nat.isDigit_of_mem_toDigits (by decide) (by decide) hmem
      simp_all
  · exact hkept _ h

lemma ne_nil_of_mem_dialParams {query kv : List Char} {cursorRejected : Bool}
    (h : kv ∈ dialParams query lastEventSequence cursorRejected) :
    kv ≠ [] := by
  have hkept : ∀ keep, kv ∈ keptParams query keep → kv ≠ [] := fun keep hkv =>
    (of_decide_eq_true (List.mem_filter.mp hkv).2).1
  unfold dialParams at h
  split_ifs at h
  · rcases List.mem_append.mp h with h | h
    · exact hkept _ h
    simp_all
  · exact hkept _ h

lemma query_dialUrl (base : List Char) (lastEventSequence : ℕ) (cursorRejected : Bool) :
    ((splitOnce '?' (dialUrl base lastEventSequence cursorRejected)).getD
        (dialUrl base lastEventSequence cursorRejected, [])).2 =
      ['&'].intercalate (dialParams ((splitOnce '?' base).getD (base, [])).2 lastEventSequence
        cursorRejected) := by
  have hpath := (splitOnce_parts '?' base).1
  unfold dialUrl
  dsimp only
  split_ifs with hempty
  · rw [splitOnce_of_notMem hpath, hempty]
    rfl
  · rw [splitOnce_append hpath]
    rfl

lemma cursorParams_dialUrl (base : List Char) (lastEventSequence : ℕ) (cursorRejected : Bool) :
    cursorParams (dialUrl base lastEventSequence cursorRejected) =
      (dialParams ((splitOnce '?' base).getD (base, [])).2 lastEventSequence
        cursorRejected).filterMap cursorValue? := by
  unfold cursorParams
  rw [query_dialUrl]
  by_cases hempty : dialParams ((splitOnce '?' base).getD (base, [])).2 lastEventSequence
      cursorRejected = []
  · rw [hempty]
    rfl
  · rw [List.splitOn_intercalate '&' (fun kv hkv => notMem_of_mem_dialParams hkv) hempty]

theorem cursorParams_dialUrl_of_pos (base : List Char) (h : 0 < lastEventSequence) :
    cursorParams (dialUrl base lastEventSequence false) = [Nat.toDigits 10 lastEventSequence] := by
  have hkeep : decide (lastEventSequence = 0 ∧ false = false) = false :=
    decide_eq_false fun hzero => absurd hzero.1 h.ne'
  rw [cursorParams_dialUrl, dialParams, if_pos ⟨h, rfl⟩, hkeep, List.filterMap_append,
    cursorValue?_keptParams]
  rfl

theorem cursorParams_dialUrl_rejected (base : List Char) (lastEventSequence : ℕ) :
    cursorParams (dialUrl base lastEventSequence true) = [] := by
  have hno : ¬ (0 < lastEventSequence ∧ true = false) := by simp
  have hkeep : decide (lastEventSequence = 0 ∧ true = false) = false := by simp
  rw [cursorParams_dialUrl, dialParams, if_neg hno, hkeep]
  exact cursorValue?_keptParams _

/-! ## The loop -/

structure EdgeStats where
  upstreamReconnects : ℕ
  upstreamConnected : Bool
  upstreamLagLastUs : ℕ
  upstreamLagMaxUs : ℕ
  badFramesTotal : ℕ
  lastEventSequence : ℕ
  framesTotal : ℕ
  bytesTotal : ℕ
  lastFrameAtMs : ℕ
  deriving DecidableEq

structure Received where
  bytes : List UInt8
  recvAtUs : ℕ
  deriving DecidableEq

inductive SessionEnd where
  | cursorRejected
  | other (reason : String)
  deriving DecidableEq

structure SessionRun where
  connected : Bool
  received : List Received
  ending : SessionEnd
  elapsedMs : ℕ
  deriving DecidableEq

structure Upstream where
  backoffMs : ℕ
  lastEventSequence : ℕ
  cursorRejected : Bool
  first : Bool
  stats : EdgeStats
  ring : Ring
  published : List EdgeFrame
  deriving DecidableEq

def backoffMinMs : ℕ := 1000

def backoffMaxMs : ℕ := 15000

def liveLagMaxUs : ℕ := 10000000

namespace Upstream

def start (ringCapacity : ℕ) : Upstream where
  backoffMs := backoffMinMs
  lastEventSequence := 0
  cursorRejected := false
  first := true
  stats := ⟨0, false, 0, 0, 0, 0, 0, 0, 0⟩
  ring := Ring.new ringCapacity
  published := []

def url (u : Upstream) (base : List Char) : List Char :=
  dialUrl base u.lastEventSequence u.cursorRejected

end Upstream

def recordLag (stats : EdgeStats) (info : FrameInfo) (recvAtUs : ℕ) : EdgeStats :=
  if 0 < info.sentAtUs ∧ recvAtUs - info.sentAtUs ≤ liveLagMaxUs then
    { stats with
      upstreamLagLastUs := recvAtUs - info.sentAtUs
      upstreamLagMaxUs := max stats.upstreamLagMaxUs (recvAtUs - info.sentAtUs) }
  else stats

def frameSequence (parsed : Except BadFrame FrameInfo) (lastEventSequence : ℕ) : ℕ :=
  match parsed with
  | .ok info => if 0 < info.lastEventSequence then info.lastEventSequence else lastEventSequence
  | .error _ => lastEventSequence

def onFrame (decompress : List UInt8 → ℕ → Option (List UInt8)) (u : Upstream) (r : Received) :
    Upstream :=
  let parsed := parseFrame decompress r.bytes
  let eventSequence := frameSequence parsed u.lastEventSequence
  let stats := match parsed with
    | .ok info => recordLag u.stats info r.recvAtUs
    | .error _ => { u.stats with badFramesTotal := u.stats.badFramesTotal + 1 }
  let batchSequence := match parsed with
    | .ok info => info.batchSequence
    | .error _ => 0
  let (ring, frame) := u.ring.push ⟨0, batchSequence, eventSequence, r.bytes, r.recvAtUs⟩
  { u with
    lastEventSequence := eventSequence
    stats :=
      { stats with
        lastEventSequence := eventSequence
        framesTotal := stats.framesTotal + 1
        bytesTotal := stats.bytesTotal + r.bytes.length
        lastFrameAtMs := r.recvAtUs / 1000 }
    ring := ring
    published := u.published ++ [frame] }

def beforeDial (u : Upstream) : Upstream :=
  if u.first then { u with first := false }
  else
    { u with
      stats := { u.stats with upstreamReconnects := u.stats.upstreamReconnects + 1 }
      backoffMs := min (u.backoffMs * 2) backoffMaxMs }

def session (decompress : List UInt8 → ℕ → Option (List UInt8)) (u : Upstream) (run : SessionRun) :
    Upstream :=
  run.received.foldl (onFrame decompress)
    (if run.connected then { u with stats := { u.stats with upstreamConnected := true } } else u)

def redial (decompress : List UInt8 → ℕ → Option (List UInt8)) (u : Upstream) (run : SessionRun) :
    Upstream :=
  let u := session decompress (beforeDial u) run
  let u := match run.ending with
    | .cursorRejected => { u with cursorRejected := true }
    | .other _ => u
  { u with
    stats := { u.stats with upstreamConnected := false }
    backoffMs := if 30000 ≤ run.elapsedMs then backoffMinMs else u.backoffMs }

def runUpstream (decompress : List UInt8 → ℕ → Option (List UInt8)) (u : Upstream)
    (runs : List SessionRun) : Upstream := runs.foldl (redial decompress) u

/-! ## Every message is published -/

section Published

variable {decompress : List UInt8 → ℕ → Option (List UInt8)}

lemma bytes_foldl_onFrame (u : Upstream) (received : List Received) :
    (received.foldl (onFrame decompress) u).published.map (·.bytes) =
      u.published.map (·.bytes) ++ received.map (·.bytes) := by
  induction received generalizing u with
  | nil => simp
  | cons r received ih =>
    have hone : (onFrame decompress u r).published.map (·.bytes) =
        u.published.map (·.bytes) ++ [r.bytes] := by simp [onFrame, Ring.push]
    simp_all

lemma bytes_redial (u : Upstream) (run : SessionRun) :
    (redial decompress u run).published.map (·.bytes) =
      u.published.map (·.bytes) ++ run.received.map (·.bytes) := by
  have hredial : (redial decompress u run).published =
      (session decompress (beforeDial u) run).published := by
    unfold redial
    cases run.ending <;> rfl
  have hbefore : (beforeDial u).published = u.published := by
    unfold beforeDial
    split_ifs <;> rfl
  rw [hredial, ← hbefore]
  unfold session
  rw [bytes_foldl_onFrame]
  split_ifs <;> rfl

end Published

end RustUma.Edge
