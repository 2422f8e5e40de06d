import RustUma.Found.Run
import RustUma.Hub.FrameHub
import RustUma.Model.Protobuf
import RustUma.Edge.Upstream

/-!
# Resuming at the upstream

Once it has seen a sequence, the edge is to dial with it, but for the one dial after a session that
the upstream closed with 1013. The rejected flag is set by such a session and never cleared.
-/

namespace RustUma.Edge

open RustUma.Found RustUma.Model RustUma.Hub

/-! ## The rule -/

def EndedRejected (runs : List SessionRun) : Prop :=
  runs.getLast?.map (·.ending) = some .cursorRejected

instance (runs : List SessionRun) : Decidable (EndedRejected runs) :=
  inferInstanceAs (Decidable (_ = _))

def edgeAfter (decompress : List UInt8 → ℕ → Option (List UInt8)) (ringCapacity : ℕ)
    (runs : List SessionRun) : Upstream :=
  runUpstream decompress (Upstream.start ringCapacity) runs

def ResumesAt (decompress : List UInt8 → ℕ → Option (List UInt8)) (base : List Char)
    (ringCapacity : ℕ) (runs : List SessionRun) : Prop :=
  let u := edgeAfter decompress ringCapacity runs
  0 < u.lastEventSequence →
    cursorParams (u.url base) =
      if EndedRejected runs then [] else [Nat.toDigits 10 u.lastEventSequence]

def Resumes (decompress : List UInt8 → ℕ → Option (List UInt8)) (base : List Char)
    (ringCapacity : ℕ) (runs : List SessionRun) : Prop :=
  ∀ before, before <+: runs → ResumesAt decompress base ringCapacity before

def QuietAfterRejection (decompress : List UInt8 → ℕ → Option (List UInt8)) (ringCapacity : ℕ)
    (runs : List SessionRun) : Prop :=
  ∀ before, before <+: runs → 0 < (edgeAfter decompress ringCapacity before).lastEventSequence →
    (∃ run ∈ before, run.ending = .cursorRejected) → EndedRejected before

section Loop

variable {decompress : List UInt8 → ℕ → Option (List UInt8)} {base : List Char} {ringCapacity : ℕ}
  {u : Upstream} {runs : List SessionRun}

lemma edgeAfter_concat (run : SessionRun) :
    edgeAfter decompress ringCapacity (runs ++ [run]) =
      redial decompress (edgeAfter decompress ringCapacity runs) run := by
  unfold edgeAfter runUpstream
  simp

lemma cursorRejected_foldl_onFrame (received : List Received) :
    (received.foldl (onFrame decompress) u).cursorRejected = u.cursorRejected := by
  induction received generalizing u with
  | nil => rfl
  | cons r received ih => exact ih

lemma cursorRejected_redial (run : SessionRun) :
    (redial decompress u run).cursorRejected = true ↔
      u.cursorRejected = true ∨ run.ending = .cursorRejected := by
  have hsession : (session decompress (beforeDial u) run).cursorRejected = u.cursorRejected := by
    unfold session
    rw [cursorRejected_foldl_onFrame]
    unfold beforeDial
    split_ifs <;> rfl
  unfold redial
  grind

lemma cursorRejected_edgeAfter_iff :
    (edgeAfter decompress ringCapacity runs).cursorRejected = true ↔
      ∃ run ∈ runs, run.ending = .cursorRejected := by
  induction runs using List.reverseRecOn with
  | nil => simp [edgeAfter, runUpstream, Upstream.start]
  | append_singleton runs run ih =>
    rw [edgeAfter_concat, cursorRejected_redial, ih]
    simp

lemma exists_of_endedRejected (h : EndedRejected runs) :
    ∃ run ∈ runs, run.ending = .cursorRejected := by
  obtain ⟨run, hrun, hending⟩ := Option.map_eq_some_iff.mp h
  grind

lemma resumesAt_iff : ResumesAt decompress base ringCapacity runs ↔
    (0 < (edgeAfter decompress ringCapacity runs).lastEventSequence →
      (∃ run ∈ runs, run.ending = .cursorRejected) → EndedRejected runs) := by
  unfold ResumesAt Upstream.url
  refine imp_congr_right fun hpos => ?_
  by_cases hrejected : ∃ run ∈ runs, run.ending = .cursorRejected
  · rw [cursorRejected_edgeAfter_iff.mpr hrejected, cursorParams_dialUrl_rejected]
    simp_all
  · have hflag : (edgeAfter decompress ringCapacity runs).cursorRejected = false :=
      Bool.eq_false_iff.mpr fun hflag => hrejected (cursorRejected_edgeAfter_iff.mp hflag)
    rw [hflag, cursorParams_dialUrl_of_pos base hpos,
      if_neg fun hended => hrejected (exists_of_endedRejected hended)]
    simp_all

lemma resumes_iff : Resumes decompress base ringCapacity runs ↔
    QuietAfterRejection decompress ringCapacity runs := by
  unfold Resumes QuietAfterRejection
  simp only [resumesAt_iff]

end Loop

/-! ## The upstream -/

structure Tinyuma where
  capacity : ℕ
  floor : ℕ
  history : List WireFrame
  increasing : IncreasingAbove floor history

def readCursor (url : List Char) : Option ℕ :=
  match cursorParams url with
  | [digits] => some (Nat.ofDigitChars 10 digits 0)
  | _ => none

namespace Tinyuma

def hubAt (t : Tinyuma) (n : ℕ) : FrameHub :=
  (FrameHub.resumingAfter t.capacity t.floor).publishAll (t.history.take n)

def stream (t : Tinyuma) (n : ℕ) (url : List Char) : Except FrameReadError (List WireFrame) :=
  let cursor := (readCursor url).getD (t.hubAt n).latestSequence
  ((t.hubAt n).after cursor).map fun frames =>
    frames ++ (t.history.drop n).filter fun f => cursor < f.lastSequence

def Retains (t : Tinyuma) (n cursor : ℕ) : Prop :=
  ¬ MissedAbove t.floor (t.history.take n) (t.hubAt n).frames cursor

end Tinyuma

section Stream

variable {t : Tinyuma} {n : ℕ} {url : List Char}

lemma stream_suffix {got : List WireFrame} (h : t.stream n url = .ok got) : got <:+ t.history := by
  obtain ⟨frames, hafter, rfl⟩ := exceptMap_eq_ok h
  generalize (readCursor url).getD (t.hubAt n).latestSequence = cursor at hafter
  have hframes : frames = ((t.history.take n).rtake (max t.capacity 1)).filter
      fun f => cursor < f.lastSequence := by
    unfold FrameHub.after at hafter
    split_ifs at hafter
    cases hafter
    rw [Tinyuma.hubAt, FrameHub.publishAll_frames]
  -- the ring is the end of what was published, and the rest of the history follows it
  obtain ⟨old, hold⟩ := rtake_suffix (t.history.take n) (max t.capacity 1)
  have hkept : (t.history.take n).rtake (max t.capacity 1) ++ t.history.drop n <:+ t.history := by
    refine ⟨old, ?_⟩
    rw [← List.append_assoc, hold, List.take_append_drop]
  have hinc := t.increasing.pairwise_last.sublist hkept.sublist
  rw [hframes, ← List.filter_append]
  exact (filter_above_suffix cursor hinc).trans hkept

lemma stream_of_cursor {old new : List WireFrame} {f : WireFrame}
    (hhistory : t.history = old ++ f :: new) (hretains : t.Retains n f.lastSequence)
    (hurl : cursorParams url = [Nat.toDigits 10 f.lastSequence]) : t.stream n url = .ok new := by
  have hcursor : readCursor url = some f.lastSequence := by
    rw [readCursor, hurl]
    simp
  have hinc : IncreasingAbove t.floor (t.history.take n) :=
    ⟨fun g hg => t.increasing.1 g (List.mem_of_mem_take hg),
      t.increasing.2.sublist (List.take_sublist n _)⟩
  have hafter := FrameHub.after_publishAll_of_not_missed hinc hretains
  have hpairwise := t.increasing.pairwise_last
  unfold Tinyuma.stream
  rw [hcursor, Tinyuma.hubAt, Option.getD_some]
  dsimp only
  rw [hafter]
  show Except.ok ((t.history.take n).filter (fun g => f.lastSequence < g.lastSequence) ++
    (t.history.drop n).filter fun g => f.lastSequence < g.lastSequence) = _
  rw [hhistory] at hpairwise
  rw [← List.filter_append, List.take_append_drop, hhistory, filter_above_split hpairwise]

end Stream

/-! ## What the edge publishes -/

def Readable (decompress : List UInt8 → ℕ → Option (List UInt8)) (f : WireFrame) : Prop :=
  (parseFrame decompress f.bytes).toOption.map (·.lastEventSequence) = some f.lastSequence

instance (decompress : List UInt8 → ℕ → Option (List UInt8)) (f : WireFrame) :
    Decidable (Readable decompress f) := inferInstanceAs (Decidable (_ = _))

structure Leg where
  run : SessionRun
  publishedBefore : ℕ

def Served (t : Tinyuma) (base : List Char) (u : Upstream) (leg : Leg) : Prop :=
  (0 < u.lastEventSequence → t.Retains leg.publishedBefore u.lastEventSequence) ∧
    leg.run.received.map (·.bytes) <+:
      ((t.stream leg.publishedBefore (u.url base)).toOption.getD []).map (·.bytes)

instance (t : Tinyuma) (n cursor : ℕ) : Decidable (t.Retains n cursor) :=
  inferInstanceAs (Decidable (¬ (_ ∨ _)))

instance (t : Tinyuma) (base : List Char) (u : Upstream) (leg : Leg) :
    Decidable (Served t base u leg) := inferInstanceAs (Decidable (_ ∧ _))

section Published

variable {decompress : List UInt8 → ℕ → Option (List UInt8)} {base : List Char} {ringCapacity : ℕ}
  {t : Tinyuma} {u : Upstream}

lemma onFrame_readable {r : Received} {f : WireFrame} (hbytes : r.bytes = f.bytes)
    (hreadable : Readable decompress f) (hpos : 0 < f.lastSequence) :
    (onFrame decompress u r).lastEventSequence = f.lastSequence := by
  obtain ⟨info, hparsed, hlast⟩ := Option.map_eq_some_iff.mp hreadable
  have hok : parseFrame decompress r.bytes = .ok info := by
    rw [hbytes]
    cases hcase : parseFrame decompress f.bytes with
    | error e =>
      rw [hcase] at hparsed
      cases hparsed
    | ok info' =>
      rw [hcase] at hparsed
      cases hparsed
      rfl
  show frameSequence (parseFrame decompress r.bytes) u.lastEventSequence = f.lastSequence
  rw [hok]
  show (if 0 < info.lastEventSequence then info.lastEventSequence else _) = f.lastSequence
  rw [hlast, if_pos hpos]

variable {got : List WireFrame} {runs : List SessionRun}

lemma foldl_onFrame_readable {received : List Received}
    (hbytes : received.map (·.bytes) = got.map (·.bytes))
    (hgot : ∀ f ∈ got, Readable decompress f ∧ 0 < f.lastSequence) :
    (received.foldl (onFrame decompress) u).lastEventSequence =
      (got.getLast?.map (·.lastSequence)).getD u.lastEventSequence := by
  induction received generalizing u got with
  | nil =>
    simp_all
  | cons r received ih =>
    cases got with
    | nil => cases hbytes
    | cons f got =>
      obtain ⟨hhead, htail⟩ := List.cons.inj hbytes
      obtain ⟨hreadable, hpos⟩ := hgot f List.mem_cons_self
      have hlast := onFrame_readable (u := u) hhead hreadable hpos
      grind

lemma redial_readable {run : SessionRun} (hbytes : run.received.map (·.bytes) = got.map (·.bytes))
    (hgot : ∀ f ∈ got, Readable decompress f ∧ 0 < f.lastSequence) :
    (redial decompress u run).published.map (·.bytes) =
        u.published.map (·.bytes) ++ got.map (·.bytes) ∧
      (redial decompress u run).lastEventSequence =
        (got.getLast?.map (·.lastSequence)).getD u.lastEventSequence := by
  refine ⟨by rw [bytes_redial, hbytes], ?_⟩
  have hredial : (redial decompress u run).lastEventSequence =
      (session decompress (beforeDial u) run).lastEventSequence := by
    unfold redial
    cases run.ending <;> rfl
  have hbefore : (beforeDial u).lastEventSequence = u.lastEventSequence := by
    unfold beforeDial
    split_ifs <;> rfl
  rw [hredial, ← hbefore]
  unfold session
  rw [foldl_onFrame_readable hbytes hgot]
  split_ifs <;> rfl

def Gapless (t : Tinyuma) (sent : List (List UInt8)) (runs : List SessionRun) (u : Upstream) :
    Prop :=
  ∃ stretch, stretch <:+: t.history ∧
    u.published.map (·.bytes) = sent ++ stretch.map (·.bytes) ∧
    ∀ f ∈ stretch.getLast?, u.lastEventSequence = f.lastSequence ∧ ¬ EndedRejected runs

lemma Tinyuma.lastSequence_pos {f : WireFrame} (hf : f ∈ t.history) : 0 < f.lastSequence := by
  obtain ⟨hfloor, hle⟩ := t.increasing.1 f hf
  omega

lemma Served.extends {leg : Leg} {stretch : List WireFrame}
    (hserved : Served t base (edgeAfter decompress ringCapacity runs) leg)
    (hresumes : ResumesAt decompress base ringCapacity runs) (hstretch : stretch <:+: t.history)
    (hcursor : ∀ f ∈ stretch.getLast?,
      (edgeAfter decompress ringCapacity runs).lastEventSequence = f.lastSequence ∧
      ¬ EndedRejected runs)
    (hgot : got <+: (t.stream leg.publishedBefore ((edgeAfter decompress ringCapacity runs).url
      base)).toOption.getD [])
    :
    stretch ++ got <:+: t.history := by
  cases stretch using List.reverseRecOn with
  | nil =>
    -- the first frames after a rejection, or ever: any end of the history
    cases hstream : t.stream leg.publishedBefore
        ((edgeAfter decompress ringCapacity runs).url base) with
    | error e =>
      rw [hstream] at hgot
      rw [List.prefix_nil.mp hgot]
      exact List.nil_infix
    | ok all =>
      rw [hstream] at hgot
      exact hgot.isInfix.trans (stream_suffix hstream).isInfix
  | append_singleton seen f =>
    -- the dial carries the cursor, so the stream is what follows `f`
    obtain ⟨hlast, hended⟩ := hcursor f (List.getLast?_concat ..)
    obtain ⟨old, new, hhistory⟩ := hstretch
    have hsplit : t.history = (old ++ seen) ++ f :: new := by
      simp_all
    have hf : f ∈ t.history := by
      simp_all
    have hpos : 0 < (edgeAfter decompress ringCapacity runs).lastEventSequence := by
      rw [hlast]
      exact Tinyuma.lastSequence_pos hf
    have hretains := hserved.1 hpos
    have hurl := hresumes hpos
    rw [if_neg hended] at hurl
    rw [hlast] at hretains hurl
    rw [stream_of_cursor hsplit hretains hurl] at hgot
    obtain ⟨rest, hrest⟩ := hgot
    refine ⟨old, rest, ?_⟩
    rw [← hhistory, ← show got ++ rest = new from hrest]
    simp

lemma Gapless.leg {sent : List (List UInt8)} {leg : Leg}
    (h : Gapless t sent runs (edgeAfter decompress ringCapacity runs))
    (hresumes : ResumesAt decompress base ringCapacity runs)
    (hserved : Served t base (edgeAfter decompress ringCapacity runs) leg)
    (hending : leg.run.ending ≠ .cursorRejected)
    (hreadable : ∀ f ∈ t.history, Readable decompress f) :
    Gapless t sent (runs ++ [leg.run]) (edgeAfter decompress ringCapacity (runs ++ [leg.run])) := by
  obtain ⟨stretch, hstretch, hsent, hcursor⟩ := h
  obtain ⟨got, hgot, hbytes⟩ := List.prefix_map_iff.mp hserved.2
  have hnext := hserved.extends hresumes hstretch hcursor hgot
  have hframes : ∀ f ∈ got, Readable decompress f ∧ 0 < f.lastSequence := by
    intro f hf
    have hmem : f ∈ t.history := hnext.subset (List.mem_append_right _ hf)
    exact ⟨hreadable f hmem, Tinyuma.lastSequence_pos hmem⟩
  obtain ⟨hpublished, hlast⟩ := redial_readable
    hbytes hframes
  have hended : ¬ EndedRejected (runs ++ [leg.run]) := by
    unfold EndedRejected
    simpa using hending
  rw [edgeAfter_concat]
  refine ⟨stretch ++ got, hnext, ?_, ?_⟩
  · rw [hpublished, hsent, List.map_append, List.append_assoc]
  grind

lemma Gapless.legs {sent : List (List UInt8)} {legs : List Leg}
    (h : Gapless t sent runs (edgeAfter decompress ringCapacity runs))
    (hresumes : Resumes decompress base ringCapacity (runs ++ legs.map (·.run)))
    (hserved : AllSteps (fun u leg => some (redial decompress u leg.run)) (Served t base)
      (edgeAfter decompress ringCapacity runs) legs)
    (hending : ∀ leg ∈ legs, leg.run.ending ≠ .cursorRejected)
    (hreadable : ∀ f ∈ t.history, Readable decompress f) :
    Gapless t sent (runs ++ legs.map (·.run))
      (edgeAfter decompress ringCapacity (runs ++ legs.map (·.run))) := by
  induction legs generalizing runs with
  | nil =>
    simp_all
  | cons leg legs ih =>
    have hsplit : runs ++ (leg :: legs).map (·.run) =
        (runs ++ [leg.run]) ++ legs.map (·.run) := by simp
    rw [hsplit] at hresumes ⊢
    obtain ⟨hfirst, hrest⟩ := hserved
    have hat : ResumesAt decompress base ringCapacity runs :=
      hresumes runs ((List.prefix_append _ _).trans (List.prefix_append _ _))
    refine ih (h.leg hat hfirst (hending leg List.mem_cons_self) hreadable) hresumes ?_
      fun l hl => hending l (List.mem_cons_of_mem _ hl)
    rw [edgeAfter_concat]
    exact hrest

end Published

theorem edge_resumes_with_cursor (decompress : List UInt8 → ℕ → Option (List UInt8))
    (base : List Char) (ringCapacity : ℕ) (before : List SessionRun) (legs : List Leg) :
    (Resumes decompress base ringCapacity (before ++ legs.map (·.run)) ↔
      QuietAfterRejection decompress ringCapacity (before ++ legs.map (·.run))) ∧
    ∀ t : Tinyuma, QuietAfterRejection decompress ringCapacity (before ++ legs.map (·.run)) →
      (∀ leg ∈ legs, leg.run.ending ≠ .cursorRejected) →
      (∀ f ∈ t.history, Readable decompress f) →
      AllSteps (fun u leg => some (redial decompress u leg.run)) (Served t base)
        (edgeAfter decompress ringCapacity before) legs →
      ∃ stretch, stretch <:+: t.history ∧
        (edgeAfter decompress ringCapacity (before ++ legs.map (·.run))).published.map (·.bytes) =
          (edgeAfter decompress ringCapacity before).published.map (·.bytes) ++
            stretch.map (·.bytes) := by
  refine ⟨resumes_iff, fun t hquiet hending hreadable hserved => ?_⟩
  have hstart : Gapless t ((edgeAfter decompress ringCapacity before).published.map (·.bytes))
      before (edgeAfter decompress ringCapacity before) :=
    ⟨[], List.nil_infix, (List.append_nil _).symm, fun f hf => by cases hf⟩
  obtain ⟨stretch, hstretch, hpublished, -⟩ :=
    hstart.legs (resumes_iff.mpr hquiet) hserved hending hreadable
  grind

/-! ## A lost frame -/

def testFrame (sequence : ℕ) : WireFrame :=
  (encodeFrame (prostCodec []) sequence [testRecord sequence 1] ⟨4096, 262144⟩ 0).toOption.getD
    ⟨0, 0, 0, []⟩

def testTinyuma : Tinyuma where
  capacity := 8
  floor := 0
  history := [testFrame 1, testFrame 2, testFrame 3, testFrame 4]
  increasing := by decide +kernel

def testUrl : List Char := "ws://h:8011/uma/v1/ws".toList

def testSession (ending : SessionEnd) (frames : List ℕ) : SessionRun where
  connected := true
  received := frames.map fun sequence => ⟨(testFrame sequence).bytes, 0⟩
  ending := ending
  elapsedMs := 0

def noZstd (_ : List UInt8) (_ : ℕ) : Option (List UInt8) := none

/-- Two drops: each dial carries the last sequence, and what was published meanwhile is replayed. -/
theorem edge_resumes_after_drops :
    let legs : List Leg :=
      [⟨testSession (.other "closed") [1], 0⟩, ⟨testSession (.other "closed") [2, 3], 2⟩,
        ⟨testSession (.other "closed") [4], 4⟩]
    Resumes noZstd testUrl 8 (legs.map (·.run)) ∧
      ∃ stretch, stretch <:+: testTinyuma.history ∧
        (edgeAfter noZstd 8 (legs.map (·.run))).published.map (·.bytes) =
          stretch.map (·.bytes) := by
  intro legs
  have hnone : ∀ run ∈ legs.map (·.run), run.ending ≠ .cursorRejected := by decide +kernel
  have hquiet : QuietAfterRejection noZstd 8 (legs.map (·.run)) := by
    rintro before hbefore - ⟨run, hrun, hending⟩
    grind
  obtain ⟨hiff, hgapless⟩ := edge_resumes_with_cursor noZstd testUrl 8 [] legs
  exact ⟨hiff.mpr hquiet,
    hgapless testTinyuma hquiet (by decide +kernel) (by decide +kernel) (by decide +kernel)⟩

/-- The session after a 1013 sees a second sequence and is dropped: the next dial carries none, and
the third frame, which the upstream retains, is never published. -/
theorem cursor_withheld_for_ever :
    let rejected := testSession .cursorRejected [1]
    let legs : List Leg :=
      [⟨testSession (.other "closed") [2], 1⟩, ⟨testSession (.other "closed") [4], 3⟩]
    let runs := rejected :: legs.map (·.run)
    let u := edgeAfter noZstd 8 (runs.take 2)
    (u.lastEventSequence = 2 ∧ ¬ EndedRejected (runs.take 2) ∧ cursorParams (u.url testUrl) = []) ∧
      ¬ Resumes noZstd testUrl 8 runs ∧
      (∀ f ∈ testTinyuma.history, Readable noZstd f) ∧
      AllSteps (fun u leg => some (redial noZstd u leg.run)) (Served testTinyuma testUrl)
        (edgeAfter noZstd 8 [rejected]) legs ∧
      ¬ ∃ stretch, stretch <:+: testTinyuma.history ∧
        (edgeAfter noZstd 8 runs).published.map (·.bytes) =
          (edgeAfter noZstd 8 [rejected]).published.map (·.bytes) ++ stretch.map (·.bytes) := by
  intro rejected legs runs u
  have hdial : u.lastEventSequence = 2 ∧ ¬ EndedRejected (runs.take 2) ∧
      cursorParams (u.url testUrl) = [] := by decide +kernel
  refine ⟨hdial, fun hresumes => ?_, by decide +kernel, by decide +kernel, ?_⟩
  · have hat := hresumes (runs.take 2) (List.take_prefix 2 runs) (by decide)
    cases hat
  · rintro ⟨stretch, hstretch, hpublished⟩
    have hall : (edgeAfter noZstd 8 runs).published.map (·.bytes) =
        (edgeAfter noZstd 8 [rejected]).published.map (·.bytes) ++
          [testFrame 2, testFrame 4].map (·.bytes) := by decide +kernel
    have hbytes := List.append_cancel_left (hpublished.symm.trans hall)
    have hinfix := hstretch.map (·.bytes)
    rw [hbytes] at hinfix
    exact absurd hinfix (by decide +kernel)

end RustUma.Edge
