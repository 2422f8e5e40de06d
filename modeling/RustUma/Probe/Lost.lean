import RustUma.Found.Run
import RustUma.Probe.Seats

/-!
# Lost seats (`tools/p2p-mempool-probe/seats.go` `newSeatManager`, `seatAdmit`, `seatLeave`,
`seatTick`, `tools/p2p-mempool-probe/main.go` the first start)
-/

namespace RustUma.Probe

open RustUma.Found

variable {φ σ : Type}

structure SeatProcess (φ : Type) where
  seats : List (Seat φ) := []
  saved : List (Seat φ) := []
  exploring : Bool := false
  clock : ℕ := 1
  seen : String → Option ℕ := fun _ => none
  awaited : String → Bool := fun _ => false

inductive SeatAction (φ : Type) where
  | restart (killed now : ℕ) (seeds denied : List String)
  | arrive (now : ℕ) (id : String) (addr : List Char)
  | leave (now : ℕ) (id : String)
  | credit (gain : Seat φ → φ)
  | tick (now : ℕ) (mute : Seat φ → Bool)
  | explore (on : Bool) (kept : Seat φ → Bool)
  | eval (moment : Moment φ) (visits : Visits φ) (written : Bool)

namespace Seat

def load (s : Seat φ) : Seat φ :=
  { s with
    state := if s.state = .trial then .candidate else s.state
    online := false
    explore := false
    sessionStart := 0 }

def trialCap (cfg : SeatConfig σ) (exploring : Bool) : ℕ :=
  if exploring then cfg.trialSeats + cfg.exploreExtra else cfg.trialSeats

def seatAdmit (cfg : SeatConfig σ) (exploring : Bool) (trials now : ℕ) (addr : List Char)
    (s : Seat φ) : Option (Seat φ) :=
  let session := { s with online := true, addr := addr, sessionStart := now }
  if s.state = .cooldown ∧ now < s.cooldownUntil then none
  else if s.state = .core ∨ s.state = .lost then
    some { session with state := .core, lostSince := 0 }
  else if trialCap cfg exploring ≤ trials then none
  else some { session with
    state := .trial
    obsDone := decide (s.state = .trial) && s.obsDone
    explore := exploring &&
      decide (cfg.trialSeats ≤ trials + (s.online && decide (s.state ≠ .trial)).toNat) }

def seatLeave (now : ℕ) (s : Seat φ) : Seat φ :=
  if s.online then
    let left := { s with online := false, explore := false }
    match s.state with
    | .core => { left with state := .lost, lostSince := now }
    | .trial => { left with state := .candidate }
    | _ => left
  else s

def silence (now : ℕ) (mute : Seat φ → Bool) (s : Seat φ) : Seat φ :=
  if s.online ∧ s.state ≠ .core ∧ mute s then s.toCooldown now true else s

def expire (now : ℕ) (s : Seat φ) : Seat φ :=
  if s.state = .cooldown ∧ s.cooldownUntil ≤ now then { s with state := .candidate } else s

def explored (kept : Seat φ → Bool) (s : Seat φ) : Seat φ :=
  if s.explore then
    { s with explore := false, state := if kept s then s.state else .candidate }
  else s

end Seat

def touch [Inhabited φ] (id : String) (seats : List (Seat φ)) : List (Seat φ) :=
  if seats.any fun s => s.id = id then seats else { id := id, stats := default } :: seats

def change (id : String) (f : Seat φ → Seat φ) (seats : List (Seat φ)) : List (Seat φ) :=
  seats.map fun s => if s.id = id then f s else s

def newSeats [Inhabited φ] (now : ℕ) (seeds denied : List String) (saved : List (Seat φ)) :
    List (Seat φ) :=
  if saved.isEmpty then
    denied.foldl (fun seats id => change id (fun s =>
        { s with state := .cooldown, cooldownUntil := now + 3 * Seat.dayUs, cooldownCount := 1 })
        (touch id seats))
      (seeds.foldl (fun seats id =>
        change id (fun s => { s with state := .core, coreSince := now }) (touch id seats)) [])
  else saved.map Seat.load

namespace SeatProcess

def mark (t : ℕ) (p : SeatProcess φ) : SeatProcess φ :=
  { p with
    clock := t
    seen := fun id => if p.seats.any fun s => s.id = id ∧ s.online then some t else p.seen id }

section Step

variable [LinearOrder σ] [DecidableEq φ] [Inhabited φ] (cfg : SeatConfig σ)
  (measures : Measures φ σ) (worthless : φ → Bool)

def step (p : SeatProcess φ) : SeatAction φ → Option (SeatProcess φ)
  | .restart killed now seeds denied =>
    if p.clock ≤ killed ∧ killed ≤ now then
      let seats := newSeats now seeds denied p.saved
      let seen := (p.mark killed).seen
      some { p with
        seats := seats
        exploring := false
        clock := now
        seen := fun id =>
          if seen id = none ∧ seats.any fun s => s.id = id then some now else seen id
        awaited := fun id => seats.any fun s => s.id = id ∧ s.isCore }
    else none
  | .arrive now id addr =>
    if p.clock ≤ now then
      let seats := touch id p.seats
      let trials := seats.countP fun s => s.online && decide (s.state = .trial)
      some { p.mark now with
        seats := change id (fun s => (s.seatAdmit cfg p.exploring trials now addr).getD s) seats
        awaited := fun other => p.awaited other && decide (other ≠ id) }
    else none
  | .leave now id =>
    if p.clock ≤ now then some { p.mark now with seats := change id (Seat.seatLeave now) p.seats }
    else none
  | .credit gain => some { p with seats := p.seats.map fun s => { s with stats := gain s } }
  | .tick now mute =>
    if p.clock ≤ now then
      some { p.mark now with seats := p.seats.map fun s => (s.silence now mute).expire now }
    else none
  | .explore on kept =>
    some { p with
      exploring := on
      seats := if p.exploring ∧ ¬on then p.seats.map (Seat.explored kept) else p.seats }
  | .eval moment visits written =>
    if p.clock ≤ moment.now then
      let seats := seatEval cfg measures moment visits p.seats
      some { p.mark moment.now with
        seats := seats
        saved := if written then
            seats.filter fun s => !(decide (s.state = .candidate) && worthless s.stats &&
              decide (s.cooldownCount = 0))
          else p.saved }
    else none

end Step

end SeatProcess

/-! ## What happens to a seat between two processes -/

structure Seat.Kept (s s' : Seat φ) : Prop where
  id : s'.id = s.id
  online : s'.online = s.online
  core : s'.state = .core → s.state = .core ∨ s'.online
  lost : s'.state = .lost → s.state = .lost ∧ s'.lostSince = s.lostSince

def Carried (seats seats' : List (Seat φ)) : Prop := ∀ s' ∈ seats', ∃ s ∈ seats, Seat.Kept s s'

lemma Seat.Kept.refl (s : Seat φ) : s.Kept s := ⟨rfl, rfl, .inl, fun h => ⟨h, rfl⟩⟩

lemma Seat.Kept.trans {s s' s'' : Seat φ} (h : s.Kept s') (h' : s'.Kept s'') : s.Kept s'' where
  id := h'.id.trans h.id
  online := h'.online.trans h.online
  core hc := (h'.core hc).elim (fun hc => (h.core hc).imp_right (h'.online.trans ·)) .inr
  lost hl := ⟨(h.lost (h'.lost hl).1).1, (h'.lost hl).2.trans (h.lost (h'.lost hl).1).2⟩

lemma Carried.trans {seats seats' seats'' : List (Seat φ)} (h : Carried seats seats')
    (h' : Carried seats' seats'') : Carried seats seats'' := by
  intro s'' hs''
  obtain ⟨s', hs', hkept'⟩ := h' s'' hs''
  obtain ⟨s, hs, hkept⟩ := h s' hs'
  exact ⟨s, hs, hkept.trans hkept'⟩

lemma carried_of_subset {seats seats' : List (Seat φ)} (h : seats' ⊆ seats) :
    Carried seats seats' := fun s hs => ⟨s, h hs, .refl s⟩

lemma carried_map {f : Seat φ → Seat φ} (h : ∀ s, Seat.Kept s (f s)) (seats : List (Seat φ)) :
    Carried seats (seats.map f) := by
  intro s' hs'
  grind

lemma stats_kept (s : Seat φ) (stats : φ) : s.Kept { s with stats := stats } :=
  ⟨rfl, rfl, .inl, fun h => ⟨h, rfl⟩⟩

lemma silence_kept {now : ℕ} {mute : Seat φ → Bool} (s : Seat φ) :
    s.Kept (s.silence now mute) := by
  unfold Seat.silence
  constructor <;> grind [Seat.toCooldown]

lemma expire_kept {now : ℕ} (s : Seat φ) : s.Kept (s.expire now) := by
  unfold Seat.expire
  constructor <;> grind

lemma explored_kept {kept : Seat φ → Bool} (s : Seat φ) : s.Kept (s.explored kept) := by
  unfold Seat.explored
  constructor <;> grind

section Eval

variable [LinearOrder σ] {cfg : SeatConfig σ} {measures : Measures φ σ} {moment : Moment φ}
  {visits : Visits φ} {seats : List (Seat φ)}

lemma demoteOne_kept (usCore : ℕ) (s : Seat φ) :
    s.Kept (demoteOne cfg measures moment usCore s).2 := by
  unfold demoteOne
  constructor <;> grind [grade, Seat.rested, Seat.coreToTrial]

lemma demote_carried (usCore : ℕ) (seats : List (Seat φ)) :
    Carried seats (demote cfg measures moment usCore seats) := by
  induction seats generalizing usCore with
  | nil => nofun
  | cons s seats ih =>
    refine List.forall_mem_cons.mpr ⟨⟨s, List.mem_cons_self, demoteOne_kept usCore s⟩, ?_⟩
    intro t' ht'
    obtain ⟨t, ht, hkept⟩ := ih _ t' ht'
    grind

omit [LinearOrder σ] in
lemma timeOut_kept (s : Seat φ) : s.Kept (timeOut cfg moment s) := by
  unfold timeOut
  constructor <;> grind

variable (cfg measures) in
lemma promote_kept (s : Seat φ) : s.Kept (promote cfg measures moment s) := by
  unfold promote
  constructor <;> grind [Seat.toCore]

lemma cap_carried (seats : List (Seat φ)) : Carried seats (cap cfg measures seats) := by
  have hcores : (seats.filter Seat.isCore).insertionSort
      (fun s t => measures.score s.stats ≤ measures.score t.stats) ⊆ seats := fun s hs =>
    List.mem_of_mem_filter ((List.mem_insertionSort _).mp hs)
  intro s' hs'
  simp only [cap, List.mem_append, List.mem_map] at hs'
  obtain (⟨s, hs, rfl⟩ | hs') | hs' := hs'
  · exact ⟨s, hcores (List.mem_of_mem_take hs), ⟨rfl, rfl, (fun h => by cases h), (fun h => by cases h)⟩⟩
  · exact ⟨s', hcores (List.mem_of_mem_drop hs'), .refl s'⟩
  · exact ⟨s', List.mem_of_mem_filter hs', .refl s'⟩

lemma evict_carried [DecidableEq φ] (seats : List (Seat φ)) :
    Carried seats (evict measures moment seats) := by
  unfold evict
  split
  · refine carried_map (fun s => ?_) seats
    constructor <;> grind [Seat.toCooldown]
  · exact carried_of_subset fun _ h => h

variable (cfg measures moment visits) in
lemma promoted_carried : Carried seats (promoted cfg measures moment visits seats) :=
  (((carried_map (fun s => stats_kept s (moment.settle s)) seats).trans
    (carried_of_subset (visits.perm 0 _).subset)).trans (demote_carried _ _)).trans
      (carried_map (fun s => (timeOut_kept s).trans (promote_kept cfg measures _)) _)

lemma seatEval_carried [DecidableEq φ] : Carried (promoted cfg measures moment visits seats)
    (seatEval cfg measures moment visits seats) :=
  (((carried_of_subset (visits.perm 1 _).subset).trans (cap_carried _)).trans
    (carried_of_subset (visits.perm 2 _).subset)).trans (evict_carried _)

lemma lost_of_promoted {s : Seat φ} (hs : s ∈ promoted cfg measures moment visits seats)
    (hlost : s.state = .lost) (hsince : 0 < s.lostSince) :
    moment.now ≤ s.lostSince + cfg.lostToleranceUs := by
  obtain ⟨t, -, rfl⟩ := List.mem_map.mp hs
  obtain ⟨hout, hsame⟩ := (promote_kept cfg measures _).lost hlost
  obtain ⟨hbefore, hsame'⟩ := (timeOut_kept t).lost hout
  rw [promoteLate, hsame, hsame'] at hsince ⊢
  by_contra hlate
  have hgone : timeOut cfg moment t = { t with state := .candidate } :=
    if_pos ⟨hbefore, hsince, by omega⟩
  simp_all

end Eval

/-! ## Over a whole history -/

structure Seat.Timed (seen : String → Option ℕ) (awaited : String → Bool) (s : Seat φ) : Prop where
  core : s.state = .core → s.online ∨ awaited s.id
  lost : s.state = .lost → 0 < s.lostSince ∧ ∃ t, seen s.id = some t ∧ s.lostSince ≤ t

lemma Seat.Timed.of_kept {seen : String → Option ℕ} {awaited : String → Bool} {s s' : Seat φ}
    (h : s.Timed seen awaited) (hkept : s.Kept s') : s'.Timed seen awaited where
  core hc := (hkept.core hc).elim (fun hc => hkept.online ▸ hkept.id ▸ h.core hc) .inl
  lost hl := by
    obtain ⟨hlost, hsince⟩ := hkept.lost hl
    rw [hsince, hkept.id]
    exact h.lost hlost

namespace SeatProcess

structure Timed (p : SeatProcess φ) : Prop where
  seats : ∀ s ∈ p.seats, s.Timed p.seen p.awaited
  saved : ∀ s ∈ p.saved, s.state = .lost → 0 < s.lostSince ∧
    ∃ t, p.seen s.id = some t ∧ s.lostSince ≤ t
  clock : 0 < p.clock
  seen : ∀ id t, p.seen id = some t → t ≤ p.clock

variable {p p' : SeatProcess φ} {seats : List (Seat φ)} {t : ℕ}

lemma Timed.replace (h : p.Timed) (hseats : ∀ s ∈ seats, s.Timed p.seen p.awaited) :
    { p with seats := seats }.Timed := { h with seats := hseats }

lemma Timed.carried (h : p.Timed) (hseats : Carried p.seats seats) :
    { p with seats := seats }.Timed :=
  h.replace fun s' hs' =>
    let ⟨s, hs, hkept⟩ := hseats s' hs'
    (h.seats s hs).of_kept hkept

lemma Timed.mark_seen (h : p.Timed) (ht : p.clock ≤ t) {id : String} {n : ℕ}
    (hn : ∃ u, p.seen id = some u ∧ n ≤ u) : ∃ u, (p.mark t).seen id = some u ∧ n ≤ u := by
  obtain ⟨u, hu, hle⟩ := hn
  dsimp only [mark]
  split_ifs
  · exact ⟨t, rfl, (hle.trans (h.seen id u hu)).trans ht⟩
  grind

lemma Timed.mark (h : p.Timed) (ht : p.clock ≤ t) : (p.mark t).Timed where
  seats s hs := ⟨(h.seats s hs).core, fun hl =>
    ⟨((h.seats s hs).lost hl).1, h.mark_seen ht ((h.seats s hs).lost hl).2⟩⟩
  saved s hs hl := ⟨(h.saved s hs hl).1, h.mark_seen ht (h.saved s hs hl).2⟩
  clock := h.clock.trans_le ht
  seen id u hu := by
    dsimp only [SeatProcess.mark] at hu ⊢
    split_ifs at hu
    · simp_all
    · exact (h.seen id u hu).trans ht

lemma mem_change {id : String} {f : Seat φ → Seat φ} {s' : Seat φ} (h : s' ∈ change id f seats) :
    ∃ s ∈ seats, (s.id = id ∧ s' = f s) ∨ (s.id ≠ id ∧ s' = s) := by
  obtain ⟨s, hs, rfl⟩ := List.mem_map.mp h
  grind

lemma mem_touch [Inhabited φ] {id : String} {s : Seat φ} (h : s ∈ touch id seats) :
    s ∈ seats ∨ s = { id := id, stats := default } := by
  unfold touch at h
  grind

lemma seatAdmit_timed {cfg : SeatConfig σ} {exploring : Bool} {trials now : ℕ} {addr : List Char}
    {seen : String → Option ℕ} {awaited awaited' : String → Bool} {s : Seat φ}
    (h : s.Timed seen awaited) :
    ((s.seatAdmit cfg exploring trials now addr).getD s).Timed seen awaited' := by
  unfold Seat.seatAdmit
  dsimp only
  split_ifs with hcool hheld hfull
  · exact ⟨fun hc => by simp [hcool.1] at hc, h.lost⟩
  · exact ⟨fun _ => .inl rfl, nofun⟩
  · exact ⟨fun hc => absurd (.inl hc) hheld, h.lost⟩
  · exact ⟨nofun, nofun⟩

lemma seatLeave_timed (h : p.Timed) (ht : p.clock ≤ t) {s : Seat φ} (hs : s ∈ p.seats) :
    (s.seatLeave t).Timed (p.mark t).seen p.awaited := by
  have hmark := (h.mark ht).seats s hs
  by_cases honline : s.online
  · have hseen : (p.mark t).seen s.id = some t :=
      if_pos (List.any_eq_true.mpr ⟨s, hs, by simp [honline]⟩)
    unfold Seat.seatLeave
    rw [if_pos honline]
    cases hstate : s.state with
    | core => exact ⟨nofun, fun _ => ⟨h.clock.trans_le ht, t, hseen, le_rfl⟩⟩
    | lost => exact ⟨nofun, fun _ => hmark.lost hstate⟩
    | trial | candidate | cooldown => exact ⟨nofun, nofun⟩
  · rwa [Seat.seatLeave, if_neg honline]

lemma ne_lost_foldl [Inhabited φ] {f : Seat φ → Seat φ} (hf : ∀ s, (f s).state ≠ .lost)
    (ids : List String) (hseats : ∀ s ∈ seats, s.state ≠ .lost) :
    ∀ s ∈ ids.foldl (fun seats id => change id f (touch id seats)) seats, s.state ≠ .lost := by
  induction ids generalizing seats with
  | nil => exact hseats
  | cons id ids ih =>
    refine ih fun s' hs' => ?_
    obtain ⟨s, hs, ⟨-, rfl⟩ | ⟨-, rfl⟩⟩ := mem_change hs'
    · exact hf s
    · obtain hs | rfl := mem_touch hs
      · exact hseats _ hs
      · nofun

lemma lost_newSeats [Inhabited φ] {now : ℕ} {seeds denied : List String} {s : Seat φ}
    (hs : s ∈ newSeats now seeds denied p.saved) (hlost : s.state = .lost) :
    ∃ r ∈ p.saved, r.state = .lost ∧ r.id = s.id ∧ r.lostSince = s.lostSince := by
  unfold newSeats at hs
  split_ifs at hs
  · exact absurd hlost
      (ne_lost_foldl (by simp) denied (ne_lost_foldl (by simp) seeds (by simp)) s hs)
  · obtain ⟨r, hr, rfl⟩ := List.mem_map.mp hs
    refine ⟨r, hr, ?_, rfl, rfl⟩
    by_contra hne
    simp only [Seat.load] at hlost
    grind

section Step

variable [LinearOrder σ] [DecidableEq φ] [Inhabited φ] {cfg : SeatConfig σ}
  {measures : Measures φ σ} {worthless : φ → Bool} {a : SeatAction φ}

lemma Timed.restart (h : p.Timed) {killed now : ℕ} {seeds denied : List String}
    (hstep : p.step cfg measures worthless (.restart killed now seeds denied) = some p') :
    p'.Timed := by
  obtain ⟨⟨hkilled, hnow⟩, heq⟩ := Option.ite_none_right_eq_some.mp hstep
  cases heq
  have hmark := h.mark hkilled
  have hseen : ∀ {id n}, (∃ u, (p.mark killed).seen id = some u ∧ n ≤ u) →
      ∃ u, (if (p.mark killed).seen id = none ∧
        (newSeats now seeds denied p.saved).any (fun s => s.id = id) then some now
        else (p.mark killed).seen id) = some u ∧ n ≤ u := by
    simp_all
  refine ⟨fun s hs => ⟨fun hc => .inr ?_, fun hl => ?_⟩, fun s hs hl => ?_,
    hmark.clock.trans_le hnow, fun id u hu => ?_⟩
  · exact List.any_eq_true.mpr ⟨s, hs, by simp [Seat.isCore, hc]⟩
  · obtain ⟨r, hr, hlost, hid, hsince⟩ := lost_newSeats hs hl
    obtain ⟨hpos, hold⟩ := hmark.saved r hr hlost
    grind
  · exact ⟨(hmark.saved s hs hl).1, hseen (hmark.saved s hs hl).2⟩
  · dsimp only at hu
    split_ifs at hu
    · simp_all
    · exact (hmark.seen id u hu).trans hnow

lemma Timed.step (h : p.Timed) (hstep : p.step cfg measures worthless a = some p') :
    p'.Timed := by
  cases a with
  | restart killed now seeds denied => exact h.restart hstep
  | arrive now id addr =>
    obtain ⟨ht, heq⟩ := Option.ite_none_right_eq_some.mp hstep
    cases heq
    refine { h.mark ht with seats := fun s' hs' => ?_ }
    obtain ⟨s, hs, hs'⟩ := mem_change hs'
    have htimed : s.Timed (p.mark now).seen p.awaited := by
      obtain hs | rfl := mem_touch hs
      · exact (h.mark ht).seats s hs
      · exact ⟨nofun, nofun⟩
    obtain ⟨rfl, rfl⟩ | ⟨hid, rfl⟩ := hs'
    · exact seatAdmit_timed htimed
    · exact ⟨fun hc => (htimed.core hc).imp_right fun hw => by simpa [hid] using hw, htimed.lost⟩
  | leave now id =>
    obtain ⟨ht, heq⟩ := Option.ite_none_right_eq_some.mp hstep
    cases heq
    refine (h.mark ht).replace fun s' hs' => ?_
    obtain ⟨s, hs, ⟨-, rfl⟩ | ⟨-, rfl⟩⟩ := mem_change hs'
    · exact seatLeave_timed h ht hs
    · exact (h.mark ht).seats _ hs
  | credit gain =>
    cases hstep
    exact h.carried (carried_map (fun s => stats_kept s (gain s)) _)
  | tick now mute =>
    obtain ⟨ht, heq⟩ := Option.ite_none_right_eq_some.mp hstep
    cases heq
    exact (h.mark ht).carried (carried_map (fun s => (silence_kept s).trans (expire_kept _)) _)
  | explore on kept =>
    cases hstep
    refine { h with seats := ?_ }
    split_ifs
    · exact (h.carried (carried_map explored_kept _)).seats
    · exact h.seats
  | eval moment visits written =>
    obtain ⟨ht, heq⟩ := Option.ite_none_right_eq_some.mp hstep
    cases heq
    have heval := (h.mark ht).carried
      ((promoted_carried cfg measures moment visits).trans seatEval_carried)
    refine { heval with saved := fun s hs hl => ?_ }
    split_ifs at hs
    · exact (heval.seats s (List.mem_of_mem_filter hs)).lost hl
    · exact (h.mark ht).saved s hs hl

end Step

end SeatProcess

section History

variable [LinearOrder σ] [DecidableEq φ] [Inhabited φ]

/-- **A core seat is given up after the tolerance**, unless it is awaited: at the end of an
evaluation a core or lost seat is online, or its peer was seen within the tolerance. -/
theorem core_seat_is_given_up (cfg : SeatConfig σ) (measures : Measures φ σ)
    (worthless : φ → Bool) {as : List (SeatAction φ)} {moment : Moment φ} {visits : Visits φ}
    {written : Bool} {p : SeatProcess φ}
    (hrun : run (SeatProcess.step cfg measures worthless) {} (as ++ [.eval moment visits written]) =
      some p) :
    ∀ s ∈ p.seats, s.state = .core ∨ s.state = .lost → p.awaited s.id = false →
      s.online ∨ ∃ t, p.seen s.id = some t ∧ moment.now ≤ t + cfg.lostToleranceUs := by
  have hend : p.Timed := run_invariant_of_step (fun _ _ _ h hs => h.step hs)
    ⟨by simp, by simp, Nat.one_pos, by simp⟩ hrun
  obtain ⟨q, -, hlast⟩ := run_append_eq_some.mp hrun
  obtain ⟨p, hstep, heq⟩ := Option.bind_eq_some_iff.mp hlast
  cases heq
  intro s hs hstate hawaited
  obtain hcore | hlost := hstate
  · exact .inl (((hend.seats s hs).core hcore).resolve_right (by simp [hawaited]))
  · obtain ⟨hpos, t, ht, hle⟩ := (hend.seats s hs).lost hlost
    obtain ⟨-, heq⟩ := Option.ite_none_right_eq_some.mp hstep
    cases heq
    obtain ⟨s', hs', hkept⟩ := seatEval_carried s hs
    obtain ⟨hlost', hsince⟩ := hkept.lost hlost
    have hwithin := lost_of_promoted hs' hlost' (hsince ▸ hpos)
    grind

def plain : Measures ℕ ℕ := ⟨id, fun _ => true⟩

def atTime (now : ℕ) : Moment ℕ := ⟨now, fun _ => false, Seat.stats, fun _ => true⟩

def inOrder : Visits ℕ := ⟨fun _ => id, fun _ _ => .refl _⟩

/-- A peer that is promoted, leaves, and is still missed at the next evaluation. -/
theorem core_seat_is_given_up_after_leaving :
    ∃ p, run (SeatProcess.step ⟨1, 1, 2, 2, 4, 0, 10, 2, 0⟩ plain fun _ => false) {}
        ([.restart 1 2 [] [], .arrive 3 "a" [], .credit fun _ => 5, .eval (atTime 4) inOrder true,
          .leave 5 "a"] ++ [.eval (atTime 6) inOrder true]) = some p ∧
      p.seats.map Seat.state = [.lost] ∧
      ∀ s ∈ p.seats, s.state = .core ∨ s.state = .lost → p.awaited s.id = false →
        s.online ∨ ∃ t, p.seen s.id = some t ∧ (atTime 6).now ≤ t + 10 :=
  exists_some_imp (by decide) fun p hrun hlost => ⟨hlost,
    core_seat_is_given_up ⟨1, 1, 2, 2, 4, 0, 10, 2, 0⟩ plain (fun _ => false) hrun⟩

/-- **A seed that never comes keeps its seat.** It was never online, so it was never lost. -/
theorem seed_keeps_its_seat :
    ∃ p, run (SeatProcess.step ⟨1, 1, 2, 2, 4, 0, 10, 2, 0⟩ plain fun _ => false) {}
        [.restart 1 2 ["a"] [], .eval (atTime 50) inOrder true] = some p ∧
      ∃ s ∈ p.seats, s.state = .core ∧ s.online = false ∧ p.seen s.id = some 2 ∧ 2 + 10 < 50 :=
  exists_some_of_any (by decide)

end History

end RustUma.Probe
