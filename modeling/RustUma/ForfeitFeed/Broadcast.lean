import RustUma.ForfeitFeed.Store
import RustUma.Found.Run

/-!
# What a subscriber is sent (`tools/forfeit-feed/forfeit_ws.py` `broadcast`, `serve_ws`)

A client is entered in the list of clients, then reads the store once and is sent what it read. An
event that a poll adds is sent to the clients listed after it was added. What the bootstrap adds is
not sent to anyone, and clients are served while it runs.
-/

namespace RustUma.ForfeitFeed

open RustUma.Found

structure Feed (ε : Type) where
  store : List ε
  booting : Bool
  /-- An event that a poll has added, before the clients are listed. -/
  casting : Option ε
  registered : Bool
  /-- What is left of the client's backfill, once it has read the store. -/
  backfill : Option (List ε)
  /-- Threads that are to send an event to the client. -/
  outbox : List ε
  sent : List ε
  deriving DecidableEq

inductive FeedAction (ε : Type)
  | bootAdd (e : ε)
  | bootDone
  | pollAdd (e : ε)
  | listClients
  | send (e : ε)
  | retry (e : ε)
  | register
  | readStore (limit : ℕ)
  | sendBackfill
  deriving DecidableEq

def FeedAction.Own {ε : Type} : FeedAction ε → Prop
  | listClients | send _ | sendBackfill => True
  | _ => False

namespace Feed

variable {ε κ : Type}

def start (store : List ε) : Feed ε := ⟨store, true, none, false, none, [], []⟩

def broadcast (s : Feed ε) (e : ε) : List ε := if s.registered then s.outbox ++ [e] else s.outbox

def ReadsAll (s : Feed ε) : FeedAction ε → Prop
  | .readStore limit => s.booting = false ∧ s.store.length ≤ limit
  | _ => True

def inFlight (s : Feed ε) : List ε := s.casting.toList ++ s.outbox ++ s.backfill.getD []

def Reading (s : Feed ε) : Prop := s.backfill ≠ none ∧ s.registered = true ∧ s.booting = false

def Serves (s : Feed ε) : Prop :=
  s.backfill ≠ none → s.Reading ∧ ∀ e ∈ s.store, e ∈ s.sent ++ s.inFlight

variable {s s' : Feed ε} {a : FeedAction ε} {e : ε}

lemma mem_handled : e ∈ s.sent ++ s.inFlight ↔
    e ∈ s.sent ∨ s.casting = some e ∨ e ∈ s.outbox ∨ e ∈ s.backfill.getD [] := by
  simp [inFlight]

variable [DecidableEq ε] [DecidableEq κ] (key : ε → κ) (retried : ε → Bool)

def step (s : Feed ε) : FeedAction ε → Option (Feed ε)
  | .bootAdd e => if s.booting then some { s with store := Store.keep key s.store e } else none
  | .bootDone => if s.booting then some { s with booting := false } else none
  | .pollAdd e =>
    if s.booting = false ∧ s.casting = none then
      some { s with
        store := Store.keep key s.store e
        casting := if s.store.any fun e' => key e' = key e then none else some e }
    else none
  | .listClients => s.casting.map fun e => { s with casting := none, outbox := s.broadcast e }
  | .send e =>
    if e ∈ s.outbox then some { s with outbox := s.outbox.erase e, sent := s.sent ++ [e] } else none
  | .retry e =>
    if e ∈ s.store ∧ retried e = true then some { s with outbox := s.broadcast e } else none
  | .register => if s.registered then none else some { s with registered := true }
  | .readStore limit =>
    if s.registered = true ∧ s.backfill = none then
      some { s with backfill := some (s.store.drop (s.store.length - limit)) }
    else none
  | .sendBackfill =>
    match s.backfill with
    | some (e :: rest) => some { s with backfill := some rest, sent := s.sent ++ [e] }
    | _ => none

variable {key retried}

lemma Reading.step (h : s.Reading) (hstep : s.step key retried a = some s') :
    s'.Reading ∧ ∀ x, (x ∈ s.store → x ∈ s'.store) ∧
      (x ∈ s.sent ++ s.inFlight → x ∈ s'.sent ++ s'.inFlight) ∧
      (x ∈ s'.sent ++ s'.inFlight →
        x ∈ s.sent ++ s.inFlight ∨ x ∉ s.store ∨ retried x = true) ∧
      (x ∈ s'.store → x ∈ s.store ∨ x ∈ s'.sent ++ s'.inFlight) := by
  obtain ⟨hread, hregistered, hbooting⟩ := h
  simp only [mem_handled]
  cases a with
  | bootAdd | bootDone => simp [Feed.step, hbooting] at hstep
  | readStore limit => simp [Feed.step, hread] at hstep
  | register => simp [Feed.step, hregistered] at hstep
  | pollAdd e =>
    simp only [Feed.step, Option.ite_none_right_eq_some, Option.some.injEq] at hstep
    obtain ⟨⟨-, hcasting⟩, rfl⟩ := hstep
    refine ⟨⟨hread, hregistered, hbooting⟩, fun x => ?_⟩
    simp only [Store.keep, hcasting]
    grind
  | listClients =>
    obtain ⟨e, hcasting, rfl⟩ := Option.map_eq_some_iff.mp hstep
    refine ⟨⟨hread, hregistered, hbooting⟩, fun x => ?_⟩
    simp only [broadcast, hregistered, hcasting]
    grind
  | send e =>
    simp only [Feed.step, Option.ite_none_right_eq_some, Option.some.injEq] at hstep
    obtain ⟨hmem, rfl⟩ := hstep
    refine ⟨⟨hread, hregistered, hbooting⟩, fun x => ?_⟩
    grind
  | retry e =>
    simp only [Feed.step, Option.ite_none_right_eq_some, Option.some.injEq] at hstep
    obtain ⟨⟨-, hretried⟩, rfl⟩ := hstep
    refine ⟨⟨hread, hregistered, hbooting⟩, fun x => ?_⟩
    simp only [broadcast, hregistered]
    grind
  | sendBackfill =>
    simp only [Feed.step] at hstep
    split at hstep
    · next e rest hbackfill =>
      cases hstep
      refine ⟨⟨by simp, hregistered, hbooting⟩, fun x => ?_⟩
      grind
    · cases hstep

lemma Serves.step (h : Serves s) (hok : s.ReadsAll a) (hstep : s.step key retried a = some s') :
    Serves s' := by
  intro hread'
  by_cases hread : s.backfill = none
  · -- Only `readStore` gives the client a backfill.
    cases a with
    | readStore limit =>
      simp only [Feed.step, Option.ite_none_right_eq_some, Option.some.injEq] at hstep
      obtain ⟨⟨hregistered, -⟩, rfl⟩ := hstep
      refine ⟨⟨hread', hregistered, hok.1⟩, fun e he => mem_handled.mpr ?_⟩
      have hall : s.store.length - limit = 0 := by have := hok.2; omega
      simp [hall, he]
    | _ =>
      simp only [Feed.step, Option.map_eq_some_iff] at hstep
      grind
  · obtain ⟨hreading, hall⟩ := h hread
    obtain ⟨hreading', hx⟩ := hreading.step hstep
    grind

variable (key retried s) in
def Finishes : Prop :=
  ∃ as s', run (Feed.step key retried) s as = some s' ∧ (∀ a ∈ as, a.Own) ∧ s'.store = s.store ∧
    (s.backfill ≠ none → s'.backfill ≠ none) ∧ Serves s' ∧ s'.inFlight = []

lemma Finishes.cons (h : s'.Finishes key retried) (hown : a.Own)
    (hstep : s.step key retried a = some s') (hstore : s'.store = s.store)
    (hread : s.backfill ≠ none → s'.backfill ≠ none) : s.Finishes key retried := by
  obtain ⟨as, t, hrun, hall, hstore', hread', hserves, hnone⟩ := h
  refine ⟨a :: as, t, ?_, by simp_all, hstore'.trans hstore,
    fun hne => hread' (hread hne), hserves, hnone⟩
  simp_all

variable (key retried) in
lemma Serves.finishes (h : Serves s) (n : ℕ)
    (hn : 2 * s.casting.toList.length + s.outbox.length + (s.backfill.getD []).length ≤ n) :
    s.Finishes key retried := by
  induction n generalizing s with
  | zero =>
    refine ⟨[], s, rfl, by simp, rfl, id, h, List.length_eq_zero_iff.mp ?_⟩
    simp only [inFlight, List.length_append]
    omega
  | succ n ih =>
    -- An event in flight goes one stage further: listed, then sent.
    cases hcasting : s.casting with
    | some e =>
      have hstep : s.step key retried .listClients =
          some { s with casting := none, outbox := s.broadcast e } := by
        simp only [Feed.step, hcasting, Option.map_some]
      refine (ih (h.step (by trivial) hstep) ?_).cons (by trivial) hstep rfl id
      simp only [hcasting, broadcast] at hn ⊢
      split_ifs <;> simp at hn ⊢ <;> omega
    | none =>
      cases houtbox : s.outbox with
      | cons e rest =>
        have hstep : s.step key retried (.send e) =
            some { s with outbox := rest, sent := s.sent ++ [e] } := by
          simp [Feed.step, houtbox]
        refine (ih (h.step (by trivial) hstep) ?_).cons (by trivial) hstep rfl id
        simp only [hcasting, houtbox, List.length_cons] at hn ⊢
        omega
      | nil =>
        cases hbackfill : s.backfill with
        | none => exact ⟨[], s, rfl, by simp, rfl, id, h, by simp [inFlight, *]⟩
        | some todo =>
          cases todo with
          | nil => exact ⟨[], s, rfl, by simp, rfl, id, h, by simp [inFlight, *]⟩
          | cons e rest =>
            have hstep : s.step key retried .sendBackfill =
                some { s with backfill := some rest, sent := s.sent ++ [e] } := by
              simp only [Feed.step, hbackfill]
            refine (ih (h.step (by trivial) hstep) ?_).cons (by trivial) hstep rfl (by simp)
            simp only [hcasting, houtbox, hbackfill, Option.getD_some, List.length_cons] at hn ⊢
            omega

variable (e) in
def Missed (s : Feed ε) : Prop := s.Reading ∧ e ∈ s.store ∧ e ∉ s.sent ++ s.inFlight

lemma Missed.step (h : Missed e s) (hretried : retried e = false)
    (hstep : s.step key retried a = some s') : Missed e s' := by
  obtain ⟨hreading, hstored, hidle⟩ := h
  obtain ⟨hreading', hx⟩ := hreading.step hstep
  obtain ⟨hkept, -, hcomes, -⟩ := hx e
  refine ⟨hreading', hkept hstored, fun hmem => ?_⟩
  simp_all

end Feed

theorem no_forfeit_missed {ε κ : Type} [DecidableEq ε] [DecidableEq κ] (key : ε → κ)
    (retried : ε → Bool) (store : List ε) {as : List (FeedAction ε)} {s : Feed ε}
    (hok : AllSteps (Feed.step key retried) Feed.ReadsAll (.start store) as)
    (hrun : run (Feed.step key retried) (.start store) as = some s) (hread : s.backfill ≠ none) :
    (∀ e ∈ s.store, e ∈ s.sent ∨ e ∈ s.inFlight) ∧
      ∃ as' s', run (Feed.step key retried) s as' = some s' ∧ (∀ a ∈ as', a.Own) ∧
        s'.store = s.store ∧ ∀ e ∈ s.store, e ∈ s'.sent := by
  have h : s.Serves := run_invariant (fun _ _ _ h hok hstep => h.step hok hstep)
    (fun hread => absurd rfl hread) hok hrun
  obtain ⟨as', s', hrun', hown, hstore, hread', hserves, hnone⟩ := h.finishes key retried _ le_rfl
  refine ⟨fun e he => List.mem_append.mp ((h hread).2 e he), as', s', hrun', hown, hstore, ?_⟩
  intro e he
  simpa [hnone] using (hserves (hread' hread)).2 e (hstore ▸ he)

/-- One event is in the backfill, one is added when the client has read the store. -/
theorem no_forfeit_missed_of_two :
    ∃ s, run (Feed.step id fun _ => false) (.start [6])
        [.register, .bootDone, .readStore 3, .pollAdd 7] = some s ∧ s.store = [6, 7] ∧
      ∃ as' s', run (Feed.step id fun _ => false) s as' = some s' ∧ s'.store = s.store ∧
        ∀ e ∈ s.store, e ∈ s'.sent := by
  refine exists_some_imp (P := fun s => s.store = [6, 7] ∧ s.backfill = some [6])
    (by decide +kernel) ?_
  rintro s hrun ⟨hstore, hread⟩
  obtain ⟨-, as', s', hrun', -, hsame, hsent⟩ := no_forfeit_missed id (fun _ => false) [6]
    (by exact ⟨trivial, trivial, ⟨rfl, by decide⟩, trivial, trivial⟩) hrun (by simp [hread])
  grind

/-- A client connects while the bootstrap runs. What is added then is in the store, and is never
sent to it. -/
theorem bootstrap_forfeit_missed :
    ∃ s, run (Feed.step id fun _ => false) (.start [])
        [.register, .readStore 3, .bootAdd 7, .bootDone] = some s ∧ s.store = [7] ∧
      ∀ as' s', run (Feed.step id fun _ => false) s as' = some s' → 7 ∉ s'.sent := by
  refine exists_some_imp (P := fun s => s = ⟨[7], false, none, true, some [], [], []⟩)
    (by decide +kernel) ?_
  rintro s - rfl
  refine ⟨rfl, fun as' s' hrun => ?_⟩
  have h : s'.Missed 7 := run_invariant_of_step
    (fun _ _ _ h hstep => h.step rfl hstep)
    ⟨⟨by simp, rfl, rfl⟩, by simp, by simp [Feed.inFlight]⟩ hrun
  exact fun hmem => h.2.2 (List.mem_append_left _ hmem)

end RustUma.ForfeitFeed
