import Mathlib.Data.List.Nodup
import Mathlib.Data.List.Infix

/-!
# Walks over a listing in pages

A page names the cursor its successor is asked for with. A walk asks for page after page until one
is empty or the last, until what it has read tells it to stop, or until a request fails.

* `Page`, `walkPages` — the walk; what it does with the items of a page is a parameter. `walkAsks` —
  the cursors it asks for; `chain_nodup_iff` — when none is asked for twice.
* `Paged`, `Serves` — a listing that stands still, and a server that answers from it or fails.
* `walkPages_reads` — a walk reads an initial part of the pages, and all of them unless it failed
  or was told to stop.
* `Skipping` — a reader that passes over some items and stops at a page that has one of them.
  `walkPages_skipping_some`, `walkPages_skipping` — what it has done; in a listing in which those
  items come last, a walk that succeeds has read every other item.
-/

namespace RustUma.Found

structure Page (α κ : Type*) where
  items : List α
  next : κ
  deriving DecidableEq, Repr

def LastPage {κ : Type*} (final : κ → Bool) (cursor : Option κ) (next : κ) : Prop :=
  final next = true ∨ cursor = some next

instance {κ : Type*} [DecidableEq κ] (final : κ → Bool) (cursor : Option κ) (next : κ) :
    Decidable (LastPage final cursor next) :=
  inferInstanceAs (Decidable (_ ∨ _))

section Walk

variable {α κ σ ε : Type*} [DecidableEq κ]

def walkPages (final : κ → Bool) (ask : Option κ → Except ε (Page α κ))
    (read : σ → List α → σ × Bool) : ℕ → Option κ → σ → σ × Except ε Unit
  | 0, _, s => (s, .ok ())
  | left + 1, cursor, s =>
    match ask cursor with
    | .error e => (s, .error e)
    | .ok page =>
      if page.items.isEmpty then (s, .ok ())
      else if (read s page.items).2 = true ∨ LastPage final cursor page.next then
        ((read s page.items).1, .ok ())
      else walkPages final ask read left (some page.next) (read s page.items).1

variable {final : κ → Bool} {ask : Option κ → Except ε (Page α κ)}
  {read : σ → List α → σ × Bool} {left : ℕ} {cursor : Option κ} {s : σ}

lemma walkPages_error {e : ε} (h : ask cursor = .error e) :
    walkPages final ask read (left + 1) cursor s = (s, .error e) := by
  simp only [walkPages, h]

lemma walkPages_empty {page : Page α κ} (h : ask cursor = .ok page) (hempty : page.items = []) :
    walkPages final ask read (left + 1) cursor s = (s, .ok ()) := by
  simp only [walkPages, h, hempty, List.isEmpty_nil, if_true]

lemma walkPages_page {page : Page α κ} (h : ask cursor = .ok page) (hitems : page.items ≠ []) :
    walkPages final ask read (left + 1) cursor s =
      if (read s page.items).2 = true ∨ LastPage final cursor page.next then
        ((read s page.items).1, .ok ())
      else walkPages final ask read left (some page.next) (read s page.items).1 := by
  simp only [walkPages, h, List.isEmpty_iff, if_neg hitems]

def dealt (final : κ → Bool) (ask : Option κ → Except ε (Page α κ))
    (reading : List α → List α × Bool) (cursor : Option κ) : Except ε (List α × Option κ) :=
  (ask cursor).map fun page =>
    if page.items.isEmpty then ([], none)
    else ((reading page.items).1,
      if (reading page.items).2 = true ∨ LastPage final cursor page.next then none
      else some page.next)

def follow (act : σ → α → σ) (walk : Option κ → σ → σ × Except ε Unit) (s : σ) :
    Except ε (List α × Option κ) → σ × Except ε Unit
  | .error e => (s, .error e)
  | .ok (items, none) => (items.foldl act s, .ok ())
  | .ok (items, some c) => walk (some c) (items.foldl act s)

lemma walkPages_succ {reading : List α → List α × Bool} {act : σ → α → σ}
    (hread : ∀ s items, read s items = ((reading items).1.foldl act s, (reading items).2)) :
    walkPages final ask read (left + 1) cursor s =
      follow act (walkPages final ask read left) s (dealt final ask reading cursor) := by
  unfold dealt
  cases hask : ask cursor with
  | error e => exact walkPages_error hask
  | ok page =>
    simp only [walkPages, hask, hread, Except.map]
    split_ifs <;> rfl

def walkAsks (final : κ → Bool) (ask : Option κ → Except ε (Page α κ))
    (read : σ → List α → σ × Bool) : ℕ → Option κ → σ → List (Option κ)
  | 0, _, _ => []
  | left + 1, cursor, s =>
    cursor :: match ask cursor with
      | .error _ => []
      | .ok page =>
        if page.items.isEmpty ∨ (read s page.items).2 = true ∨ LastPage final cursor page.next
        then []
        else walkAsks final ask read left (some page.next) (read s page.items).1

lemma walkPages_congr {ask' : Option κ → Except ε (Page α κ)}
    (h : ∀ c ∈ walkAsks final ask read left cursor s, ask c = ask' c) :
    walkPages final ask read left cursor s = walkPages final ask' read left cursor s := by
  induction left generalizing cursor s with
  | zero => rfl
  | succ left ih =>
    simp only [walkAsks, List.mem_cons, forall_eq_or_imp] at h
    obtain ⟨hask, hrest⟩ := h
    simp only [walkPages, ← hask]
    grind

def chain (ends : Option κ → Prop) [DecidablePred ends] (next : Option κ → Option κ) :
    ℕ → Option κ → List (Option κ)
  | 0, _ => []
  | left + 1, c => c :: if ends c then [] else chain ends next left (next c)

lemma walkAsks_eq_chain {serve : Option κ → Page α κ} {stop : List α → Bool}
    (hask : ∀ c, ask c = .ok (serve c)) (hread : ∀ s items, (read s items).2 = stop items) :
    walkAsks final ask read left cursor s = chain (fun c => (serve c).items.isEmpty ∨
      stop (serve c).items = true ∨ LastPage final c (serve c).next)
      (fun c => some (serve c).next) left cursor := by
  induction left generalizing cursor s with
  | zero => rfl
  | succ left ih => simp only [walkAsks, chain, hask, hread, ih]

section Chain

variable {ends : Option κ → Prop} [DecidablePred ends] {next : Option κ → Option κ}

omit [DecidableEq κ] in
lemma chain_getElem? (i : ℕ) : (chain ends next left cursor)[i]? =
    if i < left ∧ ∀ j < i, ¬ends (next^[j] cursor) then some (next^[i] cursor) else none := by
  induction left generalizing cursor i with
  | zero => simp [chain]
  | succ left ih =>
    cases i with
    | zero => simp [chain]
    | succ i =>
      rw [chain, List.getElem?_cons_succ]
      by_cases hend : ends cursor
      · rw [if_pos hend, if_neg fun h => h.2 0 (Nat.succ_pos i) hend, List.getElem?_nil]
      · rw [if_neg hend, ih]
        refine if_congr (and_congr Nat.succ_lt_succ_iff.symm ?_) rfl rfl
        rw [Nat.forall_lt_succ_left]
        exact (and_iff_right hend).symm

omit [DecidableEq κ] in
lemma chain_rising {rank : Option κ → ℕ} (hrank : ∀ i, i + 1 < left →
      (∀ j ≤ i, ¬ends (next^[j] cursor)) → rank (next^[i] cursor) < rank (next^[i + 1] cursor)) :
    (∀ c ∈ chain ends next left cursor, rank cursor ≤ rank c) ∧
      (chain ends next left cursor).Nodup := by
  induction left generalizing cursor with
  | zero => simp [chain]
  | succ left ih =>
    rw [chain]
    split_ifs with hend
    · simp
    cases left with
    | zero => simp [chain]
    | succ left =>
      have hfirst : rank cursor < rank (next cursor) :=
        hrank 0 (by omega) fun j hj => by simpa [Nat.le_zero.mp hj] using hend
      obtain ⟨hle, hnodup⟩ := @ih (next cursor) fun i hi hgo => hrank (i + 1) (by omega) fun j hj => by
        cases j with
        | zero => exact hend
        | succ j => exact hgo j (by omega)
      refine ⟨fun c hc => ?_, List.nodup_cons.mpr ⟨fun hmem => ?_, hnodup⟩⟩
      · rcases List.mem_cons.mp hc with rfl | hc
        · exact le_rfl
        · exact hfirst.le.trans (hle c hc)
      · exact absurd (hle cursor hmem) hfirst.not_ge

lemma chain_nodup_iff : (chain ends next left cursor).Nodup ↔
    ∃ rank : Option κ → ℕ, ∀ i, i + 1 < left → (∀ j ≤ i, ¬ends (next^[j] cursor)) →
      rank (next^[i] cursor) < rank (next^[i + 1] cursor) := by
  constructor
  · intro hnodup
    refine ⟨fun c => (chain ends next left cursor).idxOf c, fun i hi hgo => ?_⟩
    have hat : ∀ k ≤ i + 1, (chain ends next left cursor).idxOf (next^[k] cursor) = k := by
      intro k hk
      have hget := @chain_getElem? _ left cursor ends _ next k
      rw [if_pos ⟨by omega, fun j hj => hgo j (by omega)⟩] at hget
      obtain ⟨hlt, hget⟩ := List.getElem?_eq_some_iff.mp hget
      rw [← hget, hnodup.idxOf_getElem]
    dsimp only
    rw [hat i (Nat.le_succ i), hat (i + 1) le_rfl]
    exact Nat.lt_succ_self i
  · rintro ⟨rank, hrank⟩
    exact (chain_rising hrank).2

end Chain

lemma mem_walkAsks {c : Option κ} (hc : c ∈ walkAsks final ask read left cursor s) :
    c = cursor ∨ ∃ c' page, ask c' = .ok page ∧ c = some page.next := by
  induction left generalizing cursor s with
  | zero => cases hc
  | succ left ih =>
    rcases List.mem_cons.mp hc with rfl | hc
    · exact Or.inl rfl
    grind

end Walk

/-! ## A listing that stands still -/

structure Paged (α : Type*) {κ : Type*} (final : κ → Bool) where
  pages : List (Page α κ)
  nonempty : ∀ page ∈ pages, page.items ≠ []
  /-- Only the last page may say that none follows. -/
  onward : ∀ page ∈ pages.dropLast, final page.next = false
  distinct : (pages.map Page.next).Nodup

def pagesAfter {α κ : Type*} [DecidableEq κ] (c : κ) : List (Page α κ) → List (Page α κ)
  | [] => []
  | page :: pages => if page.next = c then pages else pagesAfter c pages

def firstPage {α κ : Type*} [Inhabited κ] (pages : List (Page α κ)) : Page α κ :=
  pages.headD ⟨[], default⟩

lemma pagesAfter_append {α κ : Type*} [DecidableEq κ] {done rest : List (Page α κ)}
    {last : Page α κ} (hdistinct : ((done ++ last :: rest).map Page.next).Nodup) :
    pagesAfter last.next (done ++ last :: rest) = rest := by
  induction done with
  | nil => exact if_pos rfl
  | cons page done ih =>
    rw [List.cons_append, List.map_cons, List.nodup_cons] at hdistinct
    have hne : page.next ≠ last.next := by
      simp_all
    rw [List.cons_append, pagesAfter, if_neg hne]
    exact ih hdistinct.2

namespace Paged

variable {α κ σ ε : Type*} {final : κ → Bool} {listing : Paged α final}
  {read : σ → List α → σ × Bool}

def cursorAfter (done : List (Page α κ)) : Option κ := done.getLast?.map Page.next

lemma not_lastPage {done rest : List (Page α κ)} {page : Page α κ}
    (hpages : listing.pages = done ++ page :: rest) (hrest : rest ≠ []) :
    ¬ LastPage final (cursorAfter done) page.next := by
  rintro (hfinal | hsame)
  · have hmem : page ∈ listing.pages.dropLast := by
      rw [hpages, List.dropLast_append_of_ne_nil (List.cons_ne_nil _ _),
        List.dropLast_cons_of_ne_nil hrest]
      simp
    rw [listing.onward page hmem] at hfinal
    cases hfinal
  · -- the cursor it was asked for with is named by another page
    obtain ⟨last, hlast, hnext⟩ := Option.map_eq_some_iff.mp hsame
    have hdistinct := listing.distinct
    grind

def readPages (read : σ → List α → σ × Bool) (s : σ) (pages : List (Page α κ)) : σ :=
  pages.foldl (fun s page => (read s page.items).1) s

variable [DecidableEq κ] [Inhabited κ]

def items (listing : Paged α final) : List α := listing.pages.flatMap Page.items

def page (listing : Paged α final) : Option κ → Page α κ
  | none => firstPage listing.pages
  | some c => firstPage (pagesAfter c listing.pages)

def cursors (listing : Paged α final) : List (Option κ) :=
  none :: listing.pages.map fun page => some page.next

def Serves (listing : Paged α final) (ask : Option κ → Except ε (Page α κ)) : Prop :=
  ∀ cursor ∈ listing.cursors, ∀ page, ask cursor = .ok page → page = listing.page cursor

variable {ask : Option κ → Except ε (Page α κ)}

lemma Serves.firstPage_eq (h : listing.Serves ask) {done rest : List (Page α κ)}
    (hpages : listing.pages = done ++ rest) {page : Page α κ}
    (hask : ask (cursorAfter done) = .ok page) : page = firstPage rest := by
  have hmem : cursorAfter done ∈ listing.cursors ∧
      listing.page (cursorAfter done) = firstPage rest := by
    unfold cursorAfter Paged.cursors Paged.page
    rcases List.eq_nil_or_concat' done with rfl | ⟨before, last, rfl⟩
    · simp_all
    · rw [List.append_assoc] at hpages
      have hafter := pagesAfter_append (hpages ▸ listing.distinct)
      simp_all
  exact (h _ hmem.1 page hask).trans hmem.2

/-- **A walk reads an initial part of the pages that are left.** If it succeeds and was not cut
short by their number, it has read them all, or was told to stop. -/
theorem walkPages_reads (h : listing.Serves ask) {done rest : List (Page α κ)}
    (hpages : listing.pages = done ++ rest) (left : ℕ) (s : σ) :
    ∃ seen unseen, rest = seen ++ unseen ∧
      (walkPages final ask read left (cursorAfter done) s).1 = readPages read s seen ∧
      ((walkPages final ask read left (cursorAfter done) s).2 = .ok () → rest.length ≤ left →
        unseen = [] ∨ ∃ page ∈ seen, ∃ s', (read s' page.items).2 = true) := by
  induction left generalizing done rest s with
  | zero =>
    refine ⟨[], rest, rfl, rfl, fun _ hleft => Or.inl ?_⟩
    simp_all
  | succ left ih =>
    cases hask : ask (cursorAfter done) with
    | error e =>
      refine ⟨[], rest, rfl, ?_, ?_⟩
      · rw [walkPages_error hask]
        rfl
      · rw [walkPages_error hask]
        simp
    | ok page =>
      have hfirst := h.firstPage_eq hpages hask
      cases rest with
      | nil =>
        refine ⟨[], [], rfl, ?_, fun _ _ => Or.inl rfl⟩
        rw [walkPages_empty hask (congrArg Page.items hfirst)]
        rfl
      | cons first rest =>
        obtain rfl : page = first := hfirst
        have hitems : page.items ≠ [] := by
          refine listing.nonempty page ?_
          simp_all
        rw [walkPages_page hask hitems]
        split_ifs with hend
        · refine ⟨[page], rest, rfl, rfl, fun _ _ => ?_⟩
          rcases hend with hstop | hlast
          · grind
          · refine Or.inl (by_contra fun hrest => ?_)
            exact not_lastPage hpages hrest hlast
        · -- the walk goes on behind this page
          have hnext : listing.pages = (done ++ [page]) ++ rest := by
            simp_all
          have hcursor : cursorAfter (done ++ [page]) = some page.next := by
            unfold cursorAfter
            simp
          obtain ⟨seen, unseen, rfl, hstate, hok⟩ := ih hnext (read s page.items).1
          rw [hcursor] at hstate hok
          refine ⟨page :: seen, unseen, rfl, hstate, fun hresult hleft => ?_⟩
          grind

/-! ## Items that are passed over -/

def Skipping (read : σ → List α → σ × Bool) (stale : α → Bool) (act : σ → α → σ) : Prop :=
  ∀ s items, read s items = ((items.filter fun x => !stale x).foldl act s, items.any stale)

section Skipping

variable {stale : α → Bool} {act : σ → α → σ}

omit [DecidableEq κ] [Inhabited κ] in
lemma Skipping.readPages_eq (hread : Skipping read stale act) (s : σ) (pages : List (Page α κ)) :
    readPages read s pages =
      ((pages.flatMap Page.items).filter fun x => !stale x).foldl act s := by
  induction pages generalizing s with
  | nil => rfl
  | cons page pages ih =>
    have hcons : readPages read s (page :: pages) =
        readPages read (read s page.items).1 pages := rfl
    rw [hcons, ih, hread, List.flatMap_cons, List.filter_append, List.foldl_append]

lemma walkPages_skipping_some (h : listing.Serves ask) (hread : Skipping read stale act) (left : ℕ)
    (s : σ) : ∃ seen, seen <+: (listing.items.filter fun x => !stale x) ∧
      (walkPages final ask read left none s).1 = seen.foldl act s := by
  obtain ⟨seen, unseen, hpages, hstate, -⟩ := walkPages_reads h (List.nil_append _).symm left s
  refine ⟨(seen.flatMap Page.items).filter fun x => !stale x, ?_,
    hstate.trans (hread.readPages_eq s seen)⟩
  unfold items
  simp_all

/-- **A walk that succeeds has dealt with every item that is not stale**, if in the listing nothing
but stale items comes after a stale one. -/
theorem walkPages_skipping (h : listing.Serves ask) (hread : Skipping read stale act)
    (hclosed : listing.items.Pairwise fun a b => stale a = true → stale b = true) {left : ℕ}
    (hleft : listing.pages.length ≤ left) {s : σ}
    (hok : (walkPages final ask read left none s).2 = .ok ()) :
    (walkPages final ask read left none s).1 =
      (listing.items.filter fun x => !stale x).foldl act s := by
  obtain ⟨seen, unseen, hpages, hstate, hstop⟩ := walkPages_reads h (List.nil_append _).symm left s
  have hitems : listing.items = seen.flatMap Page.items ++ unseen.flatMap Page.items := by
    unfold items
    simp_all
  have hunseen : ∀ x ∈ unseen.flatMap Page.items, stale x = true := by
    intro x hx
    rcases hstop hok hleft with rfl | ⟨page, hpage, s', hstopped⟩
    · simp_all
    · rw [hread] at hstopped
      grind
  have hnone : (unseen.flatMap Page.items).filter (fun x => !stale x) = [] := by
    rw [List.filter_eq_nil_iff]
    grind
  refine hstate.trans ?_
  rw [hread.readPages_eq, hitems, List.filter_append, hnone, List.append_nil]

end Skipping

end Paged

end RustUma.Found
