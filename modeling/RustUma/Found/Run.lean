import Mathlib.Data.List.Basic
import Mathlib.Logic.Function.Basic

/-!
# Runs of a partial step function

A system of concurrent parts is a state type `σ`, a type `α` of atomic actions and a partial step
function `step : σ → α → Option σ` (`none`: the action is not enabled). An interleaving is a list
of actions.
-/

namespace RustUma.Found

variable {σ α : Type*}

lemma update_eq_some_iff {ι β : Type*} [DecidableEq ι] {f : ι → Option β} {i j : ι} {x y : β} :
    Function.update f i (some x) j = some y ↔ j = i ∧ y = x ∨ j ≠ i ∧ f j = some y := by
  grind

def run (step : σ → α → Option σ) : σ → List α → Option σ
  | s, [] => some s
  | s, a :: as => (step s a).bind fun s' => run step s' as

def AllSteps (step : σ → α → Option σ) (ok : σ → α → Prop) : σ → List α → Prop
  | _, [] => True
  | s, a :: as =>
    ok s a ∧ match step s a with
      | some s' => AllSteps step ok s' as
      | none => True

variable {step : σ → α → Option σ} {ok : σ → α → Prop}

@[simp] lemma run_nil (s : σ) : run step s [] = some s := rfl

@[simp] lemma run_cons (s : σ) (a : α) (as : List α) :
    run step s (a :: as) = (step s a).bind fun s' => run step s' as := rfl

lemma run_append (s : σ) (as bs : List α) :
    run step s (as ++ bs) = (run step s as).bind fun s' => run step s' bs := by
  induction as generalizing s with
  | nil => rfl
  | cons a as ih =>
    simp only [List.cons_append, run_cons]
    cases step s a with
    | none => rfl
    | some s' => exact ih s'

variable {s s' : σ} {as bs : List α} {I : σ → Prop}

lemma run_append_eq_some {s'' : σ} :
    run step s (as ++ bs) = some s'' ↔
      ∃ s', run step s as = some s' ∧ run step s' bs = some s'' := by
  rw [run_append, Option.bind_eq_some_iff]

lemma run_concat {s'' : σ} {a : α} (h : run step s as = some s') (hstep : step s' a = some s'') :
    run step s (as ++ [a]) = some s'' := by
  rw [run_append_eq_some]
  simp_all

lemma allSteps_of_forall {P : α → Prop} (h : ∀ a ∈ as, P a) (s : σ) :
    AllSteps step (fun _ a => P a) s as := by
  induction as generalizing s with
  | nil => trivial
  | cons a as ih =>
    refine ⟨h a List.mem_cons_self, ?_⟩
    grind

instance decidableAllSteps [∀ s a, Decidable (ok s a)] :
    (s : σ) → (as : List α) → Decidable (AllSteps step ok s as)
  | _, [] => .isTrue trivial
  | s, a :: as =>
    have : Decidable (match step s a with
        | some s' => AllSteps step ok s' as
        | none => True) :=
      match step s a with
      | some s' => decidableAllSteps s' as
      | none => .isTrue trivial
    inferInstanceAs (Decidable (ok s a ∧ _))

lemma AllSteps.take (h : AllSteps step ok s (as ++ bs)) :
    AllSteps step ok s as := by
  induction as generalizing s with
  | nil => trivial
  | cons a as ih =>
    obtain ⟨ha, htail⟩ := h
    refine ⟨ha, ?_⟩
    cases ht : step s a with
    | none => trivial
    | some t =>
      simp_all

lemma AllSteps.drop (h : AllSteps step ok s (as ++ bs)) (hrun : run step s as = some s') :
    AllSteps step ok s' bs := by
  induction as generalizing s with
  | nil =>
    cases hrun
    exact h
  | cons a as ih =>
    rw [run_cons, Option.bind_eq_some_iff] at hrun
    obtain ⟨t, ht, hrun⟩ := hrun
    obtain ⟨-, htail⟩ := h
    rw [ht] at htail
    exact ih htail hrun

theorem run_invariant (hstep : ∀ s a s', I s → ok s a → step s a = some s' → I s') (hs : I s)
    (hok : AllSteps step ok s as) (hrun : run step s as = some s') : I s' := by
  induction as generalizing s with
  | nil =>
    cases hrun
    exact hs
  | cons a as ih =>
    rw [run_cons, Option.bind_eq_some_iff] at hrun
    obtain ⟨t, ht, hrun⟩ := hrun
    obtain ⟨ha, htail⟩ := hok
    grind

theorem run_invariant_of_step (hstep : ∀ s a s', I s → step s a = some s' → I s') (hs : I s)
    (hrun : run step s as = some s') : I s' :=
  run_invariant (fun t a t' ht _ hstep' => hstep t a t' ht hstep') hs
    (allSteps_of_forall (fun _ _ => trivial) s) hrun

def IsTrace (step : σ → α → Option σ) (acts : ℕ → α) (states : ℕ → σ) : Prop :=
  ∀ n, step (states n) (acts n) = some (states (n + 1))

lemma IsTrace.invariant {acts : ℕ → α} {states : ℕ → σ} (h : IsTrace step acts states)
    (hstep : ∀ s a s', I s → step s a = some s' → I s') (hs : I (states 0)) (n : ℕ) :
    I (states n) := by
  induction n with
  | zero => exact hs
  | succ n ih => exact hstep _ _ _ ih (h n)

theorem run_history_invariant {I : List α → σ → Prop}
    (hstep : ∀ h s a s', I h s → ok s a → step s a = some s' → I (h ++ [a]) s') {h : List α}
    (hs : I h s) (hok : AllSteps step ok s as) (hrun : run step s as = some s') :
    I (h ++ as) s' := by
  induction as generalizing s h with
  | nil =>
    simp_all
  | cons a as ih =>
    rw [run_cons, Option.bind_eq_some_iff] at hrun
    obtain ⟨t, ht, hrun⟩ := hrun
    obtain ⟨ha, htail⟩ := hok
    grind

theorem run_project {τ β : Type*} {step' : τ → β → Option τ} (f : σ → τ) (act : α → Option β)
    (hstep : ∀ s a s', step s a = some s' →
      match act a with
      | some b => step' (f s) b = some (f s')
      | none => f s' = f s)
    (hrun : run step s as = some s') :
    run step' (f s) (as.filterMap act) = some (f s') := by
  induction as generalizing s with
  | nil =>
    cases hrun
    rfl
  | cons a as ih =>
    rw [run_cons, Option.bind_eq_some_iff] at hrun
    obtain ⟨t, ht, hrun⟩ := hrun
    have hfirst := hstep s a t ht
    have hrest := ih hrun
    cases hact : act a with
    | some b =>
      simp_all
    | none =>
      simp_all

lemma AllSteps.of_invariant {ok' : σ → α → Prop}
    (hstep : ∀ s a s', I s → ok s a → step s a = some s' → I s')
    (himp : ∀ s a, I s → ok s a → ok' s a) (hs : I s) (h : AllSteps step ok s as) :
    AllSteps step ok' s as := by
  induction as generalizing s with
  | nil => trivial
  | cons a as ih =>
    obtain ⟨ha, htail⟩ := h
    refine ⟨himp s a hs ha, ?_⟩
    grind

lemma AllSteps.and {ok' : σ → α → Prop} (h : AllSteps step ok s as) (h' : AllSteps step ok' s as) :
    AllSteps step (fun s a => ok s a ∧ ok' s a) s as := by
  induction as generalizing s with
  | nil => trivial
  | cons a as ih =>
    obtain ⟨ha, htail⟩ := h
    obtain ⟨ha', htail'⟩ := h'
    refine ⟨⟨ha, ha'⟩, ?_⟩
    grind

lemma run_replicate {round : List α} (h : run step s round = some s) (n : ℕ) :
    run step s (List.replicate n round).flatten = some s := by
  induction n with
  | zero => rfl
  | succ n ih =>
    exact run_append_eq_some.mpr ⟨s, h, ih⟩

lemma exists_some_of_any {P : σ → Prop} [DecidablePred P] {o : Option σ}
    (h : o.any (P ·) = true) : ∃ s, o = some s ∧ P s := by
  obtain ⟨s, hs, hP⟩ := (Option.any_eq_true _ o).mp h
  simp_all

lemma exists_some_imp {P Q : σ → Prop} [DecidablePred P] {o : Option σ}
    (h : o.any (P ·) = true) (hQ : ∀ s, o = some s → P s → Q s) : ∃ s, o = some s ∧ Q s := by
  obtain ⟨s, hs, hP⟩ := exists_some_of_any h
  simp_all

lemma exists_some₂_imp {τ : Type*} {P Q : σ → τ → Prop} [∀ s t, Decidable (P s t)] {o : Option σ}
    {o' : σ → Option τ} (h : (o.any fun s => (o' s).any (P s ·)) = true)
    (hQ : ∀ s t, o = some s → o' s = some t → P s t → Q s t) :
    ∃ s t, o = some s ∧ o' s = some t ∧ Q s t := by
  obtain ⟨s, hs, h⟩ := (Option.any_eq_true _ o).mp h
  obtain ⟨t, ht, hP⟩ := exists_some_of_any h
  simp_all

end RustUma.Found
