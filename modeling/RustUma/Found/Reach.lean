import RustUma.Found.Run

/-!
# What a run can be brought to

Progress of a system of concurrent parts: from a state, some of the parts can by their own steps
bring about a condition, whatever the others did before.
-/

namespace RustUma.Found

variable {σ α : Type*}

def Reaches (step : σ → α → Option σ) (ok : α → Prop) (P : σ → Prop) (s : σ) : Prop :=
  ∃ as s', (∀ a ∈ as, ok a) ∧ run step s as = some s' ∧ P s'

namespace Reaches

variable {step : σ → α → Option σ} {ok : α → Prop} {P Q : σ → Prop} {s s' : σ}

lemma here (h : P s) : Reaches step ok P s :=
  ⟨[], s, fun _ ha => absurd ha List.not_mem_nil, rfl, h⟩

lemma trans (h : Reaches step ok P s) (h' : ∀ s', P s' → Reaches step ok Q s') :
    Reaches step ok Q s := by
  obtain ⟨as, s', has, hrun, hs'⟩ := h
  obtain ⟨bs, s'', hbs, hrun', hs''⟩ := h' s' hs'
  refine ⟨as ++ bs, s'', ?_, run_append_eq_some.mpr ⟨s', hrun, hrun'⟩, hs''⟩
  grind

lemma next {a : α} (ha : ok a) (hstep : step s a = some s') (h : Reaches step ok P s') :
    Reaches step ok P s := by
  refine trans ⟨[a], s', ?_, ?_, rfl⟩ fun t ht => ht ▸ h
  · simp_all
  simp_all

lemma mono (h : Reaches step ok P s) (himp : ∀ s, P s → Q s) : Reaches step ok Q s :=
  h.trans fun s' hs' => here (himp s' hs')

theorem of_rank {I : σ → Prop} (rank : σ → ℕ)
    (h : ∀ s, I s → Reaches step ok (fun s' => P s' ∨ I s' ∧ rank s' < rank s) s) (hs : I s) :
    Reaches step ok P s := by
  induction hrank : rank s using Nat.strongRecOn generalizing s with
  | ind n ih =>
    refine (h s hs).trans fun s' hs' => ?_
    rcases hs' with hgoal | ⟨hI, hlower⟩
    · exact here hgoal
    grind

lemma and_invariant {I : σ → Prop} (hstep : ∀ s a s', I s → step s a = some s' → I s') (hs : I s)
    (h : Reaches step ok P s) : Reaches step ok (fun s' => P s' ∧ I s') s := by
  obtain ⟨as, s', has, hrun, hs'⟩ := h
  exact ⟨as, s', has, hrun, hs', run_invariant_of_step hstep hs hrun⟩

theorem embed {τ β : Type*} {step' : τ → β → Option τ} {ok' : β → Prop} {P' : τ → Prop} {t : τ}
    (h : Reaches step' ok' P' t) (g : τ → σ) (act : β → α)
    (hstep : ∀ t b t', ok' b → step' t b = some t' → step (g t) (act b) = some (g t'))
    (hok : ∀ b, ok' b → ok (act b)) : Reaches step ok (fun s => ∃ t', s = g t' ∧ P' t') (g t) := by
  obtain ⟨bs, t', hbs, hrun, ht'⟩ := h
  induction bs generalizing t with
  | nil =>
    cases hrun
    exact here ⟨t', rfl, ht'⟩
  | cons b bs ih =>
    rw [run_cons, Option.bind_eq_some_iff] at hrun
    obtain ⟨u, hu, hrun⟩ := hrun
    have hb := hbs b List.mem_cons_self
    exact next (hok b hb) (hstep t b u hb hu)
      (ih (fun c hc => hbs c (List.mem_cons_of_mem _ hc)) hrun)

end Reaches

end RustUma.Found
