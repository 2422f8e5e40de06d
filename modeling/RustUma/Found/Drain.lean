import Mathlib.Data.List.Basic

/-!
# Loops that read a buffer to its end

`while !cursor.done() { body }` where every pass of the body reads at least one byte and may fail.
-/

namespace RustUma.Found

variable {σ β ε : Type*}

def drainFrom (body : σ → List β → Except ε (σ × List β)) : ℕ → σ → List β → Except ε σ
  | _, s, [] => .ok s
  | 0, s, _ :: _ => .ok s
  | fuel + 1, s, b :: buf =>
    match body s (b :: buf) with
    | .ok (s', rest) => drainFrom body fuel s' rest
    | .error e => .error e

def drain (body : σ → List β → Except ε (σ × List β)) (s : σ) (buf : List β) : Except ε σ :=
  drainFrom body buf.length s buf

def Consumes (body : σ → List β → Except ε (σ × List β)) : Prop :=
  ∀ s b buf s' rest, body s (b :: buf) = .ok (s', rest) → rest.length ≤ buf.length

variable {body : σ → List β → Except ε (σ × List β)}

lemma drainFrom_eq_drain (hbody : Consumes body) {fuel : ℕ} {buf : List β} (s : σ)
    (hfuel : buf.length ≤ fuel) : drainFrom body fuel s buf = drain body s buf := by
  unfold drain
  induction fuel using Nat.strongRecOn generalizing s buf with
  | ind fuel ih =>
    cases buf with
    | nil => cases fuel <;> rfl
    | cons b buf =>
      obtain ⟨fuel, rfl⟩ : ∃ n, fuel = n + 1 := ⟨fuel - 1, by
        grind⟩
      rw [List.length_cons] at hfuel ⊢
      unfold drainFrom
      cases hpass : body s (b :: buf) with
      | error e => rfl
      | ok next =>
        obtain ⟨s', rest⟩ := next
        have hlen := hbody s b buf s' rest hpass
        -- both sides continue on `rest`, with fuel enough for it
        grind

theorem drain_cons (hbody : Consumes body) (s : σ) (b : β) (buf : List β) :
    drain body s (b :: buf) =
      (body s (b :: buf)).bind fun next => drain body next.1 next.2 := by
  show drainFrom body (buf.length + 1) s (b :: buf) = _
  unfold drainFrom
  cases hpass : body s (b :: buf) with
  | error e => rfl
  | ok next => exact drainFrom_eq_drain hbody _ (hbody s b buf _ _ hpass)

lemma drain_induction (hbody : Consumes body) {P : σ → List β → Except ε σ → Prop}
    (hnil : ∀ s, P s [] (.ok s)) (herror : ∀ s buf e, body s buf = .error e → P s buf (.error e))
    (hpass : ∀ s buf s' rest result, body s buf = .ok (s', rest) → P s' rest result →
      P s buf result) (s : σ) (buf : List β) : P s buf (drain body s buf) := by
  induction hlen : buf.length using Nat.strongRecOn generalizing s buf with
  | ind n ih =>
    cases buf with
    | nil => exact hnil s
    | cons b buf =>
      rw [drain_cons hbody]
      cases hnext : body s (b :: buf) with
      | error e => exact herror s _ e hnext
      | ok next =>
        have hlt := hbody s b buf next.1 next.2 hnext
        rw [List.length_cons] at hlen
        exact hpass s _ next.1 next.2 _ hnext (ih next.2.length (by omega) next.1 next.2 rfl)

def Drains (body : σ → List β → Except ε (σ × List β)) (s : σ) (bytes : List β) (s' : σ) : Prop :=
  ∀ rest, drain body s (bytes ++ rest) = drain body s' rest

lemma drains_nil (s : σ) : Drains body s [] s := fun _ => rfl

lemma Drains.append {s s' s'' : σ} {bytes bytes' : List β} (h : Drains body s bytes s')
    (h' : Drains body s' bytes' s'') : Drains body s (bytes ++ bytes') s'' := by
  intro rest
  rw [List.append_assoc, h, h']

lemma drains_of_pass (hbody : Consumes body) {s s' : σ} {bytes : List β} (hne : bytes ≠ [])
    (h : ∀ rest, body s (bytes ++ rest) = .ok (s', rest)) : Drains body s bytes s' := by
  intro rest
  obtain ⟨b, bytes, rfl⟩ := List.exists_cons_of_ne_nil hne
  have hpass := h rest
  rw [List.cons_append] at hpass ⊢
  rw [drain_cons hbody, hpass]
  rfl

lemma Drains.eq_ok {s s' : σ} {bytes : List β} (h : Drains body s bytes s') :
    drain body s bytes = .ok s' := by
  have hall := h []
  rwa [List.append_nil] at hall

end RustUma.Found
