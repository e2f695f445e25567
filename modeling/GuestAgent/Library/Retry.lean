import Mathlib.Logic.Basic

/-!
A loop that repeats a round until one of them ends it. A round sees how many were
made before it; it either fails, leaving a state for the next one, or ends the loop
with a result. Fuel stands for the patience of an observer, not for a bound in the
loop: `Leaves` says that some amount of it suffices.
-/
namespace GuestAgent.Library.Retry

variable {σ β : Type}

def retry (round : Nat → σ → σ ⊕ β) : (fuel made : Nat) → σ → Option β
  | 0, _, _ => none
  | fuel + 1, made, s =>
    match round made s with
    | .inr b => some b
    | .inl s' => retry round fuel (made + 1) s'

/-- The loop ends, counted from round `made`. -/
def Leaves (round : Nat → σ → σ ⊕ β) (made : Nat) (s : σ) : Prop :=
  ∃ fuel b, retry round fuel made s = some b

/-- What the loop ends with is what one of its rounds ended with. -/
theorem round_of_retry {round : Nat → σ → σ ⊕ β} {fuel made : Nat} {s : σ} {b : β}
    (ended : retry round fuel made s = some b) : ∃ k s', round k s' = .inr b := by
  induction fuel generalizing made s with
  | zero => cases ended
  | succ fuel ih =>
    rw [retry] at ended
    cases h : round made s with
    | inr b' =>
      rw [h] at ended
      obtain rfl : b' = b := by simpa using ended
      exact ⟨made, s, h⟩
    | inl s' =>
      rw [h] at ended
      exact ih ended

theorem leaves_step (round : Nat → σ → σ ⊕ β) (made : Nat) (s : σ) :
    Leaves round made s ↔ match round made s with
      | .inr _ => True
      | .inl s' => Leaves round (made + 1) s' := by
  constructor
  · intro holds
    obtain ⟨fuel, b, ended⟩ := holds
    cases fuel with
    | zero => cases ended
    | succ fuel =>
      rw [retry] at ended
      cases h : round made s with
      | inr b => trivial
      | inl s' =>
        rw [h] at ended
        exact ⟨fuel, b, ended⟩
  · intro later
    cases h : round made s with
    | inr b => exact ⟨1, b, by rw [retry, h]⟩
    | inl s' =>
      rw [h] at later
      obtain ⟨fuel, b, ended⟩ := later
      exact ⟨fuel + 1, b, by rw [retry, h]; exact ended⟩

/-- Without a state the loop ends exactly if one of the rounds to come does. -/
theorem leaves_iff (round : Nat → Unit → Unit ⊕ β) (made : Nat) :
    Leaves round made () ↔ ∃ k, made ≤ k ∧ (round k ()).isRight = true := by
  constructor
  · intro holds
    obtain ⟨fuel, b, ended⟩ := holds
    induction fuel generalizing made with
    | zero => cases ended
    | succ fuel ih =>
      rw [retry] at ended
      cases h : round made () with
      | inr b => exact ⟨made, Nat.le_refl _, by rw [h]; rfl⟩
      | inl s =>
        rw [h] at ended
        obtain ⟨k, later, ends⟩ := ih (made + 1) ended
        exact ⟨k, Nat.le_of_succ_le later, ends⟩
  · intro holds
    obtain ⟨k, later, ends⟩ := holds
    obtain ⟨n, rfl⟩ := Nat.exists_eq_add_of_le later
    induction n generalizing made with
    | zero =>
      rw [leaves_step]
      cases h : round made () with
      | inr b => trivial
      | inl s =>
        rw [Nat.add_zero, h] at ends
        cases ends
    | succ n ih =>
      rw [leaves_step]
      cases round made () with
      | inr b => trivial
      | inl s =>
        have same : made + (n + 1) = made + 1 + n := by omega
        exact ih (made + 1) (Nat.le_add_right _ _) (same ▸ ends)

/-! ### Loops with an invariant -/

section invariant

variable {round : Nat → σ → σ ⊕ β}

/-- What the loop ends with, from an invariant of its rounds. -/
theorem retry_post (inv : σ → Prop) (post : β → Prop)
    (keeps : ∀ k s s', inv s → round k s = .inl s' → inv s')
    (ends : ∀ k s b, inv s → round k s = .inr b → post b) {fuel made : Nat} {s : σ} {b : β}
    (start : inv s) (ended : retry round fuel made s = some b) : post b := by
  induction fuel generalizing made s with
  | zero => cases ended
  | succ fuel ih =>
    rw [retry] at ended
    cases h : round made s with
    | inr b' =>
      rw [h] at ended
      cases ended
      exact ends made s b start h
    | inl s' =>
      rw [h] at ended
      exact ih (keeps made s s' start h) ended

/-- A loop none of whose rounds ends it is never seen to end. -/
theorem retry_none (inv : σ → Prop)
    (goesOn : ∀ k s, inv s → ∃ s', round k s = .inl s' ∧ inv s') (fuel made : Nat) {s : σ}
    (start : inv s) : retry round fuel made s = none := by
  induction fuel generalizing made s with
  | zero => rfl
  | succ fuel ih =>
    obtain ⟨s', next, keeps⟩ := goesOn made s start
    rw [retry, next]
    exact ih (made + 1) keeps

/-- A loop whose failed rounds use something up ends. -/
theorem leaves_of_measure {inv : σ → Prop} (measure : σ → Nat)
    (down : ∀ k s s', inv s → round k s = .inl s' → inv s' ∧ measure s' < measure s)
    (made : Nat) {s : σ} (start : inv s) : Leaves round made s := by
  induction h : measure s using Nat.strongRecOn generalizing made s with
  | ind n ih =>
    rw [leaves_step]
    cases turn : round made s with
    | inr b => trivial
    | inl s' =>
      obtain ⟨keeps, less⟩ := down made s s' start turn
      exact ih (measure s') (h ▸ less) (made + 1) keeps rfl

end invariant

end GuestAgent.Library.Retry
