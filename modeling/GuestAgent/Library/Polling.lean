import Mathlib.Data.List.Basic

/-!
A loop that makes one observation a turn, and ends with what it makes of one of them. What it
knows while it waits is what it made of the observations so far.
-/
namespace GuestAgent.Library.Polling

variable {σ α β : Type} (turn : σ → α → σ ⊕ β)

/-- The state after the observations, or what one of them ended the loop with. -/
def poll : σ → List α → σ ⊕ β
  | s, [] => .inl s
  | s, a :: rest =>
    match turn s a with
    | .inr b => .inr b
    | .inl s' => poll s' rest

variable {turn}

/-- The last of the observations, made in the state the others led to. -/
theorem poll_concat_of_waits {s s' : σ} {seen : List α} (waits : poll turn s seen = .inl s')
    (a : α) : poll turn s (seen ++ [a]) = turn s' a := by
  induction seen generalizing s with
  | nil =>
    cases waits
    rw [List.nil_append, poll]
    cases turn s' a <;> rfl
  | cons b seen ih =>
    rw [List.cons_append, poll]
    rw [poll] at waits
    cases first : turn s b with
    | inr c =>
      rw [first] at waits
      cases waits
    | inl next =>
      rw [first] at waits
      exact ih waits

theorem waits_of_concat {s s' : σ} {seen : List α} {a : α}
    (waits : poll turn s (seen ++ [a]) = .inl s') :
    ∃ before, poll turn s seen = .inl before ∧ turn before a = .inl s' := by
  induction seen generalizing s with
  | nil =>
    rw [List.nil_append, poll] at waits
    cases first : turn s a with
    | inr c =>
      rw [first] at waits
      cases waits
    | inl next =>
      rw [first] at waits
      cases waits
      exact ⟨s, rfl, first⟩
  | cons b seen ih =>
    rw [List.cons_append, poll] at waits
    rw [poll]
    cases first : turn s b with
    | inr c =>
      rw [first] at waits
      cases waits
    | inl next =>
      rw [first] at waits
      exact ih waits

/-- What a waiting loop knows of its observations, the last one first. -/
theorem waits_invariant (inv : List α → σ → Prop) {s s' : σ} (start : inv [] s)
    (keeps : ∀ seen before a after, inv seen before → turn before a = .inl after →
      inv (a :: seen) after) {seen : List α} (waits : poll turn s seen.reverse = .inl s') :
    inv seen s' := by
  induction seen generalizing s' with
  | nil =>
    cases waits
    exact start
  | cons a seen ih =>
    rw [List.reverse_cons] at waits
    obtain ⟨before, waited, last⟩ := waits_of_concat waits
    exact keeps seen before a s' (ih waited) last

end GuestAgent.Library.Polling
