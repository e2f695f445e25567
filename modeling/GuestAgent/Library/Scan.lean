import Mathlib.Order.Basic

/-!
Bounded scans. A loop looks at one place after the other and leaves at the first one where its
test holds, or at its bound. The places it has looked at are a result of their own: a bound that
is too large shows in them even where the answer is right.
-/
namespace GuestAgent.Library.Scan

variable (stop : Nat → Bool)

/-- The places looked at from `i` on, with so many rounds left. -/
def looked : Nat → Nat → List Nat
  | _, 0 => []
  | i, left + 1 => if stop i then [i] else i :: looked (i + 1) left

variable {stop}

/-- A place is looked at if it is below the bound and no place before it ended the scan. -/
theorem mem_looked_iff {i left k : Nat} :
    k ∈ looked stop i left ↔
      i ≤ k ∧ k < i + left ∧ ∀ j, i ≤ j → j < k → stop j = false := by
  induction left generalizing i with
  | zero =>
    rw [looked]
    refine iff_of_false List.not_mem_nil ?_
    omega
  | succ left ih =>
    rw [looked]
    cases here : stop i with
    | true =>
      rw [if_pos rfl, List.mem_singleton]
      constructor
      · intro same
        subst same
        exact ⟨Nat.le_refl k, by omega, by omega⟩
      · intro reached
        obtain ⟨low, -, before⟩ := reached
        by_contra other
        have late : stop i = false := before i (Nat.le_refl i) (by omega)
        rw [here] at late
        cases late
    | false =>
      rw [if_neg Bool.false_ne_true, List.mem_cons, ih]
      constructor
      · intro either
        cases either with
        | inl first =>
          subst first
          exact ⟨Nat.le_refl k, by omega, by omega⟩
        | inr later =>
          obtain ⟨low, high, before⟩ := later
          refine ⟨by omega, by omega, fun j above below => ?_⟩
          by_cases first : j = i
          · rw [first, here]
          · exact before j (by omega) below
      · intro reached
        obtain ⟨low, high, before⟩ := reached
        by_cases first : k = i
        · exact .inl first
        · exact .inr ⟨by omega, by omega, fun j above below => before j (by omega) below⟩

/-- A scan stays below `m` exactly if its bound does or its test holds somewhere there. -/
theorem looked_below_iff {n m : Nat} :
    (∀ k ∈ looked stop 0 n, k < m) ↔ n ≤ m ∨ ∃ k, k < m ∧ stop k = true := by
  constructor
  · intro below
    by_contra neither
    rw [not_or, not_exists] at neither
    obtain ⟨long, none⟩ := neither
    have reached : m ∈ looked stop 0 n := by
      refine mem_looked_iff.mpr ⟨Nat.zero_le m, by omega, fun j _ less => ?_⟩
      exact Bool.eq_false_iff.mpr fun hit => none j ⟨less, hit⟩
    exact Nat.lt_irrefl m (below m reached)
  · intro either k member
    obtain ⟨-, high, before⟩ := mem_looked_iff.mp member
    cases either with
    | inl short => omega
    | inr some_ =>
      obtain ⟨j, less, hit⟩ := some_
      by_contra far
      have missed : stop j = false := before j (Nat.zero_le j) (by omega)
      rw [hit] at missed
      cases missed

end GuestAgent.Library.Scan
