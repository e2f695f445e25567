import Mathlib.Logic.Function.Basic

/-!
Who holds which of the resources that are numbered in the order they are made. A holder has one at
most and shares it with nobody; a resource somebody depends on has a holder; what was let go of
without being freed has none.
-/
namespace GuestAgent.Library

variable {S : Type}

/-- `needed` resources are depended on, and `dropped` ones were let go of. -/
structure Holders (holds : S → Option Nat) (needed : Nat → Prop) (next : Nat) (dropped : List Nat) :
    Prop where
  apart : ∀ sv sv' r, holds sv = some r → holds sv' = some r → sv = sv'
  held : ∀ r, needed r → ∃ sv, holds sv = some r
  below : ∀ sv r, holds sv = some r → r < next
  old : ∀ r ∈ dropped, r < next
  free : ∀ r ∈ dropped, ∀ sv, holds sv ≠ some r

namespace Holders

variable {holds : S → Option Nat} {needed needed' : Nat → Prop} {next : Nat}
  {dropped dropped' : List Nat} {sv : S} {r : Nat}

/-- The other holders hold other resources. -/
theorem others (table : Holders holds needed next dropped) (has : holds sv = some r) {sv' : S}
    (other : sv' ≠ sv) {r' : Nat} (has' : holds sv' = some r') : r' ≠ r := by
  rintro rfl
  exact other (table.apart sv' sv r' has' has)

/-- What is needed has changed only where it is held. -/
theorem change (table : Holders holds needed next dropped)
    (still : ∀ r, needed' r → needed r ∨ ∃ sv, holds sv = some r) :
    Holders holds needed' next dropped where
  apart := table.apart
  held r now := (still r now).elim (table.held r) id
  below := table.below
  old := table.old
  free := table.free

variable [DecidableEq S]

/-- A new resource for a holder that had none. -/
theorem acquire (table : Holders holds needed next dropped) (none_ : holds sv = none)
    (still : ∀ r, needed' r → needed r ∨ r = next) :
    Holders (Function.update holds sv (some next)) needed' (next + 1) dropped := by
  have old : ∀ sv' r, holds sv' = some r → r ≠ next := fun sv' r has =>
    Nat.ne_of_lt (table.below sv' r has)
  constructor
  · intro sv₁ sv₂ r one two
    by_cases first : sv₁ = sv <;> by_cases second : sv₂ = sv
    · rw [first, second]
    · rw [first, Function.update_self] at one
      rw [Function.update_of_ne second] at two
      cases one
      exact absurd rfl (old sv₂ next two)
    · rw [second, Function.update_self] at two
      rw [Function.update_of_ne first] at one
      cases two
      exact absurd rfl (old sv₁ next one)
    · rw [Function.update_of_ne first] at one
      rw [Function.update_of_ne second] at two
      exact table.apart sv₁ sv₂ r one two
  · intro r now
    rcases still r now with before | rfl
    · obtain ⟨sv', has⟩ := table.held r before
      refine ⟨sv', ?_⟩
      rw [Function.update_of_ne]
      · exact has
      · rintro rfl
        rw [none_] at has
        cases has
    · exact ⟨sv, Function.update_self ..⟩
  · intro sv' r has
    by_cases own : sv' = sv
    · rw [own, Function.update_self] at has
      cases has
      omega
    · rw [Function.update_of_ne own] at has
      have := table.below sv' r has
      omega
  · intro r member
    have := table.old r member
    omega
  · intro r member sv' has
    by_cases own : sv' = sv
    · rw [own, Function.update_self] at has
      cases has
      exact Nat.lt_irrefl next (table.old next member)
    · rw [Function.update_of_ne own] at has
      exact table.free r member sv' has

/-- A holder frees or drops what it has. -/
theorem release (table : Holders holds needed next dropped) (has : holds sv = some r)
    (still : ∀ r', needed' r' → needed r' ∧ r' ≠ r)
    (more : ∀ r' ∈ dropped', r' = r ∨ r' ∈ dropped) :
    Holders (Function.update holds sv none) needed' next dropped' := by
  have kept : ∀ sv' r', Function.update holds sv none sv' = some r' →
      sv' ≠ sv ∧ holds sv' = some r' := by
    intro sv' r' has'
    by_cases own : sv' = sv
    · rw [own, Function.update_self] at has'
      cases has'
    · rw [Function.update_of_ne own] at has'
      exact ⟨own, has'⟩
  constructor
  · intro sv₁ sv₂ r' one two
    exact table.apart sv₁ sv₂ r' (kept sv₁ r' one).2 (kept sv₂ r' two).2
  · intro r' now
    obtain ⟨before, other⟩ := still r' now
    obtain ⟨sv', has'⟩ := table.held r' before
    refine ⟨sv', ?_⟩
    rw [Function.update_of_ne]
    · exact has'
    · rintro rfl
      exact other (Option.some.inj (has'.symm.trans has))
  · intro sv' r' has'
    exact table.below sv' r' (kept sv' r' has').2
  · intro r' member
    rcases more r' member with rfl | before
    · exact table.below sv r' has
    · exact table.old r' before
  · intro r' member sv' has'
    obtain ⟨own, before⟩ := kept sv' r' has'
    rcases more r' member with rfl | dropped_
    · exact own (table.apart sv' sv r' before has)
    · exact table.free r' dropped_ sv' before

end Holders

end GuestAgent.Library
