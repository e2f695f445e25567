import GuestAgent.Source.VisualRanker

/-!
When `WaitReaction` tells whether the window has changed.

It answers whether time was left when its loop ended. The loop also ends because of the last
hash it computes when the time is over, and a change seen there only is answered like none. The
interval between two hashes is ten times the timeout the caller asks for, so all but the first
hash come too late there.
-/
namespace GuestAgent.Guarantees.Reaction
open Source

/-- The hash differs from the previous one; a missing screenshot does. -/
def Differs (previous hash : Option String) : Prop := ¬(hash.isSome ∧ hash = previous)

instance (previous hash : Option String) : Decidable (Differs previous hash) :=
  inferInstanceAs (Decidable (¬ _))

/-- The time that was waited before hash number `k`. -/
def waitedAt (k : Nat) : Int := pollingInterval * k

/-- The hashes are those of a polling without an exception. -/
def polled (hash : Nat → Option String) (k : Nat) : Except Exn (Option String) := .ok (hash k)

/-- `WaitReaction` answers true exactly if one of the hashes it computed differs. -/
def TellsChange (timeout : Int) (previous : Option String) (hash : Nat → Option String) : Prop :=
  waitReaction timeout previous (polled hash) = true ↔
    ∃ k, k < (waitLoop timeout previous (polled hash) 0 0).computed ∧ Differs previous (hash k)

/-- The first hash to differ, if there is one, is computed while time is left, or not at all. -/
def ChangeInTime (timeout : Int) (previous : Option String) (hash : Nat → Option String) : Prop :=
  ∀ k, Differs previous (hash k) → (∀ i, i < k → ¬ Differs previous (hash i)) →
    waitedAt k < timeout ∨ ∃ i, i < k ∧ timeout ≤ waitedAt i

variable (timeout : Int) (previous : Option String) (hash : Nat → Option String)

theorem waitedAt_succ (k : Nat) : waitedAt (k + 1) = waitedAt k + pollingInterval := by
  simp only [waitedAt]
  push_cast
  rw [Int.mul_add, Int.mul_one]

/-- The loop ends at the first hash that differs or is computed when the time is over. -/
theorem waitLoop_ends (made : Nat) :
    ∃ k, made ≤ k ∧
      waitLoop timeout previous (polled hash) made (waitedAt made) = ⟨waitedAt k, k + 1⟩ ∧
      (∀ i, made ≤ i → i < k → ¬ Differs previous (hash i) ∧ waitedAt i < timeout) ∧
      (Differs previous (hash k) ∨ timeout ≤ waitedAt k) := by
  -- on the time that is left
  induction left : (timeout - waitedAt made).toNat using Nat.strongRecOn generalizing made with
  | ind n ih =>
    by_cases goesOn : ((hash made).isSome ∧ hash made = previous) ∧ waitedAt made < timeout
    · obtain ⟨same, inTime⟩ := goesOn
      have less : (timeout - waitedAt (made + 1)).toNat < n := by
        rw [waitedAt_succ, pollingInterval]
        omega
      obtain ⟨k, later, result, before, last⟩ := ih _ less (made + 1) rfl
      refine ⟨k, Nat.le_of_succ_le later, ?_, fun i from_ below => ?_, last⟩
      · rw [waitLoop, polled]
        simp only
        rw [if_pos ⟨same.1, same.2, inTime⟩, ← waitedAt_succ]
        exact result
      · cases Nat.eq_or_lt_of_le from_ with
        | inl here =>
          subst here
          exact ⟨fun differs => differs same, inTime⟩
        | inr after => exact before i after below
    · refine ⟨made, Nat.le_refl made, ?_, fun i from_ below => ?_, ?_⟩
      · rw [waitLoop, polled]
        simp only
        rw [if_neg fun h => goesOn ⟨⟨h.1, h.2.1⟩, h.2.2⟩]
      · omega
      · cases Classical.not_and_iff_not_or_not.mp goesOn with
        | inl differs => exact .inl differs
        | inr late => exact .inr (Int.not_lt.mp late)

/-- The answer is right exactly if the first change is not first seen when the time is over. -/
theorem tellsChange_iff (timeout : Int) (previous : Option String) (hash : Nat → Option String) :
    TellsChange timeout previous hash ↔ ChangeInTime timeout previous hash := by
  obtain ⟨k, -, ends, before, last⟩ :=
    waitLoop_ends timeout previous hash 0
  have start : waitedAt 0 = 0 := rfl
  rw [start] at ends
  have answer : waitReaction timeout previous (polled hash) = true ↔ waitedAt k < timeout := by
    rw [waitReaction, ends]
    exact decide_eq_true_iff
  have seen : (∃ i, i < k + 1 ∧ Differs previous (hash i)) ↔ Differs previous (hash k) := by
    constructor
    · intro some_
      obtain ⟨i, below, differs⟩ := some_
      cases Nat.lt_succ_iff_lt_or_eq.mp below with
      | inl earlier => exact absurd differs (before i (Nat.zero_le i) earlier).1
      | inr here => exact here ▸ differs
    · intro differs
      exact ⟨k, Nat.lt_succ_self k, differs⟩
  rw [TellsChange, answer, ends, seen]
  constructor
  · intro tells j differs first
    rcases Nat.lt_trichotomy j k with earlier | here | later
    · exact absurd differs (before j (Nat.zero_le j) earlier).1
    · subst here
      exact .inl (tells.mpr differs)
    · have unseen : ¬ waitedAt k < timeout := fun inTime => first k later (tells.mp inTime)
      exact .inr ⟨k, later, Int.not_lt.mp unseen⟩
  · intro inTime
    constructor
    · intro leftOver
      cases last with
      | inl differs => exact differs
      | inr late => omega
    · intro differs
      cases inTime k differs fun i below => (before i (Nat.zero_le i) below).1 with
      | inl inTime => exact inTime
      | inr ended =>
        obtain ⟨i, below, late⟩ := ended
        have goesOn := (before i (Nat.zero_le i) below).2
        omega

/-- A window that reacts within the interval between two hashes. -/
def reacting (k : Nat) : Option String := if k = 0 then some "A" else some "B"

theorem waitLoop_reacting :
    waitLoop 500 (some "A") (polled reacting) 0 0 = ⟨5000, 2⟩ := by
  rw [waitLoop]
  simp only [polled, reacting, pollingInterval]
  rw [if_pos (by decide), waitLoop]
  simp only [polled, reacting]
  rw [if_neg (by decide)]
  rfl

/-- With the timeout of the interaction loop the reaction is answered with false. -/
theorem reaction_missed : ¬ ∀ timeout previous hash, TellsChange timeout previous hash := by
  intro tells
  have told := tells 500 (some "A") reacting
  rw [TellsChange, waitReaction, waitLoop_reacting] at told
  exact absurd (told.mpr ⟨1, by decide, by decide⟩) (by decide)

end GuestAgent.Guarantees.Reaction
