import GuestAgent.Source.ServiceStart

/-!
How long the wait for a service sleeps, and when it gives up.

The clamp on the sleeping time never applies, so a round sleeps for a tenth of the hint, whatever
that is. The tick count of the start is only read if the first query fails; otherwise what the
variable happened to hold stands in for it until the first progress.
-/
namespace GuestAgent.Guarantees.ServiceStart
open Source

/-- Between 1 and 10 seconds. -/
def ClampedSleeps (rounds : List WaitRound) : Prop :=
  ∀ r ∈ rounds, 1000 ≤ r.sleep ∧ r.sleep ≤ 10000

/-- The service is given up while it is still starting only when more time than the hint has
passed since the mark, which is the last progress or the start. -/
def Patient (mark : Nat) : List WaitRound → Prop
  | [] => True
  | r :: rest =>
    (∀ st, r.outcome = .gaveUp → r.status = some st → st.dwCurrentState = .startPending →
      st.dwWaitHint.toNat < r.time - mark) ∧
    Patient (if r.outcome = .progress then r.time else mark) rest

/-- A tenth of each hint is between 1 and 10 seconds. -/
def HintsFit (rounds : List WaitRound) : Prop :=
  ∀ r ∈ rounds, 10000 ≤ r.hint ∧ r.hint ≤ 100009

/-- Until the first progress, the time since the tick count `mark` exceeds the hint of a service
that is still starting only if the time since the start does. -/
def MarkHarmless (start : Nat) (mark : UInt32) : List WaitRound → Prop
  | [] => True
  | r :: rest => r.outcome = .progress ∨
    (∀ st, r.status = some st → st.dwCurrentState = .startPending →
      st.dwWaitHint < getTickCount r.time - mark → st.dwWaitHint.toNat < r.time - start) ∧
    MarkHarmless start mark rest

/-! ### Sleeping -/

theorem waitTime_eq (hint : UInt32) : waitTime hint = hint / 10 := by
  have never : ¬ (10000 : Nat) < (if hint / 10 < 1000 then 1 else 0) := by
    split <;> decide
  exact if_neg never

theorem clamped_iff (hint : UInt32) :
    1000 ≤ waitTime hint ∧ waitTime hint ≤ 10000 ↔ 10000 ≤ hint ∧ hint ≤ 100009 := by
  have tenth : (hint / 10).toNat = hint.toNat / 10 := UInt32.toNat_div ..
  have low : (1000 : UInt32).toNat = 1000 := rfl
  have high : (10000 : UInt32).toNat = 10000 := rfl
  have most : (100009 : UInt32).toNat = 100009 := rfl
  rw [waitTime_eq]
  simp only [UInt32.le_iff_toNat_le, tenth, low, high, most]
  omega

theorem rounds_sleep (s : ServiceWait) (time : Nat) (observations : List Observation) :
    ∀ r ∈ (s.rounds time observations).1, r.sleep = waitTime r.hint := by
  induction observations generalizing s time with
  | nil => simp [ServiceWait.rounds]
  | cons o rest ih =>
    rw [ServiceWait.rounds]
    split
    · dsimp only
      split
      · intro r member
        rw [List.mem_singleton.mp member]
        rfl
      · intro r member
        cases List.mem_cons.mp member with
        | inl here =>
          rw [here]
          rfl
        | inr later => exact ih _ _ r later
    · simp

/-! ### Giving up -/

/-- The difference of two tick counts is the time between the readings, less whole turns. -/
theorem tick_sub_le {start time : Nat} (order : start ≤ time) :
    (getTickCount time - getTickCount start).toNat ≤ time - start := by
  have now : (getTickCount time).toNat = time % 2 ^ 32 := UInt32.toNat_ofNat'
  have then_ : (getTickCount start).toNat = start % 2 ^ 32 := UInt32.toNat_ofNat'
  rw [UInt32.toNat_sub, now, then_]
  omega

/-- What a check does to the tick count, and when it gives up. -/
theorem check_mark (s : ServiceWait) (time : Nat) (o : Observation) :
    (s.check o.status (time + o.later)).2.dwStartTickCount =
        (if (s.round time o).outcome = .progress then getTickCount (time + o.later)
          else s.dwStartTickCount) ∧
      ∀ st, o.status = some st → (s.round time o).outcome ≠ .progress →
        ((s.round time o).outcome = .gaveUp ↔
          st.dwWaitHint < getTickCount (time + o.later) - s.dwStartTickCount) := by
  unfold ServiceWait.round ServiceWait.check
  cases o.status with
  | none => exact ⟨rfl, fun st some_ => by cases some_⟩
  | some st =>
    by_cases progress : s.dwOldCheckPoint < st.dwCheckPoint
    · simp [progress]
    · by_cases late : st.dwWaitHint < getTickCount (time + o.later) - s.dwStartTickCount
      · simp [progress, late]
      · simp only [progress, late, if_false]
        refine ⟨rfl, fun st' same _ => ?_⟩
        cases same
        exact iff_of_false (by decide) late

/-- With the tick count of the mark the wait is patient. -/
theorem patient_of_mark {s : ServiceWait} {mark time : Nat} (order : mark ≤ time)
    (marked : s.dwStartTickCount = getTickCount mark) (observations : List Observation) :
    Patient mark (s.rounds time observations).1 := by
  induction observations generalizing s mark time with
  | nil => trivial
  | cons o rest ih =>
    have later : mark ≤ time + o.later := Nat.le_add_right_of_le order
    obtain ⟨next, gives⟩ := check_mark s time o
    have patience : ∀ st, (s.round time o).outcome = .gaveUp → (s.round time o).status = some st →
        st.dwCurrentState = .startPending →
          st.dwWaitHint.toNat < (s.round time o).time - mark := by
      intro st gaveUp seen _
      have hint := (gives st seen (by rw [gaveUp]; decide)).mp gaveUp
      rw [marked, UInt32.lt_iff_toNat_lt] at hint
      exact Nat.lt_of_lt_of_le hint (tick_sub_le later)
    rw [ServiceWait.rounds]
    split
    · dsimp only
      split
      · exact ⟨patience, trivial⟩
      · refine ⟨patience, ?_⟩
        by_cases progress : (s.round time o).outcome = .progress
        · rw [if_pos progress] at next ⊢
          exact ih (Nat.le_refl _) next
        · rw [if_neg progress] at next ⊢
          exact ih later (next.trans marked)
    · trivial

/-- Whatever the tick count was, the wait is patient exactly if it does no harm. -/
theorem patient_iff {s : ServiceWait} {start time : Nat} (observations : List Observation) :
    Patient start (s.rounds time observations).1 ↔
      MarkHarmless start s.dwStartTickCount (s.rounds time observations).1 := by
  induction observations generalizing s time with
  | nil => exact Iff.rfl
  | cons o rest ih =>
    obtain ⟨next, gives⟩ := check_mark s time o
    rw [ServiceWait.rounds]
    split
    · by_cases progress : (s.round time o).outcome = .progress
      · -- from here on the tick count is that of the progress
        rw [if_pos progress] at next
        have goesOn : ¬ (s.round time o).outcome.breaks = true := by
          rw [progress]
          decide
        simp only [if_neg goesOn]
        refine iff_of_true ⟨fun st gaveUp => ?_, ?_⟩ (.inl progress)
        · rw [progress] at gaveUp
          cases gaveUp
        · rw [if_pos progress]
          exact patient_of_mark (Nat.le_refl _) next rest
      · rw [if_neg progress] at next
        have here : (∀ st, (s.round time o).outcome = .gaveUp → (s.round time o).status = some st →
              st.dwCurrentState = .startPending →
                st.dwWaitHint.toNat < (s.round time o).time - start) ↔
            ∀ st, (s.round time o).status = some st → st.dwCurrentState = .startPending →
              st.dwWaitHint < getTickCount (s.round time o).time - s.dwStartTickCount →
                st.dwWaitHint.toNat < (s.round time o).time - start := by
          constructor
          · intro patient st seen pending hint
            exact patient st ((gives st seen progress).mpr hint) seen pending
          · intro harmless st gaveUp seen pending
            exact harmless st seen pending ((gives st seen progress).mp gaveUp)
        dsimp only
        split
        · simp only [Patient, MarkHarmless, progress, false_or, here]
        · simp only [Patient, MarkHarmless, progress, false_or, here, if_false]
          rw [ih, next]
    · exact Iff.rfl

/-- The wait sleeps and gives up as it should exactly if every hint it sleeps on is between 10 and
100 seconds and, unless the first query fails, the unassigned tick count does no harm. -/
theorem waits_sensibly_iff (v : StartView) (observations : List Observation) :
    ClampedSleeps (v.rounds observations) ∧ Patient v.time (v.rounds observations) ↔
      HintsFit (v.rounds observations) ∧
        (v.first ≠ none → MarkHarmless v.time v.dwStartTickCount (v.rounds observations)) := by
  have sleeps : ClampedSleeps (v.rounds observations) ↔ HintsFit (v.rounds observations) := by
    have each := rounds_sleep v.begin v.time observations
    constructor
    · intro clamped r member
      have bounds := clamped r member
      rw [each r member] at bounds
      exact (clamped_iff r.hint).mp bounds
    · intro fit r member
      rw [each r member]
      exact (clamped_iff r.hint).mpr (fit r member)
  rw [sleeps]
  refine and_congr_right fun _ => ?_
  cases first : v.first with
  | none =>
    have marked : v.begin.dwStartTickCount = getTickCount v.time := by
      simp only [StartView.begin, first]
    have patient : Patient v.time (v.rounds observations) :=
      patient_of_mark (Nat.le_refl _) marked observations
    exact iff_of_true patient fun some_ => absurd rfl some_
  | some st =>
    have marked : v.begin.dwStartTickCount = v.dwStartTickCount := by
      simp only [StartView.begin, first]
    rw [StartView.rounds, patient_iff, marked]
    exact ⟨fun harmless _ => harmless, fun harmless => harmless (Option.some_ne_none st)⟩

/-- A service that asks for 2 seconds, and that is running when it is looked at again. -/
def quickService : StartView where
  ssStatus := ⟨.stopped, 0, 0, 0⟩
  dwStartTickCount := 0
  first := some ⟨.startPending, 0, 2000, 0⟩
  time := 60000

/-- It is looked at again after 200 milliseconds. -/
theorem quickService_hurried : ¬ ∀ v observations,
    ClampedSleeps (StartView.rounds v observations) ∧ Patient v.time (v.rounds observations) := by
  intro sensible
  obtain ⟨clamped, -⟩ := sensible quickService [⟨some ⟨.running, 1, 0, 4321⟩, 200⟩]
  have bounds := clamped ⟨2000, 200, some ⟨.running, 1, 0, 4321⟩, 60200, .progress⟩ (by decide)
  exact absurd bounds (by decide)

end GuestAgent.Guarantees.ServiceStart
