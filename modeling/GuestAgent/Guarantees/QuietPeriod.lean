import GuestAgent.Source.BusyWait

/-!
What the answer of the wait for a quiet system says.

The answer is that of the last poll within the deadline, if no quiet period was seen by then: an
idle poll right behind a busy one is enough for it. Lists of polls have the last one first.
-/
namespace GuestAgent.Guarantees.QuietPeriod
open Library Library.Polling Source

/-- The ticks of `seconds`. -/
def ticks (seconds : Int) : Int := seconds * 10000000

/-- `seconds` as ticks is an `int`. -/
def Fits (seconds : Int) : Prop := -0x80000000 ≤ ticks seconds ∧ ticks seconds < 0x80000000

instance (seconds : Int) : Decidable (Fits seconds) := inferInstanceAs (Decidable (_ ∧ _))

variable (threshold : Int)

/-- When the system was busy last, as far as the polls know, or when they began. -/
def quietSince (start : Int) : List BusyPoll → Int
  | [] => start
  | m :: earlier => if m.isBusy threshold then m.now else quietSince start earlier

/-- At one of the polls the system was idle, and had been for more than the period. -/
def Observed (start period : Int) : List BusyPoll → Prop
  | [] => False
  | m :: earlier =>
    m.isBusy threshold = false ∧ quietSince threshold start earlier + period < m.now ∨
      Observed start period earlier

/-- The polls of the period before `moment`. -/
def lastPolls (period moment : Int) (polls : List BusyPoll) : List BusyPoll :=
  polls.takeWhile fun p => moment - period ≤ p.now

/-- The polls that have looked at the system; none does behind the deadline. -/
def looked (deadline : Int) (last : BusyPoll) (polls : List BusyPoll) : List BusyPoll :=
  if last.now ≤ deadline then last :: polls else polls

/-- What the answer at the poll `last` behind the others is to say. -/
structure Answers (start period deadline : Int) (polls : List BusyPoll) (last : BusyPoll)
    (outcome : BusyWait ⊕ Bool) : Prop where
  idle : outcome = .inr true →
    ∀ p ∈ lastPolls period last.now (looked deadline last polls), p.isBusy threshold = false
  late : deadline < last.now → ¬ Observed threshold start period polls → outcome = .inr false

variable {threshold}

theorem timeSpan_eq {seconds : Int} (fits : Fits seconds) : timeSpan seconds = ticks seconds := by
  unfold Fits ticks at fits
  unfold timeSpan toInt32 ticks
  rw [Int.bmod_def]
  split <;> omega

/-- Since the system was busy more than the period ago, the polls of the period were idle. -/
theorem idle_of_quietSince {start period moment : Int} {polls : List BusyPoll}
    (quiet : quietSince threshold start polls + period < moment) :
    ∀ p ∈ lastPolls period moment polls, p.isBusy threshold = false := by
  induction polls with
  | nil => simp [lastPolls]
  | cons m earlier ih =>
    rw [quietSince] at quiet
    split at quiet
    · have before : decide (moment - period ≤ m.now) = false := decide_eq_false (by omega)
      rw [lastPolls, List.takeWhile_cons, before]
      exact nofun
    · next idle =>
      intro p member
      rw [lastPolls, List.takeWhile_cons] at member
      split at member
      · rcases List.mem_cons.mp member with rfl | later
        · simpa using idle
        · exact ih quiet p later
      · cases member

/-- What the variables know of the polls. -/
structure Knows (threshold start period : Int) (polls : List BusyPoll) (s : BusyWait) : Prop where
  stable : s.stable = polls.head?.any fun m => !m.isBusy threshold
  stabilityTo : s.stabilityTo = quietSince threshold start polls + period
  unobserved : ¬ Observed threshold start period polls

theorem knows_turn {start period deadline : Int} {polls : List BusyPoll} {s s' : BusyWait}
    {m : BusyPoll} (knows : Knows threshold start period polls s)
    (waits : s.turn threshold period deadline m = .inl s') :
    Knows threshold start period (m :: polls) s' := by
  unfold BusyWait.turn at waits
  split at waits
  · cases waits
  · split at waits
    · next busy =>
      cases waits
      refine ⟨by simp [busy], by simp [quietSince, busy], ?_⟩
      simp [Observed, busy, knows.unobserved]
    · next idle =>
      split at waits
      · cases waits
      · next short =>
        cases waits
        have since := knows.stabilityTo
        refine ⟨by simp [idle], by simp [quietSince, idle, since], ?_⟩
        rw [Observed, not_or]
        refine ⟨fun observes => short ?_, knows.unobserved⟩
        rw [since]
        exact observes.2

theorem knows_of_waits {start period deadline : Int} {polls : List BusyPoll} {s : BusyWait}
    (waits : poll (BusyWait.turn threshold period deadline) ⟨false, start + period⟩ polls.reverse =
      .inl s) : Knows threshold start period polls s :=
  waits_invariant (Knows threshold start period) ⟨rfl, rfl, id⟩
    (fun _ _ _ _ knows turned => knows_turn knows turned) waits

/-- The answer says what it is to say at every poll, except at one behind the deadline where the
one before was idle. -/
theorem answers_iff (threshold start : Int) {stabilityDelay timeout : Int}
    (delayFits : Fits stabilityDelay) (timeoutFits : Fits timeout) (polls : List BusyPoll)
    (waits : (waitUntilNotBusy threshold stabilityDelay timeout start polls.reverse).isLeft = true)
    (last : BusyPoll) :
    Answers threshold start (ticks stabilityDelay) (start + ticks timeout) polls last
        (waitUntilNotBusy threshold stabilityDelay timeout start (polls.reverse ++ [last])) ↔
      last.now ≤ start + ticks timeout ∨ ∀ p ∈ polls.head?, p.isBusy threshold = true := by
  unfold waitUntilNotBusy at waits ⊢
  rw [timeSpan_eq delayFits, timeSpan_eq timeoutFits] at waits ⊢
  generalize ticks stabilityDelay = period at waits ⊢
  generalize start + ticks timeout = deadline at waits ⊢
  obtain ⟨s, waited⟩ := Sum.isLeft_iff.mp waits
  have knows := knows_of_waits waited
  rw [poll_concat_of_waits waited, BusyWait.turn]
  by_cases late : deadline < last.now
  · rw [if_pos late]
    constructor
    · intro answers
      have stable : s.stable = false := Sum.inr.inj (answers.late late knows.unobserved)
      rw [knows.stable] at stable
      refine .inr fun p member => ?_
      rw [Option.mem_def.mp member] at stable
      simpa using stable
    · intro fine
      have busy := fine.resolve_left (by omega)
      have stable : s.stable = false := by
        rw [knows.stable]
        cases head : polls.head? with
        | none => rfl
        | some p => simp [busy p head]
      rw [stable]
      exact ⟨nofun, fun _ _ => rfl⟩
  · rw [if_neg late]
    refine iff_of_true ⟨fun answer => ?_, fun passed => absurd passed late⟩ (.inl (by omega))
    split at answer
    · cases answer
    · next idle =>
      split at answer
      · next quiet =>
        rw [knows.stabilityTo] at quiet
        have whole : quietSince threshold start (last :: polls) + period < last.now := by
          rwa [quietSince, if_neg idle]
        rw [looked, if_pos (by omega)]
        exact idle_of_quietSince whole
      · cases answer

theorem answers_iff_busy :
    Answers 50 0 (ticks 2) (0 + ticks 30) [⟨299000000, 1, 0⟩] ⟨301000000, 0, 0⟩
      (waitUntilNotBusy 50 2 30 0 [⟨299000000, 1, 0⟩, ⟨301000000, 0, 0⟩]) :=
  (answers_iff 50 0 (by decide) (by decide) [⟨299000000, 1, 0⟩] (by decide)
    ⟨301000000, 0, 0⟩).mpr (.inr (by decide))

/-- Busy 0.2 seconds before the deadline and idle 0.1 seconds before it, the system counts as
stable for two seconds. -/
theorem true_after_busy : ¬ ∀ (threshold start stabilityDelay timeout : Int)
    (polls : List BusyPoll) (last : BusyPoll), Fits stabilityDelay → Fits timeout →
    (waitUntilNotBusy threshold stabilityDelay timeout start polls.reverse).isLeft = true →
    Answers threshold start (ticks stabilityDelay) (start + ticks timeout) polls last
      (waitUntilNotBusy threshold stabilityDelay timeout start (polls.reverse ++ [last])) := by
  intro all
  have answers := all 50 0 2 30 [⟨299000000, 0, 0⟩, ⟨298000000, 1, 0⟩] ⟨301000000, 0, 0⟩
    (by decide) (by decide) (by decide)
  have busy := answers.idle (by decide) ⟨298000000, 1, 0⟩ (by decide)
  exact absurd busy (by decide)

end GuestAgent.Guarantees.QuietPeriod
