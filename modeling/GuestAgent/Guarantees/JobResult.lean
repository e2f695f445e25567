import GuestAgent.Source.Interaction

/-!
The result of a job that got past its first two seconds.

Of the ways to leave the interaction loop only two set no result: the `break` where no window,
no pid and no message is left, and the loop condition. After the condition there is a timeout,
which has the last word, or a MITM signal. The look at the pids after an interaction leaves the
inner loop only; the next turn asks `AreProcsFinished` again.
-/
namespace GuestAgent.Guarantees.JobResult
open Library Source

/-- The loop state before the first turn. -/
def atFirst : LoopState := ⟨0, 0, .unknown⟩

/-- What is asked of a job that returned: the timeout decides; without it a job that was left
because no process remained is finished; and there is always a result. -/
structure ResultLaw (run : JobRun) (views : List TurnView) (proc : ProcessContainer) : Prop where
  timedOut : run.timeout = true → proc.result = .timeOut
  finished : run.timeout = false → ∀ v, atFirst.leftAt views = some v →
    v.NoProcessRemains → proc.result = .finished
  known : proc.result ≠ .unknown

/-! ### One turn -/

theorem body_eq_false_iff (v : TurnView) : v.body = .ok false ↔ v.EmptyWithoutWindow := by
  rw [TurnView.body, bind_eq_ok, TurnView.EmptyWithoutWindow]
  constructor
  · intro holds
    obtain ⟨finished, looked, rest⟩ := holds
    cases finished with
    | true => cases rest
    | false =>
      obtain ⟨window, found, rest⟩ := (bind_eq_ok _ _ _).mp rest
      cases window with
      | false =>
        have empty : v.pids = 0 ∧ v.logsPerSec = 0 := by simpa [pure, Except.pure] using rest
        exact ⟨looked, found, empty⟩
      | true =>
        obtain ⟨incomplete, -, rest⟩ := (bind_eq_ok _ _ _).mp rest
        cases incomplete with
        | true => cases rest
        | false =>
          obtain ⟨_, -, rest⟩ := (bind_eq_ok _ _ _).mp rest
          cases rest
  · intro holds
    obtain ⟨looked, found, empty⟩ := holds
    refine ⟨false, looked, (bind_eq_ok _ _ _).mpr ⟨false, found, ?_⟩⟩
    simp [empty, pure, Except.pure]

/-- The only turn that leaves the loop without a result is one that finds nothing left at its
look without a window. -/
theorem turnEnd_eq_allEnded_iff (v : TurnView) : v.turnEnd = .allEnded ↔ v.EmptyWithoutWindow := by
  rw [← body_eq_false_iff, TurnView.turnEnd]
  cases v.body with
  | ok goOn => cases goOn <;> simp
  | error e => cases e <;> simp

theorem turnEnd_of_finished {v : TurnView} (finished : areProcsFinished v.monitored = .ok true) :
    v.turnEnd = .processExited := by
  have body : v.body = .error .processExited := by
    rw [TurnView.body, finished]
    rfl
  rw [TurnView.turnEnd, body]

/-- The `break` of the inner loop starts another turn. -/
theorem turnEnd_of_emptyWithoutReaction {v : TurnView} (empty : v.EmptyWithoutReaction) :
    v.turnEnd = .nextTurn := by
  obtain ⟨looked, found, complete, left⟩ := empty
  have body : v.body = .ok true := by
    rw [TurnView.body, looked, found, complete, left]
    rfl
  rw [TurnView.turnEnd, body]

/-- What a turn does to the result. -/
theorem turn_result {s s' : LoopState} {t : TurnEnd} {goOn : Bool}
    (ran : s.turn t = .ok (s', goOn)) :
    (goOn = true → s'.result = s.result) ∧
      (goOn = false → t ≠ .nextTurn ∧ (t = .allEnded → s'.result = s.result) ∧
        (t ≠ .allEnded → s'.result ≠ .unknown) ∧ (t = .processExited → s'.result = .finished)) := by
  cases t with
  | nextTurn | allEnded | controlNotFound | processExited | otherException =>
    cases ran
    simp
  | elementNotEnabled | elementNotAvailable | noMoreCandidate =>
    simp only [LoopState.turn] at ran
    split_ifs at ran <;> cases ran <;> simp
  | uiLoop newPrograms logsPerSec idle =>
    cases newPrograms with
    | error e => cases ran
    | ok delta =>
      simp only [LoopState.turn] at ran
      split_ifs at ran <;> cases ran <;> simp

/-! ### The loop -/

/-- The result with which the loop is left at a turn. -/
structure LeftWith (result result' : InteractionResult) (v : TurnView) : Prop where
  kept : v.EmptyWithoutWindow → result' = result
  set : ¬ v.EmptyWithoutWindow → result' ≠ .unknown
  finished : v.NoProcessRemains → ¬ v.EmptyWithoutWindow → result' = .finished

theorem interact_result {s s' : LoopState} {views : List TurnView}
    (ran : s.interact (views.map TurnView.turnEnd) = .ok s') :
    match s.leftAt views with
    | none => s'.result = s.result
    | some v => LeftWith s.result s'.result v := by
  induction views generalizing s with
  | nil =>
    cases ran
    rfl
  | cons v views ih =>
    rw [List.map_cons, LoopState.interact] at ran
    rw [LoopState.leftAt]
    cases turned : s.turn v.turnEnd with
    | error e =>
      rw [turned] at ran
      cases ran
    | ok next =>
      obtain ⟨after, goOn⟩ := next
      obtain ⟨going, leaving⟩ := turn_result turned
      rw [turned] at ran
      cases goOn with
      | true =>
        rw [← going rfl]
        exact ih ran
      | false =>
        obtain rfl : after = s' := by simpa using ran
        obtain ⟨left, kept, set, finished⟩ := leaving rfl
        rw [Ne, turnEnd_eq_allEnded_iff] at set
        rw [turnEnd_eq_allEnded_iff] at kept
        refine ⟨kept, set, fun remains elsewhere => ?_⟩
        cases remains with
        | inl ended => exact finished (turnEnd_of_finished ended)
        | inr seen =>
          cases seen with
          | inl empty => exact absurd empty elsewhere
          | inr empty => exact absurd (turnEnd_of_emptyWithoutReaction empty) left

/-- A job that returned after its first two seconds went through the loop. -/
theorem executeJob_result {run : JobRun} {views : List TurnView} {j : Job}
    {proc : ProcessContainer} (passed : run.diedAtOnce = .ok false)
    (returned : (run.seen views).executeJob j = .ok proc) :
    ∃ s, atFirst.interact (views.map TurnView.turnEnd) = .ok s ∧
      proc.result = if run.timeout then .timeOut else s.result := by
  simp only [JobRun.executeJob, JobRun.watch, bind_eq_ok, startProcessWithInjector_eq] at returned
  obtain ⟨-, -, started, ⟨-, -, -, rfl⟩, -, -, -, -, died, looked, rest⟩ := returned
  obtain rfl : died = false := Except.ok.inj (looked.symm.trans passed)
  obtain ⟨s, interacted, finished⟩ := (bind_eq_ok _ _ _).mp rest
  refine ⟨s, interacted, ?_⟩
  simp only [JobRun.finish, bind_eq_ok] at finished
  obtain ⟨-, -, -, -, -, -, same⟩ := finished
  cases same
  rfl

/-- The law holds exactly if there is a timeout at the end or the loop was left by a `break`
other than the one without a window. -/
theorem result_law_iff (run : JobRun) (views : List TurnView) (j : Job) (proc : ProcessContainer)
    (passed : run.diedAtOnce = .ok false)
    (returned : (run.seen views).executeJob j = .ok proc) :
    ResultLaw run views proc ↔
      run.timeout = true ∨ ∃ v, atFirst.leftAt views = some v ∧ ¬ v.EmptyWithoutWindow := by
  obtain ⟨s, interacted, result⟩ := executeJob_result passed returned
  have left := interact_result interacted
  cases timeout : run.timeout with
  | true =>
    have result : proc.result = .timeOut := by rw [result, timeout, if_pos rfl]
    refine ⟨fun _ => .inl rfl, fun _ => ⟨fun _ => result, ?_, by rw [result]; decide⟩⟩
    intro none
    rw [timeout] at none
    cases none
  | false =>
    have result : proc.result = s.result := by rw [result, timeout, if_neg (by simp)]
    constructor
    · intro law
      cases exit : atFirst.leftAt views with
      | none =>
        rw [exit] at left
        exact absurd (result.trans left) law.known
      | some v =>
        rw [exit] at left
        refine .inr ⟨v, rfl, fun empty => ?_⟩
        exact law.known (result.trans (left.kept empty))
    · intro holds
      cases holds with
      | inl never => cases never
      | inr leaves =>
        obtain ⟨v, exit, elsewhere⟩ := leaves
        rw [exit] at left
        refine ⟨fun never => ?_, fun _ v' exit' remains => ?_, ?_⟩
        · rw [timeout] at never
          cases never
        · obtain rfl : v = v' := Option.some.inj (exit.symm.trans exit')
          exact result.trans (left.finished remains elsewhere)
        · rw [result]
          exact left.set elsewhere

/-- The injector runs on when the first look comes, and nothing raises. -/
def quietRun (timeout : Bool) : JobRun where
  startTimers := none
  prepareScreenFolders := none
  configure := none
  contain := none
  start := none
  processId := none
  waitForExit := none
  diedAtOnce := .ok false
  turns := []
  screenshot := none
  hasExited := .ok true
  kill := none
  timeout := timeout
  stopTimers := none
  injectorExited := .ok true
  killInjector := none

/-- A turn in which `AreProcsFinished` meets one process, and then no window is found. -/
def windowless (look : ProcessLook) : TurnView where
  monitored := [look]
  window := .ok false
  pids := 0
  logsPerSec := 0
  progressBar := .ok false
  visited := some 0
  rounds := []
  newPrograms := .ok 0
  loopLogsPerSec := 0
  idle := false

theorem result_law_iff_exited :
    ResultLaw (quietRun false) [windowless .exited] ⟨⟨1, []⟩, .finished⟩ ↔
      (quietRun false).timeout = true ∨
        ∃ v, atFirst.leftAt [windowless .exited] = some v ∧ ¬ v.EmptyWithoutWindow :=
  result_law_iff (quietRun false) [windowless .exited] ⟨1, []⟩ ⟨⟨1, []⟩, .finished⟩ rfl rfl

/-- The last process ends between the look of `AreProcsFinished` and the one without a window:
the job returns without a result. -/
theorem ended_between_looks_is_unknown :
    ((quietRun false).seen [windowless .running]).executeJob ⟨1, []⟩ =
        .ok ⟨⟨1, []⟩, .unknown⟩ ∧
      ¬ ResultLaw (quietRun false) [windowless .running] ⟨⟨1, []⟩, .unknown⟩ :=
  ⟨rfl, fun law => law.known rfl⟩

end GuestAgent.Guarantees.JobResult
