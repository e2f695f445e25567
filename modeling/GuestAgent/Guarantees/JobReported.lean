import GuestAgent.Source.JobExecution

/-!
Which jobs reach their report.

The handler of `work` for an exception of `ExecuteJob` writes to the container, and that is
null until `ExecuteJob` has returned: the exception the handler was there for is replaced by
another one that leaves the thread. So a job is reported exactly if nothing in its execution
raised, and the result for such a failure is never set.
-/
namespace GuestAgent.Guarantees.JobReported
open Library Library.Retry Source

/-- The job reaches the reporting loop, with `UnknownError` if its execution raised something,
and as soon as an attempt to report goes through it is reported with that result. -/
def Reported (run : JobRun) (j : Job) (attempts : Nat → Option Exn) : Prop :=
  ∃ proc : ProcessContainer, run.untilReporting j = .ok proc ∧ proc.job = j ∧
    (¬ Completes (run.executeJob j) → proc.result = .unknownError) ∧
    ∀ k, attempts k = none → ∃ fuel, run.work j attempts fuel = .ok (some (j, proc.result))

/-! ### What execution needs -/

/-- The list of installed programs could not be read in the handler of a UI loop. -/
def Raises : TurnEnd → Prop
  | .uiLoop (.error _) _ _ => True
  | _ => False

/-- No turn the loop comes to raises in a handler. -/
def GoesThrough (s : LoopState) : List TurnEnd → Prop
  | [] => True
  | turn :: turns => ¬ Raises turn ∧ ∀ s', s.turn turn = .ok (s', true) → GoesThrough s' turns

/-- The process is seen to have ended, or could be killed. -/
def Ended (exited : Except Exn Bool) (kill : Option Exn) : Prop :=
  exited = .ok true ∨ exited = .ok false ∧ kill = none

/-- What is still to come for a process that did not die at once raises nothing. -/
structure InteractionUndisturbed (run : JobRun) : Prop where
  loop : GoesThrough ⟨0, 0, .unknown⟩ run.turns
  screenshot : run.screenshot = none
  ended : Ended run.hasExited run.kill

/-- No raise point of `ExecuteJob` that the execution comes to raises. -/
structure ExecutionUndisturbed (run : JobRun) : Prop where
  prepareScreenFolders : run.prepareScreenFolders = none
  configure : run.configure = none
  contain : run.contain = none
  start : run.start = none
  processId : run.processId = none
  waitForExit : run.waitForExit = none
  afterwards : run.diedAtOnce = .ok true ∨
    run.diedAtOnce = .ok false ∧ InteractionUndisturbed run

/-- Nothing between the acquisition of the job and the reporting loop raises. -/
structure Undisturbed (run : JobRun) : Prop where
  startTimers : run.startTimers = none
  execution : ExecutionUndisturbed run
  injector : Ended run.injectorExited run.killInjector

/-! ### ExecuteJob -/

theorem turn_completes_iff (s : LoopState) (turn : TurnEnd) :
    Completes (s.turn turn) ↔ ¬ Raises turn := by
  cases turn with
  | uiLoop newPrograms logsPerSec idle =>
    cases newPrograms with
    | error e => simp [LoopState.turn, Raises]
    | ok delta =>
      simp only [LoopState.turn, Raises, not_false_iff, iff_true]
      split_ifs <;> exact completes_ok _
  | nextTurn | allEnded | controlNotFound | processExited | otherException =>
    simp [LoopState.turn, Raises]
  | elementNotEnabled | elementNotAvailable | noMoreCandidate =>
    simp only [LoopState.turn, Raises, not_false_iff, iff_true]
    split_ifs <;> exact completes_ok _

theorem interact_completes_iff (s : LoopState) (turns : List TurnEnd) :
    Completes (s.interact turns) ↔ GoesThrough s turns := by
  induction turns generalizing s with
  | nil => simp [LoopState.interact, GoesThrough]
  | cons turn turns ih =>
    rw [LoopState.interact, GoesThrough, ← turn_completes_iff s turn]
    cases one : s.turn turn with
    | error e => simp
    | ok next =>
      obtain ⟨s', goOn⟩ := next
      cases goOn with
      | false => simp
      | true => simp [ih]

/-- `if (!proc.HasExited) proc.Kill();`, and what is returned behind it. -/
theorem ended_iff (exited : Except Exn Bool) (kill : Option Exn) {α : Type} (a b : α) :
    (do
      let seen ← exited
      raise (if seen then none else kill)
      pure a) = (.ok b : Except Exn α) ↔ Ended exited kill ∧ a = b := by
  cases exited with
  | error e => simp [bind, Except.bind, Ended]
  | ok seen =>
    cases seen with
    | true => simp [bind, Except.bind, raise, Ended, pure, Except.pure]
    | false => cases kill <;> simp [bind, Except.bind, raise, Ended, pure, Except.pure]

theorem finish_completes_iff (run : JobRun) (proc : ProcessContainer) :
    Completes (run.finish proc) ↔ run.screenshot = none ∧ Ended run.hasExited run.kill := by
  simp only [JobRun.finish, completes_raise_bind]
  simp only [Completes, ended_iff, exists_and_left, exists_eq', and_true]

theorem watch_completes_iff (run : JobRun) (j : Job) :
    Completes (run.watch ⟨j, .unknown⟩) ↔
      run.processId = none ∧ run.waitForExit = none ∧
        (run.diedAtOnce = .ok true ∨ run.diedAtOnce = .ok false ∧ InteractionUndisturbed run) := by
  simp only [JobRun.watch, completes_raise_bind, completes_bind run.diedAtOnce]
  refine and_congr_right' (and_congr_right' ?_)
  cases run.diedAtOnce with
  | error e => simp
  | ok died =>
    cases died with
    | true => simp
    | false =>
      have loop := interact_completes_iff ⟨0, 0, .unknown⟩ run.turns
      simp only [Except.ok.injEq, exists_eq_left', Bool.false_eq_true, if_false, false_or,
        true_and, completes_bind, finish_completes_iff]
      constructor
      · intro holds
        obtain ⟨s, interacted, screenshot, ended⟩ := holds
        exact ⟨loop.mp ⟨s, interacted⟩, screenshot, ended⟩
      · intro undisturbed
        obtain ⟨s, interacted⟩ := loop.mpr undisturbed.loop
        exact ⟨s, interacted, undisturbed.screenshot, undisturbed.ended⟩

theorem executeJob_completes_iff (run : JobRun) (j : Job) :
    Completes (run.executeJob j) ↔ ExecutionUndisturbed run := by
  rw [JobRun.executeJob, completes_raise_bind, completes_bind]
  simp only [startProcessWithInjector_eq]
  constructor
  · intro holds
    obtain ⟨folders, proc, ⟨configure, contain, start, rfl⟩, watched⟩ := holds
    obtain ⟨processId, waited, afterwards⟩ := (watch_completes_iff run j).mp watched
    exact ⟨folders, configure, contain, start, processId, waited, afterwards⟩
  · intro quiet
    exact ⟨quiet.prepareScreenFolders, ⟨j, .unknown⟩,
      ⟨quiet.configure, quiet.contain, quiet.start, rfl⟩,
      (watch_completes_iff run j).mpr ⟨quiet.processId, quiet.waitForExit, quiet.afterwards⟩⟩

/-- The container keeps the job it was built for. -/
theorem finish_job {run : JobRun} {proc out : ProcessContainer} (done : run.finish proc = .ok out) :
    out.job = proc.job := by
  simp only [JobRun.finish, bind_eq_ok] at done
  obtain ⟨_, _, _, _, _, _, same⟩ := done
  rw [← Except.ok.inj same]

theorem watch_job {run : JobRun} {proc out : ProcessContainer} (done : run.watch proc = .ok out) :
    out.job = proc.job := by
  simp only [JobRun.watch, bind_eq_ok] at done
  obtain ⟨_, _, _, _, died, _, rest⟩ := done
  cases died with
  | true => rw [← Except.ok.inj rest]
  | false =>
    obtain ⟨_, _, finished⟩ := (bind_eq_ok _ _ _).mp rest
    have kept := finish_job finished
    exact kept

theorem executeJob_job {run : JobRun} {j : Job} {out : ProcessContainer}
    (done : run.executeJob j = .ok out) : out.job = j := by
  simp only [JobRun.executeJob, bind_eq_ok, startProcessWithInjector_eq] at done
  obtain ⟨_, _, proc, ⟨_, _, _, rfl⟩, watched⟩ := done
  exact watch_job watched

/-! ### From the job to its report -/

/-- The handler only helps if `ExecuteJob` had returned. -/
theorem guarded_eq_ok (run : JobRun) (j : Job) (proc : ProcessContainer) :
    run.guarded j = .ok proc ↔ run.startTimers = none ∧ ∃ executed,
      run.executeJob j = .ok executed ∧
        proc = if run.stopTimers = none then executed
          else { executed with result := .unknownError } := by
  unfold JobRun.guarded
  cases run.startTimers with
  | some e => simp [reportFailure]
  | none =>
    cases run.executeJob j with
    | error e => simp [reportFailure]
    | ok executed => cases run.stopTimers <;> simp [reportFailure, eq_comm]

theorem untilReporting_eq_ok (run : JobRun) (j : Job) (proc : ProcessContainer) :
    run.untilReporting j = .ok proc ↔
      run.guarded j = .ok proc ∧ Ended run.injectorExited run.killInjector := by
  simp only [JobRun.untilReporting]
  rw [bind_eq_ok]
  simp only [ended_iff]
  constructor
  · intro holds
    obtain ⟨_, reached, ended, rfl⟩ := holds
    exact ⟨reached, ended⟩
  · intro holds
    obtain ⟨reached, ended⟩ := holds
    exact ⟨proc, reached, ended, rfl⟩

/-- The reporting loop ends as soon as an attempt goes through, with the result of the container
it was entered with. -/
theorem work_eq_ok {run : JobRun} {j : Job} {proc : ProcessContainer}
    (reached : run.untilReporting j = .ok proc) {attempts : Nat → Option Exn} {k : Nat}
    (through : attempts k = none) :
    ∃ fuel, run.work j attempts fuel = .ok (some (j, proc.result)) := by
  have ends : Leaves (reportRound j proc attempts) 0 () :=
    (leaves_iff _ 0).mpr ⟨k, Nat.zero_le k, by simp [reportRound, through]⟩
  obtain ⟨fuel, reported, ended⟩ := ends
  obtain ⟨last, _, round⟩ := round_of_retry ended
  have same : reported = (j, proc.result) := by
    simp only [reportRound] at round
    cases outcome : attempts last with
    | none =>
      rw [outcome] at round
      exact (Sum.inr.inj round).symm
    | some e =>
      rw [outcome] at round
      cases round
  refine ⟨fuel, ?_⟩
  rw [JobRun.work, reached, ← same, ← ended]
  rfl

/-- A job is reported, with the result it should have, exactly if nothing raises between its
acquisition and the reporting loop. -/
theorem reported_iff_undisturbed (run : JobRun) (j : Job) (attempts : Nat → Option Exn) :
    Reported run j attempts ↔ Undisturbed run := by
  constructor
  · intro holds
    obtain ⟨proc, reached, _, _, _⟩ := holds
    obtain ⟨guarded, injector⟩ := (untilReporting_eq_ok run j proc).mp reached
    obtain ⟨timers, executed, done, _⟩ := (guarded_eq_ok run j proc).mp guarded
    exact ⟨timers, (executeJob_completes_iff run j).mp ⟨executed, done⟩, injector⟩
  · intro quiet
    have completes := (executeJob_completes_iff run j).mpr quiet.execution
    obtain ⟨executed, done⟩ := completes
    let proc := if run.stopTimers = none then executed
      else { executed with result := .unknownError }
    have guarded : run.guarded j = .ok proc :=
      (guarded_eq_ok run j proc).mpr ⟨quiet.startTimers, executed, done, rfl⟩
    have reached : run.untilReporting j = .ok proc :=
      (untilReporting_eq_ok run j proc).mpr ⟨guarded, quiet.injector⟩
    have sameJob : proc.job = j := by
      have kept := executeJob_job done
      simp only [proc]
      split_ifs <;> exact kept
    exact ⟨proc, reached, sameJob, fun failed => absurd ⟨executed, done⟩ failed,
      fun k through => work_eq_ok reached through⟩

/-- A run in which nothing raises: the process ends at once with exit code 0, and no turn is
made. -/
def calmRun : JobRun where
  startTimers := none
  prepareScreenFolders := none
  configure := none
  contain := none
  start := none
  processId := none
  waitForExit := none
  diedAtOnce := .ok false
  turns := []
  screenshot := none
  hasExited := .ok true
  kill := none
  timeout := false
  stopTimers := none
  injectorExited := .ok true
  killInjector := none

/-- An injector that cannot be started leaves `work` through a null reference. -/
theorem unstartable_injector_is_not_reported :
    ¬ ∀ (run : JobRun) (j : Job) (attempts : Nat → Option Exn), Reported run j attempts := by
  intro always_reported
  obtain ⟨proc, reached, _⟩ :=
    always_reported { calmRun with start := some .win32 } ⟨1, wide "C:\\a.exe"⟩ (fun _ => none)
  cases reached

end GuestAgent.Guarantees.JobReported
