import GuestAgent.Library.Raising
import GuestAgent.Library.Retry
import GuestAgent.Source.Runtime

/-!
One job in the guest: LogicThread.cs, `ExecuteJob`, `StartProcessWithInjector` and the part of
`work` from an acquired job to the end of its reporting loop; InteractionResult.cs, Job.cs and
ProcessContainer.cs.

What the calls of the system do in one execution is the data of a `JobRun`: a field of type
`Option Exn` says whether a raise point raises. The turns of the interaction loop are those for
which its condition was found true, so after the last of them there is a timeout or a MITM
signal.
-/
namespace GuestAgent.Source
open Library Library.Retry

inductive InteractionResult where
  | unknown | finished | uiStuck | unknownError | partiallyFinished | timeOut
  deriving DecidableEq, Repr

structure Job where
  id : Int
  localFullPath : WString
  deriving DecidableEq, Repr

structure ProcessContainer where
  job : Job
  result : InteractionResult
  deriving DecidableEq, Repr

def stuckThreshold : Nat := 20
def stuckNoControlsThreshold : Nat := 100
def logPerSecIdleThreshold : Nat := 50

/-- How the `try` block of one turn of the interaction loop is left. A `UILoopException` comes
with what its handler finds: the new programs, the log rate, and whether the wait for idleness
ended before its timeout. -/
inductive TurnEnd where
  | nextTurn
  | allEnded
  | controlNotFound
  | elementNotEnabled
  | elementNotAvailable
  | noMoreCandidate
  | uiLoop (newPrograms : Except Exn Nat) (logsPerSec : Nat) (idle : Bool)
  | processExited
  | otherException
  deriving DecidableEq

structure LoopState where
  stuckCounter : Nat
  stuckWaitingForControlsCounter : Nat
  result : InteractionResult
  deriving DecidableEq, Repr

/-- One turn; `true` when the loop goes on. -/
def LoopState.turn (s : LoopState) : TurnEnd → Except Exn (LoopState × Bool)
  | .nextTurn => .ok (s, true)
  | .allEnded => .ok (s, false)
  | .controlNotFound => .ok (s, true)
  | .elementNotEnabled =>
    if s.stuckCounter < stuckThreshold then
      .ok ({ s with stuckCounter := s.stuckCounter + 1 }, true)
    else .ok ({ s with result := .uiStuck }, false)
  | .elementNotAvailable =>
    if s.stuckCounter < stuckThreshold then
      .ok ({ s with stuckCounter := s.stuckCounter + 1 }, true)
    else .ok ({ s with result := .uiStuck }, false)
  | .noMoreCandidate =>
    if s.stuckWaitingForControlsCounter < stuckNoControlsThreshold then
      .ok ({ s with stuckWaitingForControlsCounter := s.stuckWaitingForControlsCounter + 1 }, true)
    else .ok ({ s with result := .uiStuck }, false)
  | .uiLoop newPrograms logsPerSec idle =>
    match newPrograms with
    | .error e => .error e
    | .ok delta =>
      if 0 < delta then .ok ({ s with result := .partiallyFinished }, false)
      else if logPerSecIdleThreshold < logsPerSec then
        if idle then .ok (s, true) else .ok ({ s with result := .uiStuck }, false)
      else .ok ({ s with result := .uiStuck }, false)
  | .processExited => .ok ({ s with result := .finished }, false)
  | .otherException => .ok ({ s with result := .unknownError }, false)

/-- The interaction loop. -/
def LoopState.interact (s : LoopState) : List TurnEnd → Except Exn LoopState
  | [] => .ok s
  | turn :: turns =>
    match s.turn turn with
    | .error e => .error e
    | .ok (s', goOn) => if goOn then s'.interact turns else .ok s'

/-- What one job meets, from its acquisition to the reporting loop. -/
structure JobRun where
  startTimers : Option Exn
  prepareScreenFolders : Option Exn
  /-- `new Process()` and its `StartInfo`. -/
  configure : Option Exn
  /-- `new ProcessContainer(proc, j)`. -/
  contain : Option Exn
  start : Option Exn
  /-- `proc.Process.Id`. -/
  processId : Option Exn
  waitForExit : Option Exn
  /-- `proc.Process.HasExited && proc.Process.ExitCode != 0`. -/
  diedAtOnce : Except Exn Bool
  turns : List TurnEnd
  screenshot : Option Exn
  hasExited : Except Exn Bool
  kill : Option Exn
  timeout : Bool
  stopTimers : Option Exn
  /-- `HasExited` and `Kill` once more, in `work`. -/
  injectorExited : Except Exn Bool
  killInjector : Option Exn

/-- `StartProcessWithInjector`; its handler kills the process and throws the exception again. -/
def JobRun.startProcessWithInjector (run : JobRun) (j : Job) : Except Exn ProcessContainer := do
  raise run.configure
  raise run.contain
  raise run.start
  pure ⟨j, .unknown⟩

/-- The end of `ExecuteJob`, behind the interaction loop. -/
def JobRun.finish (run : JobRun) (proc : ProcessContainer) : Except Exn ProcessContainer := do
  raise run.screenshot
  let exited ← run.hasExited
  raise (if exited then none else run.kill)
  pure { proc with result := if run.timeout then .timeOut else proc.result }

/-- `ExecuteJob` once the injector was started. -/
def JobRun.watch (run : JobRun) (proc : ProcessContainer) : Except Exn ProcessContainer := do
  raise run.processId
  raise run.waitForExit
  let died ← run.diedAtOnce
  if died then pure { proc with result := .unknownError }
  else
    let s ← LoopState.interact ⟨0, 0, proc.result⟩ run.turns
    run.finish { proc with result := s.result }

/-- `ExecuteJob`. -/
def JobRun.executeJob (run : JobRun) (j : Job) : Except Exn ProcessContainer := do
  raise run.prepareScreenFolders
  let proc ← run.startProcessWithInjector j
  run.watch proc

/-- `proc.Result = InteractionResult.UnknownError` in the handler of `work`. -/
def reportFailure : Option ProcessContainer → Except Exn ProcessContainer
  | none => .error .nullReference
  | some proc => .ok { proc with result := .unknownError }

/-- The `try` of `work` around `ExecuteJob`, with its handler; `proc` is null until
`ExecuteJob` has returned. -/
def JobRun.guarded (run : JobRun) (j : Job) : Except Exn ProcessContainer :=
  match run.startTimers, run.executeJob j, run.stopTimers with
  | some _, _, _ => reportFailure none
  | none, .error _, _ => reportFailure none
  | none, .ok proc, some _ => reportFailure (some proc)
  | none, .ok proc, none => .ok proc

/-- `work` from an acquired job to its reporting loop, with the container it arrives there
with. Stopping the pipe server, `NotifyInjectorExited` and the loop that kills the children
raise nothing that is not caught. -/
def JobRun.untilReporting (run : JobRun) (j : Job) : Except Exn ProcessContainer := do
  let proc ← run.guarded j
  let exited ← run.injectorExited
  raise (if exited then none else run.killInjector)
  pure proc

/-- One turn of the reporting loop; what it reports when nothing in it raises. -/
def reportRound (j : Job) (proc : ProcessContainer) (attempts : Nat → Option Exn) (made : Nat) :
    Unit → Unit ⊕ (Job × InteractionResult) := fun _ =>
  match attempts made with
  | none => .inr (j, proc.result)
  | some _ => .inl ()

/-- `work` with an acquired job, the reporting loop watched for `fuel` rounds: the exception
that escapes, or what was reported. -/
def JobRun.work (run : JobRun) (j : Job) (attempts : Nat → Option Exn) (fuel : Nat) :
    Except Exn (Option (Job × InteractionResult)) := do
  let proc ← run.untilReporting j
  pure (retry (reportRound j proc attempts) fuel 0 ())

theorem startProcessWithInjector_eq (run : JobRun) (j : Job) (proc : ProcessContainer) :
    run.startProcessWithInjector j = .ok proc ↔
      run.configure = none ∧ run.contain = none ∧ run.start = none ∧ proc = ⟨j, .unknown⟩ := by
  unfold JobRun.startProcessWithInjector
  cases run.configure <;> cases run.contain <;> cases run.start <;>
    simp [raise, bind, Except.bind, pure, Except.pure, eq_comm]

end GuestAgent.Source
