import GuestAgent.Source.JobExecution

/-!
One turn of the interaction loop: LogicThread.cs, the `try` block in the loop of `ExecuteJob`,
and `AreProcsFinished`.

The event server adds and removes pids while a turn runs, so each look at them is a datum of its
own in the `TurnView`: the processes `AreProcsFinished` meets, the number of pids and the log
rate where no window was found, and again after an interaction without a reaction. The rounds of
the inner `do` loop are those it makes; behind the last one its condition was found false.
-/
namespace GuestAgent.Source

inductive TurnException where
  | controlNotFound | elementNotEnabled | elementNotAvailable | noMoreCandidate | uiLoop
  | processExited | other
  deriving DecidableEq, Repr

/-- What `AreProcsFinished` meets under one of the monitored pids. -/
inductive ProcessLook where
  | running
  | exited
  /-- `ArgumentException`; the pid is removed, and an observer of that may throw. -/
  | gone (onNext : Option Exn)
  /-- Any other exception. -/
  | inaccessible (e : Exn)
  deriving DecidableEq, Repr

def areProcsFinished : List ProcessLook → Except TurnException Bool
  | [] => .ok true
  | .running :: _ => .ok false
  | .exited :: rest => areProcsFinished rest
  | .gone none :: rest => areProcsFinished rest
  | .gone (some _) :: _ => .error .other
  | .inaccessible _ :: _ => .error .other

def circularLoopThreshold : Nat := 5

/-- One round of the inner loop. -/
structure RoundView where
  /-- The score `PopTopCandidate` returns a candidate with, if there is one. -/
  popped : Option Int
  /-- What interacting with the candidate or waiting for a reaction raises. -/
  raised : Option TurnException
  uiHasChanged : Bool
  procs : Nat
  lograte : Nat
  deriving DecidableEq, Repr

structure TurnView where
  monitored : List ProcessLook
  /-- `WaitForInputRequested`: whether there is a window. -/
  window : Except TurnException Bool
  pids : Nat
  logsPerSec : Nat
  /-- `HasIncompleteProgressBar`, or what raises on the way to it. -/
  progressBar : Except TurnException Bool
  /-- The entry of `_visitedVindows` for the hash of the candidates, 0 without an entry; `none`
  when the hash is null. -/
  visited : Option Nat
  rounds : List RoundView
  /-- What the handler of a `UILoopException` finds. -/
  newPrograms : Except Exn Nat
  loopLogsPerSec : Nat
  idle : Bool

/-- The inner loop; `true` when it is left by its `break`. -/
def interactRounds (visited : Option Nat) : List RoundView → Except TurnException Bool
  | [] => .ok false
  | r :: rest =>
    match r.popped with
    | none => .error .noMoreCandidate
    | some score =>
      if 0 < score then
        match visited with
        | none => .error .other
        | some n =>
          -- the counter is read before the entry is incremented, and 1 for a new entry
          if circularLoopThreshold < max n 1 then .error .uiLoop
          else match r.raised with
            | some e => .error e
            | none =>
              if r.uiHasChanged then .ok false
              else if r.procs = 0 ∧ r.lograte = 0 then .ok true
              else interactRounds (some (n + 1)) rest
      else interactRounds visited rest

namespace TurnView

/-- The `try` block; `false` when it leaves the interaction loop by `break`. -/
def body (v : TurnView) : Except TurnException Bool := do
  let finished ← areProcsFinished v.monitored
  if finished then .error .processExited
  else
    let window ← v.window
    if !window then
      -- the one `break` of the block that leaves the interaction loop
      pure (!decide (v.pids = 0 ∧ v.logsPerSec = 0))
    else
      let incomplete ← v.progressBar
      if incomplete then pure true
      else
        let _ ← interactRounds v.visited v.rounds
        pure true

def turnEnd (v : TurnView) : TurnEnd :=
  match v.body with
  | .ok true => .nextTurn
  | .ok false => .allEnded
  | .error .controlNotFound => .controlNotFound
  | .error .elementNotEnabled => .elementNotEnabled
  | .error .elementNotAvailable => .elementNotAvailable
  | .error .noMoreCandidate => .noMoreCandidate
  | .error .uiLoop => .uiLoop v.newPrograms v.loopLogsPerSec v.idle
  | .error .processExited => .processExited
  | .error .other => .otherException

/-- `No windows found`, no pids and no messages. -/
def EmptyWithoutWindow (v : TurnView) : Prop :=
  areProcsFinished v.monitored = .ok false ∧ v.window = .ok false ∧ v.pids = 0 ∧ v.logsPerSec = 0

/-- No reaction, no pids and no messages. -/
def EmptyWithoutReaction (v : TurnView) : Prop :=
  areProcsFinished v.monitored = .ok false ∧ v.window = .ok true ∧ v.progressBar = .ok false ∧
    interactRounds v.visited v.rounds = .ok true

/-- The turn finds that no monitored process remains, at one of its three looks. -/
def NoProcessRemains (v : TurnView) : Prop :=
  areProcsFinished v.monitored = .ok true ∨ v.EmptyWithoutWindow ∨ v.EmptyWithoutReaction

end TurnView

/-- The turn at which the interaction loop is left by a `break`, if it is. -/
def LoopState.leftAt (s : LoopState) : List TurnView → Option TurnView
  | [] => none
  | v :: views =>
    match s.turn v.turnEnd with
    | .error _ => none
    | .ok (s', goOn) => if goOn then s'.leftAt views else some v

/-- The job run whose turns are these. -/
def JobRun.seen (run : JobRun) (views : List TurnView) : JobRun :=
  { run with turns := views.map TurnView.turnEnd }

end GuestAgent.Source
