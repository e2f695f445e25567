import Mathlib.Logic.Function.Basic
import GuestAgent.Library.Runs
import GuestAgent.Source.Processes

/-!
`WaitUntilIdle` among the other users of `_pidsLock`: ProgramStatus.cs, `WaitUntilIdle`, `AddPid`,
`RemovePid`, `NotifyInjectorExited`, the getter of `Pids`, `IncLogRate` and `UpdateLogRate`.

Any number of threads take turns; a `lock` block up to its end or its `Monitor.Wait` is one turn.
A waiting thread leaves the queue of the monitor when it is pulsed, which returns true from its
`Wait`, or when its time is up, which returns false. Each call of `WaitUntilIdle` is given a note of
whether the published log rate has been 0 since it began; the program has no such thing.
-/
namespace GuestAgent.Source
open Library

/-- Where a thread is. -/
inductive IdlePhase where
  | outside
  /-- `WaitUntilIdle` was called. -/
  | called (idleTimeout : Nat) (zeroSeen : Bool)
  /-- In `Monitor.Wait(_pidsLock, IDLE_TIMEOUT)`. -/
  | waiting (deadline : Nat) (zeroSeen : Bool)
  /-- `Monitor.Wait` is about to return. -/
  | woken (result zeroSeen : Bool)
  | returned (result zeroSeen : Bool)
  /-- In the `Monitor.Wait(_pidsLock)` of `Pids`. -/
  | waitingPids
  | wokenPids
  deriving DecidableEq, Repr

namespace IdlePhase

/-- A pulse reaches the thread. -/
def pulsed : IdlePhase → IdlePhase
  | .waiting _ zeroSeen => .woken true zeroSeen
  | .waitingPids => .wokenPids
  | phase => phase

/-- The note of a call that has not returned, when a log rate is published. -/
def note (zero : Bool) : IdlePhase → IdlePhase
  | .called idleTimeout zeroSeen => .called idleTimeout (zeroSeen || zero)
  | .waiting deadline zeroSeen => .waiting deadline (zeroSeen || zero)
  | .woken result zeroSeen => .woken result (zeroSeen || zero)
  | phase => phase

end IdlePhase

/-- `now` is in milliseconds, `queue` the threads that wait for a pulse, in their order. -/
structure IdleStatus where
  pids : PidStatus
  logRate : Nat
  logRateVal : Nat
  now : Nat
  queue : List Nat
  phase : Nat → IdlePhase

inductive IdleEvent where
  | addPid (procs : ProcessTable) (ppid pid : Pid)
  | removePid (pid : Pid)
  | notifyInjectorExited
  | incLogRate
  | updateLogRate
  | elapse
  | readPids (thread : Nat)
  | call (thread idleTimeout : Nat)
  | enter (thread : Nat)
  | timeOut (thread : Nat)
  | resume (thread : Nat)

namespace IdleStatus

def start : IdleStatus := ⟨.empty, 0, 0, 0, [], fun _ => .outside⟩

/-- The first `n` threads of the queue are pulsed. -/
def wake (s : IdleStatus) (n : Nat) : IdleStatus :=
  { s with
    queue := s.queue.drop n
    phase := fun t => if t ∈ s.queue.take n then (s.phase t).pulsed else s.phase t }

/-- `Monitor.Pulse(_pidsLock)`. -/
def pulse (s : IdleStatus) : IdleStatus := s.wake 1

/-- `Monitor.PulseAll(_pidsLock)`. -/
def pulseAll (s : IdleStatus) : IdleStatus := s.wake s.queue.length

def goTo (s : IdleStatus) (thread : Nat) (phase : IdlePhase) : IdleStatus :=
  { s with phase := Function.update s.phase thread phase }

@[simp] theorem goTo_phase (s : IdleStatus) (thread : Nat) (phase : IdlePhase) :
    (s.goTo thread phase).phase = Function.update s.phase thread phase := rfl

def step (s : IdleStatus) : IdleEvent → Option IdleStatus
  | .addPid procs ppid pid =>
    some ({ s with pids := (s.pids.addPid procs none ppid pid).state }.pulse)
  | .removePid pid => some ({ s with pids := (s.pids.removePid none pid).state }.pulse)
  | .notifyInjectorExited => some ({ s with pids := { s.pids with firstDone := true } }.pulseAll)
  | .incLogRate => some { s with logRate := s.logRate + 1 }
  | .updateLogRate =>
    some { s with
      logRateVal := s.logRate
      logRate := 0
      phase := fun t => (s.phase t).note (decide (s.logRate = 0)) }
  | .elapse => some { s with now := s.now + 1 }
  | .readPids t =>
    match s.phase t with
    | .outside | .returned _ _ | .wokenPids =>
      -- the condition of the loop is looked at again after each pulse
      if s.pids.firstDone then some (s.goTo t .outside)
      else some { s.goTo t .waitingPids with queue := s.queue ++ [t] }
    | _ => none
  | .call t idleTimeout =>
    match s.phase t with
    | .outside | .returned _ _ => some (s.goTo t (.called idleTimeout (decide (s.logRateVal = 0))))
    | _ => none
  | .enter t =>
    match s.phase t with
    | .called idleTimeout zeroSeen =>
      if s.logRateVal ≠ 0 then
        some { s.goTo t (.waiting (s.now + idleTimeout) zeroSeen) with queue := s.queue ++ [t] }
      else some (s.goTo t (.returned true zeroSeen))
    | _ => none
  | .timeOut t =>
    match s.phase t with
    | .waiting deadline zeroSeen =>
      if deadline ≤ s.now then
        some { s.goTo t (.woken false zeroSeen) with queue := s.queue.erase t }
      else none
    | _ => none
  | .resume t =>
    match s.phase t with
    -- what `Wait` returns is returned, whatever the log rate is by then
    | .woken result zeroSeen => some (s.goTo t (.returned result zeroSeen))
    | _ => none

/-- The threads an event pulses. -/
def pulsedBy (s : IdleStatus) : IdleEvent → List Nat
  | .addPid _ _ _ | .removePid _ => s.queue.take 1
  | .notifyInjectorExited => s.queue
  | _ => []

end IdleStatus

end GuestAgent.Source
