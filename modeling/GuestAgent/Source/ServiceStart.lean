import Mathlib.Logic.Basic

/-!
Starting a service and waiting for it: Injector.cpp, `StartSampleService`.

Times are milliseconds since the machine was started; `GetTickCount` answers them modulo `2 ^ 32`.
What a local variable holds before it is assigned is data of the `StartView`. The observations
are those the loop makes, so behind the last one it has ended.
-/
namespace GuestAgent.Source

inductive ServiceState where
  | stopped | startPending | stopPending | running | continuePending | pausePending | paused
  deriving DecidableEq, Repr

/-- `SERVICE_STATUS_PROCESS`. -/
structure ServiceStatus where
  dwCurrentState : ServiceState
  dwCheckPoint : UInt32
  dwWaitHint : UInt32
  dwProcessId : UInt32
  deriving DecidableEq, Repr

def getTickCount (time : Nat) : UInt32 := UInt32.ofNat time

structure StartView where
  /-- `ssStatus` and `dwStartTickCount` before they are assigned. -/
  ssStatus : ServiceStatus
  dwStartTickCount : UInt32
  /-- The first `QueryServiceStatusEx`; `none` if it fails. -/
  first : Option ServiceStatus
  /-- When it has returned. -/
  time : Nat

/-- A later `QueryServiceStatusEx`, and the time from the last reading of the clock to the one
behind it. -/
structure Observation where
  status : Option ServiceStatus
  later : Nat

structure ServiceWait where
  ssStatus : ServiceStatus
  dwOldCheckPoint : UInt32
  dwStartTickCount : UInt32

/-- The `if` on the failure of the first query has no statement of its own: the assignment of
the tick count is what it guards. -/
def StartView.begin (v : StartView) : ServiceWait :=
  let ssStatus := v.first.getD v.ssStatus
  { ssStatus
    dwOldCheckPoint := ssStatus.dwCheckPoint
    dwStartTickCount :=
      match v.first with
      | none => getTickCount v.time
      | some _ => v.dwStartTickCount }

/-- `dwWaitTime <1000> 10000` compares the answer of the first comparison, 0 or 1, with 10000. -/
def waitTime (dwWaitHint : UInt32) : UInt32 :=
  let dwWaitTime := dwWaitHint / 10
  if 10000 < (if dwWaitTime < 1000 then 1 else 0) then 10000 else dwWaitTime

inductive WaitOutcome where
  | queryFailed
  | progress
  | waiting
  | gaveUp
  deriving DecidableEq, Repr

/-- The check behind a `Sleep`, at that time. -/
def ServiceWait.check (s : ServiceWait) (status : Option ServiceStatus) (time : Nat) :
    WaitOutcome × ServiceWait :=
  match status with
  | none => (.queryFailed, s)
  | some ssStatus =>
    if s.dwOldCheckPoint < ssStatus.dwCheckPoint then
      (.progress, ⟨ssStatus, ssStatus.dwCheckPoint, getTickCount time⟩)
    else if ssStatus.dwWaitHint < getTickCount time - s.dwStartTickCount then
      (.gaveUp, { s with ssStatus })
    else (.waiting, { s with ssStatus })

/-- A round of the loop: the hint it sleeps on, the `Sleep`, and the check. -/
structure WaitRound where
  hint : UInt32
  sleep : UInt32
  status : Option ServiceStatus
  time : Nat
  outcome : WaitOutcome
  deriving DecidableEq, Repr

/-- The round made on an observation. -/
def ServiceWait.round (s : ServiceWait) (time : Nat) (o : Observation) : WaitRound where
  hint := s.ssStatus.dwWaitHint
  sleep := waitTime s.ssStatus.dwWaitHint
  status := o.status
  time := time + o.later
  outcome := (s.check o.status (time + o.later)).1

/-- The outcomes the loop is left with by a `break`. -/
def WaitOutcome.breaks : WaitOutcome → Bool
  | .queryFailed => true
  | .progress => false
  | .waiting => false
  | .gaveUp => true

/-- The rounds of the loop and the status it ends with. -/
def ServiceWait.rounds (s : ServiceWait) (time : Nat) :
    List Observation → List WaitRound × ServiceStatus
  | [] => ([], s.ssStatus)
  | o :: rest =>
    if s.ssStatus.dwCurrentState = .startPending then
      let round := s.round time o
      let s' := (s.check o.status (time + o.later)).2
      if round.outcome.breaks then ([round], s'.ssStatus)
      else
        let later := s'.rounds (time + o.later) rest
        (round :: later.1, later.2)
    else ([], s.ssStatus)

/-- The rounds of the wait for a service that was opened and started. -/
def StartView.rounds (v : StartView) (observations : List Observation) : List WaitRound :=
  (v.begin.rounds v.time observations).1

/-- `StartSampleService`: the id of the process, if the service was started. -/
def startSampleService (opened started : Bool) (v : StartView) (observations : List Observation) :
    Option UInt32 :=
  if !opened || !started then none
  else
    let ssStatus := (v.begin.rounds v.time observations).2
    if ssStatus.dwCurrentState = .running then some ssStatus.dwProcessId else none

end GuestAgent.Source
