import Mathlib.Logic.Function.Basic
import GuestAgent.Library.LiveView
import GuestAgent.Source.TodoJob

/-!
The pool of virtual machines: VMManager.cs, `RevertVm`, `StartVm` and the three methods of
`VBoxVM` they call. Program.cs calls `StartVm` on the main thread; the threads of the workers call
`RevertVm`.

Each method of a `VBoxVM` holds the lock of the object and runs `VBoxManage` once after the other,
looking at some of the exit codes. What `VBoxManage` does to a machine is data next to the exit
code: a command that fails does nothing. Between the methods the lock is free, and `_vms` is
enumerated and added to without one.
-/
namespace GuestAgent.Source.Host
open Library

inductive VMStatus where
  | uninitialized | ready | running
  deriving DecidableEq, Repr

/-- A machine VirtualBox knows. `used`: it ran since its disk was restored or copied. -/
structure BoxMachine where
  on : Bool
  used : Bool
  deriving DecidableEq, Repr

/-- What `RevertVm` and `StartVm` can throw. -/
inductive PoolFailure where
  /-- `_vms` was added to during a `foreach`. -/
  | collectionModified
  | noVmFound (vmName : Text)
  | mustFirstInitialize
  | cannotClone
  | cannotSetVmName
  | cannotShutdownNetwork
  | cannotStartNetwork
  /-- `Process.Start`. -/
  | processStart
  deriving DecidableEq, Repr

/-- The methods of a `VBoxVM`, and the `_vms.Add` between two of them. -/
inductive VmCall where
  | initiateByCloning | add | revert | start
  deriving DecidableEq, Repr

/-- The next statement of a method; `InitiateByCloning` goes on in `Revert`, whose lock it has. -/
inductive VmStage where
  | folderExists | showVmInfo | cloneVm
  | powerOff | restoreCurrent
  | startVm | setVmName | linkOff | linkOn
  deriving DecidableEq, Repr

/-- Where a thread is. A search is for a name, or for a machine that is ready. -/
inductive PoolThread where
  | idle
  | searching (name : Option Text) (e : Enumerator)
  | calling (vm : Nat) (todo : List VmCall)
  | inside (vm : Nat) (stage : VmStage) (todo : List VmCall)
  deriving DecidableEq, Repr

/-- `T` are the threads. An object is known by its place in `_vms`, the one being made by the
place it will have. -/
structure VMPool (T : Type) where
  vms : Versioned Text
  status : Nat → VMStatus
  owner : Nat → Option T
  threads : T → PoolThread
  machines : Text → Option BoxMachine
  folders : Text → Bool
  /-- Not in the source: machines that were switched on, and whether they were used before. -/
  boots : List (Text × Bool)
  /-- Not in the source: what was thrown. -/
  failures : List PoolFailure

inductive PoolLabel (T : Type) where
  | revertVm (t : T) (vmName : Text)
  | startVm (t : T)
  /-- One turn of the `foreach`. -/
  | look (t : T)
  /-- The next method or `_vms.Add`, or the end. -/
  | enter (t : T)
  /-- The next statement, with the success of its command. -/
  | run (t : T) (success : Bool)
  /-- `Process.Start` throws. -/
  | crash (t : T)
  /-- A guest switches its machine off. -/
  | shutdown (name : Text)

namespace VMPool

variable {T : Type} [DecidableEq T]

/-- `Settings.Default.BASE_NAME + _vms.Count`. -/
def vmName (baseName : Text) (count : Nat) : Text := baseName ++ Nat.toDigits 10 count

def initial (machines : Text → Option BoxMachine) (folders : Text → Bool) : VMPool T where
  vms := ⟨[], 0⟩
  status := fun _ => .uninitialized
  owner := fun _ => none
  threads := fun _ => .idle
  machines := machines
  folders := folders
  boots := []
  failures := []

def setThread (s : VMPool T) (t : T) (p : PoolThread) : VMPool T :=
  { s with threads := Function.update s.threads t p }

def setStatus (s : VMPool T) (vm : Nat) (status : VMStatus) : VMPool T :=
  { s with status := Function.update s.status vm status }

def setMachine (s : VMPool T) (name : Text) (m : BoxMachine) : VMPool T :=
  { s with machines := Function.update s.machines name (some m) }

/-- The exception leaves `RevertVm` or `StartVm`. -/
def throw (s : VMPool T) (t : T) (e : PoolFailure) : VMPool T :=
  { s.setThread t .idle with failures := s.failures ++ [e] }

def acquire (s : VMPool T) (t : T) (vm : Nat) : VMPool T :=
  { s with owner := Function.update s.owner vm (some t) }

def release (s : VMPool T) (vm : Nat) : VMPool T :=
  { s with owner := Function.update s.owner vm none }

/-- The end of a method. -/
def leave (s : VMPool T) (t : T) (vm : Nat) (todo : List VmCall) : VMPool T :=
  (s.release vm).setThread t (.calling vm todo)

/-- An exception inside a method. -/
def fail (s : VMPool T) (t : T) (vm : Nat) (e : PoolFailure) : VMPool T := (s.release vm).throw t e

/-- One turn of the `foreach` of a search. -/
def look (s : VMPool T) (t : T) (name : Option Text) (e : Enumerator) : VMPool T :=
  match s.vms.moveNext e, name with
  | .modified, _ => s.throw t .collectionModified
  | .ended, some name => s.throw t (.noVmFound name)
  | .ended, none =>
    (s.setStatus s.vms.content.length .uninitialized).setThread t
      (.calling s.vms.content.length [.initiateByCloning, .add, .start])
  | .current found, some name =>
    if found = name then s.setThread t (.calling e.index [.revert, .start])
    else s.setThread t (.searching (some name) ⟨e.version, e.index + 1⟩)
  | .current _, none =>
    if s.status e.index = .ready then s.setThread t (.calling e.index [.revert, .start])
    else s.setThread t (.searching none ⟨e.version, e.index + 1⟩)

/-- The first statement of a method, once the lock is taken. -/
def begin (s : VMPool T) (t : T) (vm : Nat) (todo : List VmCall) : VmCall → VMPool T
  | .initiateByCloning => (s.acquire t vm).setThread t (.inside vm .folderExists todo)
  | .revert => (s.acquire t vm).setThread t (.inside vm .powerOff todo)
  | .start =>
    if s.status vm = .uninitialized then s.throw t .mustFirstInitialize
    else (s.acquire t vm).setThread t (.inside vm .startVm todo)
  | .add => s

/-- `none` where the command cannot have this success on the machine `name`. -/
def command (s : VMPool T) (name : Text) (stage : VmStage) (success : Bool) : Option (VMPool T) :=
  if success = false then some s
  else match stage, s.machines name with
    | .showVmInfo, some _ => some s
    | .cloneVm, none =>
      some { s.setMachine name ⟨false, false⟩ with folders := Function.update s.folders name true }
    | .powerOff, some m => if m.on then some (s.setMachine name { m with on := false }) else none
    | .restoreCurrent, some m => if m.on then none else some (s.setMachine name ⟨false, false⟩)
    | .startVm, some m =>
      if m.on then none
      else some { s.setMachine name ⟨true, true⟩ with boots := s.boots ++ [(name, m.used)] }
    | .setVmName, some _ | .linkOff, some _ | .linkOn, some _ => some s
    | _, _ => none

/-- The method after its command: how it goes on with this exit code. -/
def next (s : VMPool T) (t : T) (vm : Nat) (name : Text) (todo : List VmCall) (success : Bool) :
    VmStage → VMPool T
  | .folderExists =>
    s.setThread t (.inside vm (if s.folders name then .showVmInfo else .cloneVm) todo)
  | .showVmInfo =>
    if success then (s.setStatus vm .ready).setThread t (.inside vm .powerOff todo)
    else
      { s with folders := Function.update s.folders name false }.setThread t
        (.inside vm .cloneVm todo)
  | .cloneVm =>
    if success then (s.setStatus vm .ready).leave t vm todo else s.fail t vm .cannotClone
  | .powerOff => s.setThread t (.inside vm .restoreCurrent todo)
  | .restoreCurrent =>
    if success then (s.setStatus vm .ready).leave t vm todo
    -- after two seconds of sleep
    else s.setThread t (.inside vm .powerOff todo)
  | .startVm => s.setThread t (.inside vm .setVmName todo)
  | .setVmName =>
    if success then s.setThread t (.inside vm .linkOff todo) else s.fail t vm .cannotSetVmName
  | .linkOff =>
    if success then s.setThread t (.inside vm .linkOn todo) else s.fail t vm .cannotShutdownNetwork
  | .linkOn =>
    if success then (s.setStatus vm .running).leave t vm todo else s.fail t vm .cannotStartNetwork

/-- `none` when the step is not possible in this state. -/
def step (baseName : Text) (main : T) (s : VMPool T) : PoolLabel T → Option (VMPool T)
  | .revertVm t name =>
    match s.threads t with
    | .idle => some (s.setThread t (.searching (some name) s.vms.getEnumerator))
    | _ => none
  | .startVm t =>
    match s.threads t with
    | .idle => if t = main then some (s.setThread t (.searching none s.vms.getEnumerator)) else none
    | _ => none
  | .look t =>
    match s.threads t with
    | .searching name e => some (s.look t name e)
    | _ => none
  | .enter t =>
    match s.threads t with
    | .calling _ [] => some (s.setThread t .idle)
    | .calling vm (.add :: todo) =>
      some ({ s with vms := s.vms.modify (s.vms.content ++ [vmName baseName vm]) }.setThread t
        (.calling vm todo))
    | .calling vm (c :: todo) => if s.owner vm = none then some (s.begin t vm todo c) else none
    | _ => none
  | .run t success =>
    match s.threads t with
    | .inside vm stage todo =>
      if stage = .folderExists then some (s.next t vm (vmName baseName vm) todo success stage)
      else (s.command (vmName baseName vm) stage success).map fun s =>
        s.next t vm (vmName baseName vm) todo success stage
    | _ => none
  | .crash t =>
    match s.threads t with
    | .inside vm _ _ => some (s.fail t vm .processStart)
    | _ => none
  | .shutdown name =>
    match s.machines name with
    | some m => if m.on then some (s.setMachine name { m with on := false }) else none
    | none => none

end VMPool

end GuestAgent.Source.Host
