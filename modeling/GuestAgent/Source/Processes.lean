import Mathlib.Data.List.AList
import Mathlib.Data.List.Nodup
import GuestAgent.Library.Outcome
import GuestAgent.Source.Runtime

/-!
The monitored processes: ProgramStatus.cs, `AddPid` and `RemovePid`, and
ProcessHierarchy.cs, `AddProcess`.

`ProcessTable` is what `Process.GetProcessById` and the properties of its result
answer during one call. `AddPid` first kills browsers and editors an installer
opens; that acts on the process table, not on this state, and every exception of
it is swallowed. The observers are shown both lists last and may throw.
-/
namespace GuestAgent.Source
open Library

abbrev Pid := UInt32

structure ModuleInfo where
  name : WString
  path : WString
  sha1 : Option String
  md5 : Option String
  deriving DecidableEq, Repr

structure ProcessInfo where
  mainModule : Option ModuleInfo
  modules : List ModuleInfo
  mainWindowTitle : Option WString
  deriving DecidableEq, Repr

structure ProcessTable where
  sessionId : Pid → Except Exn Nat
  /-- `ProcessInfo.FromPid`; throws when no such process is running. -/
  fromPid : Pid → Except Exn ProcessInfo

/-- A `List<uint>` that is only added to after a `Contains` test. -/
@[ext]
structure PidList where
  pids : List Pid
  nodup : pids.Nodup

namespace PidList

def empty : PidList := ⟨[], List.nodup_nil⟩

/-- `if (!l.Contains(pid)) l.Add(pid)`. -/
def add (l : PidList) (pid : Pid) : PidList :=
  if h : pid ∈ l.pids then l
  else ⟨l.pids ++ [pid], List.nodup_append.mpr
    ⟨l.nodup, List.nodup_singleton pid, by rintro a ha b hb rfl; simp_all⟩⟩

/-- `if (l.Contains(pid)) l.Remove(pid)`. -/
def remove (l : PidList) (pid : Pid) : PidList := ⟨l.pids.erase pid, l.nodup.erase pid⟩

theorem mem_add (l : PidList) (pid q : Pid) : q ∈ (l.add pid).pids ↔ q ∈ l.pids ∨ q = pid := by
  unfold add
  split
  next known => exact ⟨.inl, fun h => h.elim id fun same => same ▸ known⟩
  · simp

theorem mem_remove (l : PidList) (pid q : Pid) :
    q ∈ (l.remove pid).pids ↔ q ≠ pid ∧ q ∈ l.pids := l.nodup.mem_erase_iff

@[simp] theorem add_add (l : PidList) (pid : Pid) : (l.add pid).add pid = l.add pid := by
  rw [add, dif_pos ((mem_add l pid pid).mpr (.inr rfl))]

@[simp] theorem remove_remove (l : PidList) (pid : Pid) :
    (l.remove pid).remove pid = l.remove pid := by
  apply PidList.ext
  have gone : pid ∉ (l.remove pid).pids := fun h => ((mem_remove l pid pid).mp h).1 rfl
  exact List.erase_of_not_mem gone

end PidList

/-- `_processes` maps a child to its parent. -/
structure ProcessHierarchy where
  processes : AList (fun _ : Pid => Pid)
  pinfo : AList (fun _ : Pid => ProcessInfo)

namespace ProcessHierarchy

/-- Both `Add` calls throw on a key already there, and the exception is ignored. -/
def addProcess (procs : ProcessTable) (parentPid pid : Pid) (h : ProcessHierarchy) :
    ProcessHierarchy :=
  if pid ∈ h.processes then h
  else
    let processes := h.processes.insert pid parentPid
    match procs.fromPid pid with
    | .error _ => { h with processes := processes }
    | .ok info =>
      if pid ∈ h.pinfo then { h with processes := processes }
      else ⟨processes, h.pinfo.insert pid info⟩

theorem mem_addProcess (procs : ProcessTable) (parentPid pid : Pid) (h : ProcessHierarchy) :
    pid ∈ (h.addProcess procs parentPid pid).processes := by
  unfold addProcess
  split
  · assumption
  · split
    · exact (AList.mem_insert _).mpr (.inl rfl)
    · split <;> exact (AList.mem_insert _).mpr (.inl rfl)

@[simp] theorem addProcess_again (procs : ProcessTable) (parentPid pid : Pid)
    (h : ProcessHierarchy) :
    (h.addProcess procs parentPid pid).addProcess procs parentPid pid =
      h.addProcess procs parentPid pid := by
  rw [addProcess, if_pos (mem_addProcess procs parentPid pid h)]

end ProcessHierarchy

/-- What `ProgramStatus` guards with `_pidsLock`. -/
structure PidStatus where
  monitoredPids : PidList
  servicePids : PidList
  hierarchy : ProcessHierarchy
  firstDone : Bool

namespace PidStatus

def empty : PidStatus := ⟨.empty, .empty, ⟨∅, ∅⟩, false⟩

/-- Everything in session 0 counts as a service; a process that cannot be inspected does not. -/
def isService (procs : ProcessTable) (pid : Pid) : Bool :=
  match procs.sessionId pid with
  | .ok 0 => true
  | _ => false

/-- `onNext` is the exception of an observer, if one throws. -/
def addPid (procs : ProcessTable) (onNext : Option Exn) (ppid pid : Pid) (s : PidStatus) :
    Outcome PidStatus Exn :=
  let isService := isService procs pid
  { state :=
      { servicePids := if isService then s.servicePids.add pid else s.servicePids
        monitoredPids := if isService then s.monitoredPids else s.monitoredPids.add pid
        hierarchy := s.hierarchy.addProcess procs ppid pid
        firstDone := true }
    thrown := onNext }

def removePid (onNext : Option Exn) (pid : Pid) (s : PidStatus) : Outcome PidStatus Exn :=
  { state := { s with
      monitoredPids := s.monitoredPids.remove pid
      servicePids := s.servicePids.remove pid }
    thrown := onNext }

theorem addPid_again (procs : ProcessTable) (onNext : Option Exn) (ppid pid : Pid) (s : PidStatus) :
    addPid procs onNext ppid pid (addPid procs onNext ppid pid s).state =
      addPid procs onNext ppid pid s := by
  cases service : isService procs pid <;> simp [addPid, service]

theorem removePid_again (onNext : Option Exn) (pid : Pid) (s : PidStatus) :
    removePid onNext pid (removePid onNext pid s).state = removePid onNext pid s := by
  simp [removePid]

end PidStatus

end GuestAgent.Source
