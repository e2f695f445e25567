import Mathlib.Data.List.DropRight
import GuestAgent.Source.Hooks

/-!
The new path a rename event carries.

`FILE_RENAME_INFORMATION` names the target absolutely, below a directory handle, or by a bare file
name in the directory the file is in. The hook puts the directory in front of the name only for a
handle, and then without the separator, so only an absolute name arrives whole.
-/
namespace GuestAgent.Guarantees.RenameTarget
open Source

/-- The path of the directory a file is in: everything before the last separator. -/
def directoryOf (path : WString) : WString := (path.rdropWhile (· ≠ backslash)).dropLast

/-- The full path of the renamed file, which had the path `oldPath`. A name without a directory
handle and without a separator stays in the directory of the file. -/
def fullTarget (p : Process) (oldPath : WString) (info : RenameInformation) : WString :=
  match info.rootDirectory with
  | some directory => p.handleFileName directory ++ backslash :: info.fileName
  | none =>
    if backslash ∈ info.fileName then info.fileName
    else directoryOf oldPath ++ backslash :: info.fileName

/-- The path under which an event announces a file that has come into being. -/
def newPath : Event → Option WString
  | .fileAccess fullPath .created => some fullPath
  | .fileRename _ newPath => some newPath
  | _ => none

/-- The hook announces the renamed file once, under its full path. -/
def TargetNotified (p : Process) (handle : Handle) (info : RenameInformation) (status : NtStatus)
    (handles : HandleMap) (oldPath : WString) : Prop :=
  let run := myNtSetInformationFile p handle fileRenameInformation info status handles
  (run.before ++ run.after).filterMap newPath = [fullTarget p oldPath info]

/-- What the hook announces, whether or not it knows the old path. -/
theorem notified_eq (p : Process) (handle : Handle) (info : RenameInformation) (status : NtStatus)
    (handles : HandleMap) :
    ((myNtSetInformationFile p handle fileRenameInformation info status handles).before ++
      (myNtSetInformationFile p handle fileRenameInformation info status handles).after).filterMap
        newPath = if status = 0 then [renamedPath p info] else [] := by
  unfold myNtSetInformationFile
  by_cases success : status = 0
  · simp only [success, and_self, if_true, List.nil_append]
    cases handles.lookup handle <;> rfl
  · simp [success]

theorem takeWhile_length_le (name : WString) :
    (name.takeWhile (· ≠ 0)).length ≤ name.length := (List.takeWhile_prefix _).length_le

/-- Only an absolute name arrives as the full path; one with a NUL is cut off there. -/
theorem renamedPath_full_iff (p : Process) (oldPath : WString) (info : RenameInformation) :
    renamedPath p info = fullTarget p oldPath info ↔
      info.rootDirectory = none ∧ backslash ∈ info.fileName ∧ 0 ∉ info.fileName := by
  have short := takeWhile_length_le info.fileName
  unfold renamedPath fullTarget
  cases info.rootDirectory with
  | some directory =>
    refine iff_of_false (fun same => ?_) (by simp)
    have length := congrArg List.length same
    simp only [List.length_append, List.length_cons] at length
    omega
  | none =>
    simp only [List.nil_append, true_and]
    by_cases absolute : backslash ∈ info.fileName
    · rw [if_pos absolute, and_iff_right absolute, List.takeWhile_eq_self_iff]
      simp only [ne_eq, decide_not, Bool.not_eq_true', decide_eq_false_iff_not]
      exact ⟨fun all zero => all 0 zero rfl, fun fresh c member zero => fresh (zero ▸ member)⟩
    · rw [if_neg absolute]
      refine iff_of_false (fun same => ?_) (by simp [absolute])
      have length := congrArg List.length same
      simp only [List.length_append, List.length_cons] at length
      omega

/-- The new path is complete exactly if the call answers 0 and gives an absolute name without a
NUL and without a directory handle. -/
theorem target_notified_iff (p : Process) (handle : Handle) (info : RenameInformation)
    (status : NtStatus) (handles : HandleMap) (oldPath : WString) :
    TargetNotified p handle info status handles oldPath ↔ status = 0 ∧
      info.rootDirectory = none ∧ backslash ∈ info.fileName ∧ 0 ∉ info.fileName := by
  rw [TargetNotified, notified_eq, ← renamedPath_full_iff p oldPath]
  split
  next zero => rw [List.singleton_inj, and_iff_right zero]
  next other => simp [other]

/-- A process with the directory `C:\d` open. -/
def inDirectory : Process := ⟨fun _ => wide "C:\\d", fun _ => wide "C:\\d", fun _ => 0⟩

/-- Renamed to the bare name `b`, a file in `C:\d` is announced as `b`. -/
example : renamedPath inDirectory ⟨none, wide "b"⟩ = wide "b" ∧
    fullTarget inDirectory (wide "C:\\d\\a") ⟨none, wide "b"⟩ = wide "C:\\d\\b" := by decide

/-- Renamed to `b` below the handle of `C:\d`, a file is announced as `C:\db`. -/
theorem target_not_notified : ¬ ∀ (p : Process) (handle : Handle) (info : RenameInformation)
    (status : NtStatus) (handles : HandleMap) (oldPath : WString), ntSuccess status = true →
      TargetNotified p handle info status handles oldPath := by
  intro always_notified
  have below := always_notified inDirectory 4 ⟨some 8, wide "b"⟩ 0 ∅ (wide "C:\\a") (by decide)
  rw [TargetNotified, notified_eq] at below
  exact absurd below (by decide)

end GuestAgent.Guarantees.RenameTarget
