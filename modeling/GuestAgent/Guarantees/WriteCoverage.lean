import GuestAgent.Source.EventServer
import GuestAgent.Source.Hooks

/-!
From a write access in a monitored process to the guest's `_fileMap`.

A file opened through a directory handle is reported without the separator and
without the `\??\` the guest insists on, so it is never recorded. A file opened by
its full name is recorded, unless the name in memory is not closed by a NUL: then
the hook reads on behind it.
-/
namespace GuestAgent.Guarantees.WriteCoverage
open Source Source.FileTable

/-- A path that starts with a drive letter. -/
def DrivePath (path : WString) : Prop :=
  ∃ letter rest, letter ≠ backslash ∧ path = letter :: 58 :: rest

/-- The call names the file with the Win32 path `path`, either absolutely or below a
directory handle; `path` is one a file can have. -/
structure Opens (p : Process) (oa : ObjectAttributes) (path : WString) : Prop where
  name : match oa.rootDirectory with
    | none => oa.objectName.counted = ntPrefix ++ path
    | some directory => DrivePath (p.fileNameFromHandle directory) ∧
        path = p.fileNameFromHandle directory ++ backslash :: oa.objectName.counted
  drive : DrivePath path
  plain : asterisk ∉ path ∧ (0 : WChar) ∉ path

/-- The guest records the path when it handles the events of this call. -/
def Reported (p : Process) (m : Machine) (mask : AccessMask) (oa : ObjectAttributes)
    (path : WString) : Prop :=
  isRequestingWriteAccess p mask = true ∧ oa.rootDirectory = none ∧
    Names m.fileSystem (path ++ oa.objectName.behind) path

theorem not_prefixed_of_drivePath {path rest : WString} (drive : DrivePath path) :
    ¬ ntPrefix <+: path ++ rest := by
  obtain ⟨letter, tail, other, rfl⟩ := drive
  intro prefixed
  have first : ntPrefix = backslash :: ntPrefix.tail := rfl
  rw [first, List.cons_append, List.cons_prefix_cons] at prefixed
  exact other prefixed.1.symm

/-- What the hook reports for an absolute name. -/
theorem fullPath_absolute {p : Process} {oa : ObjectAttributes} {path : WString}
    (absolute : oa.rootDirectory = none) (name : oa.objectName.counted = ntPrefix ++ path)
    (plain : (0 : WChar) ∉ path) :
    getFullPathByObjectAttributes p oa = ntPrefix ++ (path ++ oa.objectName.behind) := by
  have noNul : (0 : WChar) ∉ oa.objectName.counted := by
    rw [name, List.mem_append, not_or]
    exact ⟨by decide, plain⟩
  simp only [getFullPathByObjectAttributes, absolute, List.nil_append,
    fromUnicodeToWstring_counted noNul, name, List.append_assoc]

theorem reported_iff {p : Process} {oa : ObjectAttributes} {path : WString}
    (opens : Opens p oa path) (m : Machine) :
    (ntPrefix <+: getFullPathByObjectAttributes p oa ∧
      Names m.fileSystem (purge (getFullPathByObjectAttributes p oa)) path) ↔
    (oa.rootDirectory = none ∧ Names m.fileSystem (path ++ oa.objectName.behind) path) := by
  have name := opens.name
  cases root : oa.rootDirectory with
  | none =>
    rw [root] at name
    rw [fullPath_absolute root name opens.plain.2, purge_ntPrefix]
    simp
  | some directory =>
    rw [root] at name
    have missed : ¬ ntPrefix <+: getFullPathByObjectAttributes p oa := by
      simp only [getFullPathByObjectAttributes, root]
      exact not_prefixed_of_drivePath name.1
    simp [missed]

/-- After the notification of an open or create call the file has an entry under its
Win32 path exactly if it had one before or the call is one the guest records. -/
theorem write_open_recorded_iff (mode : FileMode) (p : Process) (m : Machine) (s : GuestState)
    (mask : AccessMask) (oa : ObjectAttributes) (answer : OpenAnswer) (handles : HandleMap)
    (path : WString) (opens : Opens p oa path) :
    (∃ r, (s.deliver .default m (openHook mode p mask oa answer handles).before).files.ref? path =
        some r) ↔
      (∃ r, s.files.ref? path = some r) ∨ Reported p m mask oa path := by
  have named : path ≠ [] := by
    obtain ⟨letter, rest, _, rfl⟩ := opens.drive
    simp
  unfold Reported
  cases write : isRequestingWriteAccess p mask with
  | false => simp [openHook, openEvents, write, GuestState.deliver]
  | true =>
    simp only [openHook, openEvents, write, if_true, GuestState.deliver, List.foldl_cons,
      List.foldl_nil, processEvent_element, Event.handler, Settings.default, GuestState.call,
      Library.Outcome.within_state, notifyFileAccess_tracked_iff _ _ _ named, true_and]
    rw [reported_iff opens m]

/-- A process with one directory handle, that of `C:\d`. -/
def inDirectory : Process := ⟨fun _ => wide "C:\\d", fun _ => [], fun _ => 0xFFFFFFFF⟩

/-- `f` below the directory, by handle and by full name. -/
def relativeName : ObjectAttributes := ⟨some 8, .ofText (wide "f")⟩
def absoluteName : ObjectAttributes := ⟨none, .ofText (ntPrefix ++ wide "C:\\d\\f")⟩

theorem drivePath_file : DrivePath (wide "C:\\d\\f") := ⟨67, wide "\\d\\f", by decide, by decide⟩

theorem absolute_name_opens : Opens inDirectory absoluteName (wide "C:\\d\\f") where
  name := by
    show absoluteName.objectName.counted = _
    decide
  drive := drivePath_file
  plain := by decide

theorem absolute_write_recorded :
    ∃ r, (GuestState.empty.deliver .default Machine.bare
      (openHook .created inDirectory 0x2 absoluteName ⟨0, 4⟩ ∅).before).files.ref?
        (wide "C:\\d\\f") = some r :=
  (write_open_recorded_iff .created inDirectory Machine.bare .empty 0x2 absoluteName ⟨0, 4⟩ ∅ _
    absolute_name_opens).mpr (.inr ⟨by decide, rfl, by
      have behind : absoluteName.objectName.behind = [] := by decide
      rw [behind, List.append_nil]
      exact names_self absolute_name_opens.plain.1⟩)

theorem relative_name_opens : Opens inDirectory relativeName (wide "C:\\d\\f") where
  name := by
    show DrivePath (wide "C:\\d") ∧ wide "C:\\d\\f" = wide "C:\\d" ++ backslash ::
      relativeName.objectName.counted
    exact ⟨⟨67, wide "\\d", by decide, by decide⟩, by decide⟩
  drive := drivePath_file
  plain := by decide

/-- Creating `f` for writing below the handle of `C:\d` leaves no entry for `C:\d\f`. -/
theorem relative_write_not_recorded :
    ¬ ∀ (mode : FileMode) (p : Process) (m : Machine) (s : GuestState) (mask : AccessMask)
        (oa : ObjectAttributes) (answer : OpenAnswer) (handles : HandleMap) (path : WString),
      Opens p oa path → isRequestingWriteAccess p mask = true →
      ∃ r, (s.deliver .default m (openHook mode p mask oa answer handles).before).files.ref? path =
        some r := by
  intro always_recorded
  obtain ⟨r, held⟩ := always_recorded .created inDirectory Machine.bare .empty 0x2 relativeName
    ⟨0, 4⟩ ∅ _ relative_name_opens (by decide)
  have missing : (GuestState.empty.deliver .default Machine.bare
      (openHook .created inDirectory 0x2 relativeName ⟨0, 4⟩ ∅).before).files.ref?
        (wide "C:\\d\\f") = none := by decide
  rw [missing] at held
  cases held

end GuestAgent.Guarantees.WriteCoverage
