import GuestAgent.Source.HandleNames

/-!
Which name a handle gets.

A file on a drive gets its path under the letter of the drive, cut at 259 units; a file on none keeps
the name its device has it under. Where no two drives have the same device, or one the name of a
folder of the other, in either case of the letters, the drive is the one the file is on. Names that
are not cut off are different for different files, whatever the devices of the drives are.
-/
namespace GuestAgent.Guarantees.HandleNames
open Library Source

/-- A device name with its boundary, without regard to case. -/
def boundary (device : WString) : WString := device.map towlower ++ [backslash]

/-- The drives of a system, each with its letter and the name of its device. -/
structure Drives where
  table : List (WChar × WString)
  some_ : table ≠ []
  few : 4 * table.length < bufSize
  letters : ∀ d ∈ table, d.1 ≠ 0 ∧ d.1 ≠ backslash
  short : ∀ d ∈ table, d.2.length < maxPath

/-- No two drives have the same device, or one the name of a folder of the other. -/
def Drives.Separate (D : Drives) : Prop :=
  ∀ d ∈ D.table, ∀ e ∈ D.table, boundary d.2 <+: boundary e.2 → d = e

/-- `X:\` -/
def root (d : WChar × WString) : WString := d.1 :: wide ":\\"

/-- What the calls answer about the drives. -/
structure Drives.ShownBy (D : Drives) (v : HandleView) : Prop where
  strings : ∃ junk, v.driveStrings = some (MultiString.encode 0 (D.table.map root) ++ junk)
  devices : ∀ d ∈ D.table, v.queryDosDevice (d.1 :: wide ":") = some d.2

/-- The file of the handle can be mapped, and has this name on its device. -/
structure Names (v : HandleView) (name : WString) : Prop where
  size : ¬ (v.fileSizeLow = 0 ∧ v.fileSizeHigh = 0)
  mapped : v.mapped = true
  viewed : v.viewed = true
  name : v.mappedFileName = some name

/-- The name is that of a file on the drive, with this path from the root on. -/
def Under (d : WChar × WString) (name path : WString) : Prop :=
  ∃ device, name = device ++ path ∧ device.map towlower = d.2.map towlower ∧
    path.head? = some backslash

/-- `X:` and the path. -/
def dosPath (d : WChar × WString) (path : WString) : WString := d.1 :: wide ":" ++ path

/-! ### One drive -/

theorem under_iff {d : WChar × WString} {name path : WString} : Under d name path ↔
    tcsnicmpEqual name d.2 = true ∧ name[d.2.length]? = some backslash ∧
      path = name.drop d.2.length := by
  rw [tcsnicmpEqual, beq_iff_eq]
  constructor
  · rintro ⟨device, rfl, same, first⟩
    have length : device.length = d.2.length := by
      have lengths := congrArg List.length same
      rwa [List.length_map, List.length_map] at lengths
    rw [← length, List.take_left, List.drop_left, List.getElem?_append_right (Nat.le_refl _),
      Nat.sub_self, ← List.head?_eq_getElem?]
    exact ⟨same, first, rfl⟩
  · rintro ⟨same, first, rfl⟩
    refine ⟨name.take d.2.length, (List.take_append_drop _ _).symm, same, ?_⟩
    rw [List.head?_drop, first]

/-- What a drive makes of the name. -/
def onDrive (name : WString) (d : WChar × WString) : Option WString :=
  if tcsnicmpEqual name d.2 ∧ name[d.2.length]? = some backslash then
    some ((dosPath d (name.drop d.2.length)).take 259)
  else none

theorem onDrive_eq_some_iff {name result : WString} {d : WChar × WString} :
    onDrive name d = some result ↔
      ∃ path, Under d name path ∧ result = (dosPath d path).take 259 := by
  unfold onDrive
  constructor
  · intro found
    split at found
    · next holds =>
      cases found
      exact ⟨_, under_iff.mpr ⟨holds.1, holds.2, rfl⟩, rfl⟩
    · cases found
  · rintro ⟨path, under, rfl⟩
    obtain ⟨same, first, rfl⟩ := under_iff.mp under
    rw [if_pos ⟨same, first⟩]

theorem replaceDevice_root {D : Drives} {v : HandleView} (shown : D.ShownBy v) (name : WString)
    {d : WChar × WString} (member : d ∈ D.table) (rest : WString) :
    replaceDevice v name (root d ++ rest) = onDrive name d := by
  have letter := (D.letters d member).1
  have text : driveText (root d ++ rest) = d.1 :: wide ":" := by
    have head : (root d ++ rest).head?.getD 0 = d.1 := rfl
    rw [driveText, head]
    split
    · next zero => exact absurd zero letter
    · rfl
  have short := D.short d member
  simp only [replaceDevice, text, shown.devices d member, onDrive, short, true_and]
  rfl

theorem boundary_initial {d : WChar × WString} {name path : WString} (under : Under d name path) :
    boundary d.2 <+: name.map towlower := by
  obtain ⟨device, rfl, same, first⟩ := under
  obtain ⟨rest, rfl⟩ := List.head?_eq_some_iff.mp first
  refine ⟨rest.map towlower, ?_⟩
  rw [boundary, List.map_append, same, List.append_assoc]
  rfl

/-- A file is on one drive only. -/
theorem under_unique {D : Drives} (separate : D.Separate) {d e : WChar × WString}
    (first : d ∈ D.table) (second : e ∈ D.table) {name path path' : WString} (one : Under d name path)
    (two : Under e name path') : d = e ∧ path = path' := by
  have same : d = e := by
    rcases List.prefix_or_prefix_of_prefix (boundary_initial one) (boundary_initial two) with
      left | right
    · exact separate d first e second left
    · exact (separate e second d first right).symm
  subst same
  obtain ⟨-, -, rfl⟩ := under_iff.mp one
  obtain ⟨-, -, rfl⟩ := under_iff.mp two
  exact ⟨rfl, rfl⟩

/-! ### The loop over the drives -/

theorem getFileNameFromHandle_eq (D : Drives) {v : HandleView} (shown : D.ShownBy v)
    {name : WString} (names : Names v name) (w : WString) :
    getFileNameFromHandle v w = (true, (D.table.findSome? (onDrive name)).getD name) := by
  obtain ⟨junk, strings⟩ := shown.strings
  have each : ∀ d ∈ D.table, root d ≠ [] ∧ (0 : WChar) ∉ root d := by
    intro d member
    have letter := (D.letters d member).1
    refine ⟨List.cons_ne_nil _ _, fun zero => ?_⟩
    rcases List.mem_cons.mp zero with same | tail
    · exact letter same.symm
    · exact absurd tail (by decide)
  have looks : ∀ d ∈ D.table, ∀ rest,
      replaceDevice v name (root d ++ 0 :: rest) = onDrive name d :=
    fun d member rest => replaceDevice_root shown name member (0 :: rest)
  have few := D.few
  have loop : MultiString.scan 0 (replaceDevice v name) bufSize
      (MultiString.encode 0 (D.table.map root) ++ junk) = D.table.findSome? (onDrive name) := by
    cases table : D.table with
    | nil => exact absurd table D.some_
    | cons d rest =>
      rw [table] at each looks few
      apply MultiString.scan_encode each looks
      rw [List.length_cons] at few
      omega
  simp only [getFileNameFromHandle, names.size, if_false, names.mapped, names.viewed, names.name,
    strings, loop]
  rfl

/-- The name of a handle, by the drives the file is on. -/
theorem name_cases (D : Drives) {v : HandleView} (shown : D.ShownBy v) {name : WString}
    (names : Names v name) (w : WString) :
    (∃ d ∈ D.table, ∃ path, Under d name path ∧
      getFileNameFromHandle v w = (true, (dosPath d path).take 259)) ∨
    (∀ d ∈ D.table, ∀ path, ¬ Under d name path) ∧ getFileNameFromHandle v w = (true, name) := by
  rw [getFileNameFromHandle_eq D shown names w]
  cases found : D.table.findSome? (onDrive name) with
  | some result =>
    left
    obtain ⟨d, member, hit⟩ := List.exists_of_findSome?_eq_some found
    obtain ⟨path, under, rfl⟩ := onDrive_eq_some_iff.mp hit
    exact ⟨d, member, path, under, rfl⟩
  | none =>
    right
    refine ⟨fun d member path under => ?_, rfl⟩
    have missed := List.findSome?_eq_none_iff.mp found d member
    have hit := onDrive_eq_some_iff.mpr ⟨path, under, rfl⟩
    rw [missed] at hit
    cases hit

/-- The name of a file that can be mapped: its path under the letter of its drive, cut at 259 units,
or the name on its device if it is on no drive. -/
theorem names_of_handles (D : Drives) (separate : D.Separate) {v : HandleView}
    (shown : D.ShownBy v) {name : WString} (names : Names v name) (w : WString) :
    (∀ d ∈ D.table, ∀ path, Under d name path →
      getFileNameFromHandle v w = (true, (dosPath d path).take 259)) ∧
    ((∀ d ∈ D.table, ∀ path, ¬ Under d name path) → getFileNameFromHandle v w = (true, name)) := by
  rcases name_cases D shown names w with ⟨e, inside, path', under', result⟩ | ⟨nowhere, result⟩
  · constructor
    · intro d member path under
      obtain ⟨rfl, rfl⟩ := under_unique separate member inside under under'
      exact result
    · intro nowhere
      exact absurd under' (nowhere e inside path')
  · exact ⟨fun d member path under => absurd under (nowhere d member path), fun _ => result⟩

/-- The first disk and a drive with removable disks. -/
def twoDrives : Drives where
  table := [(67, wide "\\Device\\HarddiskVolume2"), (68, wide "\\Device\\CdRom0")]
  some_ := by decide
  few := by decide
  letters := by decide
  short := by decide

theorem twoDrives_separate : twoDrives.Separate := by
  unfold Drives.Separate
  decide

def twoDevices (szDrive : WString) : Option WString :=
  (twoDrives.table.find? fun d => szDrive == d.1 :: wide ":").map (·.2)

/-- A file on the disk, with the name its device has it under. -/
def diskHandle (filename : WString) : HandleView where
  fileSizeLow := 1
  fileSizeHigh := 0
  mapped := true
  viewed := true
  mappedFileName := some filename
  driveStrings := some (MultiString.encode 0 (twoDrives.table.map root))
  queryDosDevice := twoDevices
  uninitialised := []

theorem diskHandle_shown (filename : WString) : twoDrives.ShownBy (diskHandle filename) := by
  have devices : ∀ d ∈ twoDrives.table, twoDevices (d.1 :: wide ":") = some d.2 := by decide
  exact ⟨⟨[], by rw [List.append_nil]; rfl⟩, devices⟩

theorem diskHandle_names (filename : WString) : Names (diskHandle filename) filename :=
  ⟨fun empty => absurd empty.1 (by decide : (1 : UInt32) ≠ 0), rfl, rfl, rfl⟩

def setup : WString := wide "\\Device\\HarddiskVolume2\\setup.exe"

/-- The same file as a device names it that does not keep the case of its own name. -/
def setupLower : WString := wide "\\device\\harddiskvolume2\\setup.exe"

theorem names_of_handles_setup : getFileNameFromHandle (diskHandle setupLower) [] =
    (true, wide "C:\\setup.exe") := by
  have named := names_of_handles twoDrives twoDrives_separate (diskHandle_shown setupLower)
    (diskHandle_names setupLower) []
  exact named.1 (67, wide "\\Device\\HarddiskVolume2") (by decide) (wide "\\setup.exe")
    ⟨wide "\\device\\harddiskvolume2", rfl, by decide, rfl⟩

theorem uncut {text : WString} (short : (text.take 259).length < 259) : text.take 259 = text := by
  rw [List.length_take] at short
  exact List.take_of_length_le (by omega)

/-- A path under the letter of a drive is not a name that begins with a backslash. -/
theorem dosPath_ne {D : Drives} {d : WChar × WString} (member : d ∈ D.table) {path name : WString}
    (first : name.head? = some backslash) : dosPath d path ≠ name := by
  rintro rfl
  exact (D.letters d member).2 (Option.some.inj first)

theorem lower_of_under {d : WChar × WString} {name path : WString} (under : Under d name path) :
    name.map towlower = d.2.map towlower ++ path.map towlower := by
  obtain ⟨device, rfl, same, -⟩ := under
  rw [List.map_append, same]

/-- Handles with one name that is not cut are of one file, as far as case does not matter. -/
theorem names_identify_files (D : Drives) {v v' : HandleView} (shown : D.ShownBy v)
    (shown' : D.ShownBy v') {name name' : WString} (names : Names v name) (names' : Names v' name')
    (first : name.head? = some backslash) (first' : name'.head? = some backslash) {w w' : WString}
    (same : (getFileNameFromHandle v w).2 = (getFileNameFromHandle v' w').2)
    (short : (getFileNameFromHandle v w).2.length < 259) :
    name.map towlower = name'.map towlower := by
  have one := name_cases D shown names w
  have two := name_cases D shown' names' w'
  generalize getFileNameFromHandle v w = r at same short one
  generalize getFileNameFromHandle v' w' = r' at same two
  have short' : r'.2.length < 259 := by rwa [← same]
  rcases one with ⟨d, member, path, under, rfl⟩ | ⟨-, rfl⟩
  · replace same : dosPath d path = r'.2 := (uncut short).symm.trans same
    rcases two with ⟨e, member', path', under', rfl⟩ | ⟨-, rfl⟩
    · replace same : dosPath d path = dosPath e path' := same.trans (uncut short')
      obtain ⟨letter, tail⟩ := List.cons.inj same
      have paths : path = path' := List.append_cancel_left tail
      have device := shown.devices d member
      rw [letter, shown.devices e member'] at device
      rw [lower_of_under under, lower_of_under under', Option.some.inj device, paths]
    · exact absurd same (dosPath_ne member first')
  · rcases two with ⟨e, member', path', under', rfl⟩ | ⟨-, rfl⟩
    · exact absurd (same.trans (uncut short')).symm (dosPath_ne member' first)
    · exact congrArg (List.map towlower) same

theorem names_identify_files_setup : setup.map towlower = setupLower.map towlower := by
  have short : (getFileNameFromHandle (diskHandle setup) []).2.length < 259 := by decide
  have same : (getFileNameFromHandle (diskHandle setup) []).2 =
      (getFileNameFromHandle (diskHandle setupLower) []).2 := by decide
  exact names_identify_files twoDrives (diskHandle_shown setup) (diskHandle_shown setupLower)
    (diskHandle_names setup) (diskHandle_names setupLower) rfl rfl same short

end GuestAgent.Guarantees.HandleNames
