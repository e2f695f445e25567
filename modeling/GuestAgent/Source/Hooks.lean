import Mathlib.Data.List.AList
import GuestAgent.Library.Scan
import GuestAgent.Source.Events

/-!
The file hooks of the injected DLL: dllmain.cpp and HandleMap.cpp.

A hook is described by the events it sends before and after the real call and by
what it does to `handleMap`; the answer of the real call is an argument. The hooks
run only when the thread is not already inside one (`shouldIntercept`).
`Process` collects what the hooks read from the process they live in.
-/
namespace GuestAgent.Source
open Library

/-- Handle values are only ever compared. -/
abbrev Handle := Nat
abbrev AccessMask := UInt32
abbrev NtStatus := UInt32

/-- The units found in memory from an address on. -/
abbrev Memory := Nat → WChar

def Memory.units (mem : Memory) (n : Nat) : WString := (List.range n).map mem

/-- `UNICODE_STRING`: `length` counts bytes, `buffer` need not end in a NUL. -/
structure UnicodeString where
  length : UInt16
  buffer : Option Memory

/-- `wcsnlen_s(buffer, max)`: the units before the first NUL, at most `max`. -/
def wcsnlenS (buffer : Option Memory) (max : Nat) : Nat :=
  match buffer with
  | none => 0
  | some mem => ((mem.units max).takeWhile (· ≠ 0)).length

/-- `from_unicode_to_wstring`; the byte count serves as the number of units to scan. -/
def fromUnicodeToWstring (u : UnicodeString) : WString :=
  match u.buffer with
  | none => []
  | some mem => mem.units (wcsnlenS u.buffer u.length.toNat)

/-- The units `from_unicode_to_wstring` reads: `wcsnlen_s` scans up to a NUL, and what it has
counted is copied. -/
def unitsRead (u : UnicodeString) : List Nat :=
  match u.buffer with
  | none => []
  | some mem =>
    Scan.looked (fun i => mem i == 0) 0 u.length.toNat ++
      List.range (wcsnlenS u.buffer u.length.toNat)

/-- The name the structure stands for. -/
def UnicodeString.counted (u : UnicodeString) : WString :=
  match u.buffer with
  | none => []
  | some mem => mem.units (u.length.toNat / 2)

/-- `RtlInitUnicodeString`: the counted name is followed by a NUL. -/
def UnicodeString.ofText (text : WString) : UnicodeString :=
  ⟨(2 * text.length).toUInt16, some (fun i => text.getD i 0)⟩

structure ObjectAttributes where
  rootDirectory : Option Handle
  objectName : UnicodeString

structure Process where
  fileNameFromHandle : Handle → WString
  handleFileName : Handle → WString
  /-- The words behind the table of write rights. -/
  behindWriteFlags : Nat → UInt32

/-- `GetFullPathByObjectAttributes`. -/
def getFullPathByObjectAttributes (p : Process) (oa : ObjectAttributes) : WString :=
  let w := match oa.rootDirectory with
    | some directory => p.fileNameFromHandle directory
    | none => []
  w ++ fromUnicodeToWstring oa.objectName

/-- `WRITE_FLAGS`. -/
def writeFlags : List UInt32 :=
  [0x2, 0x4, 0x2, 0x4, 0x10, 0x40, 0x100, 0x1F01FF, 0x120116]

/-- `table[i]`, which behind the end of the table is whatever lies there. -/
def tableAt (table : List UInt32) (behind : Nat → UInt32) (i : Nat) : UInt32 :=
  if h : i < table.length then table[i] else behind (i - table.length)

/-- `IsRequestingWriteAccess`: the loop runs to `sizeof(WRITE_FLAGS)`, which is in bytes. -/
def isRequestingWriteAccess (p : Process) (mask : AccessMask) : Bool :=
  (List.range (4 * writeFlags.length)).any fun i =>
    mask &&& tableAt writeFlags p.behindWriteFlags i == tableAt writeFlags p.behindWriteFlags i

/-- The indices a loop over a table of rights reads; it leaves at the first right the mask has. -/
def flagsRead (table : List UInt32) (behind : Nat → UInt32) (mask : AccessMask) : List Nat :=
  Scan.looked (fun i => mask &&& tableAt table behind i == tableAt table behind i) 0
    (4 * table.length)

/-- `std::map<HANDLE, std::wstring>`. -/
abbrev HandleMap := AList (fun _ : Handle => WString)

structure HookRun where
  before : List Event
  after : List Event
  handles : HandleMap

/-- `NT_SUCCESS`: the status is not negative. -/
def ntSuccess (status : NtStatus) : Bool := decide (status.toNat < 2 ^ 31)

/-- What the real create or open call answers. -/
structure OpenAnswer where
  status : NtStatus
  handle : Handle

/-- What a create or open hook sends: nothing unless the caller wants to write. -/
def openEvents (mode : FileMode) (p : Process) (mask : AccessMask) (oa : ObjectAttributes) :
    List Event :=
  if isRequestingWriteAccess p mask then [.fileAccess (getFullPathByObjectAttributes p oa) mode]
  else []

def deleteEvents (p : Process) (oa : ObjectAttributes) : List Event :=
  [.fileAccess (getFullPathByObjectAttributes p oa) .deleted]

/-- `MyNtCreateFile` and `MyNtOpenFile` differ in the mode they report. -/
def openHook (mode : FileMode) (p : Process) (mask : AccessMask) (oa : ObjectAttributes)
    (answer : OpenAnswer) (handles : HandleMap) : HookRun :=
  { before := openEvents mode p mask oa
    after := []
    handles :=
      if answer.status = 0 then handles.insert answer.handle (getFullPathByObjectAttributes p oa)
      else handles }

def myNtCreateFile := openHook .created
def myNtOpenFile := openHook .opened

/-- The event follows the real call, whatever that answers. -/
def myNtDeleteFile (p : Process) (oa : ObjectAttributes) (handles : HandleMap) : HookRun :=
  { before := [], after := deleteEvents p oa, handles := handles }

/-- `FILE_RENAME_INFORMATION`, with the whole units of its counted name. -/
structure RenameInformation where
  rootDirectory : Option Handle
  fileName : WString

/-- `FileRenameInformation`. -/
def fileRenameInformation : UInt32 := 0xA

/-- The name the hook reports; a NUL ends the copied name. -/
def renamedPath (p : Process) (info : RenameInformation) : WString :=
  let newPath := match info.rootDirectory with
    | some directory => p.handleFileName directory
    | none => []
  newPath ++ info.fileName.takeWhile (· ≠ 0)

def myNtSetInformationFile (p : Process) (handle : Handle) (informationClass : UInt32)
    (info : RenameInformation) (status : NtStatus) (handles : HandleMap) : HookRun :=
  let oldPath := handles.lookup handle
  { before := []
    after :=
      if status = 0 ∧ informationClass = fileRenameInformation then
        match oldPath with
        | none => [.fileAccess (renamedPath p info) .created]
        | some oldPath => [.fileRename oldPath (renamedPath p info)]
      else []
    handles := handles }

/-- The path looked up in `MyNtClose` is not used. -/
def myNtClose (handles : HandleMap) : HookRun := ⟨[], [], handles⟩

@[simp] theorem Memory.units_length (mem : Memory) (n : Nat) : (mem.units n).length = n := by
  simp [Memory.units]

theorem Memory.units_take (mem : Memory) {k n : Nat} (h : k ≤ n) :
    (mem.units n).take k = mem.units k := by
  rw [Memory.units, Memory.units, ← List.map_take, List.take_range, Nat.min_eq_left h]

/-- The string read is everything before the first NUL among `Length` units. -/
theorem fromUnicodeToWstring_eq (length : UInt16) (mem : Memory) :
    fromUnicodeToWstring ⟨length, some mem⟩ = (mem.units length.toNat).takeWhile (· ≠ 0) := by
  have bound := (List.takeWhile_prefix (p := fun c : WChar => c ≠ 0)
    (l := mem.units length.toNat)).length_le
  rw [Memory.units_length] at bound
  simp only [fromUnicodeToWstring, wcsnlenS]
  rw [← mem.units_take bound]
  exact (List.prefix_iff_eq_take.mp (List.takeWhile_prefix _)).symm

/-- What is read behind the counted name: the units up to the next NUL, within `Length` units. -/
def UnicodeString.behind (u : UnicodeString) : WString :=
  match u.buffer with
  | none => []
  | some mem => ((mem.units u.length.toNat).drop (u.length.toNat / 2)).takeWhile (· ≠ 0)

/-- The scan goes through the counted name and then through as many units behind it. -/
theorem fromUnicodeToWstring_split (length : UInt16) (mem : Memory) :
    fromUnicodeToWstring ⟨length, some mem⟩ =
      (UnicodeString.counted ⟨length, some mem⟩ ++
        (mem.units length.toNat).drop (length.toNat / 2)).takeWhile (· ≠ 0) := by
  have name : (mem.units length.toNat).take (length.toNat / 2) = mem.units (length.toNat / 2) :=
    mem.units_take (Nat.div_le_self _ _)
  have whole := List.take_append_drop (length.toNat / 2) (mem.units length.toNat)
  simp only [UnicodeString.counted]
  rw [fromUnicodeToWstring_eq, ← name, whole]

/-- A counted name without a NUL is read together with what lies behind it. -/
theorem fromUnicodeToWstring_counted {u : UnicodeString} (plain : (0 : WChar) ∉ u.counted) :
    fromUnicodeToWstring u = u.counted ++ u.behind := by
  obtain ⟨length, buffer⟩ := u
  cases buffer with
  | none => rfl
  | some mem =>
    rw [fromUnicodeToWstring_split, List.takeWhile_append_of_pos]
    · rfl
    · intro c member
      simpa using fun zero : c = 0 => plain (zero ▸ member)

end GuestAgent.Source
