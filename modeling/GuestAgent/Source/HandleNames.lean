import GuestAgent.Library.MultiString
import GuestAgent.Source.Hooks

/-!
The name of a file from a handle: dllmain.cpp, `GetFileNameFromHandle`, and the use
`GetFullPathByObjectAttributes` makes of it.

The file is mapped, which gives the name the device has it under, and the device is looked up among
the drives. What the calls answer for one handle is a `HandleView`. A buffer holds the units up to its
first NUL, the one for the drives all of its units.
-/
namespace GuestAgent.Source
open Library

def maxPath : Nat := 260

/-- `BUFSIZE`. -/
def bufSize : Nat := 512

structure HandleView where
  /-- `GetFileSize`, both halves. -/
  fileSizeLow : UInt32
  fileSizeHigh : UInt32
  /-- `CreateFileMapping` and `MapViewOfFile` succeed; they do not for a directory. -/
  mapped : Bool
  viewed : Bool
  /-- `GetMappedFileName`, which has room for `maxPath` units. -/
  mappedFileName : Option WString
  /-- `GetLogicalDriveStrings`. -/
  driveStrings : Option WString
  /-- `QueryDosDevice`: the first of the strings it answers. -/
  queryDosDevice : WString → Option WString
  /-- What lies in the buffer for the name at first. -/
  uninitialised : WString

/-- A unit as `_tcsnicmp` compares it. -/
def towlower (c : WChar) : WChar := if 65 ≤ c.toNat ∧ c.toNat ≤ 90 then c + 32 else c

/-- `_tcsnicmp(string, name, _tcslen(name)) == 0` -/
def tcsnicmpEqual (string name : WString) : Bool :=
  (string.take name.length).map towlower == name.map towlower

/-- `szDrive`, with the letter at `p`. -/
def driveText (p : WString) : WString :=
  match p.head?.getD 0 with
  | 0 => []
  | letter => letter :: wide ":"

/-- One turn of the loop: the name with the drive instead of the device, if it is on the drive. -/
def replaceDevice (v : HandleView) (filename p : WString) : Option WString :=
  match v.queryDosDevice (driveText p) with
  | none => none
  | some szName =>
    if szName.length < maxPath ∧ tcsnicmpEqual filename szName ∧
        filename[szName.length]? = some backslash then
      some ((driveText p ++ filename.drop szName.length).take (maxPath - 1))
    else none

/-- `GetFileNameFromHandle`: what it returns, and the string it has written to, which was `w`. -/
def getFileNameFromHandle (v : HandleView) (w : WString) : Bool × WString :=
  if v.fileSizeLow = 0 ∧ v.fileSizeHigh = 0 then (false, w)
  else if !v.mapped || !v.viewed then (false, v.uninitialised)
  else match v.mappedFileName with
    | none => (true, v.uninitialised)
    | some filename => match v.driveStrings with
      | none => (true, filename)
      | some szTemp =>
        (true, (MultiString.scan 0 (replaceDevice v filename) bufSize szTemp).getD filename)

end GuestAgent.Source
