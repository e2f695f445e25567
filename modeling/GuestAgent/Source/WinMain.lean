import GuestAgent.Library.RelyGuarantee
import GuestAgent.Source.ArgumentVector
import GuestAgent.Source.Injectors
import GuestAgent.Source.ServiceStart

/-!
The injector: Injector.cpp, `WinMain`, `HookAndInjectService`, `HookAndInjectServicesExe`,
`injectIntoPID`, `isMsiFile`, `getMsiexecPath` and `MyDetourCreateProcessWithDll`, with the calls
they make to Windows.

A string is the characters in front of its NUL. What a local variable holds that is never assigned
is data of the run. `throw` is of a `const char*`, which the handler in `WinMain` does not catch.
-/
namespace GuestAgent.Source
open Library Prog

abbrev LPCSTR := List CHAR

/-- The text of a literal. -/
def literal (s : String) : LPCSTR := s.toList.map fun c => UInt8.ofNat c.toNat

/-- `tolower` of the C locale. -/
def tolower (c : CHAR) : CHAR := if 65 ≤ c ∧ c ≤ 90 then c + 32 else c

/-- `argv[i]`, which is read up to the NUL. -/
def ArgumentVector.string (r : ArgumentVector) (i : Nat) : LPCSTR :=
  (r.text.drop (r.argv.getD i 0)).takeWhile fun c => c ≠ 0

inductive WinMainCall where
  /-- `fopen_s(&f, path, "r")`; a file that could be opened is closed again. -/
  | fopen (path : LPCSTR)
  | openSCManager
  | openService (serviceName : String)
  | queryServiceStatusEx (serviceName : String)
  | startSampleService (serviceName : String)
  /-- The processes `Process32First` and `Process32Next` list. -/
  | processes
  | setDebugPrivileges
  | openProcess (process : UInt32)
  | getModuleHandle
  | getProcAddress (lpProcName : String)
  | virtualAllocEx (process : UInt32) (dwSize : Nat)
  | writeProcessMemory (process : UInt32) (dll : String)
  | rtlCreateUserThread (process : UInt32) (dll : String)
  | regOpenKeyExA
  /-- `RegQueryValueExA` for the type: whether it is `REG_SZ`. -/
  | regQueryType
  | regQueryValue
  | createProcessA (lpApplicationName : Option LPCSTR) (lpCommandLine : LPCSTR)
      (dwCreationFlags : UInt32)
  | detourUpdateProcessWithDll (rlpDlls : List String)
  | terminateProcess
  | resumeThread
  deriving DecidableEq, Repr

/-- What a call answers; `none` and `false` are answers of calls that failed. -/
def WinMainCall.Result : WinMainCall → Type
  | .queryServiceStatusEx _ => Option ServiceStatus
  | .startSampleService _ => Option UInt32
  | .processes => List (LPCSTR × UInt32)
  | .regQueryType => Option Bool
  | .regQueryValue => Option LPCSTR
  | _ => Bool

abbrev WinMain := Prog WinMainCall WinMainCall.Result

namespace WinMain

section calls

def fopen (path : LPCSTR) : WinMain Bool := perform (WinMainCall.fopen path)
def openSCManager : WinMain Bool := perform WinMainCall.openSCManager
def openService (serviceName : String) : WinMain Bool :=
  perform (WinMainCall.openService serviceName)
def queryServiceStatusEx (serviceName : String) : WinMain (Option ServiceStatus) :=
  perform (WinMainCall.queryServiceStatusEx serviceName)
def startSampleService (serviceName : String) : WinMain (Option UInt32) :=
  perform (WinMainCall.startSampleService serviceName)
def processes : WinMain (List (LPCSTR × UInt32)) := perform WinMainCall.processes
def setDebugPrivileges : WinMain Bool := perform WinMainCall.setDebugPrivileges
def openProcess (process : UInt32) : WinMain Bool := perform (WinMainCall.openProcess process)
def getModuleHandle : WinMain Bool := perform WinMainCall.getModuleHandle
def getProcAddress (lpProcName : String) : WinMain Bool :=
  perform (WinMainCall.getProcAddress lpProcName)
def virtualAllocEx (process : UInt32) (dwSize : Nat) : WinMain Bool :=
  perform (WinMainCall.virtualAllocEx process dwSize)
def writeProcessMemory (process : UInt32) (dll : String) : WinMain Bool :=
  perform (WinMainCall.writeProcessMemory process dll)
def rtlCreateUserThread (process : UInt32) (dll : String) : WinMain Bool :=
  perform (WinMainCall.rtlCreateUserThread process dll)
def regOpenKeyExA : WinMain Bool := perform WinMainCall.regOpenKeyExA
def regQueryType : WinMain (Option Bool) := perform WinMainCall.regQueryType
def regQueryValue : WinMain (Option LPCSTR) := perform WinMainCall.regQueryValue
def createProcessA (lpApplicationName : Option LPCSTR) (lpCommandLine : LPCSTR)
    (dwCreationFlags : UInt32) : WinMain Bool :=
  perform (WinMainCall.createProcessA lpApplicationName lpCommandLine dwCreationFlags)
def detourUpdateProcessWithDll (rlpDlls : List String) : WinMain Bool :=
  perform (WinMainCall.detourUpdateProcessWithDll rlpDlls)
def terminateProcess : WinMain Bool := perform WinMainCall.terminateProcess
def resumeThread : WinMain Bool := perform WinMainCall.resumeThread

end calls

/-- `"/norestart /package \"" + argv[1] + "\""`. -/
def msiArguments (path : LPCSTR) : LPCSTR :=
  literal "/norestart /package " ++ quotationMark :: path ++ [quotationMark]

end WinMain

/-! ### The process it starts -/

/-- The parts of a command line that end in front of a blank or a tabulator. -/
def fronts : LPCSTR → List LPCSTR
  | [] => []
  | c :: rest =>
    let later := (fronts rest).map (c :: ·)
    if c = 32 ∨ c = 9 then [] :: later else later

/-- The image `CreateProcessA` loads: the one named, or the first that is found for a part of the
command line, the shorter parts first; a quoted part stands alone. `searchPath` is the image that
is found for a part, with its extension and in the directories that are searched. -/
def imageOf (searchPath : LPCSTR → Option LPCSTR) (lpApplicationName : Option LPCSTR)
    (lpCommandLine : LPCSTR) : Option LPCSTR :=
  match lpApplicationName with
  | some name => some name
  | none =>
    if lpCommandLine.head? = some quotationMark then
      searchPath (lpCommandLine.tail.takeWhile fun c => c ≠ quotationMark)
    else (fronts lpCommandLine ++ [lpCommandLine]).findSome? searchPath

/-- The process created for the file, with the image Windows loaded for it; its main thread has
executed its first instruction once it is `started`, with the DLL in its import table if it is
`hooked`. -/
structure FirstProcess where
  created : Bool
  image : Option LPCSTR
  commandLine : LPCSTR
  suspendCount : Nat
  hooked : Bool
  started : Bool
  ended : Bool
  deriving DecidableEq, Repr

namespace FirstProcess

/-- No process yet. -/
def unborn : FirstProcess := ⟨false, none, [], 0, false, false, false⟩

inductive Happening where
  | mainStarts
  | ends
  deriving DecidableEq, Repr

/-- What the calls of the injector do to it; without an image no process is created. -/
def react (searchPath : LPCSTR → Option LPCSTR) (p : FirstProcess) :
    (c : WinMainCall) → c.Result → Option FirstProcess
  | .createProcessA lpApplicationName lpCommandLine dwCreationFlags, (succeeded : Bool) =>
    if succeeded then
      (imageOf searchPath lpApplicationName lpCommandLine).map fun image =>
        { p with
          created := true
          image := some image
          commandLine := lpCommandLine
          suspendCount := if asksSuspended dwCreationFlags then 1 else 0 }
    else some p
  | .detourUpdateProcessWithDll rlpDlls, (succeeded : Bool) =>
    some (if succeeded && rlpDlls.contains dllPath then { p with hooked := true } else p)
  | .terminateProcess, (succeeded : Bool) => some (if succeeded then { p with ended := true } else p)
  | .resumeThread, (succeeded : Bool) =>
    some (if succeeded then { p with suspendCount := p.suspendCount - 1 } else p)
  | _, _ => some p

/-- What happens to it otherwise. -/
def other (p : FirstProcess) : Happening → Option FirstProcess
  | .mainStarts =>
    if p.created = true ∧ p.suspendCount = 0 ∧ p.ended = false then some { p with started := true }
    else none
  | .ends => if p.created then some { p with ended := true } else none

end FirstProcess

end GuestAgent.Source
