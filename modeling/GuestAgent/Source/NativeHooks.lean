import GuestAgent.Library.Effects
import GuestAgent.Source.Hooks

/-!
The hooks of the injected DLL as programs: dllmain.cpp, all functions `My*`, with
`shouldIntercept`, `incHookingDepth` and `decHookingDepth`.

A hook asks for the hooking depth, looks at the process it lives in, calls real functions, sends
events and keeps the handle map. `SYSCALL_LOG` is not defined, so nothing of the logging is there.
A hook returns nothing when it reads through a pointer that cannot be followed. The hooks of the
first group are attached in `DllMain`; `SupplementaryCall` are the calls whose hooks are written
but not attached.
-/
namespace GuestAgent.Source
open Library

/-- Addresses; what lies there is part of the `View`. -/
abbrev Ptr := Nat

structure CreateProcessArgs where
  hToken : Handle
  lpApplicationName : Ptr
  lpCommandLine : Ptr
  lpProcessAttributes : Ptr
  lpThreadAttributes : Ptr
  bInheritHandles : UInt32
  dwCreationFlags : UInt32
  lpEnvironment : Ptr
  lpCurrentDirectory : Ptr
  lpStartupInfo : Ptr
  lpProcessInformation : Ptr
  hNewToken : Ptr
  deriving DecidableEq, Repr

inductive SupplementaryCall where
  | ntOpenDirectoryObject (directoryObject : Ptr) (desiredAccess : AccessMask)
      (objectAttributes : Ptr)
  | ntQueryKey (keyHandle : Handle) (keyInformationClass : UInt32) (keyInformation : Ptr)
      (length : UInt32) (resultLength : Ptr)
  | ntDeleteKey (keyHandle : Handle)
  | ntDeleteValueKey (keyHandle : Handle) (valueName : Ptr)
  | ntEnumerateKey (keyHandle : Handle) (index keyInformationClass : UInt32)
      (keyInformation : Ptr) (length : UInt32) (resultLength : Ptr)
  | ntEnumerateValueKey (keyHandle : Handle) (index keyValueInformationClass : UInt32)
      (keyValueInformation : Ptr) (length : UInt32) (resultLength : Ptr)
  | ntLockFile (fileHandle event : Handle) (apcRoutine apcContext ioStatusBlock byteOffset
      length : Ptr) (key : UInt32) (failImmediately exclusiveLock : Bool)
  | ntQueryDirectoryFile (fileHandle event : Handle) (apcRoutine apcContext ioStatusBlock
      fileInformation : Ptr) (length fileInformationClass : UInt32) (returnSingleEntry : Bool)
      (fileName : Ptr) (restartScan : Bool)
  | ntQueryFullAttributesFile (objectAttributes fileInformation : Ptr)
  | ntQueryValueKey (keyHandle : Handle) (valueName : Ptr) (keyValueInformationClass : UInt32)
      (keyValueInformation : Ptr) (length : UInt32) (resultLength : Ptr)
  | ntSetValueKey (keyHandle : Handle) (valueName : Ptr) (titleIndex type : UInt32) (data : Ptr)
      (dataSize : UInt32)
  | ntTerminateProcess (processHandle : Handle) (exitStatus : UInt32)
  deriving DecidableEq, Repr

/-- A call of a native function with its arguments. -/
inductive NativeCall where
  | ntCreateFile (fileHandle : Ptr) (desiredAccess : AccessMask) (objectAttributes ioStatusBlock
      allocationSize : Ptr) (fileAttributes shareAccess createDisposition createOptions : UInt32)
      (eaBuffer : Ptr) (eaLength : UInt32)
  | ntOpenFile (fileHandle : Ptr) (desiredAccess : AccessMask) (objectAttributes
      ioStatusBlock : Ptr) (shareAccess openOptions : UInt32)
  | ntDeleteFile (objectAttributes : Ptr)
  | ntOpenKey (keyHandle : Ptr) (desiredAccess : AccessMask) (objectAttributes : Ptr)
  | ntOpenKeyEx (keyHandle : Ptr) (desiredAccess : AccessMask) (objectAttributes : Ptr)
      (openOptions : UInt32)
  | ntCreateKey (keyHandle : Ptr) (desiredAccess : AccessMask) (objectAttributes : Ptr)
      (titleIndex : UInt32) (keyClass : Ptr) (createOptions : UInt32) (disposition : Ptr)
  | ntCreateKeyTransacted (keyHandle : Ptr) (desiredAccess : AccessMask) (objectAttributes : Ptr)
      (titleIndex : UInt32) (keyClass : Ptr) (createOptions : UInt32) (transactionHandle : Handle)
      (disposition : Ptr)
  | ntSetInformationFile (fileHandle : Handle) (ioStatusBlock fileInformation : Ptr)
      (length fileInformationClass : UInt32)
  | ntClose (handle : Handle)
  | createProcessInternalW (args : CreateProcessArgs)
  | exitProcess (uExitCode : UInt32)
  | supplementary (c : SupplementaryCall)
  deriving DecidableEq, Repr

/-- `CREATE_SUSPENDED`. -/
def createSuspended : UInt32 := 0x4

def CreateProcessArgs.suspended (args : CreateProcessArgs) : CreateProcessArgs :=
  { args with dwCreationFlags := args.dwCreationFlags ||| createSuspended }

structure ProcessInformation where
  hProcess : Handle
  hThread : Handle
  dwProcessId : Pid

/-- What a hook finds in its process at one moment. The attributes are `none` when following the
pointer, that of the name in it or its buffer faults; the other structures are read only after the
real call has filled or used them. -/
structure View where
  process : Process
  keyPathFromHandle : Handle → WString
  objectAttributes : Ptr → Option ObjectAttributes
  handleAt : Ptr → Handle
  renameInformation : Ptr → RenameInformation
  processInformation : Ptr → ProcessInformation
  currentProcessId : Pid

/-- What `MyCreateProcessInternalW` does to the new process. -/
inductive SystemCall where
  | virtualAllocEx (hProcess : Handle)
  | writeProcessMemory (hProcess : Handle)
  | createRemoteThread (hProcess : Handle) (start : Ptr)
  | resumeThread (hThread : Handle)

inductive HookEffect where
  | shouldIntercept
  | look
  | loadLibraryA
  | real (c : NativeCall)
  | sendToEventPipe (e : Event)
  | lookup (h : Handle)
  | insert (h : Handle) (path : WString)
  | system (c : SystemCall)

/-- The status or the `BOOL` of a call; for `ExitProcess`, which has none, it means nothing. -/
abbrev Answer := UInt32

def HookEffect.Result : HookEffect → Type
  | .shouldIntercept => Bool
  | .look => View
  | .loadLibraryA => Option Ptr
  | .real _ => Answer
  | .sendToEventPipe _ => Unit
  | .lookup _ => Option WString
  | .insert _ _ => Unit
  | .system _ => Unit

abbrev Hook := Prog HookEffect HookEffect.Result

/-! ### The hooking depth of a thread -/

namespace HookingDepth

/-- The thread's slot at `dwTlsIndex`. -/
abbrev Depth := UInt32

def incHookingDepth (depth : Depth) : Depth := depth + 1
def decHookingDepth (depth : Depth) : Depth := depth - 1
def shouldIntercept (depth : Depth) : Bool := depth == 0

end HookingDepth

namespace NativeHooks

def shouldIntercept : Hook Bool := Prog.perform HookEffect.shouldIntercept
def look : Hook View := Prog.perform HookEffect.look
def loadLibraryA : Hook (Option Ptr) := Prog.perform HookEffect.loadLibraryA
def real (c : NativeCall) : Hook Answer := Prog.perform (HookEffect.real c)
def sendToEventPipe (e : Event) : Hook Unit := Prog.perform (HookEffect.sendToEventPipe e)
def lookup (h : Handle) : Hook (Option WString) := Prog.perform (HookEffect.lookup h)
def insert (h : Handle) (path : WString) : Hook Unit := Prog.perform (HookEffect.insert h path)
def system (c : SystemCall) : Hook Unit := Prog.perform (HookEffect.system c)

section bind

variable {α : Type}

@[simp] theorem shouldIntercept_bind (k : Bool → Hook α) :
    shouldIntercept >>= k = Prog.ask HookEffect.shouldIntercept k := rfl

@[simp] theorem look_bind (k : View → Hook α) : look >>= k = Prog.ask HookEffect.look k := rfl

@[simp] theorem loadLibraryA_bind (k : Option Ptr → Hook α) :
    loadLibraryA >>= k = Prog.ask HookEffect.loadLibraryA k := rfl

@[simp] theorem real_bind (c : NativeCall) (k : Answer → Hook α) :
    real c >>= k = Prog.ask (HookEffect.real c) k := rfl

@[simp] theorem sendToEventPipe_bind (e : Event) (k : Unit → Hook α) :
    sendToEventPipe e >>= k = Prog.ask (HookEffect.sendToEventPipe e) k := rfl

@[simp] theorem lookup_bind (h : Handle) (k : Option WString → Hook α) :
    lookup h >>= k = Prog.ask (HookEffect.lookup h) k := rfl

@[simp] theorem insert_bind (h : Handle) (path : WString) (k : Unit → Hook α) :
    insert h path >>= k = Prog.ask (HookEffect.insert h path) k := rfl

@[simp] theorem system_bind (c : SystemCall) (k : Unit → Hook α) :
    system c >>= k = Prog.ask (HookEffect.system c) k := rfl

end bind

/-- `REGISTRY_WRITE_FLAGS`. -/
def registryWriteFlags : List UInt32 := [0x2, 0x4, 0x20, 0x20006, 0xF003F]

/-- `IsRequestingRegistryWriteAccess`; `behind` are the words behind the table, into which the
loop to `sizeof(REGISTRY_WRITE_FLAGS)` runs. -/
def isRequestingRegistryWriteAccess (behind : Nat → UInt32) (mask : AccessMask) : Bool :=
  (List.range (4 * registryWriteFlags.length)).any fun i =>
    mask &&& tableAt registryWriteFlags behind i == tableAt registryWriteFlags behind i

/-- `GetKeyPathFromOA`. -/
def getKeyPathFromOA (v : View) (oa : ObjectAttributes) : WString :=
  let w := match oa.rootDirectory with
    | some key => v.keyPathFromHandle key ++ [backslash]
    | none => []
  w ++ fromUnicodeToWstring oa.objectName

/-- The notice of a rename; an unknown file counts as created. -/
def renameEvent (oldPath : Option WString) (newPath : WString) : Event :=
  match oldPath with
  | none => .fileAccess newPath .created
  | some oldPath => .fileRename oldPath newPath

/-! ### The shapes of the hooks -/

/-- The bypass of a hook: inside an event the call goes straight to the real function. -/
def intercepted (c : NativeCall) (hook : Hook (Option Answer)) : Hook (Option Answer) := do
  if ← shouldIntercept then hook
  else return some (← real c)

/-- The opening and the creation of a file. -/
def fileHook (mode : FileMode) (fileHandle : Ptr) (desiredAccess : AccessMask)
    (objectAttributes : Ptr) (c : NativeCall) : Hook (Option Answer) :=
  intercepted c do
    let v ← look
    match v.objectAttributes objectAttributes with
    | none => return none
    | some oa =>
      let s := getFullPathByObjectAttributes v.process oa
      if isRequestingWriteAccess v.process desiredAccess then
        sendToEventPipe (.fileAccess s mode)
      let res ← real c
      if res = 0 then
        let v ← look
        insert (v.handleAt fileHandle) s
      return some res

/-- The notice the registry hooks begin with, then the real call `c`. -/
def keyHook (behind : Nat → UInt32) (mode : KeyMode) (desiredAccess : AccessMask)
    (objectAttributes : Ptr) (c : NativeCall) : Hook (Option Answer) := do
  if isRequestingRegistryWriteAccess behind desiredAccess then
    let v ← look
    match v.objectAttributes objectAttributes with
    | none => return none
    | some oa =>
      sendToEventPipe (.registryAccess (getKeyPathFromOA v oa) mode)
      return some (← real c)
  else return some (← real c)

/-! ### The hooks -/

def myNtCreateFile (fileHandle : Ptr) (desiredAccess : AccessMask) (objectAttributes ioStatusBlock
    allocationSize : Ptr) (fileAttributes shareAccess createDisposition createOptions : UInt32)
    (eaBuffer : Ptr) (eaLength : UInt32) : Hook (Option Answer) :=
  fileHook .created fileHandle desiredAccess objectAttributes
    (.ntCreateFile fileHandle desiredAccess objectAttributes ioStatusBlock allocationSize
      fileAttributes shareAccess createDisposition createOptions eaBuffer eaLength)

def myNtOpenFile (fileHandle : Ptr) (desiredAccess : AccessMask) (objectAttributes
    ioStatusBlock : Ptr) (shareAccess openOptions : UInt32) : Hook (Option Answer) :=
  fileHook .opened fileHandle desiredAccess objectAttributes
    (.ntOpenFile fileHandle desiredAccess objectAttributes ioStatusBlock shareAccess openOptions)

/-- The event follows the real call. -/
def myNtDeleteFile (objectAttributes : Ptr) : Hook (Option Answer) :=
  intercepted (.ntDeleteFile objectAttributes) do
    let res ← real (.ntDeleteFile objectAttributes)
    let v ← look
    match v.objectAttributes objectAttributes with
    | none => return none
    | some oa =>
      sendToEventPipe (.fileAccess (getFullPathByObjectAttributes v.process oa) .deleted)
      return some res

def myNtOpenKey (behind : Nat → UInt32) (keyHandle : Ptr) (desiredAccess : AccessMask)
    (objectAttributes : Ptr) : Hook (Option Answer) :=
  let c := .ntOpenKey keyHandle desiredAccess objectAttributes
  intercepted c (keyHook behind .opened desiredAccess objectAttributes c)

/-- The real function called is `NtOpenKey`, and the options are not passed on. -/
def myNtOpenKeyEx (behind : Nat → UInt32) (keyHandle : Ptr) (desiredAccess : AccessMask)
    (objectAttributes : Ptr) (_openOptions : UInt32) : Hook (Option Answer) :=
  let c := .ntOpenKey keyHandle desiredAccess objectAttributes
  intercepted c (keyHook behind .opened desiredAccess objectAttributes c)

/-- `shouldIntercept` is not asked. -/
def myNtCreateKey (behind : Nat → UInt32) (keyHandle : Ptr) (desiredAccess : AccessMask)
    (objectAttributes : Ptr) (titleIndex : UInt32) (keyClass : Ptr) (createOptions : UInt32)
    (disposition : Ptr) : Hook (Option Answer) :=
  keyHook behind .created desiredAccess objectAttributes
    (.ntCreateKey keyHandle desiredAccess objectAttributes titleIndex keyClass createOptions
      disposition)

/-- `shouldIntercept` is not asked. -/
def myNtCreateKeyTransacted (behind : Nat → UInt32) (keyHandle : Ptr) (desiredAccess : AccessMask)
    (objectAttributes : Ptr) (titleIndex : UInt32) (keyClass : Ptr) (createOptions : UInt32)
    (transactionHandle : Handle) (disposition : Ptr) : Hook (Option Answer) :=
  keyHook behind .created desiredAccess objectAttributes
    (.ntCreateKeyTransacted keyHandle desiredAccess objectAttributes titleIndex keyClass
      createOptions transactionHandle disposition)

def myNtSetInformationFile (fileHandle : Handle) (ioStatusBlock fileInformation : Ptr)
    (length fileInformationClass : UInt32) : Hook (Option Answer) :=
  let c := .ntSetInformationFile fileHandle ioStatusBlock fileInformation length
    fileInformationClass
  intercepted c do
    if fileInformationClass = fileRenameInformation then
      let oldPath ← lookup fileHandle
      let res ← real c
      if res = 0 then
        let v ← look
        let newPath := renamedPath v.process (v.renameInformation fileInformation)
        sendToEventPipe (renameEvent oldPath newPath)
      return some res
    else return some (← real c)

/-- The path looked up is not used. -/
def myNtClose (handle : Handle) : Hook (Option Answer) :=
  intercepted (.ntClose handle) do
    let res ← real (.ntClose handle)
    let _ ← lookup handle
    return some res

/-- The new process is created suspended and made to load the DLL. Without `LoadLibraryA` the hook
gives up, and answers that no process was created. -/
def myCreateProcessInternalW (args : CreateProcessArgs) : Hook (Option Answer) :=
  intercepted (.createProcessInternalW args) do
    let processCreated ← real (.createProcessInternalW args.suspended)
    if processCreated = 0 then return some processCreated
    else
      let v ← look
      let info := v.processInformation args.lpProcessInformation
      system (.virtualAllocEx info.hProcess)
      system (.writeProcessMemory info.hProcess)
      sendToEventPipe (.newPid v.currentProcessId info.dwProcessId)
      match ← loadLibraryA with
      | none => return some 0
      | some address =>
        system (.createRemoteThread info.hProcess address)
        if args.dwCreationFlags &&& createSuspended ≠ createSuspended then
          system (.resumeThread info.hThread)
        return some processCreated

def myExitProcess (uExitCode : UInt32) : Hook (Option Answer) :=
  intercepted (.exitProcess uExitCode) do
    let v ← look
    sendToEventPipe (.removedPid v.currentProcessId)
    return some (← real (.exitProcess uExitCode))

/-- The hooks that are not attached only make the real call. -/
def mySupplementary (c : SupplementaryCall) : Hook (Option Answer) :=
  intercepted (.supplementary c) do
    return some (← real (.supplementary c))

/-- The hook of a native function. -/
def hook (behind : Nat → UInt32) : NativeCall → Hook (Option Answer)
  | .ntCreateFile fileHandle desiredAccess objectAttributes ioStatusBlock allocationSize
      fileAttributes shareAccess createDisposition createOptions eaBuffer eaLength =>
    myNtCreateFile fileHandle desiredAccess objectAttributes ioStatusBlock allocationSize
      fileAttributes shareAccess createDisposition createOptions eaBuffer eaLength
  | .ntOpenFile fileHandle desiredAccess objectAttributes ioStatusBlock shareAccess openOptions =>
    myNtOpenFile fileHandle desiredAccess objectAttributes ioStatusBlock shareAccess openOptions
  | .ntDeleteFile objectAttributes => myNtDeleteFile objectAttributes
  | .ntOpenKey keyHandle desiredAccess objectAttributes =>
    myNtOpenKey behind keyHandle desiredAccess objectAttributes
  | .ntOpenKeyEx keyHandle desiredAccess objectAttributes openOptions =>
    myNtOpenKeyEx behind keyHandle desiredAccess objectAttributes openOptions
  | .ntCreateKey keyHandle desiredAccess objectAttributes titleIndex keyClass createOptions
      disposition =>
    myNtCreateKey behind keyHandle desiredAccess objectAttributes titleIndex keyClass createOptions
      disposition
  | .ntCreateKeyTransacted keyHandle desiredAccess objectAttributes titleIndex keyClass
      createOptions transactionHandle disposition =>
    myNtCreateKeyTransacted behind keyHandle desiredAccess objectAttributes titleIndex keyClass
      createOptions transactionHandle disposition
  | .ntSetInformationFile fileHandle ioStatusBlock fileInformation length fileInformationClass =>
    myNtSetInformationFile fileHandle ioStatusBlock fileInformation length fileInformationClass
  | .ntClose handle => myNtClose handle
  | .createProcessInternalW args => myCreateProcessInternalW args
  | .exitProcess uExitCode => myExitProcess uExitCode
  | .supplementary c => mySupplementary c

end NativeHooks

end GuestAgent.Source
