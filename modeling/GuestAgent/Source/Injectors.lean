import GuestAgent.Source.NativeHooks

/-!
The hooks of `CreateProcessInternalW` that put the DLL into every new process: the one of the DLL
itself, and `MyCreateProcessInternalW` of serviceHooker/servicedll.cpp and of
inject_dcom/dllmain.cpp. All three create the process suspended, let a remote thread call
`LoadLibraryA` in it, and resume its main thread if the caller wanted it to run.

An `Injector` is one of the hooks with what its calls do to the new process. The real function
resumes the main thread itself unless `CREATE_SUSPENDED` is asked for. The only threads whose
handles a hook has are the main thread and, once created, the remote one.
-/
namespace GuestAgent.Source
open Library

/-- `DLLPATH`. -/
def dllPath : String := "C:\\GuestController\\CHookingDll.dll"

inductive InjectorCall where
  | realCreateProcessInternalW (args : CreateProcessArgs)
  | processInformation (lpProcessInformation : Ptr)
  | processIdToSessionId (dwProcessId : Pid)
  | virtualAllocEx (hProcess : Handle) (dwSize : Nat)
  | writeProcessMemory (hProcess : Handle) (lpBaseAddress : Ptr) (lpBuffer : String) (nSize : Nat)
  | getProcAddress (lpProcName : String)
  | createRemoteThread (hProcess : Handle) (lpStartAddress lpParameter : Ptr)
  | waitForSingleObject (hHandle : Handle)
  | resumeThread (hThread : Handle)
  deriving DecidableEq, Repr

/-- What a call answers; `none` is the `NULL` or `FALSE` of a call that failed. -/
def InjectorCall.Result : InjectorCall → Type
  | .realCreateProcessInternalW _ => Answer
  | .processInformation _ => ProcessInformation
  | .processIdToSessionId _ => Option UInt32
  | .virtualAllocEx _ _ => Ptr
  | .writeProcessMemory _ _ _ _ => Bool
  | .getProcAddress _ => Option Ptr
  | .createRemoteThread _ _ _ => Option Handle
  | .waitForSingleObject _ => UInt32
  | .resumeThread _ => UInt32

abbrev Injection := Prog InjectorCall InjectorCall.Result

/-- The bit of `CREATE_SUSPENDED` is set. -/
def asksSuspended (dwCreationFlags : UInt32) : Bool :=
  dwCreationFlags &&& createSuspended == createSuspended

theorem asksSuspended_eq_false (dwCreationFlags : UInt32) :
    dwCreationFlags &&& createSuspended ≠ createSuspended ↔
      asksSuspended dwCreationFlags = false := by
  simp [asksSuspended]

@[simp] theorem asksSuspended_suspended (args : CreateProcessArgs) :
    asksSuspended args.suspended.dwCreationFlags = true := by
  simp only [asksSuspended, CreateProcessArgs.suspended, beq_iff_eq]
  apply UInt32.toBitVec_inj.mp
  ext i inside
  simp only [UInt32.toBitVec_and, UInt32.toBitVec_or, BitVec.getElem_and, BitVec.getElem_or]
  cases args.dwCreationFlags.toBitVec[i] <;> simp

namespace Injection

def realCreateProcessInternalW (args : CreateProcessArgs) : Injection Answer :=
  Prog.perform (InjectorCall.realCreateProcessInternalW args)

def processInformation (lpProcessInformation : Ptr) : Injection ProcessInformation :=
  Prog.perform (InjectorCall.processInformation lpProcessInformation)

def processIdToSessionId (dwProcessId : Pid) : Injection (Option UInt32) :=
  Prog.perform (InjectorCall.processIdToSessionId dwProcessId)

def virtualAllocEx (hProcess : Handle) (dwSize : Nat) : Injection Ptr :=
  Prog.perform (InjectorCall.virtualAllocEx hProcess dwSize)

def writeProcessMemory (hProcess : Handle) (lpBaseAddress : Ptr) (lpBuffer : String) (nSize : Nat) :
    Injection Bool :=
  Prog.perform (InjectorCall.writeProcessMemory hProcess lpBaseAddress lpBuffer nSize)

def getProcAddress (lpProcName : String) : Injection (Option Ptr) :=
  Prog.perform (InjectorCall.getProcAddress lpProcName)

def createRemoteThread (hProcess : Handle) (lpStartAddress lpParameter : Ptr) :
    Injection (Option Handle) :=
  Prog.perform (InjectorCall.createRemoteThread hProcess lpStartAddress lpParameter)

def waitForSingleObject (hHandle : Handle) : Injection UInt32 :=
  Prog.perform (InjectorCall.waitForSingleObject hHandle)

def resumeThread (hThread : Handle) : Injection UInt32 :=
  Prog.perform (InjectorCall.resumeThread hThread)

section bind

variable {α : Type}

@[simp] theorem realCreateProcessInternalW_bind (args : CreateProcessArgs)
    (k : Answer → Injection α) : realCreateProcessInternalW args >>= k =
      Prog.ask (InjectorCall.realCreateProcessInternalW args) k := rfl

@[simp] theorem processInformation_bind (lpProcessInformation : Ptr)
    (k : ProcessInformation → Injection α) : processInformation lpProcessInformation >>= k =
      Prog.ask (InjectorCall.processInformation lpProcessInformation) k := rfl

@[simp] theorem processIdToSessionId_bind (dwProcessId : Pid) (k : Option UInt32 → Injection α) :
    processIdToSessionId dwProcessId >>= k =
      Prog.ask (InjectorCall.processIdToSessionId dwProcessId) k := rfl

@[simp] theorem virtualAllocEx_bind (hProcess : Handle) (dwSize : Nat) (k : Ptr → Injection α) :
    virtualAllocEx hProcess dwSize >>= k =
      Prog.ask (InjectorCall.virtualAllocEx hProcess dwSize) k := rfl

@[simp] theorem writeProcessMemory_bind (hProcess : Handle) (lpBaseAddress : Ptr)
    (lpBuffer : String) (nSize : Nat) (k : Bool → Injection α) :
    writeProcessMemory hProcess lpBaseAddress lpBuffer nSize >>= k =
      Prog.ask (InjectorCall.writeProcessMemory hProcess lpBaseAddress lpBuffer nSize) k := rfl

@[simp] theorem getProcAddress_bind (lpProcName : String) (k : Option Ptr → Injection α) :
    getProcAddress lpProcName >>= k = Prog.ask (InjectorCall.getProcAddress lpProcName) k := rfl

@[simp] theorem createRemoteThread_bind (hProcess : Handle) (lpStartAddress lpParameter : Ptr)
    (k : Option Handle → Injection α) : createRemoteThread hProcess lpStartAddress lpParameter >>= k =
      Prog.ask (InjectorCall.createRemoteThread hProcess lpStartAddress lpParameter) k := rfl

@[simp] theorem waitForSingleObject_bind (hHandle : Handle) (k : UInt32 → Injection α) :
    waitForSingleObject hHandle >>= k =
      Prog.ask (InjectorCall.waitForSingleObject hHandle) k := rfl

@[simp] theorem resumeThread_bind (hThread : Handle) (k : UInt32 → Injection α) :
    resumeThread hThread >>= k = Prog.ask (InjectorCall.resumeThread hThread) k := rfl

end bind

end Injection

open Injection

/-- `MyCreateProcessInternalW` of serviceHooker. -/
def ServiceHooker.myCreateProcessInternalW (args : CreateProcessArgs) : Injection Answer := do
  let processCreated ← realCreateProcessInternalW args.suspended
  if processCreated = 0 then return processCreated
  else
    let info ← processInformation args.lpProcessInformation
    let baseAddress ← virtualAllocEx info.hProcess (dllPath.length + 1)
    let _ ← writeProcessMemory info.hProcess baseAddress dllPath dllPath.length
    match ← getProcAddress "LoadLibraryA" with
    | none => return 0
    | some loadLibraryAddress =>
      let _ ← createRemoteThread info.hProcess loadLibraryAddress baseAddress
      if !asksSuspended args.dwCreationFlags then
        let _ ← resumeThread info.hThread
      return processCreated

/-- `MyCreateProcessInternalW` of inject_dcom. Without a session id nothing is injected, and the
main thread is left as it is. -/
def InjectDcom.myCreateProcessInternalW (args : CreateProcessArgs) : Injection Answer := do
  let processCreated ← realCreateProcessInternalW args.suspended
  if processCreated = 0 then return processCreated
  else
    let info ← processInformation args.lpProcessInformation
    match ← processIdToSessionId info.dwProcessId with
    | none => return processCreated
    | some _ =>
      let baseAddress ← virtualAllocEx info.hProcess (dllPath.length + 1)
      let _ ← writeProcessMemory info.hProcess baseAddress dllPath dllPath.length
      match ← getProcAddress "LoadLibraryA" with
      | none => return 0
      | some loadLibraryAddress =>
        match ← createRemoteThread info.hProcess loadLibraryAddress baseAddress with
        | none => pure ()
        | some threadHandle =>
          let _ ← waitForSingleObject threadHandle
        if !asksSuspended args.dwCreationFlags then
          let _ ← resumeThread info.hThread
        return processCreated

/-! ### What the hooks do to the new process -/

/-- What a call came to. -/
inductive Deed where
  | createdProcess (suspended : Bool)
  /-- `ProcessIdToSessionId` failed. -/
  | sessionUnknown
  /-- `GetProcAddress` did not find `LoadLibraryA`. -/
  | loadLibraryANotFound
  /-- `CreateRemoteThread`; `none` where the hook is not told whether it succeeded. -/
  | createdRemoteThread (succeeded : Option Bool)
  /-- A wait for the end of the remote thread. -/
  | waited
  /-- `ResumeThread` on the main thread. -/
  | resumed
  | other
  deriving DecidableEq, Repr

def createdProcess (args : CreateProcessArgs) (processCreated : Answer) : Deed :=
  if processCreated = 0 then .other else .createdProcess (asksSuspended args.dwCreationFlags)

def lookedUp (loadLibraryAddress : Option Ptr) : Deed :=
  if loadLibraryAddress.isSome then .other else .loadLibraryANotFound

def InjectorCall.deed : (c : InjectorCall) → c.Result → Deed
  | .realCreateProcessInternalW args, processCreated => createdProcess args processCreated
  | .createRemoteThread _ _ _, threadHandle =>
    let threadHandle : Option Handle := threadHandle
    .createdRemoteThread (some threadHandle.isSome)
  | .processIdToSessionId _, sessionId =>
    let sessionId : Option UInt32 := sessionId
    if sessionId.isSome then .other else .sessionUnknown
  | .getProcAddress _, loadLibraryAddress => lookedUp loadLibraryAddress
  | .waitForSingleObject _, _ => .waited
  | .resumeThread _, _ => .resumed
  | .processInformation _, _ | .virtualAllocEx _ _, _ | .writeProcessMemory _ _ _ _, _ => .other

def HookEffect.deed : (i : HookEffect) → i.Result → Deed
  | .real (.createProcessInternalW args), processCreated => createdProcess args processCreated
  | .loadLibraryA, loadLibraryAddress => lookedUp loadLibraryAddress
  | .system (.createRemoteThread _ _), _ => .createdRemoteThread none
  | .system (.resumeThread _), _ => .resumed
  | _, _ => .other

/-- A hook of `CreateProcessInternalW` with the calls it makes. -/
structure Injector where
  Call : Type
  Result : Call → Type
  Returned : Type
  hook : CreateProcessArgs → Prog Call Result Returned
  answer : Returned → Answer
  deed : (c : Call) → Result c → Deed

namespace Injector

/-- The hook of the DLL, which always returns something. -/
def cHookingDll : Injector where
  Call := HookEffect
  Result := HookEffect.Result
  Returned := Option Answer
  hook := NativeHooks.myCreateProcessInternalW
  answer := fun r => r.getD 0
  deed := HookEffect.deed

def serviceHooker : Injector where
  Call := InjectorCall
  Result := InjectorCall.Result
  Returned := Answer
  hook := ServiceHooker.myCreateProcessInternalW
  answer := id
  deed := InjectorCall.deed

def injectDcom : Injector where
  Call := InjectorCall
  Result := InjectorCall.Result
  Returned := Answer
  hook := InjectDcom.myCreateProcessInternalW
  answer := id
  deed := InjectorCall.deed

end Injector

end GuestAgent.Source
