import GuestAgent.Source.Injectors

/-!
The caller's `CREATE_SUSPENDED`, along every way through the three hooks of
`CreateProcessInternalW`. A process that was created is reported, and its main thread resumed
exactly if the caller did not ask for a suspended one, unless `LoadLibraryA` is not found (the
hook reports failure and the process stays suspended) or, in inject_dcom, the session of the new
process is not found (a process that should run stays suspended).
-/
namespace GuestAgent.Guarantees.Suspension
open Library Source Prog

/-- The real call created the process. -/
def Created (done : List Deed) : Prop := ∃ suspended, .createdProcess suspended ∈ done

/-- The deed sets the main thread going: the process is created running, or the hook resumes it. -/
def setsGoing (d : Deed) : Bool := d == .resumed || d == .createdProcess false

/-- Creation, the answer of the hook and the number of resumptions fit together. -/
def Kept (args : CreateProcessArgs) (done : List Deed) (answer : Answer) : Prop :=
  Created done →
    answer ≠ 0 ∧ done.countP setsGoing = if asksSuspended args.dwCreationFlags then 0 else 1

/-- A process that was created is reported, and its main thread is resumed once if the caller
did not ask for a suspended process, never otherwise. -/
def KeepsSuspension (J : Injector) (args : CreateProcessArgs)
    (trace : List ((c : J.Call) × J.Result c)) (r : J.Returned) : Prop :=
  Kept args (labels J.deed trace) (J.answer r)

/-! ### The three hooks -/

theorem cHookingDll_every (args : CreateProcessArgs) :
    EveryPath HookEffect.deed
      (fun done r => Kept args done (r.getD 0) ↔ .loadLibraryANotFound ∉ done)
      (NativeHooks.myCreateProcessInternalW args) := by
  simp only [NativeHooks.myCreateProcessInternalW, NativeHooks.intercepted,
    NativeHooks.shouldIntercept_bind, NativeHooks.real_bind, NativeHooks.look_bind,
    NativeHooks.system_bind, NativeHooks.sendToEventPipe_bind, NativeHooks.loadLibraryA_bind,
    asksSuspended_eq_false]
  intro intercepting
  cases intercepting with
  | false =>
    -- the caller's flags go to the real function as they are
    intro (processCreated : Answer)
    by_cases created : processCreated = 0
    · simp [created, Kept, Created, HookEffect.deed, createdProcess]
    · cases asked : asksSuspended args.dwCreationFlags <;>
        simp [created, asked, Kept, Created, setsGoing, HookEffect.deed, createdProcess]
  | true =>
    intro (processCreated : Answer)
    by_cases created : processCreated = 0
    · simp [created, Kept, Created, HookEffect.deed, createdProcess]
    simp only [created, reduceIte]
    intro view allocated written notified loadLibraryAddress
    cases loadLibraryAddress with
    | none => simp [created, Kept, Created, HookEffect.deed, createdProcess, lookedUp]
    | some address =>
      intro thread
      cases asked : asksSuspended args.dwCreationFlags with
      | true =>
        simp [created, asked, Kept, Created, setsGoing, HookEffect.deed, createdProcess, lookedUp]
      | false =>
        intro resumed
        simp [created, asked, Kept, Created, setsGoing, HookEffect.deed, createdProcess, lookedUp]

/-- The end of the other two hooks. -/
theorem everyPath_resume (post : List Deed → Answer → Prop) (dwCreationFlags : UInt32)
    (hThread : Handle) (r : Answer) :
    EveryPath InjectorCall.deed post
        (if (!asksSuspended dwCreationFlags) = true then
          Prog.ask (InjectorCall.resumeThread hThread) fun _ => pure r
        else pure r) ↔
      post (if asksSuspended dwCreationFlags then [] else [.resumed]) r := by
  cases asksSuspended dwCreationFlags with
  | true => exact Iff.rfl
  | false =>
    constructor
    · intro every
      exact every (0 : UInt32)
    · intro holds resumed
      exact holds

theorem serviceHooker_every (args : CreateProcessArgs) :
    EveryPath InjectorCall.deed
      (fun done r => Kept args done r ↔ .loadLibraryANotFound ∉ done)
      (ServiceHooker.myCreateProcessInternalW args) := by
  simp only [ServiceHooker.myCreateProcessInternalW, Injection.realCreateProcessInternalW_bind,
    Injection.processInformation_bind, Injection.virtualAllocEx_bind,
    Injection.writeProcessMemory_bind, Injection.getProcAddress_bind,
    Injection.createRemoteThread_bind, Injection.resumeThread_bind]
  intro (processCreated : Answer)
  by_cases created : processCreated = 0
  · simp [created, Kept, Created, InjectorCall.deed, createdProcess]
  simp only [created, reduceIte]
  intro info baseAddress written loadLibraryAddress
  cases loadLibraryAddress with
  | none => simp [created, Kept, Created, InjectorCall.deed, createdProcess, lookedUp]
  | some address =>
    intro threadHandle
    apply (everyPath_resume _ _ info.hThread processCreated).mpr
    cases asked : asksSuspended args.dwCreationFlags <;>
      simp [created, asked, Kept, Created, setsGoing, InjectorCall.deed, createdProcess, lookedUp]

theorem injectDcom_every (args : CreateProcessArgs) :
    EveryPath InjectorCall.deed
      (fun done r => Kept args done r ↔ .loadLibraryANotFound ∉ done ∧
        (.sessionUnknown ∈ done → asksSuspended args.dwCreationFlags))
      (InjectDcom.myCreateProcessInternalW args) := by
  simp only [InjectDcom.myCreateProcessInternalW, Injection.realCreateProcessInternalW_bind,
    Injection.processInformation_bind, Injection.processIdToSessionId_bind,
    Injection.virtualAllocEx_bind, Injection.writeProcessMemory_bind,
    Injection.getProcAddress_bind, Injection.createRemoteThread_bind,
    Injection.waitForSingleObject_bind, Injection.resumeThread_bind]
  intro (processCreated : Answer)
  by_cases created : processCreated = 0
  · simp [created, Kept, Created, InjectorCall.deed, createdProcess]
  simp only [created, reduceIte]
  intro info sessionId
  cases sessionId with
  | none =>
    -- the early return leaves the main thread suspended, whatever the caller asked for
    cases asked : asksSuspended args.dwCreationFlags <;>
      simp [created, asked, Kept, Created, setsGoing, InjectorCall.deed, createdProcess]
  | some sessionId =>
    intro baseAddress written loadLibraryAddress
    cases loadLibraryAddress with
    | none => simp [created, Kept, Created, InjectorCall.deed, createdProcess, lookedUp]
    | some address =>
      intro threadHandle
      cases threadHandle with
      | none =>
        apply (everyPath_resume _ _ info.hThread processCreated).mpr
        cases asked : asksSuspended args.dwCreationFlags <;>
          simp [created, asked, Kept, Created, setsGoing, InjectorCall.deed, createdProcess,
            lookedUp]
      | some threadHandle =>
        intro waited
        apply (everyPath_resume _ _ info.hThread processCreated).mpr
        cases asked : asksSuspended args.dwCreationFlags <;>
          simp [created, asked, Kept, Created, setsGoing, InjectorCall.deed, createdProcess,
            lookedUp]

/-- For every flags word and every outcome of the calls in between. -/
theorem keepsSuspension_iff (args : CreateProcessArgs) :
    (∀ trace r, Path (Injector.cHookingDll.hook args) trace r →
      (KeepsSuspension .cHookingDll args trace r ↔
        .loadLibraryANotFound ∉ labels HookEffect.deed trace)) ∧
    (∀ trace r, Path (Injector.serviceHooker.hook args) trace r →
      (KeepsSuspension .serviceHooker args trace r ↔
        .loadLibraryANotFound ∉ labels InjectorCall.deed trace)) ∧
    (∀ trace r, Path (Injector.injectDcom.hook args) trace r →
      (KeepsSuspension .injectDcom args trace r ↔
        .loadLibraryANotFound ∉ labels InjectorCall.deed trace ∧
        (.sessionUnknown ∈ labels InjectorCall.deed trace →
          asksSuspended args.dwCreationFlags))) := by
  refine ⟨?_, ?_, ?_⟩
  · intro trace r path
    exact (cHookingDll_every args).post path
  · intro trace r path
    exact (serviceHooker_every args).post path
  · intro trace r path
    exact (injectDcom_every args).post path

/-- A caller that wants the new process to run. -/
def running : CreateProcessArgs := ⟨0, 0, 0, 0, 0, 0, 0, 0, 0, 0, 0, 0⟩

/-- Answers of the calls of serviceHooker and inject_dcom: all succeed, but for the session. -/
def answers (sessionId : Option UInt32) : (c : InjectorCall) → c.Result
  | .realCreateProcessInternalW _ => (1 : Answer)
  | .processInformation _ => (⟨4, 8, 100⟩ : ProcessInformation)
  | .processIdToSessionId _ => sessionId
  | .virtualAllocEx _ _ => (0x10000 : Ptr)
  | .writeProcessMemory _ _ _ _ => true
  | .getProcAddress _ => some (0x20000 : Ptr)
  | .createRemoteThread _ _ _ => some (12 : Handle)
  | .waitForSingleObject _ => (0 : UInt32)
  | .resumeThread _ => (1 : UInt32)

theorem keepsSuspension_iff_running :
    KeepsSuspension .injectDcom running
      (follow (answers (some 1)) (InjectDcom.myCreateProcessInternalW running)).1 (1 : Answer) :=
  ((keepsSuspension_iff running).2.2 _ _ (path_follow (answers (some 1)) _)).mpr
    ⟨by decide, by decide⟩

/-- inject_dcom leaves a process without session id suspended. -/
theorem not_keepsSuspension : ¬ ∀ J ∈ [Injector.cHookingDll, .serviceHooker, .injectDcom],
    ∀ args trace r, Path (J.hook args) trace r → KeepsSuspension J args trace r := by
  intro kept
  have here := kept .injectDcom (by simp) running _ _ (path_follow (answers none) _)
    ⟨true, by decide⟩
  exact absurd here.2 (by decide)

end GuestAgent.Guarantees.Suspension
