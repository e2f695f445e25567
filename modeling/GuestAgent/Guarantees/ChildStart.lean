import GuestAgent.Guarantees.Suspension
import GuestAgent.Source.ProcessLaunch

/-!
No code of a new process before the DLL is loaded, over all interleavings of the creating thread,
the remote thread and the main thread. inject_dcom waits for the remote thread, so there the DLL
is loaded first unless the remote thread ends without it. The other two hooks resume the main
thread, or hand it to a caller that may, while `LoadLibraryA` still runs.

What a hook has done so far is a `Stage`; which calls may follow is read off the hook once, and
the invariant ties the stage to the process.
-/
namespace GuestAgent.Guarantees.ChildStart
open Library Source Prog Suspension

/-- No remote thread was made, or it has loaded the DLL. -/
def Loaded (c : Child) : Prop := c.remote = .absent ∨ c.remote = .ended true

/-- Where there is a remote thread, it has loaded the DLL before the main thread started. -/
def Monitored (c : Child) : Prop := c.started = true → Loaded c

instance (c : Child) : Decidable (Loaded c) := inferInstanceAs (Decidable (_ ∨ _))
instance (c : Child) : Decidable (Monitored c) := inferInstanceAs (Decidable (_ → _))

variable {J : Injector} {ι : Type} {Ans : ι → Type} {α : Type}

/-- The main thread is resumed only when the remote thread, if there is one, has loaded the DLL. -/
def ResumesLoaded (s : Launch J) (e : LaunchStep J) : Prop := s.ResumesMain e → Loaded s.child

/-- The main thread is not resumed after the remote thread has ended without the DLL. -/
def NotWithoutDll (s : Launch J) (e : LaunchStep J) : Prop :=
  s.ResumesMain e → s.child.remote ≠ .ended false

instance (s : Launch J) (e : LaunchStep J) : Decidable (NotWithoutDll s e) :=
  inferInstanceAs (Decidable (_ → _))

/-! ### The order of a hook's calls -/

/-- `ended` is reached when nothing but resuming the main thread is left to do. -/
inductive Stage where
  | fresh
  | held
  | awaiting
  | ended
  deriving DecidableEq

/-- The stage after a call, if the call may come in this one. -/
def Stage.after (waits succeeds : Bool) : Stage → Deed → Option Stage
  | .fresh, .createdProcess suspended => some (if suspended then .held else .ended)
  | .held, .createdRemoteThread succeeded =>
    some (if waits && succeeded.getD succeeds then .awaiting else .ended)
  | .awaiting, .waited => some .ended
  | .ended, .resumed => some .ended
  | stage, .other | stage, .sessionUnknown | stage, .loadLibraryANotFound => some stage
  | _, _ => none

/-- The hook keeps the order; one that `waits` does not go on or return before the remote
thread has ended. -/
def Ordered (deed : (i : ι) → Ans i → Deed) (waits : Bool) : Prog ι Ans α → Stage → Prop
  | .done _, stage => stage ≠ .awaiting
  | .ask i next, stage => ∀ a succeeds, ∃ stage',
      stage.after waits succeeds (deed i a) = some stage' ∧ Ordered deed waits (next a) stage'

/-- The process at a stage. -/
def Agrees (waits : Bool) : Stage → Child → Prop
  | .fresh, c => c.created = false ∧ c.started = false ∧ c.remote = .absent
  | .held, c => c.suspendCount = 1 ∧ c.started = false ∧ c.remote = .absent
  | .awaiting, c => c.suspendCount = 1 ∧ c.started = false
  | .ended, c => (waits = true → c.remote ≠ .loading) ∧
      (c.suspendCount = 0 ∨ c.started = true → Loaded c)

def Inv (waits : Bool) (s : Launch J) : Prop :=
  ∃ stage, Ordered J.deed waits s.creator stage ∧ Agrees waits stage s.child

/-- A remote thread that is not running any more has loaded the DLL or ended without it. -/
theorem loaded_of_ended {c : Child} (notLoading : c.remote ≠ .loading)
    (notFailed : c.remote ≠ .ended false) : Loaded c := by
  cases remote : c.remote with
  | absent => exact .inl remote
  | loading => exact absurd remote notLoading
  | ended loaded =>
    cases loaded with
    | false => exact absurd remote notFailed
    | true => exact .inr remote

/-- What a hook that waits is asked for, and one that does not, when the main thread is resumed. -/
def MayResume (waits : Bool) (c : Child) : Prop :=
  c.remote ≠ .ended false ∧ (waits = false → Loaded c)

theorem over_of_resume {waits : Bool} {c : Child} (agrees : Agrees waits .ended c)
    (may : MayResume waits c) : Agrees waits .ended c.resume := by
  refine ⟨agrees.1, fun _ => ?_⟩
  cases waits with
  | false => exact may.2 rfl
  | true => exact loaded_of_ended (agrees.1 rfl) may.1

/-- A call in an allowed order leaves the process as the next stage says. -/
theorem agrees_after {waits succeeds : Bool} {stage stage' : Stage} {d : Deed} {c c' : Child}
    (agrees : Agrees waits stage c) (after : stage.after waits succeeds d = some stage')
    (reacts : c.react succeeds d = some c') (may : d = .resumed → MayResume waits c) :
    Agrees waits stage' c' := by
  cases d with
  | sessionUnknown | loadLibraryANotFound | other =>
    cases reacts
    cases stage <;> cases after <;> exact agrees
  | createdProcess suspended =>
    cases reacts
    cases stage <;> cases after
    cases suspended with
    | true => exact ⟨rfl, agrees.2.1, agrees.2.2⟩
    | false => 
      refine ⟨fun _ => ?_, fun _ => .inl agrees.2.2⟩
      simp [agrees.2.2]
  | createdRemoteThread succeeded =>
    cases reacts
    cases stage <;> cases after
    cases made : succeeded.getD succeeds <;> cases waits <;> simp_all [Agrees, Loaded]
  | waited =>
    rw [Child.react] at reacts
    split at reacts
    · cases reacts
    · next notLoading =>
      cases reacts
      cases stage <;> cases after
      refine ⟨fun _ => notLoading, fun running => ?_⟩
      have held := agrees.1
      have notStarted := agrees.2
      simp [held, notStarted] at running
  | resumed =>
    cases reacts
    cases stage <;> cases after
    exact over_of_resume agrees (may rfl)

/-- Once the hook has returned, every stage has ended. -/
theorem over_of_done {waits : Bool} {stage : Stage} {c : Child} (agrees : Agrees waits stage c)
    (returned : stage ≠ .awaiting) : Agrees waits .ended c := by
  cases stage with
  | awaiting => exact absurd rfl returned
  | ended => exact agrees
  | fresh | held => 
    refine ⟨fun _ => ?_, fun _ => .inl agrees.2.2⟩
    simp [agrees.2.2]

theorem inv_step {waits : Bool} {s s' : Launch J} {e : LaunchStep J} (inv : Inv waits s)
    (may : s.ResumesMain e → MayResume waits s.child) (enabled : s.step e = some s') :
    Inv waits s' := by
  obtain ⟨stage, ordered, agrees⟩ := inv
  obtain ⟨creator, child⟩ := s
  cases e with
  | creator reply succeeds =>
    cases creator with
    | done r => cases enabled
    | ask i next =>
      obtain ⟨child', reacts, rfl⟩ := Option.map_eq_some_iff.mp enabled
      obtain ⟨stage', after, later⟩ := ordered (reply i) succeeds
      exact ⟨stage', later, agrees_after agrees after reacts may⟩
  | callerResumes =>
    cases creator with
    | ask i next => cases enabled
    | done r =>
      cases enabled
      exact ⟨.ended, nofun, over_of_resume (over_of_done agrees ordered) (may trivial)⟩
  | remoteEnds loaded =>
    simp only [Launch.step] at enabled
    split at enabled
    · next loading =>
      cases enabled
      refine ⟨stage, ordered, ?_⟩
      cases stage <;> simp_all [Agrees, Loaded]
    · cases enabled
  | mainStarts =>
    simp only [Launch.step] at enabled
    split at enabled
    · next runs =>
      cases enabled
      refine ⟨stage, ordered, ?_⟩
      cases stage <;> simp_all [Agrees, Loaded]
    · cases enabled

theorem Inv.monitored {waits : Bool} {s : Launch J} (inv : Inv waits s) : Monitored s.child := by
  obtain ⟨stage, -, agrees⟩ := inv
  intro started
  cases stage with
  | fresh | held => exact absurd agrees.2.1 (by simp [started])
  | awaiting => exact absurd agrees.2 (by simp [started])
  | ended => exact agrees.2 (.inr started)

/-! ### The three hooks keep the order -/

section order

variable {deed : (i : ι) → Ans i → Deed} {waits : Bool} {stage : Stage} {i : ι}
  {next : Ans i → Prog ι Ans α}

theorem ordered_done (r : α) (ended : stage ≠ .awaiting) :
    Ordered deed waits (.done r : Prog ι Ans α) stage := ended

/-- A call that does nothing to the process. -/
theorem ordered_other (other : ∀ a, deed i a = .other)
    (later : ∀ a, Ordered deed waits (next a) stage) :
    Ordered deed waits (.ask i next) stage := by
  intro a succeeds
  rw [other a]
  exact ⟨stage, by cases stage <;> rfl, later a⟩

/-- The real call, made with these arguments. -/
theorem ordered_create (args : CreateProcessArgs) (value : Ans i → Answer)
    (creates : ∀ a, deed i a = createdProcess args (value a))
    (failed : ∀ a, value a = 0 → Ordered deed waits (next a) .fresh)
    (later : ∀ a, value a ≠ 0 → Ordered deed waits (next a)
      (if asksSuspended args.dwCreationFlags then .held else .ended)) :
    Ordered deed waits (.ask i next) .fresh := by
  intro a succeeds
  rw [creates a, createdProcess]
  split
  · next none => exact ⟨.fresh, rfl, failed a none⟩
  · next some => exact ⟨_, rfl, later a some⟩

/-- The search for `LoadLibraryA`. -/
theorem ordered_lookedUp (value : Ans i → Option Ptr)
    (looks : ∀ a, deed i a = lookedUp (value a))
    (later : ∀ a, Ordered deed waits (next a) .held) : Ordered deed waits (.ask i next) .held := by
  intro a succeeds
  rw [looks a, lookedUp]
  split <;> exact ⟨.held, rfl, later a⟩

end order

theorem cHookingDll_ordered (args : CreateProcessArgs) :
    Ordered HookEffect.deed false (NativeHooks.myCreateProcessInternalW args) .fresh := by
  simp only [NativeHooks.myCreateProcessInternalW, NativeHooks.intercepted,
    NativeHooks.shouldIntercept_bind, NativeHooks.real_bind, NativeHooks.look_bind,
    NativeHooks.system_bind, NativeHooks.sendToEventPipe_bind, NativeHooks.loadLibraryA_bind]
  apply ordered_other (fun _ => rfl)
  intro intercepting
  cases intercepting with
  | false =>
    apply ordered_create args (fun a => a) (fun _ => rfl)
    · intro processCreated failed
      exact ordered_done _ (by simp)
    · intro processCreated created
      apply ordered_done
      split <;> simp
  | true =>
    apply ordered_create args.suspended (fun a => a) (fun _ => rfl)
    · intro (processCreated : Answer) failed
      subst failed
      exact ordered_done _ (by simp)
    intro (processCreated : Answer) created
    simp only [created, reduceIte, asksSuspended_suspended]
    apply ordered_other (fun _ => rfl)
    intro view
    apply ordered_other (fun _ => rfl)
    intro allocated
    apply ordered_other (fun _ => rfl)
    intro written
    apply ordered_other (fun _ => rfl)
    intro notified
    apply ordered_lookedUp (fun a => a) (fun _ => rfl)
    intro loadLibraryAddress
    cases loadLibraryAddress with
    | none => exact ordered_done _ (by simp)
    | some address =>
      intro thread succeeds
      refine ⟨.ended, rfl, ?_⟩
      split
      · exact fun resumed _ => ⟨.ended, rfl, ordered_done _ (by simp)⟩
      · exact ordered_done _ (by simp)

theorem ordered_resume (waits : Bool) (dwCreationFlags : UInt32) (hThread : Handle) (r : Answer) :
    Ordered InjectorCall.deed waits
      (if (!asksSuspended dwCreationFlags) = true then
        Prog.ask (InjectorCall.resumeThread hThread) fun _ => pure r
      else pure r) .ended := by
  split
  · exact fun resumed _ => ⟨.ended, rfl, ordered_done _ (by simp)⟩
  · exact ordered_done _ (by simp)

theorem serviceHooker_ordered (args : CreateProcessArgs) :
    Ordered InjectorCall.deed false (ServiceHooker.myCreateProcessInternalW args) .fresh := by
  simp only [ServiceHooker.myCreateProcessInternalW, Injection.realCreateProcessInternalW_bind,
    Injection.processInformation_bind, Injection.virtualAllocEx_bind,
    Injection.writeProcessMemory_bind, Injection.getProcAddress_bind,
    Injection.createRemoteThread_bind, Injection.resumeThread_bind]
  apply ordered_create args.suspended (fun a => a) (fun _ => rfl)
  · intro (processCreated : Answer) failed
    subst failed
    exact ordered_done _ (by simp)
  intro (processCreated : Answer) created
  simp only [created, reduceIte, asksSuspended_suspended]
  apply ordered_other (fun _ => rfl)
  intro info
  apply ordered_other (fun _ => rfl)
  intro baseAddress
  apply ordered_other (fun _ => rfl)
  intro written
  apply ordered_lookedUp (fun a => a) (fun _ => rfl)
  intro loadLibraryAddress
  cases loadLibraryAddress with
  | none => exact ordered_done _ (by simp)
  | some address =>
    intro threadHandle succeeds
    exact ⟨.ended, rfl, ordered_resume false _ info.hThread processCreated⟩

theorem injectDcom_ordered (args : CreateProcessArgs) :
    Ordered InjectorCall.deed true (InjectDcom.myCreateProcessInternalW args) .fresh := by
  simp only [InjectDcom.myCreateProcessInternalW, Injection.realCreateProcessInternalW_bind,
    Injection.processInformation_bind, Injection.processIdToSessionId_bind,
    Injection.virtualAllocEx_bind, Injection.writeProcessMemory_bind,
    Injection.getProcAddress_bind, Injection.createRemoteThread_bind,
    Injection.waitForSingleObject_bind, Injection.resumeThread_bind]
  apply ordered_create args.suspended (fun a => a) (fun _ => rfl)
  · intro (processCreated : Answer) failed
    subst failed
    exact ordered_done _ (by simp)
  intro (processCreated : Answer) created
  simp only [created, reduceIte, asksSuspended_suspended]
  apply ordered_other (fun _ => rfl)
  intro info sessionId succeeds
  cases sessionId with
  | none => exact ⟨.held, rfl, ordered_done _ (by simp)⟩
  | some sessionId =>
    refine ⟨.held, rfl, ?_⟩
    apply ordered_other (fun _ => rfl)
    intro baseAddress
    apply ordered_other (fun _ => rfl)
    intro written
    apply ordered_lookedUp (fun a => a) (fun _ => rfl)
    intro loadLibraryAddress
    cases loadLibraryAddress with
    | none => exact ordered_done _ (by simp)
    | some address =>
      intro threadHandle succeeds
      cases threadHandle with
      | none => exact ⟨.ended, rfl, ordered_resume true _ info.hThread processCreated⟩
      | some threadHandle =>
        refine ⟨.awaiting, rfl, fun waited succeeds => ⟨.ended, rfl, ?_⟩⟩
        exact ordered_resume true _ info.hThread processCreated

/-! ### Runs -/

theorem inv_of_reached {waits : Bool} {cond : Launch J → LaunchStep J → Prop}
    {args : CreateProcessArgs} {s : Launch J} (ordered : Ordered J.deed waits (J.hook args) .fresh)
    (may : ∀ s e, Inv waits s → cond s e → s.ResumesMain e → MayResume waits s.child)
    (reached : Runs.Reached Launch.step cond (Launch.init J args) s) : Inv waits s := by
  apply reached.invariant (Inv waits)
  · exact ⟨.fresh, ordered, rfl, rfl, rfl⟩
  · intro s e s' inv meets enabled
    exact inv_step inv (may s e inv meets) enabled

theorem mayResume_of_loaded {c : Child} (loaded : Loaded c) : MayResume false c := by
  refine ⟨?_, fun _ => loaded⟩
  rcases loaded with absent | ended
  · simp [absent]
  · simp [ended]

/-- In every run whose resumptions meet the condition, the DLL is loaded before the main thread
starts: for the two hooks that do not wait they must come after the remote thread's end, for
inject_dcom they only must not come after the failure to load. -/
theorem monitored_of_reached (args : CreateProcessArgs) :
    (∀ s, Runs.Reached Launch.step ResumesLoaded (Launch.init .cHookingDll args) s →
      Monitored s.child) ∧
    (∀ s, Runs.Reached Launch.step ResumesLoaded (Launch.init .serviceHooker args) s →
      Monitored s.child) ∧
    (∀ s, Runs.Reached Launch.step NotWithoutDll (Launch.init .injectDcom args) s →
      Monitored s.child) := by
  refine ⟨?_, ?_, ?_⟩
  · intro s reached
    exact (inv_of_reached (cHookingDll_ordered args)
      (fun s e _ meets resumes => mayResume_of_loaded (meets resumes)) reached).monitored
  · intro s reached
    exact (inv_of_reached (serviceHooker_ordered args)
      (fun s e _ meets resumes => mayResume_of_loaded (meets resumes)) reached).monitored
  · intro s reached
    have inv : Inv true s := inv_of_reached (injectDcom_ordered args)
      (fun s e _ meets resumes => ⟨meets resumes, nofun⟩) reached
    exact inv.monitored

/-- The seven calls of inject_dcom up to the remote thread, which loads the DLL, the end of the
wait, and the main thread. -/
def injectedRun : List (LaunchStep .injectDcom) :=
  let next := LaunchStep.creator (answers (some 1)) true
  List.replicate 7 next ++ [.remoteEnds true, next, next, .mainStarts]

theorem monitored_of_reached_injectedRun :
    ∃ s, Runs.checked Launch.step NotWithoutDll (Launch.init .injectDcom running) injectedRun =
      some s ∧ s.child.started = true ∧ Monitored s.child :=
  ⟨_, (Option.some_get (by decide)).symm, by decide,
    (monitored_of_reached running).2.2 _ (.of_checked (Option.some_get (by decide)).symm)⟩

/-! ### A run against the condition -/

/-- Whenever the main thread is set going against the condition, it can start at once. -/
theorem not_monitored_of_resumed {s s' : Launch J} {e : LaunchStep J} (resumes : s.ResumesMain e)
    (enabled : s.step e = some s') (created : s.child.created = true)
    (held : s.child.suspendCount = 1) (notLoaded : ¬ Loaded s.child) :
    ∃ s'', s'.step .mainStarts = some s'' ∧ ¬ Monitored s''.child := by
  have resumed : s'.child = s.child.resume := by
    cases e with
    | remoteEnds loaded => cases resumes
    | mainStarts => cases resumes
    | callerResumes =>
      simp only [Launch.step] at enabled
      split at enabled <;> cases enabled
      rfl
    | creator reply succeeds =>
      simp only [Launch.step] at enabled
      simp only [Launch.ResumesMain] at resumes
      cases creator : s.creator with
      | done r => simp [creator] at resumes
      | ask i next =>
        simp only [creator] at enabled resumes
        simp only [resumes, Child.react, Option.map_some, Option.some.injEq] at enabled
        subst enabled
        rfl
  refine ⟨{ s' with child := { s'.child with started := true } }, ?_, ?_⟩
  · simp [Launch.step, resumed, Child.resume, created, held]
  · intro monitored
    apply notLoaded
    have loaded := monitored rfl
    rw [resumed] at loaded
    exact loaded

/-- serviceHooker resumes the main thread while the remote thread loads the DLL. -/
def hastyRun : List (LaunchStep .serviceHooker) :=
  List.replicate 7 (.creator (answers none) true) ++ [.mainStarts]

theorem not_monitored : ¬ ∀ J ∈ [Injector.cHookingDll, .serviceHooker, .injectDcom],
    ∀ args s, Runs.Reached Launch.step (fun _ _ => True) (Launch.init J args) s →
      Monitored s.child := by
  intro monitored
  have reached : Runs.Reached Launch.step (fun _ _ => True) (Launch.init .serviceHooker running)
      ((Runs.checked Launch.step (fun _ _ => True) (Launch.init .serviceHooker running)
        hastyRun).get (by decide)) := .of_checked (Option.some_get _).symm
  exact absurd (monitored .serviceHooker (by simp) running _ reached) (by decide)

end GuestAgent.Guarantees.ChildStart
