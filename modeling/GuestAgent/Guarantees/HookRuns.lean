import GuestAgent.Guarantees.HookTransparency

/-!
The two descriptions of the file hooks agree: what a hook sends before and behind the real call
and what it keeps in the handle map, read off its log, is the `HookRun` of the hook. The guarantees
on what is reported about files rest on the `HookRun`, those on the calls on the hook as a program.
-/
namespace GuestAgent.Guarantees.HookRuns
open Library Source NativeHooks HookTransparency

variable {σ α : Type}

/-- What a log tells of a hook that finds `handles` in the handle map. -/
def hookRun (handles : HandleMap) : List ((i : HookEffect) × Option i.Result) → HookRun
  | [] => ⟨[], [], handles⟩
  | ⟨.sendToEventPipe e, _⟩ :: rest =>
    { hookRun handles rest with before := e :: (hookRun handles rest).before }
  | ⟨.real _, _⟩ :: rest =>
    { hookRun handles rest with
      before := []
      after := (hookRun handles rest).before ++ (hookRun handles rest).after }
  | ⟨.insert h path, _⟩ :: rest => hookRun (handles.insert h path) rest
  | ⟨.shouldIntercept, _⟩ :: rest | ⟨.look, _⟩ :: rest | ⟨.loadLibraryA, _⟩ :: rest
  | ⟨.lookup _, _⟩ :: rest | ⟨.system _, _⟩ :: rest => hookRun handles rest

def ran (m : Machine σ) (handles : HandleMap) (p : Hook α) (s : σ) : HookRun :=
  hookRun handles (p.log m.handler s)

section ran

variable {m : Machine σ} {handles : HandleMap} {s s' : σ}

@[simp] theorem ran_done (a : α) : ran m handles (Prog.done a) s = ⟨[], [], handles⟩ := rfl

@[simp] theorem ran_shouldIntercept (k : Bool → Hook α) :
    ran m handles (Prog.ask HookEffect.shouldIntercept k) s
      = ran m handles (k (HookingDepth.shouldIntercept (m.depth s))) s := rfl

@[simp] theorem ran_look (k : View → Hook α) :
    ran m handles (Prog.ask HookEffect.look k) s = ran m handles (k (m.look s)) s := rfl

@[simp] theorem ran_lookup (h : Handle) (k : Option WString → Hook α) :
    ran m handles (Prog.ask (HookEffect.lookup h) k) s = ran m handles (k (m.lookup h s)) s := rfl

@[simp] theorem ran_insert (h : Handle) (path : WString) (k : Unit → Hook α) :
    ran m handles (Prog.ask (HookEffect.insert h path) k) s
      = ran m (handles.insert h path) (k ()) (m.insert h path s) := rfl

theorem ran_send {e : Event} (taken : m.send e s = some s') (k : Unit → Hook α) :
    ran m handles (Prog.ask (HookEffect.sendToEventPipe e) k) s
      = { ran m handles (k ()) s' with before := e :: (ran m handles (k ()) s').before } := by
  have answered : m.handler (.sendToEventPipe e) s = some ((), s') := by
    rw [Machine.handler, taken]
    rfl
  rw [ran, Prog.log_ask_some answered k, hookRun, ran]

/-- An event that is the last thing a hook does, taken or not. -/
theorem ran_send_done (e : Event) (a : α) :
    ran m handles (Prog.ask (HookEffect.sendToEventPipe e) fun _ : Unit => Prog.done a) s
      = ⟨[e], [], handles⟩ := by
  cases taken : m.send e s with
  | some s' => rw [ran_send taken, ran_done]
  | none =>
    have stuck : m.handler (.sendToEventPipe e) s = none := by
      rw [Machine.handler, taken]
      rfl
    rw [ran, Prog.log_ask_none stuck fun _ : Unit => Prog.done a, hookRun, hookRun]

theorem ran_real {c : NativeCall} {answer : Answer} (real : m.real c s = some (answer, s'))
    (k : Answer → Hook α) :
    ran m handles (Prog.ask (HookEffect.real c) k) s =
      { ran m handles (k answer) s' with
        before := []
        after := (ran m handles (k answer) s').before ++ (ran m handles (k answer) s').after } := by
  have answered : m.handler (.real c) s = some (answer, s') := real
  rw [ran, Prog.log_ask_some answered k, hookRun, ran]

end ran

section Hooks

variable {m : Machine σ} {handles : HandleMap} {s s₁ s₂ : σ} {status : Answer}

/-- Inside an event a hook with the bypass sends and keeps nothing. -/
theorem intercepted_ran_inside {c : NativeCall} (p : Hook (Option Answer))
    (inside : m.depth s ≠ 0) (real : m.real c s = some (status, s₁)) :
    ran m handles (intercepted c p) s = ⟨[], [], handles⟩ := by
  rw [intercepted, shouldIntercept_bind, ran_shouldIntercept, HookingDepth.shouldIntercept,
    beq_false_of_ne inside]
  exact ran_real real _

theorem intercepted_ran {c : NativeCall} (p : Hook (Option Answer)) (outside : m.depth s = 0) :
    ran m handles (intercepted c p) s = ran m handles p s := by
  rw [intercepted, shouldIntercept_bind, ran_shouldIntercept, HookingDepth.shouldIntercept, outside]
  rfl

/-- The hooks of the opening and the creation of a file; `s₁` is the state the event leaves. -/
theorem fileHook_ran {mode : FileMode} {fileHandle : Ptr} {mask : AccessMask}
    {objectAttributes : Ptr} {c : NativeCall} {oa : ObjectAttributes} (outside : m.depth s = 0)
    (attributes : (m.look s).objectAttributes objectAttributes = some oa)
    (told : if isRequestingWriteAccess (m.look s).process mask
      then m.send (.fileAccess (getFullPathByObjectAttributes (m.look s).process oa) mode) s
        = some s₁
      else s₁ = s)
    (real : m.real c s₁ = some (status, s₂)) :
    ran m handles (fileHook mode fileHandle mask objectAttributes c) s
      = openHook mode (m.look s).process mask oa ⟨status, (m.look s₂).handleAt fileHandle⟩
          handles := by
  rw [fileHook, intercepted_ran _ outside, look_bind, ran_look, attributes, openHook, openEvents]
  by_cases writes : isRequestingWriteAccess (m.look s).process mask = true
  · rw [if_pos writes] at told
    simp only [writes, ↓reduceIte, sendToEventPipe_bind, ran_send told, real_bind, ran_real real]
    by_cases success : status = 0
    · simp [success]
    · simp [success]
  · rw [if_neg writes] at told
    subst told
    simp only [writes, Bool.false_eq_true, ↓reduceIte, real_bind, ran_real real]
    by_cases success : status = 0
    · simp [success]
    · simp [success]

theorem myNtDeleteFile_ran {objectAttributes : Ptr} {oa : ObjectAttributes}
    (outside : m.depth s = 0) (real : m.real (.ntDeleteFile objectAttributes) s = some (status, s₁))
    (attributes : (m.look s₁).objectAttributes objectAttributes = some oa) :
    ran m handles (NativeHooks.myNtDeleteFile objectAttributes) s
      = Source.myNtDeleteFile (m.look s₁).process oa handles := by
  rw [NativeHooks.myNtDeleteFile, intercepted_ran _ outside, real_bind, ran_real real]
  simp only [look_bind, ran_look, attributes, sendToEventPipe_bind, Prog.pure_eq, ran_send_done]
  rfl

theorem myNtSetInformationFile_ran {fileHandle : Handle} {io fileInformation : Ptr}
    {length fileInformationClass : UInt32} (outside : m.depth s = 0)
    (kept : m.lookup fileHandle s = handles.lookup fileHandle)
    (real : m.real
      (.ntSetInformationFile fileHandle io fileInformation length fileInformationClass) s
        = some (status, s₁)) :
    ran m handles
        (NativeHooks.myNtSetInformationFile fileHandle io fileInformation length
          fileInformationClass) s
      = Source.myNtSetInformationFile (m.look s₁).process fileHandle fileInformationClass
          ((m.look s₁).renameInformation fileInformation) status handles := by
  rw [NativeHooks.myNtSetInformationFile, intercepted_ran _ outside, Source.myNtSetInformationFile]
  by_cases rename : fileInformationClass = fileRenameInformation
  · simp only [rename, ↓reduceIte, lookup_bind, ran_lookup, real_bind, kept]
    rw [ran_real (rename ▸ real)]
    by_cases success : status = 0
    · simp only [success, ↓reduceIte, look_bind, ran_look, sendToEventPipe_bind, Prog.pure_eq,
        ran_send_done, renameEvent]
      cases handles.lookup fileHandle <;> rfl
    · simp [success]
  · simp [rename, ran_real real]

theorem myNtClose_ran {handle : Handle} (outside : m.depth s = 0)
    (real : m.real (.ntClose handle) s = some (status, s₁)) :
    ran m handles (NativeHooks.myNtClose handle) s = Source.myNtClose handles := by
  rw [NativeHooks.myNtClose, intercepted_ran _ outside, real_bind, ran_real real]
  rfl

end Hooks

end GuestAgent.Guarantees.HookRuns
