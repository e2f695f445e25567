import GuestAgent.Source.NativeHooks

/-!
Whether an analysed program can notice the hooks.

A hook is transparent for a call when it makes that call once, unchanged but for a process created
suspended, and returns its answer. `Passes` is the condition for it: the function is not
`NtOpenKeyEx`, whose hook calls `NtOpenKey`; what the hook reads can be read; the events it sends
are taken; a created process finds `LoadLibraryA`. A program whose calls pass observes the same
results with the hooks and without them.
-/
namespace GuestAgent.Guarantees.HookTransparency
open Library Source NativeHooks

variable {σ ω α : Type}

/-- The process and the system around the hooks. A real function that ends the process does not
answer; the sending of an event may go on for ever. -/
structure Machine (σ : Type) where
  depth : σ → HookingDepth.Depth
  look : σ → View
  loadLibraryA : σ → Option Ptr
  real : NativeCall → σ → Option (Answer × σ)
  send : Event → σ → Option σ
  lookup : Handle → σ → Option WString
  insert : Handle → WString → σ → σ
  system : SystemCall → σ → σ

def Machine.handler (m : Machine σ) : (i : HookEffect) → σ → Option (i.Result × σ)
  | .shouldIntercept, s => some (HookingDepth.shouldIntercept (m.depth s), s)
  | .look, s => some (m.look s, s)
  | .loadLibraryA, s => some (m.loadLibraryA s, s)
  | .real c, s => m.real c s
  | .sendToEventPipe e, s => (m.send e s).map fun s' => ((), s')
  | .lookup h, s => some (m.lookup h s, s)
  | .insert h path, s => some ((), m.insert h path s)
  | .system c, s => some ((), m.system c s)

/-! ### The real calls of a hook -/

def realCall : (i : HookEffect) × Option i.Result → Option (NativeCall × Option Answer)
  | ⟨.real c, answer⟩ => some (c, answer)
  | _ => none

/-- The real calls a hook makes, and what it returns. -/
def traced (m : Machine σ) (p : Hook α) (s : σ) : List (NativeCall × Option Answer) × Option α :=
  ((p.log m.handler s).filterMap realCall, (p.run m.handler s).map Prod.fst)

/-- The call itself, or the creation of a process with the flag `CREATE_SUSPENDED` added. -/
inductive PassedOn : NativeCall → NativeCall → Prop where
  | unchanged (c : NativeCall) : PassedOn c c
  | suspended (args : CreateProcessArgs) :
      PassedOn (.createProcessInternalW args) (.createProcessInternalW args.suspended)

/-- The hook makes the call it stands for exactly once and returns what that returns. -/
def Transparent (m : Machine σ) (behind : Nat → UInt32) (c : NativeCall) (s : σ) : Prop :=
  ∃ c' answer, PassedOn c c' ∧ traced m (hook behind c) s = ([(c', answer)], answer.map some)

section traced

variable (m : Machine σ) (s : σ)

@[simp] theorem traced_done (a : α) : traced m (Prog.done a) s = ([], some a) := rfl

theorem traced_of_not_real {i : HookEffect} (other : ∀ c, i ≠ .real c) (k : i.Result → Hook α) :
    traced m (Prog.ask i k) s = match m.handler i s with
      | none => ([], none)
      | some (a, s') => traced m (k a) s' := by
  have nothing (answer : Option i.Result) : realCall ⟨i, answer⟩ = none := by
    cases i with
    | real c => exact absurd rfl (other c)
    | _ => rfl
  cases answered : m.handler i s with
  | none =>
    rw [traced, Prog.log_ask_none answered, Prog.run_ask_none answered]
    simp [nothing]
  | some result =>
    rw [traced, Prog.log_ask_some answered, Prog.run_ask_some answered]
    simp [nothing, traced]

theorem traced_sendToEventPipe (e : Event) (k : Unit → Hook α) :
    traced m (Prog.ask (HookEffect.sendToEventPipe e) k) s = match m.send e s with
      | none => ([], none)
      | some s' => traced m (k ()) s' := by
  rw [traced_of_not_real m s (i := .sendToEventPipe e) (by simp) k, Machine.handler]
  cases m.send e s <;> rfl

theorem traced_real (c : NativeCall) (k : Answer → Hook α) :
    traced m (Prog.ask (HookEffect.real c) k) s = match m.real c s with
      | none => ([(c, none)], none)
      | some (a, s') => ((c, some a) :: (traced m (k a) s').1, (traced m (k a) s').2) := by
  cases real : m.real c s with
  | none =>
    have stuck : m.handler (.real c) s = none := real
    rw [traced, Prog.log_ask_none stuck k, Prog.run_ask_none stuck k]
    rfl
  | some result =>
    have answered : m.handler (.real c) s = some result := real
    rw [traced, Prog.log_ask_some answered k, Prog.run_ask_some answered k]
    rfl

end traced

/-! ### When a call passes -/

section Passes

variable (m : Machine σ) (behind : Nat → UInt32)

/-- The attributes are readable, and the event on a file to be written is taken. -/
def FilePasses (mode : FileMode) (mask : AccessMask) (objectAttributes : Ptr) (s : σ) : Prop :=
  ∃ oa, (m.look s).objectAttributes objectAttributes = some oa ∧
    (isRequestingWriteAccess (m.look s).process mask →
      (m.send (.fileAccess (getFullPathByObjectAttributes (m.look s).process oa) mode) s).isSome)

/-- Behind the real call, the attributes are still readable and the event is taken. -/
def DeletePasses (objectAttributes : Ptr) (s : σ) : Prop :=
  ∀ res s', m.real (.ntDeleteFile objectAttributes) s = some (res, s') →
    ∃ oa, (m.look s').objectAttributes objectAttributes = some oa ∧
      (m.send (.fileAccess (getFullPathByObjectAttributes (m.look s').process oa) .deleted)
        s').isSome

def KeyPasses (mode : KeyMode) (mask : AccessMask) (objectAttributes : Ptr) (s : σ) : Prop :=
  isRequestingRegistryWriteAccess behind mask →
    ∃ oa, (m.look s).objectAttributes objectAttributes = some oa ∧
      (m.send (.registryAccess (getKeyPathFromOA (m.look s) oa) mode) s).isSome

/-- The event on a successful rename is taken. -/
def RenamePasses (fileHandle : Handle) (fileInformation : Ptr) (c : NativeCall) (s : σ) : Prop :=
  ∀ s', m.real c s = some (0, s') →
    (m.send (renameEvent (m.lookup fileHandle s)
      (renamedPath (m.look s').process ((m.look s').renameInformation fileInformation)))
        s').isSome

/-- The event on a new process is taken, and `LoadLibraryA` is found then. -/
def CreateProcessPasses (args : CreateProcessArgs) (s : σ) : Prop :=
  ∀ res s', m.real (.createProcessInternalW args.suspended) s = some (res, s') → res ≠ 0 →
    let info := (m.look s').processInformation args.lpProcessInformation
    ∃ s'', m.send (.newPid (m.look s').currentProcessId info.dwProcessId)
        (m.system (.writeProcessMemory info.hProcess)
          (m.system (.virtualAllocEx info.hProcess) s')) = some s'' ∧
      (m.loadLibraryA s'').isSome

/-- What a call needs to go through its hook unnoticed, by the kind of the call. -/
def Passes : NativeCall → σ → Prop
  | .ntCreateFile _ mask objectAttributes .., s =>
    m.depth s = 0 → FilePasses m .created mask objectAttributes s
  | .ntOpenFile _ mask objectAttributes .., s =>
    m.depth s = 0 → FilePasses m .opened mask objectAttributes s
  | .ntDeleteFile objectAttributes, s => m.depth s = 0 → DeletePasses m objectAttributes s
  | .ntOpenKey _ mask objectAttributes, s =>
    m.depth s = 0 → KeyPasses m behind .opened mask objectAttributes s
  | .ntOpenKeyEx .., _ => False
  | .ntCreateKey _ mask objectAttributes .., s =>
    KeyPasses m behind .created mask objectAttributes s
  | .ntCreateKeyTransacted _ mask objectAttributes .., s =>
    KeyPasses m behind .created mask objectAttributes s
  | .ntSetInformationFile fileHandle io fileInformation length fileInformationClass, s =>
    m.depth s = 0 → fileInformationClass = fileRenameInformation →
      RenamePasses m fileHandle fileInformation
        (.ntSetInformationFile fileHandle io fileInformation length fileInformationClass) s
  | .ntClose _, _ => True
  | .createProcessInternalW args, s => m.depth s = 0 → CreateProcessPasses m args s
  | .exitProcess _, s =>
    m.depth s = 0 → (m.send (.removedPid (m.look s).currentProcessId) s).isSome
  | .supplementary _, _ => True

end Passes

/-! ### Call by call -/

section Calls

variable {m : Machine σ} {s : σ}

/-- The hook makes the real call `c` once and returns its answer. -/
def Returns (m : Machine σ) (p : Hook (Option Answer)) (c : NativeCall) (s : σ) : Prop :=
  ∃ answer, traced m p s = ([(c, answer)], answer.map some)

/-- What is left of a hook makes no real call and returns `answer`. -/
def Finishes (m : Machine σ) (p : Hook (Option Answer)) (answer : Answer) (s : σ) : Prop :=
  traced m p s = ([], some (some answer))

theorem transparent_iff {behind : Nat → UInt32} {c : NativeCall} :
    Transparent m behind c s ↔ ∃ c', PassedOn c c' ∧ Returns m (hook behind c) c' s := by
  simp only [Transparent, Returns, exists_and_left]

/-! Effects that are always answered pass through. -/

@[simp] theorem returns_look (k : View → Hook (Option Answer)) (c : NativeCall) :
    Returns m (Prog.ask HookEffect.look k) c s ↔ Returns m (k (m.look s)) c s := Iff.rfl

@[simp] theorem returns_lookup (h : Handle) (k : Option WString → Hook (Option Answer))
    (c : NativeCall) : Returns m (Prog.ask (HookEffect.lookup h) k) c s ↔
      Returns m (k (m.lookup h s)) c s := Iff.rfl

@[simp] theorem not_returns_done (answer : Option Answer) (c : NativeCall) :
    ¬ Returns m (Prog.done answer) c s := by
  simp [Returns]

@[simp] theorem finishes_done (answer : Option Answer) (answer' : Answer) :
    Finishes m (Prog.done answer) answer' s ↔ answer = some answer' := by
  simp [Finishes]

@[simp] theorem finishes_look (k : View → Hook (Option Answer)) (answer : Answer) :
    Finishes m (Prog.ask HookEffect.look k) answer s ↔ Finishes m (k (m.look s)) answer s :=
  Iff.rfl

@[simp] theorem finishes_loadLibraryA (k : Option Ptr → Hook (Option Answer)) (answer : Answer) :
    Finishes m (Prog.ask HookEffect.loadLibraryA k) answer s ↔
      Finishes m (k (m.loadLibraryA s)) answer s := Iff.rfl

@[simp] theorem finishes_lookup (h : Handle) (k : Option WString → Hook (Option Answer))
    (answer : Answer) : Finishes m (Prog.ask (HookEffect.lookup h) k) answer s ↔
      Finishes m (k (m.lookup h s)) answer s := Iff.rfl

@[simp] theorem finishes_insert (h : Handle) (path : WString) (k : Unit → Hook (Option Answer))
    (answer : Answer) : Finishes m (Prog.ask (HookEffect.insert h path) k) answer s ↔
      Finishes m (k ()) answer (m.insert h path s) := Iff.rfl

@[simp] theorem finishes_system (c : SystemCall) (k : Unit → Hook (Option Answer))
    (answer : Answer) : Finishes m (Prog.ask (HookEffect.system c) k) answer s ↔
      Finishes m (k ()) answer (m.system c s) := Iff.rfl

@[simp] theorem finishes_ite {P : Prop} [Decidable P] (p q : Hook (Option Answer))
    (answer : Answer) : Finishes m (if P then p else q) answer s ↔
      (P → Finishes m p answer s) ∧ (¬P → Finishes m q answer s) := by
  by_cases taken : P <;> simp [taken]

/-! An event must be taken, and the real call be the one passed on. -/

theorem finishes_send (e : Event) (k : Unit → Hook (Option Answer)) (answer : Answer) :
    Finishes m (Prog.ask (HookEffect.sendToEventPipe e) k) answer s ↔
      ∃ s', m.send e s = some s' ∧ Finishes m (k ()) answer s' := by
  rw [Finishes, traced_sendToEventPipe]
  cases m.send e s <;> simp [Finishes]

theorem returns_send (e : Event) (k : Unit → Hook (Option Answer)) (c : NativeCall) :
    Returns m (Prog.ask (HookEffect.sendToEventPipe e) k) c s ↔
      ∃ s', m.send e s = some s' ∧ Returns m (k ()) c s' := by
  rw [Returns, traced_sendToEventPipe]
  cases m.send e s <;> simp [Returns]

/-- The real call of a hook is the one it passes on, and the rest makes no other. -/
theorem returns_real (c c' : NativeCall) (k : Answer → Hook (Option Answer)) :
    Returns m (Prog.ask (HookEffect.real c) k) c' s ↔
      c = c' ∧ ∀ answer s', m.real c s = some (answer, s') → Finishes m (k answer) answer s' := by
  rw [Returns, traced_real]
  cases real : m.real c s with
  | none => simp
  | some result =>
    obtain ⟨answer, s'⟩ := result
    constructor
    · intro ⟨returned, same⟩
      simp only [Prod.mk.injEq, List.cons.injEq] at same
      obtain ⟨⟨⟨rfl, rfl⟩, noCall⟩, result⟩ := same
      refine ⟨rfl, fun answer'' s'' same => ?_⟩
      cases same
      exact Prod.ext noCall result
    · intro ⟨same, finishes⟩
      have rest := finishes answer s' rfl
      rw [Finishes] at rest
      exact ⟨some answer, by simp [rest, same]⟩

/-- Inside an event a hook with the bypass is the real call. -/
theorem returns_intercepted {c c' : NativeCall} {p : Hook (Option Answer)} :
    Returns m (intercepted c p) c' s ↔
      (m.depth s = 0 → Returns m p c' s) ∧ (m.depth s ≠ 0 → c = c') := by
  have ask : Returns m (intercepted c p) c' s ↔
      Returns m (if HookingDepth.shouldIntercept (m.depth s) = true then p
        else Prog.ask (HookEffect.real c) fun answer : Answer => .done (some answer)) c' s := Iff.rfl
  rw [ask]
  by_cases outside : m.depth s = 0
  · simp [HookingDepth.shouldIntercept, outside]
  · simp [HookingDepth.shouldIntercept, outside, returns_real]

/-- A notice on a key goes before the real call. -/
theorem returns_keyHook {behind : Nat → UInt32} {mode : KeyMode} {mask : AccessMask}
    {objectAttributes : Ptr} {c c' : NativeCall} :
    Returns m (keyHook behind mode mask objectAttributes c) c' s ↔
      c = c' ∧ KeyPasses m behind mode mask objectAttributes s := by
  rw [keyHook, KeyPasses]
  by_cases writes : isRequestingRegistryWriteAccess behind mask = true
  · simp only [writes, ↓reduceIte, look_bind, returns_look, forall_const]
    cases attributes : (m.look s).objectAttributes objectAttributes with
    | none => simp
    | some oa => simp [returns_send, returns_real, Option.isSome_iff_exists, and_comm]
  · simp [writes, returns_real]

/-- A notice on a file goes before the real call, and a handle is kept behind it. -/
theorem returns_fileHook {mode : FileMode} {fileHandle : Ptr} {mask : AccessMask}
    {objectAttributes : Ptr} {c c' : NativeCall} :
    Returns m (fileHook mode fileHandle mask objectAttributes c) c' s ↔
      c = c' ∧ (m.depth s = 0 → FilePasses m mode mask objectAttributes s) := by
  rw [fileHook, returns_intercepted, look_bind]
  simp only [returns_look]
  by_cases outside : m.depth s = 0
  · simp only [outside, forall_const, ne_eq, not_true_eq_false, false_implies, and_true]
    rw [FilePasses]
    cases attributes : (m.look s).objectAttributes objectAttributes with
    | none => simp
    | some oa =>
      by_cases writes : isRequestingWriteAccess (m.look s).process mask = true
      · simp [writes, returns_send, returns_real, Option.isSome_iff_exists, and_comm]
      · simp [writes, returns_real]
  · simp [outside]

theorem returns_myNtDeleteFile {objectAttributes : Ptr} :
    Returns m (myNtDeleteFile objectAttributes) (.ntDeleteFile objectAttributes) s ↔
      (m.depth s = 0 → DeletePasses m objectAttributes s) := by
  rw [NativeHooks.myNtDeleteFile, returns_intercepted, DeletePasses, real_bind, returns_real]
  simp only [look_bind, finishes_look, true_and, implies_true, and_true]
  refine imp_congr_right fun _ => forall_congr' fun res => forall_congr' fun s' =>
    imp_congr_right fun _ => ?_
  cases attributes : (m.look s').objectAttributes objectAttributes with
  | none => simp
  | some oa => simp [finishes_send, Option.isSome_iff_exists]

theorem returns_myNtSetInformationFile {fileHandle : Handle} {io fileInformation : Ptr}
    {length fileInformationClass : UInt32} :
    Returns m (myNtSetInformationFile fileHandle io fileInformation length fileInformationClass)
        (.ntSetInformationFile fileHandle io fileInformation length fileInformationClass) s ↔
      (m.depth s = 0 → fileInformationClass = fileRenameInformation →
        RenamePasses m fileHandle fileInformation
          (.ntSetInformationFile fileHandle io fileInformation length fileInformationClass) s) := by
  rw [NativeHooks.myNtSetInformationFile, returns_intercepted, RenamePasses]
  simp only [implies_true, and_true]
  refine imp_congr_right fun _ => ?_
  by_cases rename : fileInformationClass = fileRenameInformation
  · simp only [rename, ↓reduceIte, lookup_bind, returns_lookup, real_bind, returns_real, look_bind,
      sendToEventPipe_bind, Prog.pure_eq, finishes_ite, finishes_look, finishes_send, finishes_done,
      and_true, implies_true, true_and, forall_const, Option.isSome_iff_exists]
    constructor
    · intro taken s' renamed
      exact taken 0 s' renamed rfl
    · intro taken res s' renamed success
      exact taken s' (success ▸ renamed)
  · simp [rename, returns_real]

theorem returns_myNtClose (handle : Handle) :
    Returns m (myNtClose handle) (.ntClose handle) s := by
  rw [NativeHooks.myNtClose, returns_intercepted]
  simp [returns_real]

theorem returns_mySupplementary (c : SupplementaryCall) :
    Returns m (mySupplementary c) (.supplementary c) s := by
  rw [mySupplementary, returns_intercepted]
  simp [returns_real]

theorem returns_myExitProcess {uExitCode : UInt32} :
    Returns m (myExitProcess uExitCode) (.exitProcess uExitCode) s ↔
      (m.depth s = 0 → (m.send (.removedPid (m.look s).currentProcessId) s).isSome) := by
  rw [myExitProcess, returns_intercepted]
  simp [returns_send, returns_real, Option.isSome_iff_exists]

/-- The process is created suspended, and resumed behind the event. -/
theorem returns_myCreateProcessInternalW {args : CreateProcessArgs} (outside : m.depth s = 0) :
    Returns m (myCreateProcessInternalW args) (.createProcessInternalW args.suspended) s ↔
      CreateProcessPasses m args s := by
  rw [myCreateProcessInternalW, returns_intercepted, CreateProcessPasses, real_bind, returns_real]
  simp only [outside, ne_eq, not_true_eq_false, false_implies, and_true, true_implies, true_and,
    finishes_ite, Prog.pure_eq, finishes_done, implies_true, look_bind, finishes_look, system_bind,
    finishes_system, sendToEventPipe_bind, finishes_send, loadLibraryA_bind, finishes_loadLibraryA]
  refine forall_congr' fun res => forall_congr' fun s' => imp_congr_right fun _ =>
    imp_congr_right fun created => exists_congr fun s'' => and_congr_right fun _ => ?_
  cases m.loadLibraryA s'' with
  | none => simp [Ne.symm created]
  | some address => simp

/-- A call that is not the creation of a process can only be passed on unchanged. -/
theorem transparent_iff_returns {behind : Nat → UInt32} {c : NativeCall}
    (plain : ∀ args, c ≠ .createProcessInternalW args) :
    Transparent m behind c s ↔ Returns m (hook behind c) c s := by
  rw [transparent_iff]
  constructor
  · intro ⟨c', passedOn, returns⟩
    cases passedOn with
    | unchanged => exact returns
    | suspended args => exact absurd rfl (plain args)
  · intro returns
    exact ⟨c, .unchanged c, returns⟩

theorem transparent_createProcess_iff {behind : Nat → UInt32} {args : CreateProcessArgs} :
    Transparent m behind (.createProcessInternalW args) s ↔
      (m.depth s = 0 → CreateProcessPasses m args s) := by
  rw [transparent_iff]
  by_cases outside : m.depth s = 0
  · simp only [outside, forall_const]
    rw [← returns_myCreateProcessInternalW outside]
    constructor
    · intro ⟨c', passedOn, returns⟩
      cases passedOn with
      | unchanged =>
        -- the hook adds the flag, so the call passed on has it already
        have same := (returns_intercepted.mp returns).1 outside
        rw [real_bind, returns_real] at same
        rw [same.1]
        exact returns
      | suspended => exact returns
    · intro returns
      exact ⟨_, .suspended args, returns⟩
  · simp only [outside, false_implies, iff_true]
    exact ⟨_, .unchanged _, returns_intercepted.mpr ⟨fun inside => absurd inside outside,
      fun _ => rfl⟩⟩

/-- A hook is transparent for exactly the calls that pass. -/
theorem transparent_iff_passes (m : Machine σ) (behind : Nat → UInt32) (c : NativeCall) (s : σ) :
    Transparent m behind c s ↔ Passes m behind c s := by
  cases c with
  | createProcessInternalW args => exact transparent_createProcess_iff
  | ntOpenKeyEx =>
    rw [transparent_iff_returns (by simp)]
    simp only [hook, myNtOpenKeyEx, returns_intercepted, returns_keyHook, Passes]
    by_cases outside : m.depth s = 0 <;> simp [outside]
  | ntCreateFile =>
    rw [transparent_iff_returns (by simp)]
    simp [hook, NativeHooks.myNtCreateFile, returns_fileHook, Passes]
  | ntOpenFile =>
    rw [transparent_iff_returns (by simp)]
    simp [hook, NativeHooks.myNtOpenFile, returns_fileHook, Passes]
  | ntDeleteFile =>
    rw [transparent_iff_returns (by simp)]
    exact returns_myNtDeleteFile
  | ntOpenKey =>
    rw [transparent_iff_returns (by simp)]
    simp [hook, myNtOpenKey, returns_intercepted, returns_keyHook, Passes]
  | ntCreateKey =>
    rw [transparent_iff_returns (by simp)]
    simp [hook, myNtCreateKey, returns_keyHook, Passes]
  | ntCreateKeyTransacted =>
    rw [transparent_iff_returns (by simp)]
    simp [hook, myNtCreateKeyTransacted, returns_keyHook, Passes]
  | ntSetInformationFile =>
    rw [transparent_iff_returns (by simp)]
    exact returns_myNtSetInformationFile
  | ntClose handle =>
    rw [transparent_iff_returns (by simp)]
    exact iff_of_true (returns_myNtClose handle) trivial
  | exitProcess =>
    rw [transparent_iff_returns (by simp)]
    exact returns_myExitProcess
  | supplementary c =>
    rw [transparent_iff_returns (by simp)]
    exact iff_of_true (returns_mySupplementary c) trivial

end Calls

/-! ### Programs -/

/-- An analysed program, as the native functions it calls. -/
abbrev Program := Prog NativeCall fun _ => Answer

section Programs

variable {m : Machine σ} {obs : σ → ω} {behind : Nat → UInt32}

/-- A native function with its hook before it; an access violation ends the program. -/
def hooked (m : Machine σ) (behind : Nat → UInt32) (c : NativeCall) (s : σ) :
    Option (Answer × σ) :=
  match (hook behind c).run m.handler s with
  | some (some answer, s') => some (answer, s')
  | _ => none

def SameView (obs : σ → ω) (s t : σ) : Prop := obs s = obs t

/-- What programs observe of the state decides the answers of the real functions; it does not
show what the hooks do on their own, nor that a new process was created suspended. -/
structure Unobserved (m : Machine σ) (obs : σ → ω) : Prop where
  real : ∀ c s t, SameView obs s t → Prog.Agree (SameView obs) (m.real c s) (m.real c t)
  suspended : ∀ args s t, SameView obs s t → Prog.Agree (SameView obs)
    (m.real (.createProcessInternalW args.suspended) s) (m.real (.createProcessInternalW args) t)
  send : ∀ e s s', m.send e s = some s' → SameView obs s' s
  insert : ∀ h path s, SameView obs (m.insert h path s) s
  system : ∀ c s, SameView obs (m.system c s) s

/-- What is not a real call leaves the view of programs. -/
theorem view_of_not_real (unobserved : Unobserved m obs) {i : HookEffect}
    (other : ∀ c, i ≠ .real c) {s s' : σ} {a : i.Result} (answered : m.handler i s = some (a, s')) :
    SameView obs s' s := by
  cases i with
  | real c => exact absurd rfl (other c)
  | sendToEventPipe e =>
    obtain ⟨s'', sent, same⟩ := Option.map_eq_some_iff.mp answered
    cases same
    exact unobserved.send e s s' sent
  | insert h path =>
    cases answered
    exact unobserved.insert h path s
  | system c =>
    cases answered
    exact unobserved.system c s
  | shouldIntercept | look | loadLibraryA | lookup =>
    cases answered
    rfl

/-- Without a real call a hook leaves the view of programs. -/
theorem view_of_no_call (unobserved : Unobserved m obs) (p : Hook α) :
    ∀ {s s' : σ} {a : α}, (traced m p s).1 = [] → p.run m.handler s = some (a, s') →
      SameView obs s' s := by
  induction p with
  | done a =>
    intro s s' a' _ ran
    cases ran
    rfl
  | ask i next ih =>
    intro s s' a noCall ran
    by_cases other : ∀ c, i ≠ .real c
    · rw [traced_of_not_real m s other] at noCall
      rw [Prog.run] at ran
      cases answered : m.handler i s with
      | none =>
        rw [answered] at ran
        cases ran
      | some result =>
        rw [answered] at noCall ran
        exact (ih _ noCall ran).trans (view_of_not_real unobserved other answered)
    · push Not at other
      obtain ⟨c, rfl⟩ := other
      rw [traced_real m s c next] at noCall
      cases real : m.real c s <;> simp [real] at noCall

/-- With one real call a hook shows programs what that call shows. -/
theorem view_of_one_call (unobserved : Unobserved m obs) (p : Hook α) {c : NativeCall}
    {answer : Option Answer} : ∀ {s : σ}, (traced m p s).1 = [(c, answer)] →
      ∃ s₁, SameView obs s₁ s ∧ (m.real c s₁).map Prod.fst = answer ∧
        ∀ a s', p.run m.handler s = some (a, s') →
          ∃ answer' s₂, m.real c s₁ = some (answer', s₂) ∧ SameView obs s' s₂ := by
  induction p with
  | done a =>
    intro s oneCall
    cases oneCall
  | ask i next ih =>
    intro s oneCall
    by_cases other : ∀ c, i ≠ .real c
    · rw [traced_of_not_real m s other] at oneCall
      rw [Prog.run]
      cases answered : m.handler i s with
      | none =>
        rw [answered] at oneCall
        cases oneCall
      | some result =>
        rw [answered] at oneCall
        obtain ⟨s₁, same, answers, later⟩ := ih _ oneCall
        exact ⟨s₁, same.trans (view_of_not_real unobserved other answered), answers, later⟩
    · push Not at other
      obtain ⟨c', rfl⟩ := other
      rw [traced_real m s c' next] at oneCall
      cases real : m.real c' s with
      | none =>
        simp only [real, List.cons.injEq, Prod.mk.injEq, and_true] at oneCall
        obtain ⟨rfl, rfl⟩ := oneCall
        refine ⟨s, rfl, by rw [real]; rfl, fun a s' ran => ?_⟩
        have stuck : m.handler (.real c') s = none := real
        rw [Prog.run_ask_none stuck] at ran
        cases ran
      | some result =>
        obtain ⟨answer', s₂⟩ := result
        simp only [real, List.cons.injEq, Prod.mk.injEq] at oneCall
        obtain ⟨⟨rfl, rfl⟩, noCall⟩ := oneCall
        refine ⟨s, rfl, by rw [real]; rfl, fun a s' ran => ⟨answer', s₂, real, ?_⟩⟩
        have called : m.handler (.real c') s = some (answer', s₂) := real
        rw [Prog.run_ask_some called] at ran
        exact view_of_no_call unobserved _ noCall ran

/-- A call that passes answers the same with its hook and without it. -/
theorem hooked_agree (unobserved : Unobserved m obs) {c : NativeCall} {s t : σ}
    (same : SameView obs s t) (passes : Passes m behind c s) :
    Prog.Agree (SameView obs) (hooked m behind c s) (m.real c t) := by
  obtain ⟨c', answer, passedOn, calls⟩ := (transparent_iff_passes m behind c s).mpr passes
  obtain ⟨s₁, view, answers, later⟩ := view_of_one_call unobserved _ (congrArg Prod.fst calls)
  have returned : ((hook behind c).run m.handler s).map Prod.fst = answer.map some :=
    congrArg Prod.snd calls
  have native : Prog.Agree (SameView obs) (m.real c' s₁) (m.real c t) := by
    cases passedOn with
    | unchanged => exact unobserved.real c s₁ t (view.trans same)
    | suspended args => exact unobserved.suspended args s₁ t (view.trans same)
  rw [hooked]
  cases ran : (hook behind c).run m.handler s with
  | none =>
    rw [ran] at returned
    cases answer with
    | some answer => cases returned
    | none =>
      rw [Option.map_eq_none_iff.mp answers] at native
      exact native
  | some result =>
    obtain ⟨result, s'⟩ := result
    obtain ⟨answer', s₂, real, shown⟩ := later result s' ran
    rw [real] at answers native
    rw [ran, ← answers] at returned
    cases returned
    cases alone : m.real c t with
    | none =>
      rw [alone] at native
      cases native
    | some result' =>
      rw [alone] at native
      cases native with
      | some both => exact .some ⟨both.1, shown.trans both.2⟩

/-- A program all of whose calls pass returns the same with the hooks and without them. -/
theorem same_results (unobserved : Unobserved m obs) (program : Program α) {s : σ}
    (passes : Prog.Always (hooked m behind) (Passes m behind) program s) :
    (program.run (hooked m behind) s).map Prod.fst = (program.run m.real s).map Prod.fst := by
  have agree : Prog.Agree (SameView obs) (program.run (hooked m behind) s)
      (program.run m.real s) := by
    refine Prog.run_agree ?_ program rfl passes
    intro c s t same passes
    exact hooked_agree unobserved same passes
  exact agree.fst_eq

/-- A hook is transparent for exactly the calls that pass, and a program that makes only such
calls observes the same results with the hooks and without them. -/
theorem hooks_transparent_iff (m : Machine σ) (behind : Nat → UInt32) :
    (∀ c s, Transparent m behind c s ↔ Passes m behind c s) ∧
      ∀ (ω : Type) (obs : σ → ω), Unobserved m obs →
        ∀ (α : Type) (program : Program α) (s : σ),
          Prog.Always (hooked m behind) (Passes m behind) program s →
            (program.run (hooked m behind) s).map Prod.fst
              = (program.run m.real s).map Prod.fst := by
  refine ⟨transparent_iff_passes m behind, ?_⟩
  intro ω obs unobserved α program s passes
  exact same_results unobserved program passes

/-- A process that may open keys for backup only, with the option `REG_OPTION_BACKUP_RESTORE`;
other keys are denied it, and everything else succeeds. -/
def backupProcess : Machine Unit where
  depth _ := 0
  look _ :=
    { process := ⟨fun _ => [], fun _ => [], fun _ => 2⟩
      keyPathFromHandle := fun _ => []
      objectAttributes := fun _ => some ⟨none, .ofText []⟩
      handleAt := fun _ => 7
      renameInformation := fun _ => ⟨none, []⟩
      processInformation := fun _ => ⟨0, 0, 0⟩
      currentProcessId := 0 }
  loadLibraryA _ := some 1
  real c _ := match c with
    | .ntOpenKey .. => some (0xC0000022, ())
    | .ntOpenKeyEx _ _ _ openOptions =>
      some (if openOptions &&& 0x4 = 0x4 then 0 else 0xC0000022, ())
    | .createProcessInternalW _ => some (1, ())
    | .exitProcess _ => none
    | _ => some (0, ())
  send _ _ := some ()
  lookup _ _ := none
  insert _ _ _ := ()
  system _ _ := ()

/-- The words behind the table of registry rights in that process. -/
def backupBehind : Nat → UInt32 := fun _ => 2

theorem backupProcess_unobserved : Unobserved backupProcess id where
  real c s t _ := by
    cases backupProcess.real c s with
    | none => exact .none
    | some answer => exact .some ⟨rfl, rfl⟩
  suspended _ _ _ _ := .some ⟨rfl, rfl⟩
  send _ _ _ _ := rfl
  insert _ _ _ := rfl
  system _ _ := rfl

/-- Opening a file for writing and closing it. -/
theorem hooks_transparent_iff_write :
    ((Prog.ask (.ntOpenFile 0 0x2 0 0 0 0) fun _ => Prog.perform (.ntClose 7) :
        Program Answer).run (hooked backupProcess backupBehind) ()).map Prod.fst
      = ((Prog.ask (.ntOpenFile 0 0x2 0 0 0 0) fun _ => Prog.perform (.ntClose 7) :
        Program Answer).run backupProcess.real ()).map Prod.fst :=
  (hooks_transparent_iff backupProcess backupBehind).2 Unit id backupProcess_unobserved Answer _ ()
    ⟨fun _ => ⟨⟨none, .ofText []⟩, rfl, fun _ => rfl⟩,
      fun _ _ _ => ⟨trivial, fun _ _ _ => trivial⟩⟩

/-- A key opened for backup: the hook calls another function, and the program is denied the key it
would have been given. -/
theorem openKeyEx_loses_options :
    ¬ Transparent backupProcess backupBehind (.ntOpenKeyEx 0x100 0x20019 0x200 0x4) () ∧
      hooked backupProcess backupBehind (.ntOpenKeyEx 0x100 0x20019 0x200 0x4) ()
        = some (0xC0000022, ()) ∧
      backupProcess.real (.ntOpenKeyEx 0x100 0x20019 0x200 0x4) () = some (0, ()) := by
  refine ⟨?_, rfl, rfl⟩
  rw [transparent_iff_passes]
  exact not_false

end Programs

end GuestAgent.Guarantees.HookTransparency
