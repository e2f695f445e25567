import GuestAgent.Source.NativeHooks

/-!
Whether a thread can begin a second event inside the sending of one.

A thread makes hooked calls one after the other, and any hooked calls again during each effect of
a hook, the pipe I/O of an event included. `sendToEventPipe` alone raises the hooking depth, and
the hooks ask for it before they send, all but those of the creation of a key. So the events of a
thread do not overlap as long as no key is created for writing inside one; where one is, sends
nest without bound. Every hook leaves the depth it found.
-/
namespace GuestAgent.Guarantees.HookReentry
open Library Source NativeHooks HookingDepth

/-- A thread: its hooking depth, and how many sends it is inside of. -/
@[ext] structure Thread where
  depth : Depth
  sending : Nat
  deriving DecidableEq, Repr

/-- A thread's slot is zero at first. -/
def Thread.start : Thread := ⟨0, 0⟩

def enter : HookEffect → Thread → Thread
  | .sendToEventPipe _, t => ⟨incHookingDepth t.depth, t.sending + 1⟩
  | _, t => t

def leave : HookEffect → Thread → Thread
  | .sendToEventPipe _, t => ⟨decHookingDepth t.depth, t.sending - 1⟩
  | _, t => t

/-- The depth decides the answer of `shouldIntercept`; other effects may answer anything. -/
def may : (i : HookEffect) → Thread → i.Result → Prop
  | .shouldIntercept, t, answer => answer = HookingDepth.shouldIntercept t.depth
  | _, _, _ => True

abbrev Trace := List (Prog.Happening HookEffect NativeCall Thread)

/-- The calls a thread makes from the state `t` on, with all that happens inside them; the last
state is `none` when the thread is still inside. -/
abbrev Calls (behind : Nat → UInt32) : Thread → Trace → Option Thread → Prop :=
  Prog.Exec (hook behind) enter leave may .calls

/-- Every hook left the thread as it found it. -/
def Restored (trace : Trace) : Prop :=
  ∀ c before after, .returned c before after ∈ trace → after = before

/-- No event was sent inside the sending of another. -/
def SendsAlone (trace : Trace) : Prop :=
  ∀ e t, .effect (.sendToEventPipe e) t ∈ trace → t.sending = 0

/-- The calls whose hooks send without asking for the depth. -/
def Unguarded (behind : Nat → UInt32) : NativeCall → Prop
  | .ntCreateKey _ mask .. | .ntCreateKeyTransacted _ mask .. =>
    isRequestingRegistryWriteAccess behind mask = true
  | _ => False

/-! ### The depth -/

theorem leave_enter (i : HookEffect) (t : Thread) : leave i (enter i t) = t := by
  cases i with
  | sendToEventPipe e =>
    exact Thread.ext (UInt32.add_sub_cancel t.depth 1) (Nat.add_sub_cancel t.sending 1)
  | _ => rfl

theorem restored {behind : Nat → UInt32} {t : Thread} {trace : Trace} {r : Option Thread}
    (calls : Calls behind t trace r) : Restored trace :=
  fun c before after returned => ((calls.restores leave_enter).2 c before after returned).symm

/-! ### The sends -/

/-- Outside and inside the one event of a thread. -/
def Single (t : Thread) : Prop := t = ⟨0, 0⟩ ∨ t = ⟨1, 1⟩

/-- An event may be sent only outside of another. -/
def Alone (i : HookEffect) (t : Thread) : Prop := ∀ e, i = .sendToEventPipe e → t.sending = 0

theorem single_enter (i : HookEffect) (t : Thread) (single : Single t) (alone : Alone i t) :
    Single (enter i t) := by
  cases i with
  | sendToEventPipe e =>
    have outside := alone e rfl
    rcases single with rfl | rfl
    · exact .inr rfl
    · cases outside
  | _ => exact single

/-- Inside an event a hook with the bypass only makes the real call. -/
theorem intercepted_fits {t : Thread} (inside : t.depth ≠ 0) (c : NativeCall)
    (p : Hook (Option Answer)) : Prog.Fits may Alone t (intercepted c p) := by
  refine ⟨nofun, fun answer answered => ?_⟩
  have bypass : answer = false := answered.trans (beq_false_of_ne inside)
  subst bypass
  exact ⟨nofun, fun _ _ => trivial⟩

theorem keyHook_fits {behind : Nat → UInt32} {mask : AccessMask}
    (reads : isRequestingRegistryWriteAccess behind mask ≠ true) (t : Thread) (mode : KeyMode)
    (objectAttributes : Ptr) (c : NativeCall) :
    Prog.Fits may Alone t (keyHook behind mode mask objectAttributes c) := by
  rw [keyHook, if_neg reads]
  exact ⟨nofun, fun _ _ => trivial⟩

/-- A hook sends nothing inside an event, unless it creates a key for writing. -/
theorem hook_fits (behind : Nat → UInt32) (c : NativeCall) (t : Thread) (single : Single t)
    (guarded : 0 < t.sending → ¬ Unguarded behind c) :
    Prog.Fits may Alone t (hook behind c) := by
  rcases single with rfl | rfl
  · exact Prog.fits_of_good (fun i e same => rfl) _
  · have inside : (1 : Depth) ≠ 0 := by decide
    cases c with
    | ntCreateKey => exact keyHook_fits (guarded Nat.zero_lt_one) _ _ _ _
    | ntCreateKeyTransacted => exact keyHook_fits (guarded Nat.zero_lt_one) _ _ _ _
    | _ => exact intercepted_fits inside _ _

/-! ### Sends inside sends -/

/-- A process in which all attributes can be read. -/
def readable : View where
  process := ⟨fun _ => [], fun _ => [], fun _ => 0⟩
  keyPathFromHandle _ := []
  objectAttributes _ := some ⟨none, .ofText []⟩
  handleAt _ := 0
  renameInformation _ := ⟨none, []⟩
  processInformation _ := ⟨0, 0, 0⟩
  currentProcessId := 0

/-- What the creation of a key sends there. -/
def createdEvent : Event := .registryAccess (getKeyPathFromOA readable ⟨none, .ofText []⟩) .created

def created : HookEffect := .sendToEventPipe createdEvent

/-- The hook of an unguarded call sends, whatever it is inside of. -/
theorem unguarded_sends {behind : Nat → UInt32} {c : NativeCall} (unguarded : Unguarded behind c)
    {t : Thread} {inner : Trace} (during : Calls behind (enter created t) inner none) :
    Calls behind t (.call c t :: .effect .look t :: .effect created t :: inner) none := by
  have sends (mask : AccessMask) (oa : Ptr)
      (keyHooked : hook behind c = keyHook behind .created mask oa c)
      (writes : isRequestingRegistryWriteAccess behind mask = true) :
      Calls behind t (.call c t :: .effect .look t :: .effect created t :: inner) none := by
    apply Prog.Exec.away
    rw [keyHooked, keyHook, if_pos writes, look_bind]
    apply Prog.Exec.ask_idle (a := readable) trivial
    exact .stuck during
  cases c with
  | ntCreateKey => exact sends _ _ rfl unguarded
  | ntCreateKeyTransacted => exact sends _ _ rfl unguarded
  | _ => cases unguarded

/-- One call that is not guarded is enough for sends nested to any depth. -/
theorem unguarded_nests {behind : Nat → UInt32} {c : NativeCall} (unguarded : Unguarded behind c)
    (n : Nat) (t : Thread) :
    ∃ trace, Calls behind t trace none ∧
      ∃ t', .effect created t' ∈ trace ∧ t'.sending = t.sending + n := by
  induction n generalizing t with
  | zero => exact ⟨_, unguarded_sends unguarded (.cut _ _), t, by simp, rfl⟩
  | succ n ih =>
    obtain ⟨inner, during, t', sent, depth⟩ := ih (enter created t)
    refine ⟨_, unguarded_sends unguarded during, t', by simp [sent], ?_⟩
    have raised : (enter created t).sending = t.sending + 1 := rfl
    omega

/-! ### Whole runs -/

/-- However a thread nests its calls, every hook restores the depth, and no event is sent inside
another as long as no key is created for writing inside one. -/
theorem hooks_do_not_reenter {behind : Nat → UInt32} {trace : Trace} {r : Option Thread}
    (calls : Calls behind .start trace r) :
    Restored trace ∧
      ((∀ c t, .call c t ∈ trace → 0 < t.sending → ¬ Unguarded behind c) → SendsAlone trace) := by
  refine ⟨restored calls, fun guarded e t sent => ?_⟩
  have alone := calls.good leave_enter single_enter (hook_fits behind) (.inl rfl) trivial guarded
  exact alone _ t sent e rfl

/-- While the event on a key is sent, a handle is closed. -/
theorem hooks_do_not_reenter_close :
    let createKey := NativeCall.ntCreateKey 0 0x20006 0 0 0 0 0
    let trace : Trace := [.call createKey .start, .effect .look .start, .effect created .start,
      .call (.ntClose 7) ⟨1, 1⟩, .effect .shouldIntercept ⟨1, 1⟩,
      .effect (.real (.ntClose 7)) ⟨1, 1⟩]
    Restored trace ∧ SendsAlone trace := by
  intro createKey trace
  have writes : isRequestingRegistryWriteAccess (fun _ => 0) 0x20006 = true := by decide
  have unguarded : Unguarded (fun _ => 0) createKey := writes
  have bypass : may .shouldIntercept ⟨1, 1⟩ false := rfl
  have close : Calls (fun _ => 0) ⟨1, 1⟩ [.call (.ntClose 7) ⟨1, 1⟩,
      .effect .shouldIntercept ⟨1, 1⟩, .effect (.real (.ntClose 7)) ⟨1, 1⟩] none :=
    .away (.ask_idle bypass (.ask_idle (a := (0 : Answer)) trivial (.cut _ _)))
  have calls : Calls (fun _ => 0) .start trace none := unguarded_sends unguarded close
  refine (hooks_do_not_reenter calls).imp_right fun alone => alone fun c t called inside => ?_
  simp only [trace, List.mem_cons, Prog.Happening.call.injEq, reduceCtorEq, false_or,
    List.not_mem_nil, or_false] at called
  obtain ⟨rfl, rfl⟩ | ⟨rfl, rfl⟩ := called
  · cases inside
  · exact not_false

/-- A key created for writing inside the pipe I/O of the event on another: the second event is
sent inside the first. -/
theorem create_key_sends_again :
    let createKey := NativeCall.ntCreateKey 0 0x20006 0 0 0 0 0
    let trace : Trace := [.call createKey .start, .effect .look .start, .effect created .start,
      .call createKey ⟨1, 1⟩, .effect .look ⟨1, 1⟩, .effect created ⟨1, 1⟩]
    Calls (fun _ => 0) .start trace none ∧ ¬ SendsAlone trace := by
  intro createKey trace
  have writes : isRequestingRegistryWriteAccess (fun _ => 0) 0x20006 = true := by decide
  have unguarded : Unguarded (fun _ => 0) createKey := writes
  refine ⟨unguarded_sends unguarded (unguarded_sends unguarded (.cut _ _)), fun alone => ?_⟩
  have outside := alone createdEvent ⟨1, 1⟩ (by simp [trace, created])
  cases outside

end GuestAgent.Guarantees.HookReentry
