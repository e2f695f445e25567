import GuestAgent.Library.Runs
import GuestAgent.Source.Injectors

/-!
The start of a process under one of the hooks of `CreateProcessInternalW`: the creating thread in
the hook and back in its caller, the remote thread in `LoadLibraryA`, and the main thread of the
new process. They take steps in any order.

A thread runs while its suspend count is zero. The caller may resume the main thread when the hook
has returned. `WaitForSingleObject` returns when the remote thread has ended; that thread ends
with the DLL loaded or without it.
-/
namespace GuestAgent.Source
open Library Prog

inductive RemoteThread where
  | absent
  | loading
  | ended (loaded : Bool)
  deriving DecidableEq, Repr

/-- The new process: its main thread has executed its first instruction once it is `started`. -/
structure Child where
  created : Bool
  suspendCount : Nat
  started : Bool
  remote : RemoteThread
  deriving DecidableEq, Repr

namespace Child

/-- No process yet. -/
def unborn : Child := ⟨false, 0, false, .absent⟩

def resume (c : Child) : Child := { c with suspendCount := c.suspendCount - 1 }

/-- What a call does to the process; `none` while the call does not return. Whether a remote
thread comes about is `succeeds` where the hook is not told. -/
def react (succeeds : Bool) (c : Child) : Deed → Option Child
  | .createdProcess suspended =>
    some { c with created := true, suspendCount := if suspended then 1 else 0 }
  | .createdRemoteThread succeeded =>
    some (if succeeded.getD succeeds then { c with remote := .loading } else c)
  | .waited => if c.remote = .loading then none else some c
  | .resumed => some c.resume
  | .sessionUnknown | .loadLibraryANotFound | .other => some c

end Child

/-- The rest of the hook, and the process it creates. -/
structure Launch (J : Injector) where
  creator : Prog J.Call J.Result J.Returned
  child : Child

inductive LaunchStep (J : Injector) where
  /-- The next call of the hook, answered by `reply`. -/
  | creator (reply : (c : J.Call) → J.Result c) (succeeds : Bool)
  | callerResumes
  | remoteEnds (loaded : Bool)
  | mainStarts

namespace Launch

variable {J : Injector}

/-- The call of `CreateProcessInternalW`. -/
def init (J : Injector) (args : CreateProcessArgs) : Launch J := ⟨J.hook args, .unborn⟩

def step (s : Launch J) : LaunchStep J → Option (Launch J)
  | .creator reply succeeds => match s.creator with
    | .done _ => none
    | .ask i next =>
      (s.child.react succeeds (J.deed i (reply i))).map fun child => ⟨next (reply i), child⟩
  | .callerResumes => match s.creator with
    | .done _ => some { s with child := s.child.resume }
    | .ask _ _ => none
  | .remoteEnds loaded =>
    if s.child.remote = .loading then
      some { s with child := { s.child with remote := .ended loaded } }
    else none
  | .mainStarts =>
    if s.child.created = true ∧ s.child.suspendCount = 0 then
      some { s with child := { s.child with started := true } }
    else none

/-- The step is a `ResumeThread` on the main thread, by the hook or its caller. -/
def ResumesMain (s : Launch J) : LaunchStep J → Prop
  | .creator reply _ => match s.creator with
    | .done _ => False
    | .ask i _ => J.deed i (reply i) = .resumed
  | .callerResumes => True
  | .remoteEnds _ | .mainStarts => False

instance (s : Launch J) (e : LaunchStep J) : Decidable (s.ResumesMain e) :=
  match e with
  | .creator reply _ => match h : s.creator with
    | .done _ => .isFalse (by simp [ResumesMain, h])
    | .ask i _ => decidable_of_iff (J.deed i (reply i) = .resumed) (by simp [ResumesMain, h])
  | .callerResumes => .isTrue trivial
  | .remoteEnds _ | .mainStarts => .isFalse id

end Launch

end GuestAgent.Source
