import Mathlib.Logic.Basic

/-!
Calls that may throw after they have already changed the state. The state an
exception leaves behind is the state the next call starts from, so an outcome
keeps it in both cases.
-/
namespace GuestAgent.Library

@[ext]
structure Outcome (σ ε : Type) where
  state : σ
  thrown : Option ε
  deriving DecidableEq, Repr

namespace Outcome

variable {σ τ ε : Type}

def ok (s : σ) : Outcome σ ε := ⟨s, none⟩

def fail (s : σ) (e : ε) : Outcome σ ε := ⟨s, some e⟩

/-- Sequencing: what follows an exception is not run. -/
def andThen (o : Outcome σ ε) (next : σ → Outcome σ ε) : Outcome σ ε :=
  match o.thrown with
  | none => next o.state
  | some e => fail o.state e

/-- A call on a part of the state, seen as a call on the whole. -/
def within (o : Outcome σ ε) (put : σ → τ) : Outcome τ ε := ⟨put o.state, o.thrown⟩

@[simp] theorem ok_state (s : σ) : (ok s : Outcome σ ε).state = s := rfl
@[simp] theorem ok_thrown (s : σ) : (ok s : Outcome σ ε).thrown = none := rfl
@[simp] theorem fail_state (s : σ) (e : ε) : (fail s e).state = s := rfl
@[simp] theorem fail_thrown (s : σ) (e : ε) : (fail s e).thrown = some e := rfl
@[simp] theorem within_state (o : Outcome σ ε) (put : σ → τ) :
    (o.within put).state = put o.state := rfl
@[simp] theorem ok_andThen (s : σ) (next : σ → Outcome σ ε) : (ok s).andThen next = next s := rfl
theorem andThen_of_none {o : Outcome σ ε} (h : o.thrown = none) (next : σ → Outcome σ ε) :
    o.andThen next = next o.state := by
  simp only [andThen, h]

theorem andThen_of_some {o : Outcome σ ε} {e : ε} (h : o.thrown = some e)
    (next : σ → Outcome σ ε) : o.andThen next = fail o.state e := by
  simp only [andThen, h]

end Outcome

end GuestAgent.Library
