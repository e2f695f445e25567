import Mathlib.Logic.Function.Basic
import GuestAgent.Library.Runs
import GuestAgent.Source.HostDatabase

/-!
`PopTodoJob` as any number of workers call it, each inside `lock (_lock)` (DBManagerFactory.cs;
WorkerManager.cs, `NetworkWorker._lock`). Its SELECT and its UPDATE are executed as a whole each and
may be interleaved with those of other workers and with all other statements. `lockOf` says which
lock a worker takes.
-/
namespace GuestAgent.Source.Host
open Library

/-- Where a worker is in its critical section. -/
inductive Popping where
  | outside
  | locked
  | selected (todoId : Nat)
  deriving DecidableEq, Repr

structure Popper where
  tables : Tables
  /-- The worker that holds a lock. -/
  holder : Nat → Option Nat
  popping : Nat → Popping
  /-- Which workers `PopTodoJob` has returned which rows to. -/
  returned : List (Nat × Nat)

inductive PopEvent where
  | enter (worker : Nat)
  | selectNothing (worker : Nat)
  | select (worker todoId : Nat)
  | update (worker : Nat)
  | raise (worker : Nat)
  | statement (s : Statement)

/-- `_lock` is made by the constructor of the worker. -/
def instanceLock (worker : Nat) : Nat := worker

section pop

variable (collation : Collation) (lockOf : Nat → Nat)

/-- A worker leaves its critical section. -/
def Popper.leave (s : Popper) (worker : Nat) : Popper :=
  { s with
    holder := Function.update s.holder (lockOf worker) none
    popping := Function.update s.popping worker .outside }

def Popper.step (s : Popper) : PopEvent → Option Popper
  | .enter w =>
    if s.popping w = .outside ∧ s.holder (lockOf w) = none then
      some { s with
        holder := Function.update s.holder (lockOf w) (some w)
        popping := Function.update s.popping w .locked }
    else none
  | .selectNothing w =>
    if s.popping w = .locked ∧ selectJobUnfinished s.tables = [] then some (s.leave lockOf w)
    else none
  | .select w id =>
    if s.popping w = .locked ∧ ∃ r ∈ selectJobUnfinished s.tables, r.2.id = id then
      some { s with popping := Function.update s.popping w (.selected id) }
    else none
  | .update w =>
    match s.popping w with
    | .selected id =>
      let mark := Statement.setInProgressTodoById id
      let left := { s with tables := mark.exec collation s.tables }.leave lockOf w
      if mark.affected collation s.tables = 1 then
        some { left with returned := s.returned ++ [(w, id)] }
      else some left
    | _ => none
  | .raise w => if s.popping w = .outside then none else some (s.leave lockOf w)
  | .statement st => some { s with tables := st.exec collation s.tables }

/-- All workers outside, nothing returned yet. -/
def Popper.start (tables : Tables) : Popper := ⟨tables, fun _ => none, fun _ => .outside, []⟩

end pop

end GuestAgent.Source.Host
