import Mathlib.Logic.Function.Basic
import GuestAgent.Source.HostDatabase

/-!
`InsertNewJob` and the `InsertAction` it ends with (DBManagerFactory.cs), as the statements a call
executes one after the other on its own connection, without a transaction. Any number of calls
are under way; an event lets one of them go on. A statement or connection that fails raises
and changes nothing.
-/
namespace GuestAgent.Source.Host
open Library

/-- How far a call of `InsertNewJob` has come. -/
inductive Submission where
  | called
  | searched
  | inserted (jId : Nat)
  | returned
  | threw (e : Exn)
  deriving DecidableEq, Repr

/-- The next step of a call with the arguments `filePath` and `fileHash`. -/
def insertNewJob (collation : Collation) (filePath fileHash : Text) (failure : Option Exn)
    (tables : Tables) : Submission → Tables × Submission
  | .called =>
    match failure with
    | some e => (tables, .threw e)
    | none =>
      match selectJobByHash collation tables fileHash with
      | [] => (tables, .searched)
      | duplicate :: _ => (tables, .threw (.jobAlreadySubmitted duplicate.id))
  | .searched =>
    match failure with
    | some e => (tables, .threw e)
    | none =>
      ((Statement.insertNewJob filePath fileHash).exec collation tables, .inserted tables.jobs.next)
  | .inserted jId =>
    match failure with
    | some e => (tables, .threw e)
    | none => ((Statement.insertTodo jId defaultTodoPath).exec collation tables, .returned)
  | ended => (tables, ended)

/-- The database and the calls under way. -/
structure Submissions where
  tables : Tables
  call : Nat → Submission

/-- Which call goes on, and what its statement or connection raises, if so. -/
structure Progress where
  call : Nat
  failure : Option Exn

/-- The arguments of a call. -/
structure NewJob where
  filePath : Text
  fileHash : Text

def Submissions.step (collation : Collation) (args : Nat → NewJob) (s : Submissions) (e : Progress) :
    Submissions :=
  let r := insertNewJob collation (args e.call).filePath (args e.call).fileHash e.failure s.tables
    (s.call e.call)
  ⟨r.1, Function.update s.call e.call r.2⟩

section step

variable (collation : Collation) (args : Nat → NewJob) (s : Submissions) (e : Progress)

theorem Submissions.step_tables : (s.step collation args e).tables =
    (insertNewJob collation (args e.call).filePath (args e.call).fileHash e.failure s.tables
      (s.call e.call)).1 := rfl

theorem Submissions.step_call : (s.step collation args e).call =
    Function.update s.call e.call (insertNewJob collation (args e.call).filePath
      (args e.call).fileHash e.failure s.tables (s.call e.call)).2 := rfl

end step

end GuestAgent.Source.Host
