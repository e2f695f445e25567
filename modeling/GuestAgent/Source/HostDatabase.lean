import Mathlib.Data.List.ProdSigma
import GuestAgent.Library.Like
import GuestAgent.Library.Table
import GuestAgent.Source.TodoJob

/-!
The tables `jobs`, `todo` and `done` and the statements of DBManagerFactory.cs. How MySQL compares
texts is a `Collation`: `equal` for `=`, and `sameChar` for the characters of a LIKE pattern. Every
statement is executed as a whole; a SELECT gives all rows it may choose from.
-/
namespace GuestAgent.Source.Host
open Library

structure Collation where
  equal : Text → Text → Bool
  sameChar : Char → Char → Bool
  equal_refl : ∀ s, equal s s = true
  equal_symm : ∀ s t, equal s t = true → equal t s = true

/-- A binary collation. -/
def Collation.binary : Collation where
  equal s t := s == t
  sameChar c d := c == d
  equal_refl s := by simp
  equal_symm s t same := by
    rw [beq_iff_eq] at same ⊢
    exact same.symm

structure JobCells where
  path : Text
  hash : Text
  finished : Bool
  deriving DecidableEq, Repr

structure TodoCells where
  jId : Nat
  controlPath : Text
  inProgress : Bool
  deriving DecidableEq, Repr

structure DoneCells where
  jId : Nat
  controlPath : Text
  result : Text
  error : Bool
  deriving DecidableEq, Repr

@[ext] structure Tables where
  jobs : Table JobCells
  todo : Table TodoCells
  done : Table DoneCells

def Tables.empty : Tables := ⟨Table.empty, Table.empty, Table.empty⟩

/-- The statements that change a table, with their parameters. -/
inductive Statement where
  | insertNewJob (path hash : Text)
  | insertTodo (jId : Nat) (controlPath : Text)
  | insertOneTodoInProgress (jId : Nat) (controlPath : Text)
  | setInProgressTodoById (id : Nat)
  | deleteTodoById (id : Nat)
  | deleteTodoByStartingControlPath (pattern : Text)
  | insertDoneJob (jId : Nat) (controlPath result : Text)
  | insertDoneWithErrorJob (jId : Nat) (controlPath result : Text) (error : Bool)
  deriving DecidableEq, Repr

/-- `DEFAULT_TODO_PATH`. -/
def defaultTodoPath : Text := "appstart\\".toList

section statements

variable (collation : Collation)

def Statement.exec (tables : Tables) : Statement → Tables
  | .insertNewJob path hash => { tables with jobs := tables.jobs.insert ⟨path, hash, false⟩ }
  | .insertTodo jId controlPath =>
    { tables with todo := tables.todo.insert ⟨jId, controlPath, false⟩ }
  | .insertOneTodoInProgress jId controlPath =>
    { tables with todo := tables.todo.insert ⟨jId, controlPath, true⟩ }
  | .setInProgressTodoById id =>
    { tables with
      todo := tables.todo.update (fun row => row.id == id) fun cells =>
        { cells with inProgress := true } }
  | .deleteTodoById id => { tables with todo := tables.todo.delete fun row => row.id == id }
  | .deleteTodoByStartingControlPath pattern =>
    { tables with
      todo := tables.todo.delete fun row =>
        Like.like collation.sameChar row.cells.controlPath pattern }
  | .insertDoneJob jId controlPath result =>
    { tables with done := tables.done.insert ⟨jId, controlPath, result, false⟩ }
  | .insertDoneWithErrorJob jId controlPath result error =>
    { tables with done := tables.done.insert ⟨jId, controlPath, result, error⟩ }

/-- How many rows a statement inserts, deletes or finds to update. -/
def Statement.affected (tables : Tables) : Statement → Nat
  | .setInProgressTodoById id | .deleteTodoById id =>
    tables.todo.rows.countP fun row => row.id == id
  | .deleteTodoByStartingControlPath pattern =>
    tables.todo.rows.countP fun row => Like.like collation.sameChar row.cells.controlPath pattern
  | _ => 1

/-- The `SELECT_JOB_UNFINISHED_STATEMENT` without its LIMIT. -/
def selectJobUnfinished (tables : Tables) : List (Row JobCells × Row TodoCells) :=
  (tables.jobs.rows.product tables.todo.rows).filter fun r =>
    !r.1.cells.finished && r.2.cells.jId == r.1.id && !r.2.cells.inProgress

def selectJobByHash (tables : Tables) (hash : Text) : List (Row JobCells) :=
  tables.jobs.rows.filter fun row => collation.equal row.cells.hash hash

/-- The `IS_JOB_DONE_OR_TODO_STATEMENT`. -/
def isJobDoneOrTodo (tables : Tables) (jId : Nat) (controlPath : Text) : Option Nat :=
  let todo := tables.todo.rows.filter fun row =>
    row.cells.jId == jId && collation.equal row.cells.controlPath controlPath
  let done := tables.done.rows.filter fun row =>
    collation.equal row.cells.controlPath controlPath && row.cells.jId == jId
  (todo.map Row.id ∪ done.map Row.id).head?

/-- The `SELECT_TODO_OR_DONE_BY_CONTROLPATH_STATEMENT`. -/
def selectTodoOrDone (tables : Tables) (controlPath : Text) : List (Row TodoCells × Row DoneCells) :=
  (tables.todo.rows.product tables.done.rows).filter fun r =>
    collation.equal r.1.cells.controlPath controlPath ||
      collation.equal r.2.cells.controlPath controlPath

/-- `IsAlreadyDoneOrTodo`. -/
def isAlreadyDoneOrTodo (tables : Tables) (jId : Nat) (fullPath : Text) : Bool :=
  (isJobDoneOrTodo collation tables jId fullPath).isSome

/-- `FilterDoneOrTodoByPath` on tables that nobody else changes meanwhile. -/
def filterDoneOrTodoByPath (tables : Tables) (allPossibleInteractions : List Text) : List Text :=
  allPossibleInteractions.filter fun s => (selectTodoOrDone collation tables s).isEmpty

end statements

theorem mem_selectJobUnfinished {tables : Tables} {r : Row JobCells × Row TodoCells}
    (found : r ∈ selectJobUnfinished tables) :
    r.2 ∈ tables.todo.rows ∧ r.2.cells.jId = r.1.id ∧ r.2.cells.inProgress = false := by
  obtain ⟨member, chosen⟩ := List.mem_filter.mp found
  simp only [Bool.and_eq_true, Bool.not_eq_true', beq_iff_eq] at chosen
  exact ⟨(List.mem_product.mp member).2, chosen.1.2, chosen.2⟩

/-! ### Queued rows under any statement -/

section queued

variable {collation : Collation} {tables : Tables} {statement : Statement}

theorem exec_todo_next : tables.todo.next ≤ (statement.exec collation tables).todo.next := by
  cases statement <;> simp [Statement.exec]

/-- A row that is not new was there before; only its mark can have changed, and never back. -/
theorem exec_todo_old {row : Row TodoCells} (member : row ∈ (statement.exec collation tables).todo.rows)
    (old : row.id < tables.todo.next) : ∃ before ∈ tables.todo.rows, before.id = row.id ∧
      before.cells.jId = row.cells.jId ∧ before.cells.controlPath = row.cells.controlPath ∧
      (before.cells.inProgress = true → row.cells.inProgress = true) := by
  have inserted : ∀ cells, row ∈ (tables.todo.insert cells).rows → row ∈ tables.todo.rows := by
    intro cells member
    rcases List.mem_append.mp member with before | new
    · exact before
    · rw [List.mem_singleton.mp new] at old
      exact absurd old (Nat.lt_irrefl _)
  have unchanged : row ∈ tables.todo.rows → ∃ before ∈ tables.todo.rows, before.id = row.id ∧
      before.cells.jId = row.cells.jId ∧ before.cells.controlPath = row.cells.controlPath ∧
      (before.cells.inProgress = true → row.cells.inProgress = true) :=
    fun before => ⟨row, before, rfl, rfl, rfl, id⟩
  cases statement with
  | insertNewJob | insertDoneJob | insertDoneWithErrorJob => exact unchanged member
  | insertTodo | insertOneTodoInProgress => exact unchanged (inserted _ member)
  | deleteTodoById | deleteTodoByStartingControlPath =>
    exact unchanged (List.mem_of_mem_filter member)
  | setInProgressTodoById id =>
    obtain ⟨before, present, rfl⟩ := List.mem_map.mp member
    refine ⟨before, present, (Table.updateRow_id _ _ _).symm, ?_⟩
    unfold Table.updateRow
    split <;> simp

end queued

end GuestAgent.Source.Host
