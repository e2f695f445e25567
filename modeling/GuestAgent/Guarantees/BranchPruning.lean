import GuestAgent.Guarantees.TodoLifeCycle

/-!
What the clean-ups after a failure delete from `todo`, whatever others execute between their
statements. Both delete by the pattern made of the path followed so far and `%`, whatever the job
of a row. So they stay inside the branch exactly if every row the pattern matches then is of the
worker's job and starts like the path; for a path without `%`, `_` and backslash, exactly if no
other job has a row that starts like it.
-/
namespace GuestAgent.Guarantees.BranchPruning
open Library Library.Method Source.Host Source.Host.Work WorkerSteps TodoLifeCycle

section pruning

variable (collation : Collation)

/-- The clean-ups of phase 2 and of phases 3 and 4. -/
def cleanUps (xmlError : Text) : List (Work Unit) :=
  [cleanUp2 collation xmlError, cleanUp collation xmlError]

/-- The worker's own statements in a log, each with the tables it was executed on. -/
def ownStatements : Tables → List Executed → List (Tables × Statement)
  | _, [] => []
  | tables, ⟨true, statement⟩ :: log =>
    (tables, statement) :: ownStatements (statement.exec collation tables) log
  | tables, ⟨false, statement⟩ :: log => ownStatements (statement.exec collation tables) log

/-- What the worker has executed from one state to a later one. -/
def executed (s s' : NetworkWorker) : List (Tables × Statement) :=
  ownStatements collation s.tables (s'.log.drop s.log.length)

/-- The statement deletes only the popped row and rows of the same job that start like the path,
and leaves the others as they are. -/
def Prunes (t : TodoJob) (j : Job) (followedPath : Text) (tables : Tables) (statement : Statement) :
    Prop :=
  let after := statement.exec collation tables
  (∀ row ∈ tables.todo.rows, row ∉ after.todo.rows →
    row.cells.jId = j.id ∧ (row.id = t.id ∨ followedPath <+: row.cells.controlPath)) ∧
  after.todo.rows.Sublist tables.todo.rows

def Pruned (t : TodoJob) (j : Job) (s s' : NetworkWorker) : Prop :=
  ∀ x ∈ executed collation s s', Prunes collation t j s.followedPath x.1 x.2

/-- Of the other rows, the pattern matches only those of the job that start like the path. -/
def Inside (t : TodoJob) (j : Job) (followedPath : Text) (tables : Tables) : Prop :=
  ∀ row ∈ tables.todo.rows, row.id ≠ t.id →
    Like.like collation.sameChar row.cells.controlPath (followedPath ++ ['%']) = true →
    row.cells.jId = j.id ∧ followedPath <+: row.cells.controlPath

/-- It is so when the worker deletes by the pattern. -/
def Confined (t : TodoJob) (j : Job) (s s' : NetworkWorker) : Prop :=
  ∀ x ∈ executed collation s s',
    x.2 = .deleteTodoByStartingControlPath (s.followedPath ++ ['%']) →
    Inside collation t j s.followedPath x.1

section decidable

variable (t : TodoJob) (j : Job) (followedPath : Text) (tables : Tables) (statement : Statement)
  (s s' : NetworkWorker)

instance : Decidable (Prunes collation t j followedPath tables statement) :=
  inferInstanceAs (Decidable ((∀ row ∈ tables.todo.rows,
    row ∉ (statement.exec collation tables).todo.rows →
    row.cells.jId = j.id ∧ (row.id = t.id ∨ followedPath <+: row.cells.controlPath)) ∧
    (statement.exec collation tables).todo.rows.Sublist tables.todo.rows))

instance : Decidable (Pruned collation t j s s') :=
  inferInstanceAs (Decidable (∀ x ∈ executed collation s s',
    Prunes collation t j s.followedPath x.1 x.2))

instance : Decidable (Inside collation t j followedPath tables) :=
  inferInstanceAs (Decidable (∀ row ∈ tables.todo.rows, row.id ≠ t.id →
    Like.like collation.sameChar row.cells.controlPath (followedPath ++ ['%']) = true →
    row.cells.jId = j.id ∧ followedPath <+: row.cells.controlPath))

instance : Decidable (Confined collation t j s s') :=
  inferInstanceAs (Decidable (∀ x ∈ executed collation s s',
    x.2 = .deleteTodoByStartingControlPath (s.followedPath ++ ['%']) →
    Inside collation t j s.followedPath x.1))

end decidable

variable {collation} {t : TodoJob} {j : Job} {s s' : NetworkWorker}

/-! ### The statements of the clean-ups -/

theorem ownStatements_others (tables : Tables) (statements : List Statement) (log : List Executed) :
    ownStatements collation tables (statements.map (Executed.mk false) ++ log) =
      ownStatements collation (statements.foldl (Statement.exec collation) tables) log := by
  induction statements generalizing tables with
  | nil => rfl
  | cons statement rest ih => exact ih (statement.exec collation tables)

section cleanUps

variable {path : Text} {xmlError : Text}

/-- The clean-up of phases 3 and 4 stores an error and deletes by the pattern. -/
theorem executed_cleanUp (main : s.mainJob = some j) (known : Known t.id path j.id s.tables) :
    wp (cleanUp collation xmlError) (fun _ s' => ∃ first second,
      Known t.id path j.id second ∧ executed collation s s' =
        [(first, .insertDoneWithErrorJob j.id s.followedPath xmlError true),
          (second, .deleteTodoByStartingControlPath (s.followedPath ++ ['%']))]) s := by
  unfold cleanUp
  simp only [wp_bind, wp_get, then_ok]
  rw [wp_insertDoneWithError main]
  intro before
  rw [then_ok, wp_deleteTodoJobsStartingWithPath]
  intro between
  have known₂ := ((known.others collation before).exec collation
    (.insertDoneWithErrorJob j.id s.followedPath xmlError true)).others collation between
  refine ⟨before.foldl (Statement.exec collation) s.tables, _, known₂, ?_⟩
  simp only [executed, NetworkWorker.own, NetworkWorker.others, List.append_assoc, List.drop_left,
    List.cons_append, List.nil_append, ownStatements_others, ownStatements]

/-- That of phase 2 also deletes the popped row. -/
theorem executed_cleanUp2 (todo : s.todoJob = some t) (main : s.mainJob = some j)
    (known : Known t.id path j.id s.tables) :
    wp (cleanUp2 collation xmlError) (fun _ s' => ∃ first second third,
      Known t.id path j.id second ∧ Known t.id path j.id third ∧ executed collation s s' =
        [(first, .insertDoneWithErrorJob j.id uriAppStart xmlError true),
          (second, .deleteTodoByStartingControlPath (s.followedPath ++ ['%'])),
          (third, .deleteTodoById t.id)]) s := by
  unfold cleanUp2
  rw [wp_bind, wp_insertDoneWithError main]
  intro before
  simp only [then_ok, wp_bind, wp_get]
  rw [wp_deleteTodoJobsStartingWithPath]
  intro between
  rw [then_ok, wp_deleteTodoJob (by exact todo)]
  intro later
  have known₂ := ((known.others collation before).exec collation
    (.insertDoneWithErrorJob j.id uriAppStart xmlError true)).others collation between
  have known₃ := (known₂.exec collation
    (.deleteTodoByStartingControlPath (s.followedPath ++ ['%']))).others collation later
  refine ⟨before.foldl (Statement.exec collation) s.tables, _, _, known₂, known₃, ?_⟩
  simp only [executed, NetworkWorker.own, NetworkWorker.others, List.append_assoc, List.drop_left,
    List.cons_append, List.nil_append, ownStatements_others, ownStatements]

end cleanUps

/-! ### What each of them deletes -/

section prunes

variable {path followedPath : Text} {tables : Tables}

theorem prunes_insertDoneWithErrorJob (jId : Nat) (followed xmlError : Text) :
    Prunes collation t j followedPath tables (.insertDoneWithErrorJob jId followed xmlError true) :=
  ⟨fun _ member gone => absurd member gone, List.Sublist.refl _⟩

theorem prunes_deleteTodoById (known : Known t.id path j.id tables) :
    Prunes collation t j followedPath tables (.deleteTodoById t.id) := by
  refine ⟨fun row member gone => ?_, List.filter_sublist⟩
  have popped : row.id = t.id := by
    simpa [Statement.exec, Table.delete_rows, member] using gone
  exact ⟨(known.same row member popped).2, .inl popped⟩

theorem prunes_deleteTodoByStartingControlPath (known : Known t.id path j.id tables) :
    Prunes collation t j followedPath tables
        (.deleteTodoByStartingControlPath (followedPath ++ ['%'])) ↔
      Inside collation t j followedPath tables := by
  have gone_iff : ∀ row ∈ tables.todo.rows,
      row ∉ ((Statement.deleteTodoByStartingControlPath (followedPath ++ ['%'])).exec collation
        tables).todo.rows ↔
        Like.like collation.sameChar row.cells.controlPath (followedPath ++ ['%']) = true := by
    intro row member
    simp [Statement.exec, Table.delete_rows, member]
  constructor
  · intro prunes row member other matched
    obtain ⟨own, popped | starts⟩ := prunes.1 row member ((gone_iff row member).mpr matched)
    · exact absurd popped other
    · exact ⟨own, starts⟩
  · intro inside
    refine ⟨fun row member gone => ?_, List.filter_sublist⟩
    by_cases popped : row.id = t.id
    · exact ⟨(known.same row member popped).2, .inl popped⟩
    · obtain ⟨own, starts⟩ := inside row member popped ((gone_iff row member).mp gone)
      exact ⟨own, .inr starts⟩

/-- For a path without pattern characters: no other job has a row below it. -/
theorem inside_iff_of_plain (exact_chars : ∀ c d, collation.sameChar c d = true ↔ c = d)
    (plain : Like.Plain followedPath) : Inside collation t j followedPath tables ↔
      ∀ row ∈ tables.todo.rows, row.id ≠ t.id → followedPath <+: row.cells.controlPath →
        row.cells.jId = j.id := by
  simp only [Inside, Like.like_iff_prefix exact_chars plain]
  exact ⟨fun inside row member other starts => (inside row member other starts).1,
    fun own row member other starts => ⟨own row member other starts, starts⟩⟩

end prunes

/-- In every run the worker knows its row from the moment it has popped it. -/
theorem known_of_serving {id dones : Nat} {path : Text} {deleted : Prop}
    (serving : Serving collation id path j dones deleted s) :
    ∃ t, s.todoJob = some t ∧ s.mainJob = some j ∧ Known t.id t.actionPath j.id s.tables := by
  obtain ⟨t, now, rfl, rfl⟩ := serving.now
  exact ⟨t, now, serving.main, serving.tracked.known⟩

/-- The clean-ups of phases 2, 3 and 4 stay inside the branch exactly if the pattern does. -/
theorem pruned_iff_confined (todo : s.todoJob = some t) (main : s.mainJob = some j)
    (known : Known t.id t.actionPath j.id s.tables) {xmlError : Text} {m : Work Unit}
    (phase : m ∈ cleanUps collation xmlError)
    {trace : List ((i : WorkerCall) × WorkerAnswer i)} {r : Except Stop Unit}
    (path : Prog.Path (m s) trace (r, s')) :
    Pruned collation t j s s' ↔ Confined collation t j s s' := by
  simp only [cleanUps, List.mem_cons, List.not_mem_nil, or_false] at phase
  rcases phase with rfl | rfl
  · obtain ⟨first, second, third, known₂, known₃, statements⟩ :=
      post_of_path (executed_cleanUp2 todo main known) path
    simp [Pruned, Confined, statements, prunes_insertDoneWithErrorJob,
      prunes_deleteTodoById known₃, prunes_deleteTodoByStartingControlPath known₂]
  · obtain ⟨first, second, known₂, statements⟩ :=
      post_of_path (executed_cleanUp main known) path
    simp [Pruned, Confined, statements, prunes_insertDoneWithErrorJob,
      prunes_deleteTodoByStartingControlPath known₂]

end pruning

/-! ### Two tables -/

/-- A worker of the first job that has pressed a button. -/
def afterButton (todo : Table TodoCells) : NetworkWorker :=
  { NetworkWorker.new ⟨Table.empty, todo, Table.empty⟩ with
    todoJob := some (.new 1 uriAppStart)
    mainJob := some ⟨1, "setup.exe".toList⟩
    followedPath := "APPSTART://ok=1/".toList }

/-- Its row, and one below the path followed. -/
def ownBranch : Table TodoCells :=
  (Table.empty.insert ⟨1, uriAppStart, true⟩).insert ⟨1, "APPSTART://ok=1/no=1/".toList, false⟩

/-- And a row of the second job below that path. -/
def sharedBranch : Table TodoCells :=
  ownBranch.insert ⟨2, "APPSTART://ok=1/no=1/".toList, false⟩

theorem known_afterButton {todo : Table TodoCells} (below : 1 < todo.next)
    (same : ∀ row ∈ todo.rows, row.id = 1 →
      row.cells.controlPath = uriAppStart ∧ row.cells.jId = 1) :
    Known 1 uriAppStart 1 (afterButton todo).tables :=
  ⟨below, same⟩

/-- The clean-up of phase 3, with nobody else using the database. -/
def cleaned (todo : Table TodoCells) :=
  Prog.run (guest window) (cleanUp .binary [] (afterButton todo)) []

theorem pruned_iff_confined_ownBranch : ∃ trace s',
    Prog.Path (cleanUp .binary [] (afterButton ownBranch)) trace (.ok (), s') ∧
      s'.tables.todo.rows.map Row.id = [1] ∧
      Pruned .binary (.new 1 uriAppStart) ⟨1, "setup.exe".toList⟩ (afterButton ownBranch) s' := by
  have ends : (cleaned ownBranch).map (fun r => (r.1.1, r.1.2.tables.todo.rows.map Row.id,
      decide (Confined .binary (.new 1 uriAppStart) ⟨1, "setup.exe".toList⟩
        (afterButton ownBranch) r.1.2))) = some (.ok (), [1], true) := by
    decide +kernel
  obtain ⟨⟨⟨result, s'⟩, numbers⟩, returned, same⟩ := Option.map_eq_some_iff.mp ends
  simp only [Prod.mk.injEq, decide_eq_true_eq] at same
  obtain ⟨rfl, rows, confined⟩ := same
  obtain ⟨trace, path⟩ := Prog.exists_path_of_run returned
  have phase : cleanUp .binary [] ∈ cleanUps .binary [] := by simp [cleanUps]
  exact ⟨trace, s', path, rows, (pruned_iff_confined rfl rfl
    (known_afterButton (by decide) (by decide)) phase path).mpr confined⟩

/-- The row of the second job is deleted. -/
theorem not_pruned : ¬ ∀ collation t j s xmlError trace r s',
    s.todoJob = some t → s.mainJob = some j → Known t.id t.actionPath j.id s.tables →
    Prog.Path (cleanUp collation xmlError s) trace (r, s') → Pruned collation t j s s' := by
  intro all
  have ends : (cleaned sharedBranch).map (fun r => (r.1.2.tables.todo.rows.map Row.id,
      decide (Pruned .binary (.new 1 uriAppStart) ⟨1, "setup.exe".toList⟩
        (afterButton sharedBranch) r.1.2))) = some ([1], false) := by
    decide +kernel
  obtain ⟨⟨⟨result, s'⟩, numbers⟩, returned, same⟩ := Option.map_eq_some_iff.mp ends
  simp only [Prod.mk.injEq, decide_eq_false_iff_not] at same
  obtain ⟨trace, path⟩ := Prog.exists_path_of_run returned
  exact same.2 (all .binary (.new 1 uriAppStart) ⟨1, "setup.exe".toList⟩ _ [] trace _ s' rfl rfl
    (known_afterButton (by decide) (by decide)) path)

end GuestAgent.Guarantees.BranchPruning
