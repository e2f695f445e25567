import GuestAgent.Guarantees.WorkerSteps

/-!
What becomes of the row a worker has popped. Whatever others execute meanwhile, the row is gone as
soon as one of the worker's statements deletes it. The handlers of phases 3 and 4 delete by path
only, and the path followed by then is usually longer than the row's; and a failure of phase 4
after the report was stored adds a second row to `done`.
-/
namespace GuestAgent.Guarantees.TodoLifeCycle
open Library Library.Method Source.Host Source.Host.Work WorkerSteps

section row

variable (collation : Collation) (id : Nat) (path : Text)

/-- The statement deletes the row `id` with the path `path`, if it is there. -/
def deletes : Statement → Bool
  | .deleteTodoById id' => id == id'
  | .deleteTodoByStartingControlPath pattern => Like.like collation.sameChar path pattern
  | _ => false

/-- The statement adds a row of the job `jId` to `done`. -/
def addsDone (jId : Nat) : Statement → Bool
  | .insertDoneJob jId' _ _ | .insertDoneWithErrorJob jId' _ _ _ => jId' == jId
  | _ => false

variable (jId : Nat) in
/-- The key is known, and no other row can have it. -/
structure Known (tables : Tables) : Prop where
  below : id < tables.todo.next
  same : ∀ row ∈ tables.todo.rows, row.id = id →
    row.cells.controlPath = path ∧ row.cells.jId = jId

def Present (tables : Tables) : Prop := ∃ row ∈ tables.todo.rows, row.id = id

variable (jId : Nat) in
/-- The row is there as long as nothing in the log deletes it. -/
structure Tracked (tables : Tables) (log : List Executed) : Prop where
  known : Known id path jId tables
  present : Present id tables ↔ ∀ e ∈ log, deletes collation id path e.statement = false

variable {collation id path} {jId : Nat} {tables : Tables}

variable (collation) in
theorem Known.exec (known : Known id path jId tables) (statement : Statement) :
    Known id path jId (statement.exec collation tables) := by
  refine ⟨Nat.lt_of_lt_of_le known.below exec_todo_next, fun row member same => ?_⟩
  obtain ⟨before, present, sameId, sameJob, samePath, _⟩ :=
    exec_todo_old member (same ▸ known.below)
  rw [← sameJob, ← samePath]
  exact known.same before present (sameId.trans same)

variable (collation) in
/-- A row with a known key stays exactly if the statement does not delete it. -/
theorem present_exec (known : Known id path jId tables) (statement : Statement) :
    Present id (statement.exec collation tables) ↔
      Present id tables ∧ deletes collation id path statement = false := by
  have inserted : ∀ cells, (∃ row ∈ (tables.todo.insert cells).rows, row.id = id) ↔
      Present id tables := by
    intro cells
    simp only [Table.insert_rows, List.mem_append, List.mem_singleton, Present]
    constructor
    · rintro ⟨row, member, same⟩
      rcases member with old | new
      · exact ⟨row, old, same⟩
      · have fresh : tables.todo.next = id := by rw [← same, new]
        have below := known.below
        omega
    · rintro ⟨row, member, same⟩
      exact ⟨row, .inl member, same⟩
  cases statement with
  | insertNewJob | insertDoneJob | insertDoneWithErrorJob => simp [Statement.exec, Present, deletes]
  | insertTodo | insertOneTodoInProgress =>
    simp only [deletes, and_true]
    exact inserted _
  | setInProgressTodoById id' =>
    simp only [deletes, and_true]
    constructor
    · rintro ⟨row, member, same⟩
      obtain ⟨before, present, rfl⟩ := List.mem_map.mp member
      rw [Table.updateRow_id] at same
      exact ⟨before, present, same⟩
    · rintro ⟨row, member, same⟩
      exact ⟨_, List.mem_map_of_mem member, (Table.updateRow_id _ _ _).trans same⟩
  | deleteTodoById id' =>
    simp only [Present, Statement.exec, Table.delete_rows, List.mem_filter, deletes]
    constructor
    · rintro ⟨row, ⟨member, other⟩, same⟩
      refine ⟨⟨row, member, same⟩, ?_⟩
      simpa [same] using other
    · rintro ⟨⟨row, member, same⟩, other⟩
      exact ⟨row, ⟨member, by simpa [same] using other⟩, same⟩
  | deleteTodoByStartingControlPath pattern =>
    simp only [Present, Statement.exec, Table.delete_rows, List.mem_filter, deletes]
    constructor
    · rintro ⟨row, ⟨member, other⟩, same⟩
      refine ⟨⟨row, member, same⟩, ?_⟩
      rw [← (known.same row member same).1]
      simpa using other
    · rintro ⟨⟨row, member, same⟩, other⟩
      refine ⟨row, ⟨member, ?_⟩, same⟩
      rw [(known.same row member same).1, other]
      rfl

theorem Tracked.exec {log : List Executed} (tracked : Tracked collation id path jId tables log)
    (own : Bool) (statement : Statement) :
    Tracked collation id path jId (statement.exec collation tables) (log ++ [⟨own, statement⟩]) := by
  refine ⟨tracked.known.exec collation statement, ?_⟩
  rw [present_exec collation tracked.known, tracked.present]
  simp only [List.mem_append, List.mem_singleton, or_imp, forall_and, forall_eq]

theorem Tracked.others {log : List Executed} (tracked : Tracked collation id path jId tables log)
    (statements : List Statement) :
    Tracked collation id path jId (statements.foldl (Statement.exec collation) tables)
      (log ++ statements.map (Executed.mk false)) := by
  induction statements generalizing tables log with
  | nil => simpa using tracked
  | cons statement rest ih =>
    have next := ih (tracked.exec false statement)
    rwa [List.append_assoc] at next

end row

/-! ### The worker and its row -/

section worker

variable (collation : Collation)

/-- The worker has popped the row `id` with the path `path` of the job `j`, has added `dones` rows
of the job to `done`, and one of its statements has deleted the row if `deleted` says so. -/
structure Serving (id : Nat) (path : Text) (j : Job) (dones : Nat) (deleted : Prop)
    (s : NetworkWorker) : Prop where
  todo : s.todoJob.map (fun t => (t.id, t.actionPath)) = some (id, path)
  main : s.mainJob = some j
  tracked : Tracked collation id path j.id s.tables s.log
  dones : s.log.countP (fun e => e.own && addsDone j.id e.statement) = dones
  deleted : (∃ e ∈ s.log, e.own = true ∧ deletes collation id path e.statement = true) ↔ deleted

/-- And the path it has followed, and the turning points it has passed. -/
structure Stage (id : Nat) (path : Text) (j : Job) (dones : Nat) (deleted : Prop)
    (followed : Text) (taken : List Branch) (s : NetworkWorker) : Prop extends
    Serving collation id path j dones deleted s where
  followedPath : s.followedPath = followed
  passed : s.taken = taken

variable {collation} {id : Nat} {path : Text} {j : Job} {dones : Nat} {deleted : Prop}
  {s s' : NetworkWorker}

theorem Serving.congr (serving : Serving collation id path j dones deleted s)
    (same : shown s' = shown s) : Serving collation id path j dones deleted s' := by
  simp only [shown, Prod.mk.injEq] at same
  obtain ⟨todo, main, _, tables, log, _⟩ := same
  exact ⟨todo.trans serving.todo, main.trans serving.main,
    by rw [tables, log]; exact serving.tracked, by rw [log]; exact serving.dones,
    by rw [log]; exact serving.deleted⟩

theorem Serving.now (serving : Serving collation id path j dones deleted s) :
    ∃ t, s.todoJob = some t ∧ t.id = id ∧ t.actionPath = path := by
  obtain ⟨t, now, key⟩ := Option.map_eq_some_iff.mp serving.todo
  exact ⟨t, now, congrArg Prod.fst key, congrArg Prod.snd key⟩

theorem Serving.others (serving : Serving collation id path j dones deleted s)
    (statements : List Statement) :
    Serving collation id path j dones deleted (s.others collation statements) := by
  refine ⟨serving.todo, serving.main, serving.tracked.others statements, ?_, ?_⟩
  · have none : (statements.map (Executed.mk false)).countP
        (fun e => e.own && addsDone j.id e.statement) = 0 := by
      simp [List.countP_eq_zero]
    simp only [NetworkWorker.others, List.countP_append, none, serving.dones, Nat.add_zero]
  · rw [← serving.deleted]
    simp only [NetworkWorker.others, List.mem_append, List.mem_map]
    constructor
    · rintro ⟨e, member | ⟨statement, _, rfl⟩, own, deletes⟩
      · exact ⟨e, member, own, deletes⟩
      · cases own
    · rintro ⟨e, member, holds⟩
      exact ⟨e, .inl member, holds⟩

theorem Serving.own (serving : Serving collation id path j dones deleted s) (statement : Statement) :
    Serving collation id path j (dones + if addsDone j.id statement then 1 else 0)
      (deleted ∨ deletes collation id path statement = true) (s.own collation statement) := by
  refine ⟨serving.todo, serving.main, serving.tracked.exec true statement, ?_, ?_⟩
  · simp [NetworkWorker.own, List.countP_append, serving.dones, List.countP_cons]
  · rw [← serving.deleted]
    simp only [NetworkWorker.own, List.mem_append, List.mem_singleton, or_and_right, exists_or,
      exists_eq_left, true_and]

/-! ### The methods that use the database -/

section methods

variable {followed : Text} {taken : List Branch} {α : Type} {post : Except Stop α → NetworkWorker → Prop}

theorem Stage.congr (stage : Stage collation id path j dones deleted followed taken s)
    (same : shown s' = shown s) : Stage collation id path j dones deleted followed taken s' := by
  refine ⟨stage.toServing.congr same, ?_, ?_⟩ <;> simp only [shown, Prod.mk.injEq] at same
  · exact same.2.2.1.trans stage.followedPath
  · exact same.2.2.2.2.2.trans stage.passed

theorem Stage.mark (stage : Stage collation id path j dones deleted followed taken s) (b : Branch) :
    Stage collation id path j dones deleted followed (taken ++ [b])
      { s with taken := s.taken ++ [b] } :=
  ⟨⟨stage.todo, stage.main, stage.tracked, stage.dones, stage.deleted⟩, stage.followedPath,
    by rw [stage.passed]⟩

/-- What one statement changes, with those of others before it. -/
theorem Stage.execute {dones' : Nat} {deleted' : Prop}
    (stage : Stage collation id path j dones deleted followed taken s) (statements : List Statement)
    (statement : Statement) (count : dones + (if addsDone j.id statement then 1 else 0) = dones')
    (same : deleted ∨ deletes collation id path statement = true ↔ deleted') :
    Stage collation id path j dones' deleted' followed taken
      ((s.others collation statements).own collation statement) := by
  have next := (stage.toServing.others statements).own statement
  exact ⟨⟨next.todo, next.main, next.tracked, next.dones.trans count, next.deleted.trans same⟩,
    stage.followedPath, stage.passed⟩

variable {post : Except Stop Unit → NetworkWorker → Prop}

theorem Stage.wp_insertDoneWithError
    (stage : Stage collation id path j dones deleted followed taken s) (p xmlError : Text)
    (next : ∀ s', Stage collation id path j (dones + 1) deleted followed taken s' →
      post (.ok ()) s') : wp (insertDoneWithError collation p xmlError) post s := by
  rw [WorkerSteps.wp_insertDoneWithError stage.main]
  intro statements
  exact next _ (stage.execute statements _ (by simp [addsDone]) (by simp [deletes]))

theorem Stage.wp_insertDone
    (stage : Stage collation id path j dones deleted followed taken s) (p xmlResult : Text)
    (next : ∀ s', Stage collation id path j (dones + 1) deleted followed taken s' →
      post (.ok ()) s') : wp (insertDone collation p xmlResult) post s := by
  rw [WorkerSteps.wp_insertDone stage.main]
  intro statements
  exact next _ (stage.execute statements _ (by simp [addsDone]) (by simp [deletes]))

theorem Stage.wp_deleteTodoJob
    (stage : Stage collation id path j dones deleted followed taken s)
    (next : ∀ s', Stage collation id path j dones True followed taken s' → post (.ok ()) s') :
    wp (deleteTodoJob collation) post s := by
  obtain ⟨t, now, same, _⟩ := stage.toServing.now
  rw [WorkerSteps.wp_deleteTodoJob now]
  intro statements
  exact next _ (stage.execute statements _ (by simp [addsDone]) (by simp [deletes, same]))

theorem Stage.wp_deleteTodoJobsStartingWithPath
    (stage : Stage collation id path j dones deleted followed taken s) (p : Text)
    (next : ∀ s', Stage collation id path j dones
        (deleted ∨ Like.like collation.sameChar path (p ++ ['%']) = true) followed taken s' →
      post (.ok ()) s') : wp (deleteTodoJobsStartingWithPath collation p) post s := by
  rw [WorkerSteps.wp_deleteTodoJobsStartingWithPath]
  intro statements
  exact next _ (stage.execute statements _ (by simp [addsDone]) Iff.rfl)

theorem Stage.wp_insertAction
    (stage : Stage collation id path j dones deleted followed taken s) (p : Text)
    (next : ∀ s', Stage collation id path j dones deleted followed taken s' → post (.ok ()) s') :
    wp (insertAction collation p) post s := by
  rw [WorkerSteps.wp_insertAction stage.main]
  intro statements
  exact next _ (stage.execute statements _ (by simp [addsDone]) (by simp [deletes]))

theorem Stage.wp_filterDoneOrTodo {post : Except Stop (List Text) → NetworkWorker → Prop}
    (stage : Stage collation id path j dones deleted followed taken s) (paths : List Text)
    (next : ∀ kept s', Stage collation id path j dones deleted followed taken s' →
      post (.ok kept) s') : wp (filterDoneOrTodo collation paths) post s := by
  induction paths generalizing s post with
  | nil => exact next [] s stage
  | cons p rest ih =>
    unfold filterDoneOrTodo
    rw [wp_bind, wp_letOthers]
    intro statements
    have heard : Stage collation id path j dones deleted followed taken
        (s.others collation statements) :=
      ⟨stage.toServing.others statements, stage.followedPath, stage.passed⟩
    simp only [then_ok, wp_bind, wp_get]
    exact ih heard fun kept s' stage' => next _ s' stage'

end methods

/-! ### The phases -/

section phases

variable {followed : Text} {taken : List Branch}

variable (collation) in
/-- The row is untouched, and so is `done`. -/
def Fresh (s : NetworkWorker) : Prop :=
  ∃ id path j followed, Stage collation id path j 0 False followed [] s

variable (collation) in
/-- In phase 3 the row is only deleted where nothing new is found. -/
def Discovering (s : NetworkWorker) : Prop :=
  ∃ id path j deleted followed taken, Stage collation id path j 0 deleted followed taken s ∧
    (deleted ↔ .nothingNew ∈ taken) ∧ ∀ b ∈ taken, b = .nothingNew

variable (collation) in
/-- The report is stored, and the row is deleted. -/
def Stored (s : NetworkWorker) : Prop :=
  ∃ id path j followed taken, Stage collation id path j 1 True followed taken s ∧
    .reportStored ∈ taken ∧ .failed3 ∉ taken ∧ .failed4 ∉ taken

variable (collation) in
/-- The run does not fail in phase 3 or 4 with the row still there and its path not covered by the
path followed so far, and not in phase 4 after the report was stored. -/
def Covered (path : Text) (s : NetworkWorker) : Prop :=
  (.failed3 ∈ s.taken ∨ .failed4 ∈ s.taken → .nothingNew ∈ s.taken ∨
    Like.like collation.sameChar path (s.followedPath ++ ['%']) = true) ∧
  ¬ (.failed4 ∈ s.taken ∧ .reportStored ∈ s.taken)

variable (collation) in
/-- Where the worker has deleted the row and added exactly one row to `done`, precisely if the run
was covered. -/
def Over (s : NetworkWorker) : Prop :=
  ∃ id path j dones deleted, Serving collation id path j dones deleted s ∧
    (dones = 1 ∧ deleted ↔ Covered collation path s)

theorem not_mem_of_passed {taken : List Branch} {b : Branch}
    (passed : ∀ b ∈ taken, b = .nothingNew) (other : b ≠ .nothingNew) : b ∉ taken :=
  fun member => other (passed b member)

theorem Discovering.congr (discovering : Discovering collation s) (same : shown s' = shown s) :
    Discovering collation s' := by
  obtain ⟨id, path, j, deleted, followed, taken, stage, holds⟩ := discovering
  exact ⟨id, path, j, deleted, followed, taken, stage.congr same, holds⟩

theorem Fresh.congr (fresh : Fresh collation s) (same : shown s' = shown s) :
    Fresh collation s' := by
  obtain ⟨id, path, j, followed, stage⟩ := fresh
  exact ⟨id, path, j, followed, stage.congr same⟩

theorem Stored.congr (stored : Stored collation s) (same : shown s' = shown s) :
    Stored collation s' := by
  obtain ⟨id, path, j, followed, taken, stage, holds⟩ := stored
  exact ⟨id, path, j, followed, taken, stage.congr same, holds⟩

theorem Over.congr (now : Over collation s) (same : shown s' = shown s) : Over collation s' := by
  obtain ⟨id, path, j, dones, deleted, serving, holds⟩ := now
  refine ⟨id, path, j, dones, deleted, serving.congr same, holds.trans ?_⟩
  simp only [shown, Prod.mk.injEq] at same
  rw [Covered, Covered, same.2.2.1, same.2.2.2.2.2]

/-- At the end of a run, from what the last statements left. -/
theorem Stage.toOver {dones : Nat} {deleted : Prop} {taken : List Branch}
    (stage : Stage collation id path j dones deleted followed taken s)
    (exact_end : dones = 1 ∧ deleted ↔
      (.failed3 ∈ taken ∨ .failed4 ∈ taken → .nothingNew ∈ taken ∨
        Like.like collation.sameChar path (followed ++ ['%']) = true) ∧
      ¬ (.failed4 ∈ taken ∧ .reportStored ∈ taken)) : Over collation s := by
  refine ⟨id, path, j, dones, deleted, stage.toServing, ?_⟩
  rw [Covered, stage.followedPath, stage.passed]
  exact exact_end

/-! ### The handlers -/

/-- A call in a handler that touches nothing: if it raises, the run does not return. -/
theorem wp_quietly {α : Type} {m : Work α} {k : α → Work Unit}
    {returned : Unit → NetworkWorker → Prop} (quiet : Keeps shown m)
    (next : ∀ a s', shown s' = shown s → wp (k a) (Outcome returned fun _ => True) s') :
    wp (m >>= k) (Outcome returned fun _ => True) s := by
  rw [wp_bind]
  refine quiet.wp fun r s' same => ?_
  cases r with
  | error stop => exact outcome_error stop trivial
  | ok a => exact next a s' same

/-- The last call of the handlers. -/
theorem wp_revertVm (last : Over collation s) :
    wp revertVm (Outcome (fun _ s' => Over collation s') fun _ => True) s := by
  refine keeps_revertVm.wp fun r s' same => ?_
  cases r with
  | error stop => exact outcome_error stop trivial
  | ok _ => exact last.congr same

theorem wp_failed1 (fresh : s.todoJob = none ∨ Fresh collation s) (e : Exn) :
    wp (failed1 collation e) (Outcome (fun _ s' => Over collation s') fun _ => True) s := by
  unfold failed1
  rw [wp_bind, mark, wp_modify, then_ok, wp_bind]
  rcases fresh with none | ⟨id, path, j, followed, stage⟩
  · unfold todoJob
    simp [none]
  · have marked := stage.mark .failed1
    obtain ⟨t, now, _⟩ := marked.toServing.now
    rw [wp_todoJob now, then_ok]
    refine wp_quietly (keeps_buildHostXmlError _ e) fun xmlErrorLog s₁ same => ?_
    rw [wp_bind]
    refine (marked.congr same).wp_insertDoneWithError _ _ fun s₂ stage₂ => ?_
    rw [then_ok, wp_bind]
    refine stage₂.wp_deleteTodoJob fun s₃ stage₃ => ?_
    exact wp_revertVm (stage₃.toOver (by simp))

theorem wp_failed2 (fresh : Fresh collation s) (e : Exn) :
    wp (failed2 collation e) (Outcome (fun _ s' => Over collation s') fun _ => True) s := by
  obtain ⟨id, path, j, followed, stage⟩ := fresh
  unfold failed2 cleanUp2
  rw [wp_bind, mark, wp_modify, then_ok]
  refine wp_quietly (keeps_buildHostXmlError _ e) fun xmlError s₁ same => ?_
  simp only [wp_bind]
  refine ((stage.mark .failed2).congr same).wp_insertDoneWithError _ _ fun s₂ stage₂ => ?_
  rw [then_ok, wp_get, then_ok]
  refine stage₂.wp_deleteTodoJobsStartingWithPath _ fun s₃ stage₃ => ?_
  rw [then_ok]
  refine stage₃.wp_deleteTodoJob fun s₄ stage₄ => ?_
  exact wp_revertVm (stage₄.toOver (by simp))

/-- The clean-up of phases 3 and 4. -/
theorem Stage.wp_cleanUp {dones : Nat} {deleted : Prop}
    {post : Except Stop Unit → NetworkWorker → Prop}
    (stage : Stage collation id path j dones deleted followed taken s) (xmlErrorLog : Text)
    (next : ∀ s', Stage collation id path j (dones + 1)
        (deleted ∨ Like.like collation.sameChar path (followed ++ ['%']) = true) followed taken s' →
      post (.ok ()) s') : wp (cleanUp collation xmlErrorLog) post s := by
  unfold cleanUp
  simp only [wp_bind, wp_get, then_ok]
  refine stage.wp_insertDoneWithError _ _ fun s₁ stage₁ => ?_
  simp only [then_ok]
  refine stage₁.wp_deleteTodoJobsStartingWithPath _ fun s₂ stage₂ => ?_
  rw [stage₁.followedPath] at stage₂
  exact next s₂ stage₂

theorem wp_failed3 (discovering : Discovering collation s) (e : Exn) :
    wp (failed3 collation e) (Outcome (fun _ s' => Over collation s') fun _ => True) s := by
  obtain ⟨id, path, j, deleted, followed, taken, stage, gone, passed⟩ := discovering
  have early : Branch.failed4 ∉ taken := not_mem_of_passed passed (by decide)
  unfold failed3
  rw [wp_bind, mark, wp_modify, then_ok]
  refine wp_quietly (keeps_buildHostXmlError _ e) fun xmlErrorLog s₁ same => ?_
  rw [wp_bind]
  refine ((stage.mark .failed3).congr same).wp_cleanUp _ fun s₂ stage₂ => ?_
  exact wp_revertVm (stage₂.toOver (by simp [gone, early]))

theorem wp_failed4 (state : Discovering collation s ∨ Stored collation s) (e : Exn) :
    wp (failed4 collation e) (Outcome (fun _ s' => Over collation s') fun _ => True) s := by
  unfold failed4
  rw [wp_bind, mark, wp_modify, then_ok]
  refine wp_quietly (keeps_buildHostXmlError _ e) fun xmlErrorLog s₁ same => ?_
  rcases state with ⟨id, path, j, deleted, followed, taken, stage, gone, passed⟩ |
    ⟨id, path, j, followed, taken, stage, stored, _, _⟩
  · refine ((stage.mark .failed4).congr same).wp_cleanUp _ fun s₂ stage₂ => ?_
    have unstored : Branch.reportStored ∉ taken := not_mem_of_passed passed (by decide)
    exact stage₂.toOver (by simp [gone, unstored])
  · refine ((stage.mark .failed4).congr same).wp_cleanUp _ fun s₂ stage₂ => ?_
    exact stage₂.toOver (by simp [stored])

/-! ### What the phases leave -/

theorem known_of_member {tables : Tables} {row : Row TodoCells} (member : row ∈ tables.todo.rows) :
    Known row.id row.cells.controlPath row.cells.jId tables := by
  refine ⟨tables.todo.below row member, fun other present same => ?_⟩
  rw [Table.eq_of_id present member same]
  exact ⟨rfl, rfl⟩

variable (collation) in
theorem Known.others {tables : Tables} {jId : Nat} (known : Known id path jId tables)
    (statements : List Statement) :
    Known id path jId (statements.foldl (Statement.exec collation) tables) := by
  induction statements generalizing tables with
  | nil => exact known
  | cons statement rest ih => exact ih (known.exec collation statement)

/-- A worker without a row, at the start and after each answer that there is none. -/
def Waiting (s : NetworkWorker) : Prop := s.todoJob = none ∧ s.taken = []

theorem Waiting.congr (waiting : Waiting s) (same : shown s' = shown s) : Waiting s' := by
  simp only [shown, Prod.mk.injEq] at same
  refine ⟨?_, same.2.2.2.2.2.trans waiting.2⟩
  have none : s'.todoJob.map (fun t => (t.id, t.actionPath)) = none := by
    rw [same.1, waiting.1]
    rfl
  exact Option.map_eq_none_iff.mp none

theorem wp_popTodoJob (waiting : Waiting s) : wp (popTodoJob collation)
    (Outcome (fun _ s' => Waiting s' ∨ Fresh collation s') Waiting) s := by
  unfold popTodoJob
  rw [wp_bind, wp_letOthers]
  intro statements
  simp only [then_ok, wp_bind, wp_get]
  split
  · exact .inl waiting
  · next first rest found =>
    simp only [wp_bind, wp_limitOne, then_ok, wp_modify, WorkerSteps.wp_execute]
    intro k others
    generalize chosen : (first :: rest).getD k first = r
    have member : r ∈ first :: rest := by
      rw [← chosen, List.getD_eq_getElem?_getD]
      cases at_k : (first :: rest)[k]? with
      | none => exact List.mem_cons_self
      | some r => exact List.mem_of_getElem? at_k
    obtain ⟨queued, own, _⟩ := mem_selectJobUnfinished (found ▸ member)
    split
    · exact waiting
    · next matched =>
      have known := (known_of_member queued).others collation others
      rw [own] at known
      have present := Table.mem_rows_of_countP_id (not_not.mp matched)
      have marked := known.exec collation (.setInProgressTodoById r.2.id)
      refine .inr ⟨r.2.id, r.2.cells.controlPath, ⟨r.1.id, r.1.cells.path⟩, s.followedPath, ?_⟩
      refine ⟨⟨rfl, rfl, ⟨marked, ?_⟩, rfl, by simp⟩, rfl, waiting.2⟩
      simp only [List.not_mem_nil, false_implies, implies_true, iff_true]
      exact (present_exec collation known (.setInProgressTodoById r.2.id)).mpr ⟨present, rfl⟩

/-- A turn of phase 1. -/
theorem wp_pollTurn (state : Waiting s ∨ Fresh collation s) : wp (pollTurn collation)
    (Then (fun again s' => if again then Waiting s' ∨ Fresh collation s' else Fresh collation s')
      fun stop s' => Outcome (fun _ s' => Fresh collation s')
        (fun s' => Waiting s' ∨ Fresh collation s') (.error stop : Except Stop Unit) s') s := by
  unfold pollTurn
  rw [wp_bind, wp_get, then_ok]
  split
  · next popped =>
    rcases state with waiting | fresh
    · rw [waiting.1] at popped
      cases popped
    · exact fresh
  · next waits =>
    have waiting : Waiting s := by
      rcases state with waiting | ⟨id, path, j, followed, stage⟩
      · exact waiting
      · obtain ⟨t, now, _⟩ := stage.toServing.now
        rw [now] at waits
        exact absurd rfl waits
    rw [wp_bind]
    refine keeps_receiveCallForWork.wp fun r s₁ same => ?_
    cases r with
    | error stop => exact outcome_error stop (.inl (waiting.congr same))
    | ok _ =>
      rw [then_ok, wp_bind]
      refine wp_mono (fun r s₂ popped => ?_) (wp_popTodoJob (waiting.congr same))
      cases r with
      | error stop =>
        cases stop with
        | raised e => exact .inl popped
        | unobserved => trivial
      | ok _ =>
        rw [then_ok, wp_bind, wp_get, then_ok]
        have answered : ∀ answer, wp (writeInt16 answer >>= fun _ => pure true)
            (Then (fun again s' => if again then Waiting s' ∨ Fresh collation s'
              else Fresh collation s') fun stop s' => Outcome (fun _ s' => Fresh collation s')
                (fun s' => Waiting s' ∨ Fresh collation s') (.error stop : Except Stop Unit) s')
            s₂ := by
          intro answer
          rw [wp_bind]
          refine (keeps_writeInt16 answer).wp fun r s₃ same => ?_
          have after : Waiting s₃ ∨ Fresh collation s₃ :=
            popped.imp (fun w => w.congr same) fun f => f.congr same
          cases r with
          | error stop => exact outcome_error stop after
          | ok _ => exact after
        cases s₂.mainJob with
        | none => exact answered _
        | some j => exact answered _

theorem wp_phase1 (tables : Tables) (turns : Nat) : wp (phase1 collation turns)
    (Outcome (fun _ s' => Fresh collation s') fun s' => Waiting s' ∨ Fresh collation s')
    (NetworkWorker.new tables) := by
  unfold phase1
  rw [wp_bind]
  refine wp_repeatWhile (fun s => Waiting s ∨ Fresh collation s) ?_ (fun _ _ => trivial) turns
    (.inl ⟨rfl, rfl⟩)
  intro s state
  refine wp_mono (fun r s' turn => ?_) (wp_pollTurn state)
  cases r with
  | error stop => exact turn
  | ok again =>
    cases again with
    | true => exact turn
    | false =>
      have fresh : Fresh collation s' := turn
      simp only [then_ok, Bool.false_eq_true, if_false, wp_bind]
      refine keeps_sendWork.wp fun r s₁ same => ?_
      cases r with
      | error stop => exact outcome_error stop (.inr (fresh.congr same))
      | ok _ =>
        refine keeps_receiveAck.wp fun r s₂ same' => ?_
        have after : Fresh collation s₂ := fresh.congr (same'.trans same)
        cases r with
        | error stop => exact outcome_error stop (.inr after)
        | ok _ => exact after

/-- A turn of phase 2, however it ends. -/
theorem wp_followTurn (fresh : Fresh collation s) :
    wp followTurn (fun _ s' => Fresh collation s') s := by
  have closed : ∀ s s', Fresh collation s → shown s' = shown s → Fresh collation s' :=
    fun _ _ => Fresh.congr
  unfold followTurn
  refine keeps_todoJob.wp_bind closed fresh (fun t s₁ fresh => ?_) fun _ _ => id
  rw [wp_bind, wp_get, then_ok]
  split
  · exact fresh
  · refine keeps_readInt16.wp_bind closed fresh (fun status s₂ fresh => ?_) fun _ _ => id
    split
    · exact fresh
    · refine (keeps_external _).wp_bind closed fresh (fun res s₃ fresh => ?_) fun _ _ => id
      refine (keeps_checkLoop _).wp_bind closed fresh (fun _ s₄ fresh => ?_) fun _ _ => id
      refine keeps_nextAction.wp_bind closed fresh (fun next s₅ fresh => ?_) fun _ _ => id
      refine (keeps_sendCommand _ _).wp_bind closed fresh (fun good s₆ fresh => ?_) fun _ _ => id
      split
      · refine (keeps_markChosen _ _).wp_bind closed fresh (fun _ s₇ fresh => ?_) fun _ _ => id
        obtain ⟨id, path, j, followed, stage⟩ := fresh
        exact ⟨id, path, j, _, ⟨stage.todo, stage.main, stage.tracked, stage.dones,
          stage.deleted⟩, rfl, stage.passed⟩
      · exact fresh

theorem wp_phase2 (fresh : Fresh collation s) (turns : Nat) : wp (phase2 turns)
    (Outcome (fun _ s' => Fresh collation s') fun s' => Fresh collation s') s := by
  refine wp_repeatWhile (Fresh collation) ?_ (fun _ _ => trivial) turns fresh
  intro s fresh
  refine wp_mono (fun r s' kept => ?_) (wp_followTurn fresh)
  cases r with
  | error stop => exact outcome_error stop kept
  | ok again => cases again <;> exact kept

/-- A turn of phase 3, however it ends. -/
theorem wp_discoverTurn (discovering : Discovering collation s) :
    wp (discoverTurn collation) (fun _ s' => Discovering collation s') s := by
  have closed : ∀ s s', Discovering collation s → shown s' = shown s → Discovering collation s' :=
    fun _ _ => Discovering.congr
  unfold discoverTurn
  refine keeps_readInt16.wp_bind closed discovering (fun status s₁ now => ?_) fun _ _ => id
  split
  · exact now
  · refine (keeps_external _).wp_bind closed now (fun res s₂ now => ?_) fun _ _ => id
    refine (keeps_checkLoop _).wp_bind closed now (fun _ s₃ now => ?_) fun _ _ => id
    simp only [wp_bind, wp_get, then_ok]
    obtain ⟨id, path, j, deleted, followed, taken, stage, gone, passed⟩ := now
    refine stage.wp_filterDoneOrTodo _ fun kept s₄ stage => ?_
    rw [then_ok]
    cases kept with
    | nil =>
      simp only [wp_bind, mark, wp_modify, then_ok]
      refine (stage.mark .nothingNew).wp_deleteTodoJob fun s₅ stage => ?_
      refine keeps_revertVm.wp fun r s₆ same => ?_
      have after : Discovering collation s₆ :=
        ⟨id, path, j, True, followed, taken ++ [.nothingNew], stage.congr same, by simp, by
          simpa [or_imp, forall_and] using passed⟩
      cases r with
      | error stop => exact after
      | ok _ => exact after
    | cons fullPathToPerform toDo =>
      have now : Discovering collation s₄ :=
        ⟨id, path, j, deleted, followed, taken, stage, gone, passed⟩
      rw [wp_bind]
      refine wp_forEach (Discovering collation) (fun p _ s now => ?_) (fun s₅ now => ?_) now
      · obtain ⟨id, path, j, deleted, followed, taken, stage, holds⟩ := now
        exact stage.wp_insertAction p fun s' stage' =>
          ⟨id, path, j, deleted, followed, taken, stage', holds⟩
      · rw [then_ok]
        refine (keeps_ofExcept _).wp_bind closed now (fun chosen s₆ now => ?_) fun _ _ now => now
        refine (keeps_sendCommand _ _).wp_bind closed now (fun good s₇ now => ?_) fun _ _ now => now
        split
        · refine (keeps_markChosen _ _).wp_bind closed now (fun _ s₈ now => ?_) fun _ _ now => now
          obtain ⟨id, path, j, deleted, followed, taken, stage, holds⟩ := now
          exact ⟨id, path, j, deleted, _, taken, ⟨⟨stage.todo, stage.main, stage.tracked,
            stage.dones, stage.deleted⟩, rfl, stage.passed⟩, holds⟩
        · exact now

theorem wp_phase3 (discovering : Discovering collation s) (turns : Nat) :
    wp (phase3 collation turns)
      (Outcome (fun _ s' => Discovering collation s') fun s' => Discovering collation s') s := by
  refine wp_repeatWhile (Discovering collation) ?_ (fun _ _ => trivial) turns discovering
  intro s now
  refine wp_mono (fun r s' kept => ?_) (wp_discoverTurn now)
  cases r with
  | error stop => exact outcome_error stop kept
  | ok again => cases again <;> exact kept

theorem wp_phase4 (discovering : Discovering collation s) : wp (phase4 collation)
    (Outcome (fun _ s' => Stored collation s')
      fun s' => Discovering collation s' ∨ Stored collation s') s := by
  have closed : ∀ s s', Discovering collation s → shown s' = shown s → Discovering collation s' :=
    fun _ _ => Discovering.congr
  unfold phase4
  refine keeps_receiveUISteps.wp_bind closed discovering (fun uisteps s₁ now => ?_)
    fun stop _ now => outcome_error stop (.inl now)
  refine keeps_mainJob.wp_bind closed now (fun j s₂ now => ?_)
    fun stop _ now => outcome_error stop (.inl now)
  refine keeps_todoJob.wp_bind closed now (fun t s₃ now => ?_)
    fun stop _ now => outcome_error stop (.inl now)
  refine (keeps_external _).wp_bind closed now (fun reportPath s₄ now => ?_)
    fun stop _ now => outcome_error stop (.inl now)
  obtain ⟨id, path, j, deleted, followed, taken, stage, gone, passed⟩ := now
  simp only [wp_bind, mark, wp_modify, wp_get, then_ok]
  refine (stage.mark .reportStored).wp_insertDone _ _ fun s₅ stage => ?_
  refine stage.wp_deleteTodoJob fun s₆ stage => ?_
  have stored : Stored collation s₆ := by
    refine ⟨id, path, j, followed, taken ++ [.reportStored], stage, by simp, ?_, ?_⟩
    · have early : Branch.failed3 ∉ taken := not_mem_of_passed passed (by decide)
      simp [early]
    · have early : Branch.failed4 ∉ taken := not_mem_of_passed passed (by decide)
      simp [early]
  refine keeps_readInt16.wp fun r s₇ same => ?_
  have after := stored.congr same
  cases r with
  | error stop => exact outcome_error stop (.inr after)
  | ok ans =>
    simp only [then_ok]
    split
    · rw [wp_bind]
      refine (keeps_external .readString).wp fun r s₈ same => ?_
      cases r with
      | error stop => exact outcome_error stop (.inr (after.congr same))
      | ok _ => exact after.congr same
    · split
      · exact .inr after
      · exact .inr after

/-- However a run ends, if it returns. -/
theorem wp_run (tables : Tables) (turns : Nat) : wp (run collation turns)
    (Outcome (fun _ s' => Over collation s') fun _ => True) (NetworkWorker.new tables) := by
  unfold run
  have patience : ∀ s', Outcome (fun _ s' => Over collation s') (fun _ => True)
      (.error .unobserved : Except Stop Unit) s' := fun _ => trivial
  refine wp_tryCatch patience (wp_mono (fun r s₁ after => ?_) (wp_phase1 tables turns))
  rcases r with (e | _) | _
  · intro e
    exact wp_failed1 (after.imp And.left id) e
  · trivial
  · obtain ⟨id, path, j, followed, stage⟩ := (after : Fresh collation s₁)
    have fresh : Fresh collation { s₁ with followedPath := uriAppStart } :=
      ⟨id, path, j, uriAppStart, ⟨stage.todo, stage.main, stage.tracked, stage.dones,
        stage.deleted⟩, rfl, stage.passed⟩
    rw [outcome_ok, wp_bind, wp_modify, then_ok]
    refine wp_tryCatch patience (wp_mono (fun r s₂ after => ?_) (wp_phase2 fresh turns))
    rcases r with (e | _) | _
    · exact wp_failed2 after
    · trivial
    · obtain ⟨id, path, j, followed, stage⟩ := (after : Fresh collation s₂)
      have discovering : Discovering collation s₂ :=
        ⟨id, path, j, False, followed, [], stage, by simp, by simp⟩
      refine wp_tryCatch patience (wp_mono (fun r s₃ after => ?_) (wp_phase3 discovering turns))
      rcases r with (e | _) | _
      · exact wp_failed3 after
      · trivial
      · refine wp_tryFinally (wp_tryCatch (fun _ => trivial)
          (wp_mono (fun r s₄ after => ?_) (wp_phase4 after))) keeps_revertVm
        have keeps : ∀ s, Over collation s → ∀ s', shown s' = shown s → Over collation s' :=
          fun s now s' same => now.congr same
        rcases r with (e | _) | _
        · intro e
          refine wp_mono (fun r s₅ last => ?_) (wp_failed4 after e)
          rcases r with (e | _) | _
          · trivial
          · trivial
          · exact keeps s₅ last
        · trivial
        · obtain ⟨id, path, j, followed, taken, stage, stored, early3, early4⟩ :=
            (after : Stored collation s₄)
          exact keeps s₄ (stage.toOver (by simp [early3, early4]))

/-- The row the worker has popped is gone, and the run has added exactly one row of its job to
`done`. -/
def Settled (t : TodoJob) (j : Job) (s : NetworkWorker) : Prop :=
  (∀ row ∈ s.tables.todo.rows, row.id ≠ t.id) ∧
    s.log.countP (fun e => e.own && addsDone j.id e.statement) = 1

/-- Every run that returns has popped a row. It has settled it if the run is covered, and unless
others have deleted the row in its place, only then. -/
theorem settled_iff_covered (collation : Collation) (tables : Tables) (turns : Nat)
    {trace : List ((i : WorkerCall) × WorkerAnswer i)} {s : NetworkWorker}
    (returned : Prog.Path (run collation turns (NetworkWorker.new tables)) trace (.ok (), s)) :
    ∃ t j, s.todoJob = some t ∧ s.mainJob = some j ∧
      (Covered collation t.actionPath s → Settled t j s) ∧
      ((∀ e ∈ s.log, e.own = false → deletes collation t.id t.actionPath e.statement = false) →
        (Settled t j s ↔ Covered collation t.actionPath s)) := by
  have last : Over collation s := post_of_path (wp_run tables turns) returned
  obtain ⟨id, path, j, dones, deleted, serving, covered⟩ := last
  obtain ⟨t, now, rfl, rfl⟩ := serving.now
  have gone : (∀ row ∈ s.tables.todo.rows, row.id ≠ t.id) ↔
      ∃ e ∈ s.log, deletes collation t.id t.actionPath e.statement = true := by
    have present := not_congr serving.tracked.present
    simp only [Present, not_exists, not_and, not_forall, Bool.not_eq_false] at present
    simpa only [exists_prop] using present
  have settled : Settled t j s ↔
      (∃ e ∈ s.log, deletes collation t.id t.actionPath e.statement = true) ∧ dones = 1 := by
    rw [Settled, gone, serving.dones]
  refine ⟨t, j, now, serving.main, fun cover => ?_, fun others => ?_⟩
  · obtain ⟨one, own⟩ := covered.mpr cover
    obtain ⟨e, member, _, does⟩ := serving.deleted.mpr own
    exact settled.mpr ⟨⟨e, member, does⟩, one⟩
  · rw [settled, ← covered, ← serving.deleted, and_comm]
    refine and_congr_right fun _ => ⟨fun ⟨e, member, does⟩ => ?_, fun ⟨e, member, _, does⟩ => ?_⟩
    · cases own : e.own with
      | true => exact ⟨e, member, own, does⟩
      | false =>
        rw [others e member own] at does
        cases does
    · exact ⟨e, member, does⟩

end phases

end worker

/-! ### Two runs -/

/-- A guest that sends these numbers and then no more, and shows one window throughout. Everything
else succeeds, and nobody else uses the database. -/
def guest (window : PossibleInteraction) :
    (i : WorkerCall) → List Int16 → Option (WorkerAnswer i × List Int16)
  | .others, numbers => some (([] : List Statement), numbers)
  | .limit _, numbers => some ((0 : Nat), numbers)
  | .external .readInt16, [] => some ((.error .endOfStream : Except Exn Int16), [])
  | .external .readInt16, n :: numbers => some ((.ok n : Except Exn Int16), numbers)
  | .external .readPossibleInteraction, numbers => some ((.ok window : Except Exn _), numbers)
  | .external .readMachineInfo, numbers => some ((.ok true : Except Exn Bool), numbers)
  | .external .readString, numbers | .external (.drawBitmap _), numbers
  | .external (.saveReport _ _ _), numbers | .external (.writeErrorXml _ _), numbers =>
    some ((.ok [] : Except Exn Text), numbers)
  | .external (.writeInt16 _), numbers | .external (.configureLogger _), numbers
  | .external (.sendFileInfo _), numbers | .external (.sendFileBytes _), numbers
  | .external (.writeCommand _ _), numbers | .external (.revertVm _), numbers =>
    some ((.ok () : Except Exn Unit), numbers)

/-- One job, and one row to do, with the path of no action. -/
def oneRow : Tables :=
  ⟨Table.empty.insert ⟨"setup.exe".toList, "d41d8c".toList, false⟩,
    Table.empty.insert ⟨1, uriAppStart, false⟩, Table.empty⟩

/-- A window with one button. -/
def window : PossibleInteraction := ⟨"w".toList, [⟨"ok".toList, 1⟩]⟩

/-- The program ends at once, and the guest is a virtual machine. -/
def completed := Prog.run (guest window) (run .binary 2 (NetworkWorker.new oneRow))
  [10001, 0, 0, 0, 101, 1001]

/-- The button is pressed, and the connection is lost. -/
def lost := Prog.run (guest window) (run .binary 2 (NetworkWorker.new oneRow))
  [10001, 0, 0, 0, 100, 10]

theorem settled_iff_covered_completed : ∃ trace s t j,
    Prog.Path (run .binary 2 (NetworkWorker.new oneRow)) trace (.ok (), s) ∧
      s.todoJob = some t ∧ s.mainJob = some j ∧ Settled t j s := by
  have ends : completed.map (fun r => (r.1.1, r.1.2.taken)) = some (.ok (), [.reportStored]) := by
    decide +kernel
  obtain ⟨⟨⟨result, s⟩, numbers⟩, returned, same⟩ := Option.map_eq_some_iff.mp ends
  obtain ⟨rfl, taken⟩ := Prod.mk.inj same
  obtain ⟨trace, path⟩ := Prog.exists_path_of_run returned
  obtain ⟨t, j, todo, main, enough, _⟩ := settled_iff_covered .binary oneRow 2 path
  refine ⟨trace, s, t, j, path, todo, main, enough ?_⟩
  simp only at taken
  simp [Covered, taken]

/-- The row stays: its path is shorter than the path followed. -/
theorem not_settled : ¬ ∀ collation tables turns trace s,
    Prog.Path (run collation turns (NetworkWorker.new tables)) trace (.ok (), s) →
      ∃ t j, s.todoJob = some t ∧ s.mainJob = some j ∧ Settled t j s := by
  intro all
  have ends : lost.map (fun r =>
      (r.1.1, r.1.2.tables.todo.rows.map Row.id, r.1.2.todoJob.map TodoJob.id)) =
      some (.ok (), [1], some 1) := by
    decide +kernel
  obtain ⟨⟨⟨result, s⟩, numbers⟩, returned, same⟩ := Option.map_eq_some_iff.mp ends
  simp only [Prod.mk.injEq] at same
  obtain ⟨rfl, rows, popped⟩ := same
  obtain ⟨trace, path⟩ := Prog.exists_path_of_run returned
  obtain ⟨t, j, todo, _, gone, _⟩ := all .binary oneRow 2 trace s path
  have one : 1 ∈ s.tables.todo.rows.map Row.id := by simp [rows]
  obtain ⟨row, member, same⟩ := List.mem_map.mp one
  rw [todo] at popped
  exact gone row member (same.trans (Option.some.inj popped).symm)

end GuestAgent.Guarantees.TodoLifeCycle
