import GuestAgent.Source.NetworkWorker

/-!
What the methods of a worker do, one rule for each. `shown` is what the guarantees look at; most
exchanges with the guest do not touch it. The statements are described by the state they leave,
with those of others before them.
-/
namespace GuestAgent.Guarantees.WorkerSteps
open Library Library.Method Source.Host Source.Host.Work

/-- The row and the job of the worker, how far it has come, and the database. -/
def shown (s : NetworkWorker) :
    Option (Nat × Text) × Option Job × Text × Tables × List Executed × List Branch :=
  (s.todoJob.map fun t => (t.id, t.actionPath), s.mainJob, s.followedPath, s.tables, s.log, s.taken)

/-- What a method that returns leaves, and what one that raises leaves. -/
def Outcome {α : Type} (returned : α → NetworkWorker → Prop) (raised : NetworkWorker → Prop) :
    Except Stop α → NetworkWorker → Prop
  | .ok a, s => returned a s
  | .error (.raised _), s => raised s
  | .error .unobserved, _ => True

section outcome

variable {α : Type} {returned : α → NetworkWorker → Prop} {raised : NetworkWorker → Prop}
  {s : NetworkWorker}

@[simp] theorem outcome_ok (a : α) : Outcome returned raised (.ok a) s ↔ returned a s := Iff.rfl

@[simp] theorem outcome_raised (e : Exn) :
    Outcome returned raised (.error (.raised e) : Except Stop α) s ↔ raised s := Iff.rfl

/-- A method that stops has raised, unless it was not watched any longer. -/
theorem outcome_error (stop : Stop) (holds : raised s) :
    Outcome returned raised (.error stop : Except Stop α) s := by
  cases stop with
  | raised e => exact holds
  | unobserved => trivial

end outcome

section rules

variable {α : Type} {post : Except Stop α → NetworkWorker → Prop} {s : NetworkWorker}

@[simp] theorem wp_throw (e : Exn) :
    wp (Work.throw e : Work α) post s ↔ post (.error (.raised e)) s := wp_raise _ _ _

/-- A call outside may return anything and may raise anything. -/
theorem wp_external {call : ExternalCall} {post : Except Stop call.Result → NetworkWorker → Prop} :
    wp (external call) post s ↔ (∀ a, post (.ok a) s) ∧ ∀ e, post (.error (.raised e)) s := by
  constructor
  · intro all
    exact ⟨fun a => all (.ok a), fun e => all (.error e)⟩
  · intro all answer
    cases answer with
    | ok a => exact all.1 a
    | error e => exact all.2 e

theorem wp_tryCatch {body rest : Work Unit} {handler : Exn → Work Unit}
    {post : Except Stop Unit → NetworkWorker → Prop}
    (patience : ∀ s, post (.error .unobserved) s)
    (holds : wp body
      (Outcome (fun _ s' => wp rest post s') fun s' => ∀ e, wp (handler e) post s') s) :
    wp (tryCatch body handler rest) post s := by
  unfold Work.tryCatch
  rw [wp_bind, wp_attempt]
  refine wp_mono (fun r s' next => ?_) holds
  cases r with
  | ok _ => exact next
  | error stop =>
    cases stop with
    | raised e => exact next e
    | unobserved => exact patience s'

/-- The rule for a piece that may be followed by a `finally` without changing what is shown. -/
theorem wp_tryFinally {body last : Work Unit} {returned : NetworkWorker → Prop}
    (holds : wp body
      (Outcome (fun _ s' => ∀ s'', shown s'' = shown s' → returned s'') fun _ => True) s)
    (quiet : Keeps shown last) :
    wp (tryFinally body last) (Outcome (fun _ s' => returned s') fun _ => True) s := by
  unfold Work.tryFinally
  rw [wp_bind, wp_attempt]
  refine wp_mono (fun r s' next => ?_) holds
  cases r with
  | ok _ =>
    refine quiet.wp fun r s'' same => ?_
    cases r with
    | ok _ => exact next s'' same
    | error stop => cases stop <;> trivial
  | error stop =>
    simp only [then_ok, wp_bind]
    refine quiet.wp fun r s'' same => ?_
    cases r with
    | ok _ => cases stop <;> trivial
    | error stop' => cases stop' <;> trivial

end rules

/-! ### The exchanges that do not touch what is shown -/

theorem keeps_external (call : ExternalCall) : Keeps shown (external call) := by
  intro s
  rw [wp_external]
  exact ⟨fun _ => rfl, fun _ => rfl⟩

theorem keeps_throw {α : Type} (e : Exn) : Keeps shown (Work.throw e : Work α) := keeps_raise _

theorem keeps_ofExcept {α : Type} (result : Except Exn α) : Keeps shown (ofExcept result) := by
  cases result with
  | ok a => exact keeps_pure a
  | error e => exact keeps_throw e

theorem keeps_todoJob : Keeps shown todoJob := by
  refine keeps_get.bind fun s => ?_
  cases s.todoJob with
  | some t => exact keeps_pure t
  | none => exact keeps_throw _

theorem keeps_mainJob : Keeps shown Work.mainJob := by
  refine keeps_get.bind fun s => ?_
  cases s.mainJob with
  | some j => exact keeps_pure j
  | none => exact keeps_throw _

theorem keeps_readInt16 : Keeps shown readInt16 := keeps_external _

theorem keeps_writeInt16 (value : Int16) : Keeps shown (writeInt16 value) := keeps_external _

theorem keeps_revertVm : Keeps shown revertVm := keeps_get.bind fun _ => keeps_external _

theorem keeps_receiveAck : Keeps shown receiveAck :=
  keeps_readInt16.bind fun _ => (keeps_throw _).ite (keeps_pure ())

theorem keeps_receiveCallForWork : Keeps shown receiveCallForWork := by
  refine keeps_readInt16.bind fun ans => (keeps_throw _).ite ?_
  refine (keeps_external .readString).bind fun vmName => ?_
  refine Keeps.bind (keeps_modify ?_) fun _ => keeps_external _
  intro s
  rfl

theorem keeps_sendWork : Keeps shown sendWork := by
  refine keeps_mainJob.bind fun j => ?_
  refine (keeps_external _).bind fun _ => keeps_receiveAck.bind fun _ => ?_
  exact (keeps_external _).bind fun _ => keeps_receiveAck

theorem keeps_sendCommand (controlId : Text) (intType : Int32) :
    Keeps shown (sendCommand controlId intType) :=
  (keeps_external _).bind fun _ => keeps_readInt16.bind fun _ =>
    (keeps_pure true).ite ((keeps_pure false).ite (keeps_throw _))

theorem keeps_checkLoop (winStatusHash : Text) : Keeps shown (checkLoop winStatusHash) :=
  keeps_get.bind fun _ => (keeps_throw _).ite (keeps_modify fun _ => rfl)

theorem keeps_markChosen (res : PossibleInteraction) (controlId : Text) :
    Keeps shown (markChosen res controlId) := by
  unfold markChosen
  cases res.controls.findIdx? fun c => decide (controlId = c.id) with
  | none => exact keeps_throw _
  | some id => exact (keeps_external _).bind fun _ => keeps_modify fun _ => rfl

theorem nextAction_id (t : TodoJob) : t.nextAction.2.id = t.id := by
  unfold TodoJob.nextAction
  split <;> rfl

theorem nextAction_actionPath (t : TodoJob) : t.nextAction.2.actionPath = t.actionPath := by
  unfold TodoJob.nextAction
  split <;> rfl

theorem keeps_nextAction : Keeps shown nextAction := by
  intro s
  unfold nextAction todoJob
  cases now : s.todoJob with
  | none => simp [now]
  | some t =>
    simp only [wp_bind, wp_get, then_ok, now, wp_pure, wp_modify]
    refine (keeps_ofExcept _).wp fun r s' same => ?_
    rw [same]
    simp [shown, now, nextAction_id, nextAction_actionPath]

theorem keeps_buildHostXmlError (customMessage : String) (e : Exn) :
    Keeps shown (buildHostXmlError customMessage e) :=
  keeps_get.bind fun _ => keeps_external _

theorem keeps_receiveUISteps : Keeps shown receiveUISteps := by
  intro s
  unfold receiveUISteps
  rw [wp_bind, wp_attempt]
  refine (keeps_external _).wp fun r s' same => ?_
  rw [← same]
  rcases r with (_ | _) | (_ | _) <;> exact rfl

/-! ### Statements -/

section statements

variable {collation : Collation} {statement : Statement} {s : NetworkWorker}

theorem wp_letOthers {post : Except Stop Unit → NetworkWorker → Prop} :
    wp (letOthers collation) post s ↔ ∀ statements, post (.ok ()) (s.others collation statements) :=
  Iff.rfl

theorem wp_limitOne {rows : Nat} {post : Except Stop Nat → NetworkWorker → Prop} :
    wp (limitOne rows) post s ↔ ∀ k, post (.ok k) s := wp_perform _ _ _

/-- A statement is executed after those of others. -/
theorem wp_execute {post : Except Stop Nat → NetworkWorker → Prop} :
    wp (execute collation statement) post s ↔ ∀ statements,
      post (.ok (statement.affected collation (s.others collation statements).tables))
        ((s.others collation statements).own collation statement) :=
  Iff.rfl

variable {j : Job} {t : TodoJob}

theorem wp_mainJob {post : Except Stop Job → NetworkWorker → Prop} (main : s.mainJob = some j) :
    wp Work.mainJob post s ↔ post (.ok j) s := by
  unfold Work.mainJob
  simp [main]

theorem wp_todoJob {post : Except Stop TodoJob → NetworkWorker → Prop}
    (todo : s.todoJob = some t) : wp todoJob post s ↔ post (.ok t) s := by
  unfold todoJob
  simp [todo]

variable {post : Except Stop Unit → NetworkWorker → Prop}

/-- An INSERT affects one row, so the check of its result passes. -/
theorem wp_insertDone (main : s.mainJob = some j) (finalPath xmlResult : Text) :
    wp (insertDone collation finalPath xmlResult) post s ↔ ∀ statements, post (.ok ())
      ((s.others collation statements).own collation (.insertDoneJob j.id finalPath xmlResult)) := by
  unfold insertDone
  rw [wp_bind, wp_mainJob main, then_ok, wp_bind, wp_execute]
  rfl

theorem wp_insertDoneWithError (main : s.mainJob = some j) (followedPath xmlError : Text) :
    wp (insertDoneWithError collation followedPath xmlError) post s ↔ ∀ statements, post (.ok ())
      ((s.others collation statements).own collation
        (.insertDoneWithErrorJob j.id followedPath xmlError true)) := by
  unfold insertDoneWithError
  rw [wp_bind, wp_mainJob main, then_ok, wp_bind, wp_execute]
  rfl

theorem wp_deleteTodoJob (todo : s.todoJob = some t) :
    wp (deleteTodoJob collation) post s ↔ ∀ statements, post (.ok ())
      ((s.others collation statements).own collation (.deleteTodoById t.id)) := by
  unfold deleteTodoJob
  rw [wp_bind, wp_todoJob todo, then_ok, wp_bind, wp_execute]
  rfl

theorem wp_deleteTodoJobsStartingWithPath (followedPath : Text) :
    wp (deleteTodoJobsStartingWithPath collation followedPath) post s ↔ ∀ statements,
      post (.ok ()) ((s.others collation statements).own collation
        (.deleteTodoByStartingControlPath (followedPath ++ ['%']))) := by
  unfold deleteTodoJobsStartingWithPath
  rw [wp_bind, wp_execute]
  rfl

theorem wp_insertAction (main : s.mainJob = some j) (controlPath : Text) :
    wp (insertAction collation controlPath) post s ↔ ∀ statements, post (.ok ())
      ((s.others collation statements).own collation (.insertTodo j.id controlPath)) := by
  unfold insertAction
  rw [wp_bind, wp_mainJob main, then_ok, wp_bind, wp_execute]
  rfl

end statements

end GuestAgent.Guarantees.WorkerSteps
