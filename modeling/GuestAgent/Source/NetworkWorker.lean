import GuestAgent.Library.Methods
import GuestAgent.Source.HostDatabase

/-!
The thread of a worker: WorkerManager.cs, `NetworkWorker.Run` and what it calls. What the guest,
the file system and the virtual machines answer are effects, one for each exchange whose only
result is a value or an exception. The database is part of the state; before each statement of
this worker, others may have executed theirs. Logging, statistics and the closing of resources are
left out.
-/
namespace GuestAgent.Source.Host
open Library

namespace Protocol

def ack : Int16 := 0
def cmdOkAck : Int16 := 10
def cmdNoAck : Int16 := 11
def processGoing : Int16 := 100
def ackLocalReboot : Int16 := 1000
def ackRemoteReboot : Int16 := 1001
def jobPollMsg : Int16 := 10001
def noJobs : Int16 := 4
def jobReady : Int16 := 5

end Protocol

structure Job where
  id : Nat
  installerPath : Text
  deriving DecidableEq, Repr

/-- What the guest can do in the window it shows. -/
structure PossibleInteraction where
  winStatusHash : Text
  controls : List Control
  deriving DecidableEq, Repr

/-! ### Effects -/

/-- The calls outside the process, which may raise. -/
inductive ExternalCall where
  | readInt16
  | readString
  | writeInt16 (value : Int16)
  | configureLogger (vmName : Text)
  /-- The name and the length of the installer, sent. -/
  | sendFileInfo (installerPath : Text)
  | sendFileBytes (installerPath : Text)
  | readPossibleInteraction
  /-- `CMD_UI_INTERACT` with its two arguments, sent. -/
  | writeCommand (controlId : Text) (intType : Int32)
  /-- The screenshot with the control marked, in base 64. -/
  | drawBitmap (id : Nat)
  /-- Exit code, standard error and log; whether the parsed log has a ROOT element. -/
  | readMachineInfo
  | saveReport (jobId todoId : Nat) (uiSteps : List Text)
  /-- An ERROR document with these attributes, the exception's and the time. -/
  | writeErrorXml (attributes : List (String × Text)) (e : Exn)
  | revertVm (vmName : Option Text)

@[reducible] def ExternalCall.Result : ExternalCall → Type
  | .readInt16 => Int16
  | .readString | .drawBitmap _ | .saveReport _ _ _ | .writeErrorXml _ _ => Text
  | .readPossibleInteraction => PossibleInteraction
  | .readMachineInfo => Bool
  | .writeInt16 _ | .configureLogger _ | .sendFileInfo _ | .sendFileBytes _ | .writeCommand _ _
  | .revertVm _ => Unit

inductive WorkerCall where
  /-- What others have executed since this worker's last statement. -/
  | others
  /-- Which one of so many rows `LIMIT 1` leaves. -/
  | limit (rows : Nat)
  | external (call : ExternalCall)

def WorkerAnswer : WorkerCall → Type
  | .others => List Statement
  | .limit _ => Nat
  | .external call => Except Exn call.Result

/-- A statement that was executed, by this worker or by somebody else. -/
structure Executed where
  own : Bool
  statement : Statement
  deriving DecidableEq, Repr

/-- Turning points of a run. -/
inductive Branch where
  | failed1 | failed2 | failed3 | failed4
  /-- A turn of phase 3 finds no path to explore. -/
  | nothingNew
  /-- Phase 4 gets as far as `InsertDone`. -/
  | reportStored
  deriving DecidableEq, Repr

structure NetworkWorker where
  todoJob : Option TodoJob
  mainJob : Option Job
  vmName : Option Text
  noLoop : List Text
  followedPathBitmaps : List Text
  /-- Empty while it is null, which comes to the same for its only reader. -/
  followedPath : Text
  tables : Tables
  /-- Not in the source: what was executed since the worker has its row. -/
  log : List Executed
  /-- Not in the source: the turning points passed. -/
  taken : List Branch

/-- A worker at the start of `Run`. -/
def NetworkWorker.new (tables : Tables) : NetworkWorker where
  todoJob := none
  mainJob := none
  vmName := none
  noLoop := []
  followedPathBitmaps := []
  followedPath := []
  tables := tables
  log := []
  taken := []

section executed

variable (collation : Collation) (s : NetworkWorker)

/-- Others have executed their statements. -/
def NetworkWorker.others (statements : List Statement) : NetworkWorker :=
  { s with
    tables := statements.foldl (Statement.exec collation) s.tables
    log := s.log ++ statements.map (Executed.mk false) }

/-- This worker has executed a statement. -/
def NetworkWorker.own (statement : Statement) : NetworkWorker :=
  { s with
    tables := statement.exec collation s.tables
    log := s.log ++ [⟨true, statement⟩] }

end executed

/-- Why a piece of `Run` stopped: an exception, or it was not watched any longer. -/
inductive Stop where
  | raised (e : Exn)
  | unobserved
  deriving DecidableEq, Repr

abbrev Work (α : Type) : Type := Method WorkerCall WorkerAnswer NetworkWorker Stop α

namespace Work
open Method

def throw {α : Type} (e : Exn) : Work α := raise (.raised e)

def ofExcept {α : Type} : Except Exn α → Work α
  | .ok a => pure a
  | .error e => throw e

def external (call : ExternalCall) : Work call.Result := do
  let answer : Except Exn call.Result ← perform (WorkerCall.external call)
  ofExcept answer

def readInt16 : Work Int16 := external .readInt16

def readString : Work Text := external .readString

def writeInt16 (value : Int16) : Work Unit := external (.writeInt16 value)

def revertVm : Work Unit := do external (.revertVm (← get).vmName)

/-- `_todoJob`, where the source reads a field of it. -/
def todoJob : Work TodoJob := do
  match (← get).todoJob with
  | some t => pure t
  | none => throw .nullReference

def mainJob : Work Job := do
  match (← get).mainJob with
  | some j => pure j
  | none => throw .nullReference

def mark (b : Branch) : Work Unit := modify fun s => { s with taken := s.taken ++ [b] }

/-! ### The database -/

section database

variable (collation : Collation)

def letOthers : Work Unit := do
  let statements : List Statement ← perform WorkerCall.others
  modify fun s => s.others collation statements

/-- How many rows the statement affects. -/
def execute (statement : Statement) : Work Nat := do
  letOthers collation
  let s ← get
  modify fun s => s.own collation statement
  return statement.affected collation s.tables

/-- `LIMIT 1`: the number of the row that is left. -/
def limitOne (rows : Nat) : Work Nat := perform (WorkerCall.limit rows)

def popTodoJob : Work Unit := do
  letOthers collation
  match selectJobUnfinished (← get).tables with
  | [] => modify fun s => { s with mainJob := none }
  | first :: rest =>
    let k ← limitOne (rest.length + 1)
    let row := (first :: rest).getD k first
    modify fun s => { s with mainJob := some ⟨row.1.id, row.1.cells.path⟩ }
    let res ← execute collation (.setInProgressTodoById row.2.id)
    if res ≠ 1 then throw .db
    else modify fun s => { s with
      todoJob := some (.new row.2.id row.2.cells.controlPath)
      log := [] }

def insertDone (finalPath xmlResult : Text) : Work Unit := do
  let j ← mainJob
  let res ← execute collation (.insertDoneJob j.id finalPath xmlResult)
  if res ≠ 1 then throw .db

def insertDoneWithError (followedPath xmlError : Text) : Work Unit := do
  let j ← mainJob
  let res ← execute collation (.insertDoneWithErrorJob j.id followedPath xmlError true)
  if res ≠ 1 then throw .db

def deleteTodoJob : Work Unit := do
  let t ← todoJob
  let _ ← execute collation (.deleteTodoById t.id)

def deleteTodoJobsStartingWithPath (followedPath : Text) : Work Unit := do
  let _ ← execute collation (.deleteTodoByStartingControlPath (followedPath ++ ['%']))

def insertAction (controlPath : Text) : Work Unit := do
  let j ← mainJob
  let _ ← execute collation (.insertTodo j.id controlPath)

/-- `FilterDoneOrTodoByPath`: one SELECT for each path. -/
def filterDoneOrTodo : List Text → Work (List Text)
  | [] => pure []
  | s :: rest => do
    letOthers collation
    let kept := filterDoneOrTodoByPath collation (← get).tables [s]
    return kept ++ (← filterDoneOrTodo rest)

end database

/-! ### The guest -/

def receiveCallForWork : Work Unit := do
  if (← readInt16) ≠ Protocol.jobPollMsg then throw .protocol
  let vmName ← readString
  modify fun s => { s with vmName := some vmName }
  external (.configureLogger vmName)

def receiveAck : Work Unit := do
  if (← readInt16) ≠ Protocol.ack then throw .protocol

def sendWork : Work Unit := do
  let j ← mainJob
  external (.sendFileInfo j.installerPath)
  receiveAck
  external (.sendFileBytes j.installerPath)
  receiveAck

def receivePossibleInteractions : Work PossibleInteraction :=
  external .readPossibleInteraction

def sendCommand (controlId : Text) (intType : Int32) : Work Bool := do
  external (.writeCommand controlId intType)
  let cmdAck ← readInt16
  if cmdAck = Protocol.cmdOkAck then return true
  else if cmdAck = Protocol.cmdNoAck then return false
  else throw .protocol

/-- The check of the window against `_noLoop`. -/
def checkLoop (winStatusHash : Text) : Work Unit := do
  if winStatusHash ∈ (← get).noLoop then throw .loop
  else modify fun s => { s with noLoop := s.noLoop ++ [winStatusHash] }

/-- The chosen control is looked for in the window and drawn. -/
def markChosen (res : PossibleInteraction) (controlId : Text) : Work Unit := do
  match res.controls.findIdx? (fun c => controlId = c.id) with
  | none => throw .application
  | some id =>
    let image ← external (.drawBitmap id)
    modify fun s => { s with followedPathBitmaps := s.followedPathBitmaps ++ [image] }

/-- `_todoJob.NextAction()`. -/
def nextAction : Work TodoJob.Action := do
  let t ← todoJob
  modify fun s => { s with todoJob := some t.nextAction.2 }
  ofExcept t.nextAction.1

/-- `BuildHostXmlError`. -/
def buildHostXmlError (customMessage : String) (e : Exn) : Work Text := do
  let s ← get
  let ofJob := match s.mainJob with
    | some j => [("JOB_ID", Nat.toDigits 10 j.id)]
    | none => []
  let ofTodo := match s.todoJob with
    | some t => [("TODO_JOB_ID", Nat.toDigits 10 t.id), ("TODO_JOB_PATH", t.actionPath)]
    | none => []
  let ofVm := match s.vmName with
    | some name => if name = [] then [] else [("VM_NAME", name)]
    | none => []
  let ofPath := if s.followedPath = [] then [] else [("FOLLOWED_PATH", s.followedPath)]
  external (.writeErrorXml
    (("MESSAGE", customMessage.toList) :: (ofJob ++ ofTodo ++ ofVm ++ ofPath)) e)

/-! ### The phases -/

section phases

variable (collation : Collation)

/-- Phase 1, `while (_todoJob == null)`. -/
def pollTurn : Work Bool := do
  if (← get).todoJob.isSome then return false
  receiveCallForWork
  popTodoJob collation
  match (← get).mainJob with
  | none => writeInt16 Protocol.noJobs
  | some _ => writeInt16 Protocol.jobReady
  return true

def phase1 (turns : Nat) : Work Unit := do
  repeatWhile .unobserved (pollTurn collation) turns
  sendWork
  receiveAck

def failed1 (e : Exn) : Work Unit := do
  mark .failed1
  let _ ← todoJob
  let xmlErrorLog ← buildHostXmlError "Unhandled exception in Worker Manager in phase 1" e
  insertDoneWithError collation uriAppStart xmlErrorLog
  deleteTodoJob collation
  revertVm

/-- Phase 2, `while (followedPath != _todoJob.ActionPath)`. -/
def followTurn : Work Bool := do
  let t ← todoJob
  if (← get).followedPath = t.actionPath then return false
  if (← readInt16) ≠ Protocol.processGoing then throw .protocol
  let res ← receivePossibleInteractions
  checkLoop res.winStatusHash
  let next ← nextAction
  if ← sendCommand next.controlId next.interactionType then
    markChosen res next.controlId
    modify fun s => { s with followedPath := s.followedPath ++ (next.relativePath ++ [uriPathSep]) }
    return true
  else throw .guestCommandFailed

def phase2 (turns : Nat) : Work Unit := repeatWhile .unobserved followTurn turns

/-- What phase 2 leaves in the database when it fails. -/
def cleanUp2 (xmlError : Text) : Work Unit := do
  insertDoneWithError collation uriAppStart xmlError
  deleteTodoJobsStartingWithPath collation (← get).followedPath
  deleteTodoJob collation

def failed2 (e : Exn) : Work Unit := do
  mark .failed2
  let xmlError ← buildHostXmlError "Loop detected during phase 2." e
  cleanUp2 collation xmlError
  revertVm

/-- Phase 3, while the remote process is running. -/
def discoverTurn : Work Bool := do
  if (← readInt16) ≠ Protocol.processGoing then return false
  let res ← receivePossibleInteractions
  checkLoop res.winStatusHash
  match ← filterDoneOrTodo collation (buildPaths (← get).followedPath res.controls) with
  | [] =>
    mark .nothingNew
    deleteTodoJob collation
    revertVm
    return true
  | fullPathToPerform :: toDo =>
    forEach (insertAction collation) toDo
    let chosen ← ofExcept (lastAction fullPathToPerform)
    if ← sendCommand chosen.id chosen.interactionId then
      markChosen res chosen.id
      modify fun s => { s with followedPath := extendPath s.followedPath chosen }
      return true
    else throw .guestCommandFailed

def phase3 (turns : Nat) : Work Unit := repeatWhile .unobserved (discoverTurn collation) turns

/-- The message of the handler that catches the exception. -/
def phase3Message : Exn → String
  | .guestCommandFailed =>
    "Error during phase 3: Remote Guest has reported a command execution failure."
  | .loop => "Error during phase 3: Loop detected."
  | _ => "Unhandled Exception during phase 3."

/-- What phases 3 and 4 leave in the database when they fail. -/
def cleanUp (xmlErrorLog : Text) : Work Unit := do
  insertDoneWithError collation (← get).followedPath xmlErrorLog
  deleteTodoJobsStartingWithPath collation (← get).followedPath

/-- The three handlers of phase 3. -/
def failed3 (e : Exn) : Work Unit := do
  mark .failed3
  let xmlErrorLog ← buildHostXmlError (phase3Message e) e
  cleanUp collation xmlErrorLog
  revertVm

/-- `ReceiveMachineInfo` and what needs its document; `null` if it could not be read. -/
def receiveUISteps : Work (List Text) := do
  match ← attempt (external .readMachineInfo) with
  | .ok true => return (← get).followedPathBitmaps
  | .ok false | .error (.raised _) => throw .nullReference
  | .error .unobserved => raise .unobserved

def phase4 : Work Unit := do
  let uisteps ← receiveUISteps
  let j ← mainJob
  let t ← todoJob
  let reportPath ← external (.saveReport j.id t.id uisteps)
  mark .reportStored
  insertDone collation (← get).followedPath reportPath
  deleteTodoJob collation
  let ans ← readInt16
  if ans = Protocol.ackRemoteReboot then
    let _ ← readString
  else if ans = Protocol.ackLocalReboot then throw .notSupported
  else throw .protocol

def failed4 (e : Exn) : Work Unit := do
  mark .failed4
  let xmlErrorLog ← buildHostXmlError "Unhandled error during phase 4." e
  cleanUp collation xmlErrorLog

/-- `try { body } catch (Exception e) { handler; return; } rest` -/
def tryCatch (body : Work Unit) (handler : Exn → Work Unit) (rest : Work Unit) : Work Unit := do
  match ← attempt body with
  | .ok _ => rest
  | .error (.raised e) => handler e
  | .error .unobserved => raise .unobserved

/-- `try { body } finally { last }` -/
def tryFinally (body last : Work Unit) : Work Unit := do
  match ← attempt body with
  | .ok _ => last
  | .error e => do
    last
    raise e

/-- `Run`, each of its loops watched for so many turns. -/
def run (turns : Nat) : Work Unit :=
  tryCatch (phase1 collation turns) (failed1 collation) do
    modify fun s => { s with followedPath := uriAppStart }
    tryCatch (phase2 turns) (failed2 collation) do
      tryCatch (phase3 collation turns) (failed3 collation) do
        tryFinally (tryCatch (phase4 collation) (failed4 collation) (pure ())) revertVm

end phases

end Work

end GuestAgent.Source.Host
