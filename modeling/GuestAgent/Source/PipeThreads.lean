import Mathlib.Logic.Function.Basic

/-!
The threads that serve the pipes, and the hooked threads at the other end: NamedPipeServer.cs,
`EventSrv`, `LoggerSrv`, `ProcessEvent`, `ProcessLogging` and `Stop`; dllmain.cpp, `connectToPipe`,
`sendMessageToPipe` and `sendToEventPipe`.

Each call of the pipe API is one step, and the threads take their steps in any order. A
NamedPipeServerStream keeps a state of its own: that a client has gone it notices at the next read
or write, and `WaitForConnection` fails with an IOException in a broken stream, or where
`ConnectNamedPipe` answers ERROR_NO_DATA because the client has come and gone.
-/
namespace GuestAgent.Source

inductive PipeName where
  | logPipe | eventPipe
  deriving DecidableEq, Repr

/-- The client end of an instance of a pipe. -/
inductive ClientEnd (T : Type) where
  | listening
  | opened (t : T)
  /-- The client has closed its handle. -/
  | closing
  /-- Behind `DisconnectNamedPipe`, until `ConnectNamedPipe` is called again. -/
  | disconnected
  /-- The server has closed the instance. -/
  | gone
  deriving DecidableEq, Repr

/-- An instance of a pipe, with the message and the ACK that have not been read. -/
structure PipeInstance (T E : Type) where
  name : PipeName
  clientEnd : ClientEnd T
  message : Option E
  ack : Bool

/-- The state of a NamedPipeServerStream. -/
inductive PipeState where
  | waitingToConnect | connected | broken | disconnected
  deriving DecidableEq, Repr

/-- Where a server thread is. -/
inductive ServerPoint (E : Type) where
  /-- At the condition of the loop. -/
  | loop
  /-- In the constructor of the stream. -/
  | construct
  /-- `WaitForConnection` was called. -/
  | wait
  /-- In `ConnectNamedPipe`. -/
  | connecting
  | reading
  | handling (message : E)
  | acknowledging
  | disconnecting
  /-- In the handler of `ProcessEvent`. -/
  | caught
  /-- At the `srv.Close()` behind the loop. -/
  | closing
  | ended

structure ServerThread (E : Type) where
  name : PipeName
  point : ServerPoint E
  /-- `srv`: the instance and the state of the stream. -/
  srv : Option (Nat × PipeState)

/-- Where a hooked thread is in `sendToEventPipe`, with the handle it has. -/
inductive Sender (E : Type) where
  | idle
  /-- In the loop of `connectToPipe`. -/
  | connecting (message : E)
  | opened (message : E) (pipe : Nat)
  | connected (message : E) (pipe : Nat)
  /-- In the `ReadFile` of `sendMessageToPipe`. -/
  | written (message : E) (pipe : Nat)
  | dead

/-- `down` once an exception nobody catches has ended the agent; `leaked` are the streams nobody
refers to any more. The three lists are what became of the events so far. -/
structure PipeSystem (T S E : Type) where
  shouldRun : Bool
  down : Bool
  next : Nat
  pipes : Nat → PipeInstance T E
  leaked : List Nat
  threads : S → ServerThread E
  senders : T → Sender E
  handled : List E
  acknowledged : List E
  lost : List E

inductive PipeStep (T S E : Type) where
  | stop
  /-- The next call of a server thread; whether the constructor, or what is done with a message,
  throws. -/
  | turn (sv : S) (throws : Bool)
  /-- A leaked stream is finalized. -/
  | finalize (pipe : Nat)
  | send (t : T) (message : E)
  | createFile (t : T) (pipe : Nat)
  /-- `CreateFile` or `WaitNamedPipe` finds no instance of the pipe. -/
  | giveUp (t : T)
  | setMode (t : T) (succeeds : Bool)
  | writeFile (t : T)
  | readFile (t : T)
  | kill (t : T)

namespace PipeSystem

variable {T S E : Type} [DecidableEq T] [DecidableEq S]

/-- No instance is there before the threads have made theirs. -/
def start (name : S → PipeName) : PipeSystem T S E where
  shouldRun := true
  down := false
  next := 0
  pipes := fun _ => ⟨.eventPipe, .gone, none, false⟩
  leaked := []
  threads := fun sv => ⟨name sv, .loop, none⟩
  senders := fun _ => .idle
  handled := []
  acknowledged := []
  lost := []

def goTo (s : PipeSystem T S E) (sv : S) (point : ServerPoint E) (srv : Option (Nat × PipeState)) :
    PipeSystem T S E :=
  { s with threads := Function.update s.threads sv ⟨(s.threads sv).name, point, srv⟩ }

def setPipe (s : PipeSystem T S E) (pipe : Nat) (p : PipeInstance T E) : PipeSystem T S E :=
  { s with pipes := Function.update s.pipes pipe p }

def setSender (s : PipeSystem T S E) (t : T) (x : Sender E) : PipeSystem T S E :=
  { s with senders := Function.update s.senders t x }

/-- The handlers of an IOException set `srv` to null first, so nothing is closed. -/
def drop (s : PipeSystem T S E) (sv : S) (pipe : Nat) : PipeSystem T S E :=
  { s.goTo sv .loop none with leaked := pipe :: s.leaked }

/-- `DisconnectNamedPipe`: what has not been read is thrown away. -/
def disconnect (s : PipeSystem T S E) (sv : S) (pipe : Nat) : PipeSystem T S E :=
  (s.setPipe pipe ⟨(s.pipes pipe).name, .disconnected, none, false⟩).goTo sv .loop
    (some (pipe, .disconnected))

/-- `srv.Close()`, with a null reference nobody catches if there is no stream. -/
def close (s : PipeSystem T S E) (sv : S) : Option (Nat × PipeState) → PipeSystem T S E
  | none => { s with down := true, pipes := fun r => { s.pipes r with clientEnd := .gone } }
  | some (pipe, _) =>
    (s.setPipe pipe { s.pipes pipe with clientEnd := .gone }).goTo sv .ended none

/-- `WaitForConnection`, up to the end of `ConnectNamedPipe` or to where it blocks. -/
def waitForConnection (s : PipeSystem T S E) (sv : S) (pipe : Nat) (state : PipeState) :
    Option (PipeSystem T S E) :=
  if state = .broken then some (s.drop sv pipe)
  else match (s.pipes pipe).clientEnd with
    | .listening | .disconnected =>
      some ((s.setPipe pipe { s.pipes pipe with clientEnd := .listening }).goTo sv .connecting
        (some (pipe, state)))
    -- ERROR_PIPE_CONNECTED: an InvalidOperationException if the stream knows its client already
    | .opened _ =>
      if state = .connected then some (s.goTo sv .loop (some (pipe, state)))
      else some (s.goTo sv .reading (some (pipe, .connected)))
    | .closing => some (s.drop sv pipe)
    | .gone => none

/-- The read of `ProcessSingleReceivedMessage`. The empty text of a broken pipe does not load. -/
def receive (s : PipeSystem T S E) (sv : S) (pipe : Nat) (state : PipeState) :
    Option (PipeSystem T S E) :=
  match (s.pipes pipe).message, (s.pipes pipe).clientEnd with
  | some message, _ =>
    some ((s.setPipe pipe { s.pipes pipe with message := none }).goTo sv (.handling message)
      (some (pipe, state)))
  | none, .closing => some (s.goTo sv .caught (some (pipe, .broken)))
  | none, _ => none

def acknowledge (s : PipeSystem T S E) (sv : S) (pipe : Nat) (state : PipeState) :
    PipeSystem T S E :=
  match (s.pipes pipe).clientEnd with
  | .opened _ =>
    (s.setPipe pipe { s.pipes pipe with ack := true }).goTo sv .disconnecting (some (pipe, state))
  | _ => s.goTo sv .caught (some (pipe, .broken))

/-- The next call of a server thread. -/
def turn (s : PipeSystem T S E) (sv : S) (throws : Bool) : Option (PipeSystem T S E) :=
  match (s.threads sv).point, (s.threads sv).srv with
  | .loop, none => some (s.goTo sv (if s.shouldRun then .construct else .closing) none)
  | .loop, some srv => some (s.goTo sv (if s.shouldRun then .wait else .closing) (some srv))
  | .construct, _ =>
    if throws then some (s.goTo sv .loop none)
    else some { (s.setPipe s.next ⟨(s.threads sv).name, .listening, none, false⟩).goTo sv .wait
      (some (s.next, .waitingToConnect)) with next := s.next + 1 }
  | .wait, some (pipe, state) => s.waitForConnection sv pipe state
  | .connecting, some (pipe, _) =>
    if (s.pipes pipe).clientEnd = .listening then none
    else some (s.goTo sv .reading (some (pipe, .connected)))
  | .reading, some (pipe, state) => s.receive sv pipe state
  | .handling message, srv =>
    if throws then some (s.goTo sv .caught srv)
    else some { s.goTo sv .acknowledging srv with handled := message :: s.handled }
  | .acknowledging, some (pipe, state) => some (s.acknowledge sv pipe state)
  | .disconnecting, some (pipe, _) => some (s.disconnect sv pipe)
  | .caught, some (pipe, state) =>
    if state = .connected then some (s.disconnect sv pipe)
    else some (s.goTo sv .loop (some (pipe, state)))
  | .closing, srv => some (s.close sv srv)
  | _, _ => none

/-- Some instance of the event pipe is there, whatever it is busy with. -/
def present (s : PipeSystem T S E) : Bool :=
  (List.range s.next).any fun r =>
    (s.pipes r).name = .eventPipe && (s.pipes r).clientEnd ≠ .gone

/-- `CloseHandle`, for an instance that is still the client's. -/
def closeHandle (s : PipeSystem T S E) (t : T) (pipe : Nat) : PipeSystem T S E :=
  if (s.pipes pipe).clientEnd = .opened t then
    s.setPipe pipe { s.pipes pipe with clientEnd := .closing, ack := false }
  else s

def createFile (s : PipeSystem T S E) (t : T) (pipe : Nat) : Option (PipeSystem T S E) :=
  match s.senders t with
  | .connecting message =>
    if (s.pipes pipe).name = .eventPipe ∧ (s.pipes pipe).clientEnd = .listening then
      some ((s.setPipe pipe { s.pipes pipe with clientEnd := .opened t }).setSender t
        (.opened message pipe))
    else none
  | _ => none

/-- `SetNamedPipeHandleState`; where it fails the handle is not closed. -/
def setMode (s : PipeSystem T S E) (t : T) (succeeds : Bool) : Option (PipeSystem T S E) :=
  match s.senders t with
  | .opened message pipe =>
    if succeeds then some (s.setSender t (.connected message pipe))
    else some { s.setSender t .idle with lost := message :: s.lost }
  | _ => none

def writeFile (s : PipeSystem T S E) (t : T) : Option (PipeSystem T S E) :=
  match s.senders t with
  | .connected message pipe =>
    if (s.pipes pipe).clientEnd = .opened t then
      some ((s.setPipe pipe { s.pipes pipe with message := some message }).setSender t
        (.written message pipe))
    else some (s.setSender t (.connecting message))
  | _ => none

/-- `ReadFile`, which waits while the instance is the client's and has no ACK for it. -/
def readFile (s : PipeSystem T S E) (t : T) : Option (PipeSystem T S E) :=
  match s.senders t with
  | .written message pipe =>
    if (s.pipes pipe).clientEnd = .opened t then
      if (s.pipes pipe).ack then
        some { (s.closeHandle t pipe).setSender t .idle with
          acknowledged := message :: s.acknowledged }
      else none
    else some (s.setSender t (.connecting message))
  | _ => none

/-- The end of a process closes every handle it has. -/
def kill (s : PipeSystem T S E) (t : T) : PipeSystem T S E :=
  { s.setSender t .dead with
    pipes := fun r =>
      if (s.pipes r).clientEnd = .opened t then { s.pipes r with clientEnd := .closing, ack := false }
      else s.pipes r }

def step (s : PipeSystem T S E) : PipeStep T S E → Option (PipeSystem T S E)
  | .stop => some { s with shouldRun := false }
  | .turn sv throws => if s.down then none else s.turn sv throws
  | .finalize pipe =>
    if pipe ∈ s.leaked then some (s.setPipe pipe { s.pipes pipe with clientEnd := .gone }) else none
  | .send t message =>
    match s.senders t with
    | .idle => some (s.setSender t (.connecting message))
    | _ => none
  | .createFile t pipe => s.createFile t pipe
  | .giveUp t =>
    match s.senders t with
    | .connecting message =>
      if s.present then none else some { s.setSender t .idle with lost := message :: s.lost }
    | _ => none
  | .setMode t succeeds => s.setMode t succeeds
  | .writeFile t => s.writeFile t
  | .readFile t => s.readFile t
  | .kill t => some (s.kill t)

end PipeSystem

end GuestAgent.Source
