import GuestAgent.Library.Retry
import GuestAgent.Source.EventText

/-!
Sending an event and waiting for the answer: dllmain.cpp, `sendToEventPipe` and
`sendMessageToPipe`, against `ProcessEvent` of NamedPipeServer.cs.

The server writes its ACK and disconnects at once, and on any exception it only
disconnects, so a client tells success from failure by whether its read succeeds;
what it reads is not looked at. A client whose read failed starts over. What the server
handles is the text as it was received, a unit at a time, and loaded.
-/
namespace GuestAgent.Source
open Library Library.Retry

/-- What one round meets: whether the pipe could be opened and written, what was thrown before the
received text was loaded, the machine and the guest at that moment, and whether the client
reads the ACK before the server disconnects. -/
structure Attempt where
  connected : Bool
  written : Bool
  loadError : Option Exn
  machine : Machine
  state : GuestState
  ackRead : Bool

/-- What the server loads of the event in one round. -/
def Attempt.loaded (a : Attempt) (load : WString → Except Exn XmlElement) (e : Event) :
    Except Exn XmlElement :=
  match a.loadError with
  | none => load (processSingleReceivedMessage (0, 0) (messageBytes (nodeOutput e.element)))
  | some x => .error x

/-- `ProcessEvent` in one round; it answers exactly if this does not throw. -/
def Attempt.handled (a : Attempt) (load : WString → Except Exn XmlElement) (settings : Settings)
    (e : Event) : Outcome GuestState Exn :=
  a.state.processEvent settings a.machine (a.loaded load e)

/-- `sendMessageToPipe`. -/
def sendMessageToPipe (load : WString → Except Exn XmlElement) (settings : Settings) (e : Event)
    (a : Attempt) : Bool :=
  if !a.written then false
  else (a.handled load settings e).thrown.isNone && a.ackRead

/-- One turn of the loop; it ends with `done` set, or with `break` when the pipe is not there. -/
def sendRound (load : WString → Except Exn XmlElement) (settings : Settings) (e : Event)
    (attempts : Nat → Attempt) (made : Nat) : Unit → Unit ⊕ Bool := fun _ =>
  if (attempts made).connected then
    if sendMessageToPipe load settings e (attempts made) then .inr true else .inl ()
  else .inr false

/-- The loop of `sendToEventPipe`, watched for `fuel` rounds. -/
def sendToEventPipe (load : WString → Except Exn XmlElement) (settings : Settings) (e : Event)
    (attempts : Nat → Attempt) (fuel : Nat) : Option Bool :=
  retry (sendRound load settings e attempts) fuel 0 ()

end GuestAgent.Source
