import GuestAgent.Library.Polling
import GuestAgent.Source.FileTransfer

/-!
The wait for a quiet system: ProgramStatus.cs, `WaitUntilNotBusy`. Times are ticks, of which a
second has ten million; what a turn of its loop reads is a `BusyPoll`.
-/
namespace GuestAgent.Source
open Library Library.Polling

structure BusyPoll where
  now : Int
  busy : Int
  logsPerSec : Int
  deriving DecidableEq, Repr

/-- `IsBusy() || LogsPerSec > log_per_sec_threeshold`. -/
def BusyPoll.isBusy (threshold : Int) (m : BusyPoll) : Bool :=
  0 < m.busy || threshold < m.logsPerSec

/-- `new TimeSpan(seconds * 10 * 1000 * 1000)`; the product is one of ints. -/
def timeSpan (seconds : Int) : Int := toInt32 (seconds * 10 * 1000 * 1000)

/-- The local variables the loop changes. -/
structure BusyWait where
  stable : Bool
  stabilityTo : Int
  deriving DecidableEq, Repr

/-- One turn; it ends the loop with the value that is returned. -/
def BusyWait.turn (threshold t1 deadline : Int) (s : BusyWait) (m : BusyPoll) : BusyWait ⊕ Bool :=
  if deadline < m.now then .inr s.stable
  else if m.isBusy threshold then .inl ⟨false, m.now + t1⟩
  else if s.stabilityTo < m.now then .inr true
  else .inl { s with stable := true }

/-- `WaitUntilNotBusy`, called at `t`, over the turns it makes. -/
def waitUntilNotBusy (threshold stabilityDelay timeout t : Int) (polls : List BusyPoll) :
    BusyWait ⊕ Bool :=
  poll (BusyWait.turn threshold (timeSpan stabilityDelay) (t + timeSpan timeout))
    ⟨false, t + timeSpan stabilityDelay⟩ polls

end GuestAgent.Source
