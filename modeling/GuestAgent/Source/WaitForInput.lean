import GuestAgent.Library.Polling
import GuestAgent.Source.Runtime

/-!
The wait for a window that stands still: LogicThread.cs, `WaitForInputRequested`.

What a turn of its loop looks at is a `WindowPoll`: the flag the timer sets, the window
`GetProcUIWindowHandle` guesses, and the hash of its screenshot, which is null where no screenshot
could be taken. A `Window` is its handle.
-/
namespace GuestAgent.Source
open Library Library.Polling

abbrev IntPtr := Int

/-- `hash` is looked at only where the turn takes a screenshot. -/
structure WindowPoll where
  timeout : Bool
  wH : IntPtr
  hash : Option WString
  deriving DecidableEq, Repr

/-- A dictionary of counters. -/
abbrev FrameCounters := List (WString × Nat)

namespace FrameCounters

def containsKey (d : FrameCounters) (key : WString) : Bool := d.any fun k => k.1 = key

/-- `Add`, of a key that is not in the dictionary. -/
def add (d : FrameCounters) (key : WString) (value : Nat) : FrameCounters := d ++ [(key, value)]

/-- `d[key]++`. -/
def increment (d : FrameCounters) (key : WString) : FrameCounters :=
  d.map fun k => if k.1 = key then (k.1, k.2 + 1) else k

/-- The loop that resets the counters. -/
def reset (d : FrameCounters) : FrameCounters := d.map fun k => (k.1, 1)

end FrameCounters

/-- `LOOP_THRESHOLD`. -/
def loopThreshold : Nat := 4

/-- The local variables. -/
structure InputWait where
  stableScans : Nat
  prevHandle : IntPtr
  currentWindow : Option IntPtr
  prevWindow : Option IntPtr
  prevHash : Option WString
  previousHashes : FrameCounters
  deriving DecidableEq, Repr

namespace InputWait

def start : InputWait := ⟨0, 0, none, none, none, []⟩

/-- The first window. -/
def first (s : InputWait) (wH : IntPtr) (hash : Option WString) : InputWait :=
  { s with
    prevWindow := some wH
    prevHash := hash
    previousHashes := match hash with
      | some h => (s.previousHashes.add h 1).reset
      | none => s.previousHashes
    stableScans := 0 }

/-- `Something changed`. -/
def changed (s : InputWait) (wH : IntPtr) (currentHash : WString) : InputWait :=
  { s with
    prevWindow := some wH
    prevHash := some currentHash
    previousHashes :=
      if s.previousHashes.containsKey currentHash then s.previousHashes.increment currentHash
      else (s.previousHashes.add currentHash 1).reset
    stableScans := 0 }

/-- `I can assume the window UI has not changed`. -/
def unchanged (s : InputWait) (prevHash : WString) : InputWait :=
  { s with
    previousHashes :=
      if s.previousHashes.containsKey prevHash then s.previousHashes.increment prevHash
      else s.previousHashes.add prevHash 0
    stableScans := s.stableScans + 1 }

/-- The part of the loop that takes a screenshot of `currentWindow`. -/
def scan (s : InputWait) (wH : IntPtr) (hash : Option WString) : InputWait :=
  match s.prevWindow, s.prevHash, hash with
  | none, _, _ => s.first wH hash
  | some _, none, _ => { s with prevHash := hash, stableScans := 0 }
  | some _, some prevHash, some currentHash =>
    if prevHash ≠ currentHash then s.changed wH currentHash else s.unchanged prevHash
  | some _, some prevHash, none => s.unchanged prevHash

/-- The condition of the loop and one turn; `.inr none` is the return of null. -/
def turn (s : InputWait) (m : WindowPoll) : InputWait ⊕ Option IntPtr :=
  if s.stableScans ≤ loopThreshold && !m.timeout then
    if s.previousHashes.any fun k => loopThreshold < k.2 then .inr s.currentWindow
    else if m.wH = 0 then .inr none
    else if m.wH ≠ s.prevHandle then
      .inl { s with previousHashes := [], prevHandle := m.wH, stableScans := 0 }
    else .inl ({ s with currentWindow := some m.wH }.scan m.wH m.hash)
  else .inr s.currentWindow

end InputWait

/-- `WaitForInputRequested`, over the turns it makes. -/
def waitForInputRequested (polls : List WindowPoll) : InputWait ⊕ Option IntPtr :=
  poll InputWait.turn .start polls

end GuestAgent.Source
