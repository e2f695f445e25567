import GuestAgent.Library.Outcome
import GuestAgent.Source.VisualRanker

/-!
The debug screenshot of an interaction: LogicThread.cs, `SaveInteractionScreen`, and the rounds of
`ExecuteJob` around it.

To be listed with the others, the candidate that was popped is put back into the set while the
set is serialized. Every exception is swallowed by the handler around the whole method.
-/
namespace GuestAgent.Source
open Library

/-- What `SaveInteractionScreen` meets; a field of type `Option Exn` says what a call raises. -/
structure ScreenView where
  shot : ShotView
  saveClean : Option Exn
  createXml : Option Exn
  makeSerializer : Option Exn
  serialize : Option Exn
  closeXml : Option Exn
  draw : Option Exn

/-- The `try` block behind the screenshot. -/
def ScreenView.body (b : Balancing) (v : ScreenView) (best : UIControlCandidate)
    (w : CandidateSet) : Outcome CandidateSet Exn :=
  Outcome.andThen ⟨w, v.saveClean⟩ fun w =>
  Outcome.andThen ⟨w, v.createXml⟩ fun w =>
  Outcome.andThen ⟨w.add b best, v.makeSerializer⟩ fun w =>
  Outcome.andThen ⟨w, v.serialize⟩ fun w =>
  Outcome.andThen ⟨w.remove b best, v.closeXml⟩ fun w => ⟨w, v.draw⟩

/-- What is returned, and the set afterwards. -/
def saveInteractionScreen (b : Balancing) (v : ScreenView) (best : UIControlCandidate)
    (w : CandidateSet) : Bool × CandidateSet :=
  match getWindowsScreenshot v.shot with
  | none => (false, w)
  | some _ => ((v.body b best w).thrown.isNone, (v.body b best w).state)

/-- The candidates popped by the rounds of the inner loop of `ExecuteJob`, until it ends or
`NoMoreCandidateException` is thrown; the view of a round with a candidate that is not
interacted with is not read. -/
def poppedIn (b : Balancing) : CandidateSet → List ScreenView → List UIControlCandidate
  | _, [] => []
  | w, v :: rest =>
    match w.popTopCandidate b with
    | none => []
    | some (candidate, w') =>
      candidate ::
        poppedIn b (if 0 < candidate.score then (saveInteractionScreen b v candidate w').2 else w')
          rest

end GuestAgent.Source
