import GuestAgent.Library.Raising
import GuestAgent.Source.CandidateSet
import GuestAgent.Source.RankingPolicy
import GuestAgent.Source.Runtime

/-!
The scan of a window: NativeAndVisualRanker.cs, `Rank`, `ScanWithUIAutomation` and
`WaitReaction`; CandidateSet.cs, `HasIncompleteProgressBar`; Window.cs, `GetWindowsScreenshot`.

What UI Automation, the screen and the recognition of shapes answer is data. `D` stands for the
doubles; a progress bar is only compared.
-/
namespace GuestAgent.Source
open Library

section scan

variable {D : Type} [LT D] [DecidableLT D]

/-- An element `FindAll` returns. -/
structure AutomationElement (D : Type) where
  name : WString
  isEnabled : Bool
  controlType : ControlType
  toggleState : Option ToggleState
  /-- `none` if one of its edges is infinite. -/
  boundingRectangle : Option Rectangle
  /-- The range value properties `Value` and `Maximum`. -/
  value : D
  maximum : D

/-- The `UIControlCandidate` of an element, as the policy is given it. -/
def AutomationElement.control (el : AutomationElement D) (r : Rectangle) : Control where
  text := some el.name
  isEnabled := some el.isEnabled
  hasFocus := none
  positionScreenRelative := r
  guessedControlType := some el.controlType
  toggleState := el.toggleState

/-- The candidates the scan adds, in order; the number of an element is the `id` of its candidate.
Elements without a finite rectangle are skipped. -/
def scannedCandidates (policy : Control → Int32) : Nat → List (AutomationElement D) →
    List UIControlCandidate
  | _, [] => []
  | n, el :: rest =>
    match el.boundingRectangle with
    | none => scannedCandidates policy (n + 1) rest
    | some r => ⟨n, policy (el.control r)⟩ :: scannedCandidates policy (n + 1) rest

def scanWithUIAutomation (b : Balancing) (policy : Control → Int32)
    (elements : List (AutomationElement D)) : CandidateSet :=
  Runs.run (CandidateSet.add b) .empty (scannedCandidates policy 0 elements)

/-- The loop of `HasIncompleteProgressBar`; `elementRef` is `AutoElementRef`. -/
def firstProgressBar (elementRef : UIControlCandidate → Option (AutomationElement D)) :
    List UIControlCandidate → Option (AutomationElement D)
  | [] => none
  | c :: rest =>
    match elementRef c with
    | none => firstProgressBar elementRef rest
    | some el =>
      if el.controlType = .progressBar then some el else firstProgressBar elementRef rest

def CandidateSet.hasIncompleteProgressBar
    (elementRef : UIControlCandidate → Option (AutomationElement D)) (s : CandidateSet) : Bool :=
  match firstProgressBar elementRef s.items with
  | none => false
  | some el => decide (el.value < el.maximum)

end scan

/-! ### Ranking a window -/

structure Bitmap where
  width : Int
  height : Int
  deriving DecidableEq, Repr

/-- What `GetWindowsScreenshot` meets. -/
structure ShotView where
  /-- The size `GetWindowRect` finds; `none` if it fails. -/
  windowRect : Except Exn (Option (Int × Int))
  /-- What making the bitmap and printing the window into it raises. -/
  print : Option Exn

def getWindowsScreenshot (v : ShotView) : Option Bitmap :=
  match v.windowRect with
  | .error _ => none
  -- `new Bitmap(0, 0)` throws, and the handler returns null
  | .ok none => none
  | .ok (some (width, height)) =>
    if height = 0 ∨ width = 0 then none
    else match v.print with
      | some _ => none
      | none => some ⟨width, height⟩

/-- A scan: the candidates it adds, and what it raises behind the last of them. -/
structure ScanView where
  added : List UIControlCandidate
  raises : Option Exn

/-- What `Rank` meets. A bitmap has a hash or raises where it is worked out. -/
structure RankView where
  automation : ScanView
  shot : ShotView
  visual : ScanView
  visualInverted : ScanView
  calculateHash : Bitmap → Except Exn String

/-- The set `Rank` returns, with its `Hash`. -/
structure Ranked where
  candidates : CandidateSet
  hash : Option String

/-- The `try` block. -/
def RankView.body (b : Balancing) (v : RankView) : Except Exn Ranked := do
  let res := Runs.run (CandidateSet.add b) .empty v.automation.added
  raise v.automation.raises
  match getWindowsScreenshot v.shot with
  | none => pure ⟨res, none⟩
  | some bitmap =>
    let res := Runs.run (CandidateSet.add b) res v.visual.added
    raise v.visual.raises
    let res := Runs.run (CandidateSet.add b) res v.visualInverted.added
    raise v.visualInverted.raises
    let hash ← v.calculateHash bitmap
    pure ⟨res, some hash⟩

def rank (b : Balancing) (v : RankView) : Ranked :=
  match v.body b with
  | .ok res => res
  | .error _ => ⟨.empty, none⟩

/-! ### Waiting for a reaction -/

def pollingInterval : Int := 5000

/-- What the wait ended with, and how many hashes it had computed by then. -/
structure WaitEnd where
  waited : Int
  computed : Nat
  deriving DecidableEq, Repr

/-- The loop, at its hash number `made`. The hashes are hexadecimal texts, on which `CompareTo`
answers 0 for equal ones only; a missing screenshot has none. -/
def waitLoop (timeout : Int) (previous : Option String)
    (hashes : Nat → Except Exn (Option String)) (made : Nat) (waited : Int) : WaitEnd :=
  match hashes made with
  | .error _ => ⟨waited, made⟩
  | .ok hash =>
    if hash.isSome ∧ hash = previous ∧ waited < timeout then
      waitLoop timeout previous hashes (made + 1) (waited + pollingInterval)
    else ⟨waited, made + 1⟩
termination_by (timeout - waited).toNat
decreasing_by
  simp only [pollingInterval]
  omega

/-- `WaitReaction`; its handler counts the one exception there can be and falls through. -/
def waitReaction (timeout : Int) (previous : Option String)
    (hashes : Nat → Except Exn (Option String)) : Bool :=
  decide ((waitLoop timeout previous hashes 0 0).waited < timeout)

end GuestAgent.Source
