import GuestAgent.Library.Rounding
import GuestAgent.Source.FrameworkPaths
import GuestAgent.Source.Registry

/-!
How the UI bot scores a control: SimpleRankingPolicy.cs.

`ToLower`, `CompareTo` and `StartsWith` go by the culture of the machine; `Contains` compares the
words as they are. The position is worked out in doubles, each operation of which rounds.
-/
namespace GuestAgent.Source
open Library

inductive ControlType where
  | button | checkBox | radioButton | hyperlink | scrollBar | progressBar | other
  deriving DecidableEq, Repr

inductive ToggleState where
  | off | on | indeterminate
  deriving DecidableEq, Repr

structure Rectangle where
  x : Int32
  y : Int32
  width : Int32
  height : Int32
  deriving DecidableEq, Repr

/-- What the policy reads of a `UIControlCandidate`; a control without a toggle pattern has no
`toggleState`. -/
structure Control where
  text : Option WString
  isEnabled : Option Bool
  hasFocus : Option Bool
  positionScreenRelative : Rectangle
  guessedControlType : Option ControlType
  toggleState : Option ToggleState
  deriving DecidableEq, Repr

structure Culture where
  casing : Casing
  /-- `text.CompareTo(s) == 0`. -/
  equal : WString → WString → Bool
  /-- `text.StartsWith(s)`. -/
  startsWith : WString → WString → Bool
  equal_self : ∀ s, equal s s = true

namespace SimpleRankingPolicy

def textSeparators : List WChar := wide " \t\n\r"

def controlTypeDisabledScore : Int := -10000
def controlTypeFocusedScore : Int := 50
def wordWhiteExactScore : Int := 300
def wordBlackExactScore : Int := 310
def controlTypeButtonScore : Int := 50
def controlNoTextScore : Int := -30
def wordWhiteContainedScore : Int := 55
def wordBlackContainedScore : Int := 60
def controlTypeCheckboxScore : Int := 15
def controlTypeCheckboxUncheckedScore : Int := 50
def controlTypeRadioScore : Int := 15
def positionAxisScore : Int := 10
def controlTypeHyperlinkScore : Int := 10
def controlTypeCheckboxCheckedPenalty : Int := 100
def controlTypeScrollbarPenalty : Int := 300

def whiteList : List WString :=
  ["next", "continue", "agree", "accept", "ok", "install", "finish", "run", "done", "yes",
    "i agree", "i accept", "accept and install", "next >"].map wide

def blackList : List WString :=
  ["forward by small amount", "back by small amount", "back by large amount",
    "forward by large amount", "disagree", "cancel", "abort", "exit", "back", "<", "decline",
    "quit", "minimize", "no", "close", "pause", "x", "_", "do not accept", "< back",
    "i do not accept"].map wide

def blackListStartWith : List WString := ["i do not accept", "i do not agree"].map wide

variable (cu : Culture)

/-- `control.Text.ToLower().Trim()`. -/
def normalized (text : WString) : WString := trim (cu.casing.toLower text)

/-- `text.Split(TEXT_SEPARATORS)`. -/
def words (text : WString) : List WString := text.splitOnP fun u => u ∈ textSeparators

/-- The loop over a list of phrases; `.inr` is a score that is returned, `.inl` one to go on with.
`key` is what the words are searched for. -/
def rankPhrases (key : WString → WString) (exact contained : Int) (text : WString) :
    Int → List WString → Int ⊕ Int
  | score, [] => .inl score
  | score, s :: rest =>
    if cu.equal text s then .inr (score + exact)
    else
      rankPhrases key exact contained text
        (if key s ∈ words text then score + contained else score) rest

def rankText (control : Control) : Int :=
  match control.text with
  | none => controlNoTextScore
  | some t =>
    if trim t = [] then controlNoTextScore
    else
      let text := normalized cu t
      match rankPhrases cu id wordWhiteExactScore wordWhiteContainedScore text 0 whiteList with
      | .inr score => score
      | .inl score =>
        match rankPhrases cu cu.casing.toLower (-wordBlackExactScore) (-wordBlackContainedScore)
            text score blackList with
        | .inr score => score
        | .inl score =>
          blackListStartWith.foldl
            (fun score s => if cu.startsWith text s then score - wordBlackExactScore else score)
            score

/-- `(int)` of a double; outside of the range of an int the processor answers `int.MinValue`. -/
def toInt (q : ℚ) : Int32 :=
  let n := truncate q
  if -0x80000000 ≤ n ∧ n < 0x80000000 then Int32.ofInt n else Int32.minValue

/-- `resolution` is the primary screen. -/
def rankPosition (rd : Rounding) (resolution : Rectangle) (control : Control) : Int :=
  let b := control.positionScreenRelative
  let x := rd.round ((b.x - resolution.x).toInt / resolution.width.toInt)
  let y := rd.round ((b.y - resolution.y).toInt / resolution.height.toInt)
  (toInt (rd.round (rd.round (x + y) * positionAxisScore))).toInt

def rankControlType (control : Control) : Int :=
  match control.guessedControlType with
  | none => 0
  | some .scrollBar => -controlTypeScrollbarPenalty
  | some .button => controlTypeButtonScore
  | some .checkBox =>
    match control.toggleState with
    | none => controlTypeCheckboxScore
    | some .off => controlTypeCheckboxScore + controlTypeCheckboxUncheckedScore
    | some _ => controlTypeCheckboxScore - controlTypeCheckboxCheckedPenalty
  | some .radioButton => controlTypeRadioScore
  | some .hyperlink => controlTypeHyperlinkScore
  | some _ => 0

def rankFocus (control : Control) : Int :=
  if control.hasFocus = some true then controlTypeFocusedScore else 0

def rankEnabled (control : Control) : Int :=
  if control.isEnabled = some false then controlTypeDisabledScore else 0

/-- The sum is one of ints. -/
def rankElement (rd : Rounding) (resolution : Rectangle) (control : Control) : Int32 :=
  Int32.ofInt (rankEnabled control + rankText cu control + rankPosition rd resolution control +
    rankControlType control + rankFocus control)

end SimpleRankingPolicy

end GuestAgent.Source
