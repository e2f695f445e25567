import Mathlib.Algebra.Order.Field.Basic
import Mathlib.Tactic.Linarith
import GuestAgent.Source.EventServer
import GuestAgent.Source.RankingPolicy
import GuestAgent.Source.VisitedWindows

/-!
How large the parts of a score can be.

Without the penalty of a disabled control the parts add up to far less than it takes away: the
text part is bounded by the number of phrases in the lists, however long the text is, and the
position part by the range of the coordinates.
-/
namespace GuestAgent.Guarantees.DisabledControls
open Library Source SimpleRankingPolicy

/-! ### The text part -/

section text

variable (cu : Culture)

/-- The phrases before the first one the text is equal to. -/
def passed (text : WString) (list : List WString) : List WString :=
  list.takeWhile fun s => !cu.equal text s

/-- How many of those phrases are among the words of the text. -/
def wordsOf (key : WString → WString) (text : WString) (list : List WString) : Nat :=
  (passed cu text list).countP fun s => (words text).contains (key s)

theorem wordsOf_le (key : WString → WString) (text : WString) (list : List WString) :
    wordsOf cu key text list ≤ list.length :=
  List.countP_le_length.trans (List.takeWhile_sublist _).length_le

/-- A list of phrases gives its bonus for each word before the first equal phrase. -/
theorem rankPhrases_eq (key : WString → WString) (exact contained : Int) (text : WString)
    (score : Int) (list : List WString) :
    rankPhrases cu key exact contained text score list =
      if list.any (cu.equal text) then
        .inr (score + contained * wordsOf cu key text list + exact)
      else .inl (score + contained * wordsOf cu key text list) := by
  induction list generalizing score with
  | nil => simp [rankPhrases, wordsOf, passed]
  | cons s rest ih =>
    cases same : cu.equal text s with
    | true => simp [rankPhrases, wordsOf, passed, same]
    | false =>
      rw [rankPhrases, if_neg (by simp [same]), ih]
      have counted : wordsOf cu key text (s :: rest) =
          wordsOf cu key text rest + if key s ∈ words text then 1 else 0 := by
        simp [wordsOf, passed, same, List.countP_cons]
      have sum : (if key s ∈ words text then score + contained else score) +
          contained * wordsOf cu key text rest =
            score + contained * wordsOf cu key text (s :: rest) := by
        rw [counted]
        split
        · push_cast
          ring
        · rw [Nat.add_zero]
      simp [same, sum]

/-- The part of the last loop. -/
theorem foldl_penalties (text : WString) (score : Int) (list : List WString) :
    list.foldl (fun score s =>
        if cu.startsWith text s then score - wordBlackExactScore else score) score =
      score - wordBlackExactScore * list.countP (cu.startsWith text) := by
  induction list generalizing score with
  | nil => simp
  | cons s rest ih =>
    rw [List.foldl_cons, ih, List.countP_cons]
    cases cu.startsWith text s with
    | true =>
      simp only [if_true]
      push_cast
      ring
    | false => simp

/-- How often the penalty of a refusal is given. -/
def refusals (text : WString) : Nat :=
  if blackList.any (cu.equal text) then 1 else blackListStartWith.countP (cu.startsWith text)

/-- The text part of a control whose text is not blank. -/
theorem rankText_eq {control : Control} {t : WString} (given : control.text = some t)
    (nonblank : trim t ≠ []) :
    rankText cu control =
      wordWhiteContainedScore * wordsOf cu id (normalized cu t) whiteList +
        if whiteList.any (cu.equal (normalized cu t)) then wordWhiteExactScore
        else -wordBlackContainedScore * wordsOf cu cu.casing.toLower (normalized cu t) blackList -
          wordBlackExactScore * refusals cu (normalized cu t) := by
  unfold rankText refusals
  simp only [given, if_neg nonblank, rankPhrases_eq]
  cases whiteList.any (cu.equal (normalized cu t)) with
  | true => simp
  | false =>
    cases blackList.any (cu.equal (normalized cu t)) with
    | true =>
      simp only [if_true, Bool.false_eq_true, if_false]
      push_cast
      ring
    | false =>
      simp only [Bool.false_eq_true, if_false, foldl_penalties]
      ring

theorem rankText_between (control : Control) :
    -1880 ≤ rankText cu control ∧ rankText cu control ≤ 1070 := by
  cases given : control.text with
  | none =>
    simp only [rankText, given]
    decide
  | some t =>
    by_cases blank : trim t = []
    · simp only [rankText, given, if_pos blank]
      decide
    · have white := wordsOf_le cu id (normalized cu t) whiteList
      have black := wordsOf_le cu cu.casing.toLower (normalized cu t) blackList
      have few : refusals cu (normalized cu t) ≤ 2 := by
        unfold refusals
        split
        · decide
        · exact List.countP_le_length
      have whites : whiteList.length = 14 := rfl
      have blacks : blackList.length = 21 := rfl
      rw [rankText_eq cu given blank]
      simp only [wordWhiteContainedScore, wordWhiteExactScore, wordBlackContainedScore,
        wordBlackExactScore]
      split <;> omega

end text

/-! ### The other parts -/

/-- A double of usual size is cast as its truncation. -/
theorem toInt_truncate {q : ℚ} {low high : ℤ} (small : -1000000 ≤ low) (large : high ≤ 1000000)
    (above : (low : ℚ) ≤ q) (below : q ≤ high) :
    (toInt q).toInt = truncate q ∧ low ≤ truncate q ∧ truncate q ≤ high := by
  have lower := le_truncate above
  have upper := truncate_le below
  have range : -0x80000000 ≤ truncate q ∧ truncate q < 0x80000000 := by omega
  rw [toInt, if_pos range, Int32.toInt_ofInt_of_le (by omega) (by omega)]
  exact ⟨rfl, lower, upper⟩

/-- Integer bounds on the two quotients bound what is made of them, whatever is rounded. -/
theorem rounded_between (rd : Rounding) {x y : ℚ} {lowX highX lowY highY : ℤ}
    (small : -1000 ≤ lowX ∧ -1000 ≤ lowY) (large : highX ≤ 1000 ∧ highY ≤ 1000)
    (betweenX : (lowX : ℚ) ≤ x ∧ x ≤ highX) (betweenY : (lowY : ℚ) ≤ y ∧ y ≤ highY) :
    ((10 * (lowX + lowY) : ℤ) : ℚ) ≤
        rd.round (rd.round (rd.round x + rd.round y) * positionAxisScore) ∧
      rd.round (rd.round (rd.round x + rd.round y) * positionAxisScore) ≤
        ((10 * (highX + highY) : ℤ) : ℚ) := by
  have orderX : lowX ≤ highX := by exact_mod_cast betweenX.1.trans betweenX.2
  have orderY : lowY ≤ highY := by exact_mod_cast betweenY.1.trans betweenY.2
  have exact_ : ∀ n : ℤ, -20000 ≤ n → n ≤ 20000 → |n| ≤ 2 ^ 53 := by
    intro n above below
    rw [abs_le]
    omega
  obtain ⟨x₁, x₂⟩ := rd.between (exact_ lowX (by omega) (by omega))
    (exact_ highX (by omega) (by omega)) betweenX.1 betweenX.2
  obtain ⟨y₁, y₂⟩ := rd.between (exact_ lowY (by omega) (by omega))
    (exact_ highY (by omega) (by omega)) betweenY.1 betweenY.2
  obtain ⟨s₁, s₂⟩ := rd.between (exact_ (lowX + lowY) (by omega) (by omega))
    (exact_ (highX + highY) (by omega) (by omega))
    (by push_cast; exact add_le_add x₁ y₁) (by push_cast; exact add_le_add x₂ y₂)
  have ten : ((positionAxisScore : ℤ) : ℚ) = 10 := by norm_num [positionAxisScore]
  have scale : ∀ (n : ℤ) (q : ℚ), (n ≤ q → ((10 * n : ℤ) : ℚ) ≤ q * positionAxisScore) ∧
      (q ≤ n → q * positionAxisScore ≤ ((10 * n : ℤ) : ℚ)) := by
    intro n q
    rw [ten]
    push_cast
    constructor <;> intro h <;> linarith
  exact rd.between (exact_ (10 * (lowX + lowY)) (by omega) (by omega))
    (exact_ (10 * (highX + highY)) (by omega) (by omega)) ((scale _ _).1 s₁) ((scale _ _).2 s₂)

theorem rankPosition_between (rd : Rounding) {resolution : Rectangle} {control : Control}
    {lowX highX lowY highY : ℤ} (small : -1000 ≤ lowX ∧ -1000 ≤ lowY)
    (large : highX ≤ 1000 ∧ highY ≤ 1000)
    (x : (lowX : ℚ) ≤ (control.positionScreenRelative.x - resolution.x).toInt /
        resolution.width.toInt ∧
      ((control.positionScreenRelative.x - resolution.x).toInt / resolution.width.toInt : ℚ) ≤
        highX)
    (y : (lowY : ℚ) ≤ (control.positionScreenRelative.y - resolution.y).toInt /
        resolution.height.toInt ∧
      ((control.positionScreenRelative.y - resolution.y).toInt / resolution.height.toInt : ℚ) ≤
        highY) :
    10 * (lowX + lowY) ≤ rankPosition rd resolution control ∧
      rankPosition rd resolution control ≤ 10 * (highX + highY) := by
  have orderX : lowX ≤ highX := by exact_mod_cast x.1.trans x.2
  have orderY : lowY ≤ highY := by exact_mod_cast y.1.trans y.2
  obtain ⟨above, below⟩ := rounded_between rd small large x y
  obtain ⟨cast, lower, upper⟩ := toInt_truncate (by omega) (by omega) above below
  rw [rankPosition, cast]
  exact ⟨lower, upper⟩

theorem rankControlType_between (control : Control) :
    -300 ≤ rankControlType control ∧ rankControlType control ≤ 65 := by
  unfold rankControlType
  cases control.toggleState with
  | none =>
    cases control.guessedControlType with
    | none => decide
    | some type => cases type <;> decide
  | some state =>
    cases control.guessedControlType with
    | none => cases state <;> decide
    | some type => cases type <;> cases state <;> decide

theorem rankFocus_between (control : Control) :
    0 ≤ rankFocus control ∧ rankFocus control ≤ 50 := by
  unfold rankFocus
  split <;> decide

theorem rankEnabled_between (control : Control) :
    -10000 ≤ rankEnabled control ∧ rankEnabled control ≤ 0 := by
  unfold rankEnabled
  split <;> decide

/-- The sum does not wrap around while the position part is of a usual size. -/
theorem rankElement_toInt (cu : Culture) (rd : Rounding) (resolution : Rectangle)
    (control : Control) (position : -1000000 ≤ rankPosition rd resolution control ∧
      rankPosition rd resolution control ≤ 1000000) :
    (rankElement cu rd resolution control).toInt =
      rankEnabled control + rankText cu control + rankPosition rd resolution control +
        rankControlType control + rankFocus control := by
  have text := rankText_between cu control
  have type := rankControlType_between control
  have focus := rankFocus_between control
  have enabled := rankEnabled_between control
  rw [rankElement, Int32.toInt_ofInt_of_le (by omega) (by omega)]

/-! ### Disabled controls -/

/-- A coordinate in the range of an Int16. -/
def Int16Range (n : Int32) : Prop := -0x8000 ≤ n.toInt ∧ n.toInt < 0x8000

theorem sub_toInt {m n : Int32} (first : Int16Range m) (second : Int16Range n) :
    -65535 ≤ (m - n).toInt ∧ (m - n).toInt ≤ 65535 := by
  obtain ⟨lowM, highM⟩ := first
  obtain ⟨lowN, highN⟩ := second
  rw [Int32.toInt_sub, Int.bmod_eq_of_le (by omega) (by omega)]
  omega

/-- The quotient of such a difference by the size of the screen. -/
theorem quotient_between {d w size : ℤ} (bound : ℤ) (low : -65535 ≤ d) (high : d ≤ 65535)
    (wide : size ≤ w) (positive : 0 < size) (enough : 65535 ≤ bound * size)
    (nonneg : 0 ≤ bound) : ((-bound : ℤ) : ℚ) ≤ d / w ∧ (d / w : ℚ) ≤ bound := by
  have room : bound * size ≤ bound * w := Int.mul_le_mul_of_nonneg_left wide nonneg
  have w_pos : (0 : ℚ) < w := by exact_mod_cast positive.trans_le wide
  constructor
  · rw [le_div_iff₀ w_pos]
    have : -bound * w ≤ d := by linarith
    exact_mod_cast this
  · rw [div_le_iff₀ w_pos]
    have : d ≤ bound * w := by linarith
    exact_mod_cast this

/-- The bot does not interact with a candidate of this score, whatever round it is popped in. -/
def NeverInteractedWith (score : Int32) : Prop :=
  ∀ hash d r rest, r.popped = some score.toInt → visitRounds hash d (r :: rest) = visitRounds hash d rest

theorem neverInteractedWith {score : Int32} (low : score.toInt ≤ 0) :
    NeverInteractedWith score := by
  intro hash d r rest popped
  conv_lhs => unfold visitRounds
  simp only [popped, if_neg (Int.not_lt.mpr low)]

/-- A disabled control is scored below zero, so the bot does not interact with it. -/
theorem disabled_control_score (cu : Culture) (rd : Rounding) (resolution : Rectangle)
    (control : Control) (disabled : control.isEnabled = some false)
    (position : Int16Range control.positionScreenRelative.x ∧
      Int16Range control.positionScreenRelative.y)
    (origin : Int16Range resolution.x ∧ Int16Range resolution.y)
    (screen : 640 ≤ resolution.width.toInt ∧ 480 ≤ resolution.height.toInt) :
    (rankElement cu rd resolution control).toInt < 0 ∧
      NeverInteractedWith (rankElement cu rd resolution control) := by
  obtain ⟨lowX, highX⟩ := sub_toInt position.1 origin.1
  obtain ⟨lowY, highY⟩ := sub_toInt position.2 origin.2
  have x := quotient_between 103 lowX highX screen.1 (by decide) (by decide) (by decide)
  have y := quotient_between 137 lowY highY screen.2 (by decide) (by decide) (by decide)
  have part := rankPosition_between rd (by decide) (by decide) x y
  have text := rankText_between cu control
  have type := rankControlType_between control
  have focus := rankFocus_between control
  have enabled : rankEnabled control = -10000 := by
    rw [rankEnabled, if_pos disabled]
    rfl
  have negative : (rankElement cu rd resolution control).toInt < 0 := by
    rw [rankElement_toInt cu rd resolution control (by omega)]
    omega
  exact ⟨negative, neverInteractedWith (Int.le_of_lt negative)⟩

/-- Comparison unit by unit, as any culture compares ASCII texts of lower case. -/
def plainCulture : Culture where
  casing := .ascii
  equal text s := decide (text = s)
  startsWith text s := s.isPrefixOf text
  equal_self _ := decide_eq_true rfl

/-- A focused button `Next` in the corner of the screen, disabled. -/
def disabledNext : Control where
  text := some (wide "Next")
  isEnabled := some false
  hasFocus := some true
  positionScreenRelative := ⟨1000, 700, 75, 23⟩
  guessedControlType := some .button
  toggleState := none

theorem disabledNext_score :
    (rankElement plainCulture .exact ⟨0, 0, 1024, 768⟩ disabledNext).toInt < 0 ∧
      NeverInteractedWith (rankElement plainCulture .exact ⟨0, 0, 1024, 768⟩ disabledNext) :=
  disabled_control_score plainCulture .exact ⟨0, 0, 1024, 768⟩ disabledNext rfl
    ⟨⟨by decide, by decide⟩, by decide, by decide⟩ ⟨⟨by decide, by decide⟩, by decide, by decide⟩
    ⟨by decide, by decide⟩

end GuestAgent.Guarantees.DisabledControls
