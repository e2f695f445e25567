import GuestAgent.Guarantees.DisabledControls

/-!
Which refusals are scored high enough to be clicked.

The penalty of a refusal is one sum, but every word to agree with earns a bonus before it is
taken. An exact phrase of `BLACK_LIST` holds at most one such word and stays below zero; a longer
text that only starts with a refusal may hold enough of them to come out positive. Whether some
control with the text is clicked is told by the words alone; three words to agree with never
suffice. For one control it can be read off a table of the kinds of controls, with its place on the
screen.
-/
namespace GuestAgent.Guarantees.Refusals
open Library Source SimpleRankingPolicy DisabledControls

/-- The text, lower-cased and trimmed, is or starts with a refusal, and is no phrase to agree
with; a blank text is neither. -/
structure Refusal (cu : Culture) (t : WString) : Prop where
  nonblank : trim t ≠ []
  refuses : (∃ s ∈ blackList, cu.equal (normalized cu t) s = true) ∨
    ∃ s ∈ blackListStartWith, cu.startsWith (normalized cu t) s = true
  noConsent : ∀ s ∈ whiteList, cu.equal (normalized cu t) s = false

/-- The control starts on the screen. -/
structure OnScreen (resolution : Rectangle) (control : Control) : Prop where
  left : resolution.x.toInt ≤ control.positionScreenRelative.x.toInt
  right : control.positionScreenRelative.x.toInt < resolution.x.toInt + resolution.width.toInt
  top : resolution.y.toInt ≤ control.positionScreenRelative.y.toInt
  bottom : control.positionScreenRelative.y.toInt < resolution.y.toInt + resolution.height.toInt

/-- How many of the phrases to agree with are words of the text. -/
def consents (text : WString) : Nat := whiteList.countP fun s => (words text).contains s

/-- What the text costs: 310 for each refusal and 60 for each word to refuse with, less 55 for each
word to agree with. -/
def cost (cu : Culture) (text : WString) : Int :=
  310 * refusals cu text + 60 * wordsOf cu cu.casing.toLower text blackList - 55 * consents text

/-- The words to agree with are outweighed, whatever control has the text. -/
def Outweighed (cu : Culture) (text : WString) : Prop :=
  11 * consents text + 27 ≤
    62 * refusals cu text + 12 * wordsOf cu cu.casing.toLower text blackList

/-- How far the control is from the corner of the screen, in tenths of its width and of its height
together, each operation rounded. -/
def tenths (rd : Rounding) (resolution : Rectangle) (control : Control) : ℚ :=
  rd.round (rd.round
    (rd.round ((control.positionScreenRelative.x.toInt - resolution.x.toInt : ℤ) /
        resolution.width.toInt) +
      rd.round ((control.positionScreenRelative.y.toInt - resolution.y.toInt : ℤ) /
        resolution.height.toInt)) * 10)

/-- The text costs a control of this kind more than lets it be clicked at this distance from the
corner; the last argument is whether it has the focus. -/
def Deterred (cost : Int) (tenths : ℚ) : Option ControlType → Option ToggleState → Bool → Prop
  | some .button, _, false => tenths < (cost - 49 : ℤ)
  | some .button, _, true => tenths < (cost - 99 : ℤ)
  | some .checkBox, some .off, false => tenths < (cost - 64 : ℤ)
  | some .checkBox, some .off, true => tenths < (cost - 114 : ℤ)
  | some .checkBox, some _, false => tenths < (cost + 86 : ℤ)
  | some .checkBox, some _, true => tenths < (cost + 36 : ℤ)
  | some .checkBox, none, false => tenths < (cost - 14 : ℤ)
  | some .checkBox, none, true => tenths < (cost - 64 : ℤ)
  | some .radioButton, _, false => tenths < (cost - 14 : ℤ)
  | some .radioButton, _, true => tenths < (cost - 64 : ℤ)
  | some .hyperlink, _, false => tenths < (cost - 9 : ℤ)
  | some .hyperlink, _, true => tenths < (cost - 59 : ℤ)
  | some .scrollBar, _, false => tenths < (cost + 301 : ℤ)
  | some .scrollBar, _, true => tenths < (cost + 251 : ℤ)
  | _, _, false => tenths < (cost + 1 : ℤ)
  | _, _, true => tenths < (cost - 49 : ℤ)

/-- The score is not positive, and the bot does not interact with the control. -/
def NotClicked (cu : Culture) (rd : Rounding) (resolution : Rectangle) (control : Control) : Prop :=
  (rankElement cu rd resolution control).toInt ≤ 0 ∧
    NeverInteractedWith (rankElement cu rd resolution control)

/-- No control with the text is clicked, wherever on the screen it starts. -/
def NeverClicked (cu : Culture) (rd : Rounding) (t : WString) : Prop :=
  ∀ resolution control, control.text = some t → OnScreen resolution control →
    NotClicked cu rd resolution control

/-! ### The parts of the score -/

theorem difference_on_screen {m n w : Int32} (above : n.toInt ≤ m.toInt)
    (below : m.toInt < n.toInt + w.toInt) : (m - n).toInt = m.toInt - n.toInt := by
  have highW := w.toInt_lt
  rw [Int32.toInt_sub, Int.bmod_eq_of_le (by omega) (by omega)]

theorem quotient_on_screen {m n w : Int32} (above : n.toInt ≤ m.toInt)
    (below : m.toInt < n.toInt + w.toInt) :
    ((0 : ℤ) : ℚ) ≤ (m.toInt - n.toInt : ℤ) / w.toInt ∧
      ((m.toInt - n.toInt : ℤ) / w.toInt : ℚ) ≤ ((1 : ℤ) : ℚ) := by
  have w_pos : (0 : ℚ) < w.toInt := by
    have : 0 < w.toInt := by omega
    exact_mod_cast this
  constructor
  · have nonneg : (0 : ℚ) ≤ ((m.toInt - n.toInt : ℤ) : ℚ) := by
      exact_mod_cast Int.sub_nonneg_of_le above
    rw [Int.cast_zero]
    exact div_nonneg nonneg w_pos.le
  · rw [Int.cast_one, div_le_one w_pos]
    have : m.toInt - n.toInt ≤ w.toInt := by omega
    exact_mod_cast this

theorem tenths_on_screen (rd : Rounding) {resolution : Rectangle} {control : Control}
    (on : OnScreen resolution control) :
    0 ≤ tenths rd resolution control ∧ tenths rd resolution control ≤ 20 := by
  have bounds := rounded_between rd (by decide) (by decide) (quotient_on_screen on.left on.right)
    (quotient_on_screen on.top on.bottom)
  have ten : ((positionAxisScore : ℤ) : ℚ) = 10 := by norm_num [positionAxisScore]
  rw [ten] at bounds
  exact ⟨le_of_eq_of_le (by norm_num) bounds.1, bounds.2.trans_eq (by norm_num)⟩

/-- The position part of a control on the screen counts the whole tenths. -/
theorem rankPosition_on_screen (rd : Rounding) {resolution : Rectangle} {control : Control}
    (on : OnScreen resolution control) :
    rankPosition rd resolution control = truncate (tenths rd resolution control) := by
  obtain ⟨above, below⟩ := tenths_on_screen rd on
  have least : ((0 : ℤ) : ℚ) ≤ tenths rd resolution control := by exact_mod_cast above
  have most : tenths rd resolution control ≤ ((20 : ℤ) : ℚ) := by exact_mod_cast below
  have cast := toInt_truncate (by decide) (by decide) least most
  rw [← cast.1, rankPosition, tenths, difference_on_screen on.left on.right,
    difference_on_screen on.top on.bottom]
  norm_num [positionAxisScore]

/-- The exact phrases hold at most one word to agree with. -/
theorem blackList_consents : ∀ s ∈ blackList, consents s ≤ 1 := by decide

theorem refusals_pos {cu : Culture} {t : WString} (refusal : Refusal cu t) :
    1 ≤ refusals cu (normalized cu t) := by
  unfold refusals
  split
  · exact Nat.le_refl 1
  · next none =>
    cases refusal.refuses with
    | inl exact_ => exact absurd (List.any_eq_true.mpr exact_) none
    | inr starts => exact List.countP_pos_iff.mpr starts

/-- The rows of the table, by what type and focus are worth. -/
theorem deterred_iff (cost : Int) {q : ℚ} (nonneg : 0 ≤ q) (control : Control) :
    Deterred cost q control.guessedControlType control.toggleState
        (control.hasFocus == some true) ↔
      truncate q + rankControlType control + rankFocus control ≤ cost := by
  have below := truncate_lt_iff nonneg
  have focus : rankFocus control = if (control.hasFocus == some true) = true then 50 else 0 := by
    simp [rankFocus, controlTypeFocusedScore]
  rw [focus, rankControlType]
  simp only [controlTypeScrollbarPenalty, controlTypeButtonScore, controlTypeCheckboxScore,
    controlTypeCheckboxUncheckedScore, controlTypeCheckboxCheckedPenalty, controlTypeRadioScore,
    controlTypeHyperlinkScore]
  cases control.hasFocus == some true <;> cases control.toggleState with
  | none =>
    cases control.guessedControlType with
    | none =>
      simp only [Deterred, ← below, if_true, Bool.false_eq_true, if_false]
      omega
    | some type =>
      cases type <;> simp only [Deterred, ← below, if_true, Bool.false_eq_true, if_false] <;> omega
  | some state =>
    cases control.guessedControlType with
    | none =>
      cases state <;> simp only [Deterred, ← below, if_true, Bool.false_eq_true, if_false] <;> omega
    | some type =>
      cases type <;> cases state <;>
        simp only [Deterred, ← below, if_true, Bool.false_eq_true, if_false] <;> omega

/-- No phrase to agree with stops the count of the words to agree with. -/
theorem wordsOf_whiteList {cu : Culture} {t : WString} (refusal : Refusal cu t) :
    wordsOf cu id (normalized cu t) whiteList = consents (normalized cu t) := by
  have whole : passed cu (normalized cu t) whiteList = whiteList :=
    List.takeWhile_eq_self_iff.mpr fun s member => by simp [refusal.noConsent s member]
  rw [wordsOf, whole]
  rfl

/-- The score of a refusal: what it costs against what speaks for the control. -/
theorem refusal_score {cu : Culture} (rd : Rounding) {resolution : Rectangle} {control : Control}
    {t : WString} (given : control.text = some t) (refusal : Refusal cu t)
    (on : OnScreen resolution control) :
    (rankElement cu rd resolution control).toInt =
      rankEnabled control - cost cu (normalized cu t) +
        (truncate (tenths rd resolution control) + rankControlType control +
          rankFocus control) := by
  obtain ⟨above, below⟩ := tenths_on_screen rd on
  have low : 0 ≤ truncate (tenths rd resolution control) := le_truncate (by exact_mod_cast above)
  have high : truncate (tenths rd resolution control) ≤ 20 := truncate_le (by exact_mod_cast below)
  have position := rankPosition_on_screen rd on
  have noConsent : whiteList.any (cu.equal (normalized cu t)) = false :=
    List.any_eq_false.mpr fun s member => by simp [refusal.noConsent s member]
  rw [rankElement_toInt cu rd resolution control (by omega), rankText_eq cu given refusal.nonblank,
    noConsent, position, wordsOf_whiteList refusal]
  simp only [Bool.false_eq_true, if_false, cost, wordWhiteContainedScore, wordBlackContainedScore,
    wordBlackExactScore]
  ring

/-- Three words to agree with are too few, whatever the control is and wherever on the screen. -/
theorem deterred_of_few {cu : Culture} {t : WString} (refusal : Refusal cu t)
    (few : consents (normalized cu t) ≤ 3) {q : ℚ} (nonneg : 0 ≤ q) (most : q ≤ 20)
    (control : Control) :
    Deterred (cost cu (normalized cu t)) q control.guessedControlType control.toggleState
      (control.hasFocus == some true) := by
  have refused := refusals_pos refusal
  have type := rankControlType_between control
  have focus := rankFocus_between control
  have high : truncate q ≤ 20 := truncate_le (by exact_mod_cast most)
  rw [deterred_iff _ nonneg, cost]
  omega

/-- An exact phrase of `BLACK_LIST` always deters. -/
theorem deterred_of_phrase {cu : Culture} {t : WString} (refusal : Refusal cu t)
    (phrase : normalized cu t ∈ blackList) {q : ℚ} (nonneg : 0 ≤ q) (most : q ≤ 20)
    (control : Control) :
    Deterred (cost cu (normalized cu t)) q control.guessedControlType control.toggleState
      (control.hasFocus == some true) := by
  have one := blackList_consents _ phrase
  exact deterred_of_few refusal (by omega) nonneg most control

/-- A refusal is not scored above zero exactly if its control is disabled, its text holds at most
three words to agree with, or the text deters from it by the table. -/
theorem notClicked_iff {cu : Culture} (rd : Rounding) {resolution : Rectangle} {control : Control}
    {t : WString} (given : control.text = some t) (refusal : Refusal cu t)
    (on : OnScreen resolution control) :
    NotClicked cu rd resolution control ↔
      control.isEnabled = some false ∨ consents (normalized cu t) ≤ 3 ∨
        Deterred (cost cu (normalized cu t)) (tenths rd resolution control)
          control.guessedControlType control.toggleState (control.hasFocus == some true) := by
  obtain ⟨above, below⟩ := tenths_on_screen rd on
  have high : truncate (tenths rd resolution control) ≤ 20 := truncate_le (by exact_mod_cast below)
  have enabled := rankEnabled_between control
  have score := refusal_score rd given refusal on
  rw [NotClicked, and_iff_left_of_imp neverInteractedWith, score]
  constructor
  · intro low
    by_cases disabled : control.isEnabled = some false
    · exact .inl disabled
    · have none_ : rankEnabled control = 0 := if_neg disabled
      exact .inr (.inr ((deterred_iff _ above control).mpr (by omega)))
  · intro cases_
    rcases cases_ with disabled | few | deterred
    · have penalty : rankEnabled control = -10000 := if_pos disabled
      have type := rankControlType_between control
      have focus := rankFocus_between control
      have refused := refusals_pos refusal
      have whites : consents (normalized cu t) ≤ 14 := List.countP_le_length
      rw [cost]
      omega
    · have deterred := deterred_of_few refusal few above below control
      rw [deterred_iff _ above] at deterred
      omega
    · rw [deterred_iff _ above] at deterred
      omega

/-! ### Every control with the text -/

/-- An unchecked check box with the focus, far from the corner: what is clicked first. -/
def farCheckBox (t : WString) : Control where
  text := some t
  isEnabled := some true
  hasFocus := some true
  positionScreenRelative := ⟨896, 672, 100, 23⟩
  guessedControlType := some .checkBox
  toggleState := some .off

def screen : Rectangle := ⟨0, 0, 1024, 768⟩

theorem farCheckBox_onScreen (t : WString) : OnScreen screen (farCheckBox t) :=
  ⟨(by decide : (0 : Int32).toInt ≤ (896 : Int32).toInt),
    (by decide : (896 : Int32).toInt < (0 : Int32).toInt + (1024 : Int32).toInt),
    (by decide : (0 : Int32).toInt ≤ (672 : Int32).toInt),
    (by decide : (672 : Int32).toInt < (0 : Int32).toInt + (768 : Int32).toInt)⟩

/-- Seven eighths of the width and of the height make seventeen tenths and a half. -/
theorem tenths_farCheckBox {rd : Rounding} (keeps : rd.KeepsEighths) (t : WString) :
    tenths rd screen (farCheckBox t) = 35 / 2 := by
  have x : (((farCheckBox t).positionScreenRelative.x.toInt - screen.x.toInt : ℤ) : ℚ) /
      screen.width.toInt = (7 : ℤ) / 8 := by
    have right : (farCheckBox t).positionScreenRelative.x.toInt - screen.x.toInt = 896 := rfl
    have width : screen.width.toInt = 1024 := rfl
    rw [right, width]
    norm_num
  have y : (((farCheckBox t).positionScreenRelative.y.toInt - screen.y.toInt : ℤ) : ℚ) /
      screen.height.toInt = (7 : ℤ) / 8 := by
    have down : (farCheckBox t).positionScreenRelative.y.toInt - screen.y.toInt = 672 := rfl
    have height : screen.height.toInt = 768 := rfl
    rw [down, height]
    norm_num
  have sum : ((7 : ℤ) / 8 + (7 : ℤ) / 8 : ℚ) = (14 : ℤ) / 8 := by norm_num
  have product : ((14 : ℤ) / 8 * 10 : ℚ) = (140 : ℤ) / 8 := by norm_num
  rw [tenths, x, y, keeps 7 (by decide), sum, keeps 14 (by decide), product, keeps 140 (by decide)]
  norm_num

/-- Of all controls with the text the check box far from the corner is the first to be clicked. -/
theorem neverClicked_iff {cu : Culture} {rd : Rounding} (keeps : rd.KeepsEighths) {t : WString}
    (refusal : Refusal cu t) : NeverClicked cu rd t ↔ Outweighed cu (normalized cu t) := by
  constructor
  · intro never
    have on := farCheckBox_onScreen t
    have low := (never screen (farCheckBox t) rfl on).1
    have parts : rankEnabled (farCheckBox t) = 0 ∧ rankControlType (farCheckBox t) = 65 ∧
        rankFocus (farCheckBox t) = 50 := ⟨rfl, rfl, rfl⟩
    have far : 17 ≤ truncate (tenths rd screen (farCheckBox t)) :=
      le_truncate (by rw [tenths_farCheckBox keeps]; norm_num)
    rw [refusal_score rd rfl refusal on, cost] at low
    rw [Outweighed]
    omega
  · intro outweighed resolution control given on
    have high : truncate (tenths rd resolution control) ≤ 20 :=
      truncate_le (by exact_mod_cast (tenths_on_screen rd on).2)
    have enabled := rankEnabled_between control
    have type := rankControlType_between control
    have focus := rankFocus_between control
    have score := refusal_score rd given refusal on
    rw [NotClicked, and_iff_left_of_imp neverInteractedWith, score, cost]
    rw [Outweighed] at outweighed
    omega

/-- Three words to agree with are outweighed by any refusal. -/
theorem outweighed_of_few {cu : Culture} {t : WString} (refusal : Refusal cu t)
    (few : consents (normalized cu t) ≤ 3) : Outweighed cu (normalized cu t) := by
  have refused := refusals_pos refusal
  rw [Outweighed]
  omega

/-- The controls with the text are never clicked, exactly if its words to agree with are outweighed;
and one of them is not clicked exactly if it is disabled, the text holds at most three such words,
or the text deters from it by the table. -/
theorem refusal_not_clicked_iff (cu : Culture) (rd : Rounding) (t : WString)
    (refusal : Refusal cu t) :
    (rd.KeepsEighths → (NeverClicked cu rd t ↔ Outweighed cu (normalized cu t))) ∧
      ∀ resolution control, control.text = some t → OnScreen resolution control →
        (NotClicked cu rd resolution control ↔
          control.isEnabled = some false ∨ consents (normalized cu t) ≤ 3 ∨
            Deterred (cost cu (normalized cu t)) (tenths rd resolution control)
              control.guessedControlType control.toggleState (control.hasFocus == some true)) :=
  ⟨fun keeps => neverClicked_iff keeps refusal,
    fun _ _ given on => notClicked_iff rd given refusal on⟩

/-- A button that refuses in many words to agree with. -/
def wordyRefusal : Control where
  text := some (wide "I do not agree but continue install run finish")
  isEnabled := some true
  hasFocus := none
  positionScreenRelative := ⟨0, 0, 300, 23⟩
  guessedControlType := some .button
  toggleState := none

theorem wordyRefusal_refuses :
    Refusal plainCulture (wide "I do not agree but continue install run finish") :=
  ⟨by decide, .inr (by decide), by decide⟩

theorem wordyRefusal_onScreen : OnScreen screen wordyRefusal :=
  ⟨by decide, by decide, by decide, by decide⟩

theorem wordyRefusal_score :
    (NeverClicked plainCulture .exact (wide "I do not agree but continue install run finish") ↔
      Outweighed plainCulture (normalized plainCulture
        (wide "I do not agree but continue install run finish"))) ∧
    (NotClicked plainCulture .exact screen wordyRefusal ↔
      wordyRefusal.isEnabled = some false ∨
        consents (normalized plainCulture
          (wide "I do not agree but continue install run finish")) ≤ 3 ∨
        Deterred (cost plainCulture (normalized plainCulture
            (wide "I do not agree but continue install run finish")))
          (tenths .exact screen wordyRefusal) wordyRefusal.guessedControlType
          wordyRefusal.toggleState (wordyRefusal.hasFocus == some true)) := by
  obtain ⟨text, controls⟩ := refusal_not_clicked_iff plainCulture .exact _ wordyRefusal_refuses
  exact ⟨text fun _ _ => rfl, controls screen wordyRefusal rfl wordyRefusal_onScreen⟩

/-- Its five words to agree with and its type earn more than the refusal costs. -/
theorem wordyRefusal_clicked :
    ¬ ∀ cu rd resolution control t, control.text = some t → Refusal cu t →
      OnScreen resolution control → NotClicked cu rd resolution control := by
  intro neverClicked
  obtain ⟨low, -⟩ := neverClicked plainCulture .exact screen wordyRefusal _ rfl
    wordyRefusal_refuses wordyRefusal_onScreen
  have nonneg : 0 ≤ truncate (tenths .exact screen wordyRefusal) :=
    le_truncate (by exact_mod_cast (tenths_on_screen .exact wordyRefusal_onScreen).1)
  rw [refusal_score .exact rfl wordyRefusal_refuses wordyRefusal_onScreen] at low
  have parts : rankEnabled wordyRefusal + rankControlType wordyRefusal + rankFocus wordyRefusal =
      50 := by decide
  have text : cost plainCulture (normalized plainCulture
      (wide "I do not agree but continue install run finish")) = 35 := by decide
  omega

end GuestAgent.Guarantees.Refusals
