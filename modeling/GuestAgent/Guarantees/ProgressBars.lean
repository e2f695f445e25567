import Mathlib.Data.List.Induction
import GuestAgent.Guarantees.Candidates
import GuestAgent.Source.VisualRanker

/-!
Which progress bar keeps the bot from interacting.

`HasIncompleteProgressBar` answers for the first progress bar the set enumerates. A bar that is
scanned behind a control with the same score is not in the set at all, and of the bars that are,
only the one with the best score is looked at.
-/
namespace GuestAgent.Guarantees.ProgressBars
open Library Library.Runs Source Source.CandidateSet Candidates

variable {D : Type} [LT D] [DecidableLT D]

/-- The element of a candidate, by its number. -/
def elementOf (elements : List (AutomationElement D)) (c : UIControlCandidate) :
    Option (AutomationElement D) := elements[c.id]?

/-- A progress bar the scan does not skip. -/
def ScannedBar (el : AutomationElement D) : Prop :=
  el.boundingRectangle.isSome ∧ el.controlType = .progressBar

/-- Some scanned progress bar is incomplete. -/
def AnyIncomplete (elements : List (AutomationElement D)) : Prop :=
  ∃ el ∈ elements, ScannedBar el ∧ el.value < el.maximum

/-- `HasIncompleteProgressBar` tells whether a scanned bar is incomplete. -/
def TellsIncomplete (b : Balancing) (policy : Control → Int32)
    (elements : List (AutomationElement D)) : Prop :=
  (scanWithUIAutomation b policy elements).hasIncompleteProgressBar (elementOf elements) = true ↔
    AnyIncomplete elements

def IsBar (elements : List (AutomationElement D)) (c : UIControlCandidate) : Prop :=
  ∃ el, elementOf elements c = some el ∧ el.controlType = .progressBar

def IsIncompleteBar (elements : List (AutomationElement D)) (c : UIControlCandidate) : Prop :=
  ∃ el, elementOf elements c = some el ∧ el.controlType = .progressBar ∧ el.value < el.maximum

/-- The first bar in the order of enumeration is incomplete. -/
def LeadingIncomplete (elements : List (AutomationElement D)) (items : List UIControlCandidate) :
    Prop :=
  ∃ before c after, items = before ++ c :: after ∧ (∀ x ∈ before, ¬ IsBar elements x) ∧
    IsIncompleteBar elements c

/-- No candidate in front of `c` has its score. -/
def FirstOfScore (cs : List UIControlCandidate) (c : UIControlCandidate) : Prop :=
  ∃ before after, cs = before ++ c :: after ∧ ∀ x ∈ before, x.score ≠ c.score

/-- Of the bars that no control with their score was scanned in front of, the best is incomplete. -/
def BestIncomplete (elements : List (AutomationElement D)) (cs : List UIControlCandidate) : Prop :=
  ∃ c, FirstOfScore cs c ∧ IsIncompleteBar elements c ∧
    ∀ x, FirstOfScore cs x → IsBar elements x → x.score ≤ c.score

/-- The difference of any two scores is an int. -/
def ScoresFit (cs : List UIControlCandidate) : Prop :=
  ∀ x ∈ cs, ∀ y ∈ cs, y.score.toInt - x.score.toInt < 0x80000000

/-! ### The set -/

section set

variable (b : Balancing)

theorem apart_of_fit {x y : UIControlCandidate} (differ : x.score ≠ y.score)
    (fit : y.score.toInt - x.score.toInt < 0x80000000 ∧
      x.score.toInt - y.score.toInt < 0x80000000) : Apart x y :=
  ⟨differ, by omega, fit.1⟩

/-- A candidate whose score is there already is dropped. -/
theorem add_tied {s : CandidateSet} {c : UIControlCandidate} (sorted : s.items.Pairwise Better)
    (fit : ∀ a ∈ s.items, a.score.toInt - c.score.toInt < 0x80000000 ∧
      c.score.toInt - a.score.toInt < 0x80000000)
    (tied : ∃ a ∈ s.items, a.score = c.score) : (s.add b c).items = s.items := by
  by_cases met : ∃ x ∈ s.compared b c, x.score = c.score
  · exact add_of_tied met
  · -- the candidate would be put in order, next to one with its score
    have apart : ∀ x ∈ s.compared b c, Apart c x := fun x compared =>
      apart_of_fit (fun same => met ⟨x, compared, same.symm⟩)
        (fit x (compared_subset b s c compared))
    obtain ⟨sorted', perm⟩ := add_sorted b sorted apart
    have differ : (c :: s.items).Pairwise fun x y => x.score ≠ y.score :=
      (perm.pairwise_iff fun {x y} differ => Ne.symm differ).mp
        (sorted'.imp fun better => (Int32.ne_of_lt better).symm)
    obtain ⟨a, member, same⟩ := tied
    exact absurd same.symm ((List.pairwise_cons.mp differ).1 a member)

theorem firstOfScore_append (cs : List UIControlCandidate) (x c : UIControlCandidate) :
    FirstOfScore (cs ++ [x]) c ↔
      FirstOfScore cs c ∨ c = x ∧ ∀ y ∈ cs, y.score ≠ x.score := by
  constructor
  · intro first
    obtain ⟨before, after, split, new⟩ := first
    rcases List.eq_nil_or_concat after with none | ⟨after', last, whole⟩
    · subst none
      obtain ⟨rfl, single⟩ := List.append_inj' split rfl
      obtain rfl : x = c := List.singleton_inj.mp single
      exact .inr ⟨rfl, new⟩
    · subst whole
      have split' : cs ++ [x] = (before ++ c :: after') ++ [last] := by
        rw [split]
        simp
      obtain ⟨rest, -⟩ := List.append_inj' split' rfl
      exact .inl ⟨before, after', rest, new⟩
  · intro either
    cases either with
    | inl earlier =>
      obtain ⟨before, after, split, new⟩ := earlier
      exact ⟨before, after ++ [x], by rw [split]; simp, new⟩
    | inr last =>
      obtain ⟨rfl, new⟩ := last
      exact ⟨cs, [], rfl, new⟩

theorem ScoresFit.of_append {cs : List UIControlCandidate} {x : UIControlCandidate}
    (fit : ScoresFit (cs ++ [x])) : ScoresFit cs ∧ ∀ a ∈ cs,
      a.score.toInt - x.score.toInt < 0x80000000 ∧ x.score.toInt - a.score.toInt < 0x80000000 := by
  have last : x ∈ cs ++ [x] := List.mem_append_right _ (List.mem_singleton.mpr rfl)
  constructor
  · intro a inA c inC
    exact fit a (List.mem_append_left _ inA) c (List.mem_append_left _ inC)
  · intro a member
    exact ⟨fit x last a (List.mem_append_left _ member),
      fit a (List.mem_append_left _ member) x last⟩

/-- With scores that fit, the set holds the first candidate of each score, best scores first. -/
theorem addAll_fit {cs : List UIControlCandidate} (fit : ScoresFit cs) :
    (addAll b cs).items.Pairwise Better ∧
      ∀ c, c ∈ (addAll b cs).items ↔ FirstOfScore cs c := by
  induction cs using List.reverseRecOn with
  | nil =>
    refine ⟨List.Pairwise.nil, fun c => iff_of_false List.not_mem_nil fun first => ?_⟩
    obtain ⟨before, after, split, -⟩ := first
    simp at split
  | append_singleton cs x ih =>
    obtain ⟨fitBefore, fitLast⟩ := fit.of_append
    obtain ⟨sorted, kept⟩ := ih fitBefore
    have step : addAll b (cs ++ [x]) = (addAll b cs).add b x := by
      rw [addAll, run_append]
      rfl
    have within : ∀ a ∈ (addAll b cs).items, a.score.toInt - x.score.toInt < 0x80000000 ∧
        x.score.toInt - a.score.toInt < 0x80000000 :=
      fun a member => fitLast a (addAll_subset cs member)
    have scores := addAll_score_iff (b := b) cs x.score
    rw [step]
    by_cases tied : ∃ a ∈ (addAll b cs).items, a.score = x.score
    · rw [add_tied b sorted within tied]
      refine ⟨sorted, fun c => ?_⟩
      obtain ⟨a, given, same⟩ := scores.mp tied
      rw [kept, firstOfScore_append]
      constructor
      · exact Or.inl
      · intro either
        cases either with
        | inl first => exact first
        | inr last => exact absurd same (last.2 a given)
    · have apart : ∀ a ∈ (addAll b cs).compared b x, Apart x a := by
        intro a met
        have member := compared_subset b _ x met
        exact apart_of_fit (fun same => tied ⟨a, member, same.symm⟩) (within a member)
      obtain ⟨sorted', perm⟩ := add_sorted b sorted apart
      refine ⟨sorted', fun c => ?_⟩
      have new : ∀ y ∈ cs, y.score ≠ x.score :=
        fun y given same => tied (scores.mpr ⟨y, given, same⟩)
      rw [perm.mem_iff, List.mem_cons, kept, firstOfScore_append, or_comm, and_iff_left new]

end set

/-! ### The bar that is looked at -/

omit [LT D] [DecidableLT D] in
theorem mem_scannedCandidates (policy : Control → Int32) (n : Nat)
    (elements : List (AutomationElement D)) (c : UIControlCandidate) :
    c ∈ scannedCandidates policy n elements ↔
      ∃ i el r, elements[i]? = some el ∧ el.boundingRectangle = some r ∧
        c = ⟨n + i, policy (el.control r)⟩ := by
  induction elements generalizing n with
  | nil => simp [scannedCandidates]
  | cons el rest ih =>
    have later : (∃ i el' r, rest[i]? = some el' ∧ el'.boundingRectangle = some r ∧
        c = ⟨n + 1 + i, policy (el'.control r)⟩) ↔
          ∃ i el' r, (el :: rest)[i + 1]? = some el' ∧ el'.boundingRectangle = some r ∧
            c = ⟨n + (i + 1), policy (el'.control r)⟩ := by
      simp only [List.getElem?_cons_succ, Nat.add_assoc, Nat.add_comm 1]
    have numbers : (∃ i el' r, (el :: rest)[i]? = some el' ∧ el'.boundingRectangle = some r ∧
        c = ⟨n + i, policy (el'.control r)⟩) ↔
          (∃ r, el.boundingRectangle = some r ∧ c = ⟨n, policy (el.control r)⟩) ∨
            ∃ i el' r, (el :: rest)[i + 1]? = some el' ∧ el'.boundingRectangle = some r ∧
              c = ⟨n + (i + 1), policy (el'.control r)⟩ := by
      constructor
      · intro holds
        obtain ⟨i, el', r, at_, bounded, same⟩ := holds
        cases i with
        | zero =>
          obtain rfl : el = el' := Option.some.inj at_
          exact .inl ⟨r, bounded, same⟩
        | succ i => exact .inr ⟨i, el', r, at_, bounded, same⟩
      · intro either
        cases either with
        | inl first =>
          obtain ⟨r, bounded, same⟩ := first
          exact ⟨0, el, r, rfl, bounded, same⟩
        | inr later =>
          obtain ⟨i, el', r, at_, bounded, same⟩ := later
          exact ⟨i + 1, el', r, at_, bounded, same⟩
    rw [numbers, ← later, ← ih, scannedCandidates]
    cases el.boundingRectangle with
    | none => simp
    | some r => simp

omit [DecidableLT D] in
theorem IsIncompleteBar.isBar {elements : List (AutomationElement D)} {c : UIControlCandidate}
    (bar : IsIncompleteBar elements c) : IsBar elements c := by
  obtain ⟨el, ref, type, -⟩ := bar
  exact ⟨el, ref, type⟩

omit [DecidableLT D] in
theorem leadingIncomplete_cons (elements : List (AutomationElement D)) (c : UIControlCandidate)
    (rest : List UIControlCandidate) :
    LeadingIncomplete elements (c :: rest) ↔
      IsIncompleteBar elements c ∨ ¬ IsBar elements c ∧ LeadingIncomplete elements rest := by
  constructor
  · intro leads
    obtain ⟨before, x, after, split, none, bar⟩ := leads
    cases before with
    | nil =>
      obtain ⟨rfl, -⟩ := List.cons.inj split
      exact .inl bar
    | cons first before =>
      obtain ⟨rfl, tail⟩ := List.cons.inj split
      refine .inr ⟨none c List.mem_cons_self, before, x, after, tail, fun y member => ?_, bar⟩
      exact none y (List.mem_cons_of_mem _ member)
  · intro either
    cases either with
    | inl bar => exact ⟨[], c, rest, rfl, fun y member => absurd member List.not_mem_nil, bar⟩
    | inr later =>
      obtain ⟨here, before, x, after, split, none, bar⟩ := later
      refine ⟨c :: before, x, after, by rw [split]; rfl, fun y member => ?_, bar⟩
      cases List.mem_cons.mp member with
      | inl same => exact same ▸ here
      | inr behind => exact none y behind

theorem hasIncompleteProgressBar_iff (elements : List (AutomationElement D)) (s : CandidateSet) :
    s.hasIncompleteProgressBar (elementOf elements) = true ↔
      LeadingIncomplete elements s.items := by
  unfold CandidateSet.hasIncompleteProgressBar
  induction s.items with
  | nil => simp [firstProgressBar, LeadingIncomplete]
  | cons c rest ih =>
    rw [leadingIncomplete_cons, ← ih, firstProgressBar]
    cases ref : elementOf elements c with
    | none => simp [IsIncompleteBar, IsBar, ref]
    | some el =>
      by_cases type : el.controlType = .progressBar
      · simp [IsIncompleteBar, IsBar, ref, type]
      · simp [IsIncompleteBar, IsBar, ref, type]

omit [DecidableLT D] in
/-- The bars among the candidates are the scanned ones. -/
theorem anyIncomplete_iff (policy : Control → Int32) (elements : List (AutomationElement D)) :
    AnyIncomplete elements ↔
      ∃ c ∈ scannedCandidates policy 0 elements, IsIncompleteBar elements c := by
  simp only [mem_scannedCandidates, Nat.zero_add]
  constructor
  · intro any
    obtain ⟨el, member, ⟨bounded, type⟩, incomplete⟩ := any
    obtain ⟨i, at_⟩ := List.mem_iff_getElem?.mp member
    obtain ⟨r, bounded⟩ := Option.isSome_iff_exists.mp bounded
    exact ⟨_, ⟨i, el, r, at_, bounded, rfl⟩, el, at_, type, incomplete⟩
  · intro some_
    obtain ⟨c, ⟨i, el, r, at_, bounded, rfl⟩, el', ref, type, incomplete⟩ := some_
    obtain rfl : el = el' := Option.some.inj (at_.symm.trans ref)
    exact ⟨el, List.mem_iff_getElem?.mpr ⟨i, at_⟩,
      ⟨Option.isSome_iff_exists.mpr ⟨r, bounded⟩, type⟩, incomplete⟩

omit [DecidableLT D] in
theorem leadingIncomplete_iff_best {elements : List (AutomationElement D)}
    {cs items : List UIControlCandidate} (sorted : items.Pairwise Better)
    (kept : ∀ c, c ∈ items ↔ FirstOfScore cs c) :
    LeadingIncomplete elements items ↔ BestIncomplete elements cs := by
  constructor
  · intro leads
    obtain ⟨before, c, after, split, none, bar⟩ := leads
    refine ⟨c, (kept c).mp (by simp [split]), bar, fun x first isBar => ?_⟩
    have member := (kept x).mpr first
    rw [split, List.mem_append, List.mem_cons] at member
    rw [split] at sorted
    have behind := (List.pairwise_cons.mp (List.pairwise_append.mp sorted).2.1).1
    rcases member with ahead | here | later
    · exact absurd isBar (none x ahead)
    · exact here ▸ Int32.le_refl _
    · exact Int32.le_of_lt (behind x later)
  · intro best
    obtain ⟨c, first, bar, least⟩ := best
    obtain ⟨before, after, split⟩ := List.append_of_mem ((kept c).mpr first)
    refine ⟨before, c, after, split, fun x ahead isBar => ?_, bar⟩
    rw [split] at sorted
    have better := (List.pairwise_append.mp sorted).2.2 x ahead c List.mem_cons_self
    have lower := least x ((kept x).mp (by simp [split, ahead])) isBar
    exact absurd lower (Int32.not_le.mpr better)

/-- An incomplete bar is told exactly if the bar enumerated first is incomplete whenever some bar
is. With scores that fit, this is the best of the bars that no control with their score was
scanned in front of. -/
theorem incomplete_bar_told_iff (b : Balancing) (policy : Control → Int32)
    (elements : List (AutomationElement D)) :
    (TellsIncomplete b policy elements ↔
      (AnyIncomplete elements →
        LeadingIncomplete elements (scanWithUIAutomation b policy elements).items)) ∧
    (ScoresFit (scannedCandidates policy 0 elements) →
      (TellsIncomplete b policy elements ↔
        (AnyIncomplete elements →
          BestIncomplete elements (scannedCandidates policy 0 elements)))) := by
  have told : TellsIncomplete b policy elements ↔ (AnyIncomplete elements →
      LeadingIncomplete elements (scanWithUIAutomation b policy elements).items) := by
    rw [TellsIncomplete, hasIncompleteProgressBar_iff]
    constructor
    · exact Iff.mpr
    · intro enough
      refine ⟨fun leads => ?_, enough⟩
      obtain ⟨before, c, after, split, -, bar⟩ := leads
      have member : c ∈ (scanWithUIAutomation b policy elements).items := by simp [split]
      exact (anyIncomplete_iff policy elements).mpr ⟨c, addAll_subset _ member, bar⟩
  refine ⟨told, fun fit => ?_⟩
  obtain ⟨sorted, kept⟩ := addAll_fit b fit
  rw [told]
  exact imp_congr_right fun _ => leadingIncomplete_iff_best sorted kept

/-- Two bars with different scores. -/
def twoBars (first second : Nat) : List (AutomationElement Nat) :=
  [⟨[], true, .progressBar, none, some ⟨0, 0, 200, 20⟩, first, 100⟩,
    ⟨[], true, .progressBar, none, some ⟨0, 100, 200, 20⟩, second, 100⟩]

/-- Scores go down with the height on the screen. -/
def byHeight (c : Control) : Int32 := -c.positionScreenRelative.y

theorem twoBars_told :
    (TellsIncomplete .none byHeight (twoBars 40 100) ↔
      (AnyIncomplete (twoBars 40 100) → LeadingIncomplete (twoBars 40 100)
        (scanWithUIAutomation .none byHeight (twoBars 40 100)).items)) ∧
    (TellsIncomplete .none byHeight (twoBars 40 100) ↔
      (AnyIncomplete (twoBars 40 100) →
        BestIncomplete (twoBars 40 100) (scannedCandidates byHeight 0 (twoBars 40 100)))) := by
  obtain ⟨general, fitting⟩ := incomplete_bar_told_iff .none byHeight (twoBars 40 100)
  refine ⟨general, fitting ?_⟩
  have candidates : scannedCandidates byHeight 0 (twoBars 40 100) = [⟨0, 0⟩, ⟨1, -100⟩] := by
    decide
  rw [candidates]
  unfold ScoresFit
  decide

/-- The complete bar on top hides the incomplete one. -/
theorem hidden_bar : ¬ ∀ b policy (elements : List (AutomationElement Nat)),
    TellsIncomplete b policy elements := by
  intro tells
  have any : AnyIncomplete (twoBars 100 40) :=
    ⟨_, List.mem_cons_of_mem _ List.mem_cons_self, ⟨rfl, rfl⟩, by decide⟩
  have told := (tells .none byHeight (twoBars 100 40)).mpr any
  exact absurd told (by decide)

end GuestAgent.Guarantees.ProgressBars
