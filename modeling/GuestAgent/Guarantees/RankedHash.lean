import GuestAgent.Guarantees.Candidates
import GuestAgent.Source.VisitedWindows
import GuestAgent.Source.VisualRanker

/-!
When the set `Rank` returns can be interacted with.

The candidates found by UI Automation are in the set before the screenshot is taken. If there is
no screenshot, `Rank` returns them without a hash, and the first of them with a positive score is
looked up in `_visitedVindows` under a null key.
-/
namespace GuestAgent.Guarantees.RankedHash
open Library Source Candidates

/-- The candidates of the rounds are those of the set. -/
def PoppedFrom (s : CandidateSet) (rounds : List RoundView) : Prop :=
  ∀ r ∈ rounds, ∀ score, r.popped = some score → ∃ c ∈ s.items, c.score.toInt = score

/-- Nothing but the dictionary raises an exception the job ends with `UnknownError` for. -/
structure Undisturbed (v : TurnView) : Prop where
  monitored : areProcsFinished v.monitored ≠ .error .other
  window : v.window ≠ .error .other
  progressBar : v.progressBar ≠ .error .other
  rounds : ∀ r ∈ v.rounds, r.raised ≠ some .other

/-- A candidate with a positive score comes with a hash, and no turn on the window ends in an
unexpected exception. -/
structure Serves (r : Ranked) : Prop where
  hash : (∃ c ∈ r.candidates.items, 0 < c.score) → r.hash ≠ none
  turn : ∀ (t : HashedTurn) (d : VisitedWindows), t.hash = r.hash →
    PoppedFrom r.candidates t.view.rounds → Undisturbed t.view →
      (t.found d).turnEnd ≠ .otherException

/-! ### One turn -/

theorem other_of_rounds {visited : Option Nat} {rounds : List RoundView}
    (ended : interactRounds visited rounds = .error .other) :
    (visited = none ∧ ∃ r ∈ rounds, ∃ score, r.popped = some score ∧ 0 < score) ∨
      ∃ r ∈ rounds, r.raised = some .other := by
  induction rounds generalizing visited with
  | nil => cases ended
  | cons r rest ih =>
    have later : ∀ {visited'}, interactRounds visited' rest = .error .other →
        (visited' = none → visited = none) →
          (visited = none ∧ ∃ q ∈ r :: rest, ∃ score, q.popped = some score ∧ 0 < score) ∨
            ∃ q ∈ r :: rest, q.raised = some .other := by
      intro visited' ended unvisited
      cases ih ended with
      | inl null =>
        obtain ⟨null, q, member, positive⟩ := null
        exact .inl ⟨unvisited null, q, List.mem_cons_of_mem _ member, positive⟩
      | inr raised =>
        obtain ⟨q, member, raised⟩ := raised
        exact .inr ⟨q, List.mem_cons_of_mem _ member, raised⟩
    unfold interactRounds at ended
    cases popped : r.popped with
    | none =>
      rw [popped] at ended
      cases ended
    | some score =>
      simp only [popped] at ended
      split at ended
      · next positive =>
        cases visited with
        | none => exact .inl ⟨rfl, r, List.mem_cons_self, score, popped, positive⟩
        | some n =>
          simp only at ended
          split at ended
          · cases ended
          · cases raised : r.raised with
            | some e =>
              simp only [raised] at ended
              cases ended
              exact .inr ⟨r, List.mem_cons_self, raised⟩
            | none =>
              simp only [raised] at ended
              split at ended
              · cases ended
              · split at ended
                · cases ended
                · exact later ended fun null => by cases null
      · exact later ended id

theorem other_of_body {v : TurnView} (ended : v.body = .error .other) :
    areProcsFinished v.monitored = .error .other ∨ v.window = .error .other ∨
      v.progressBar = .error .other ∨ interactRounds v.visited v.rounds = .error .other := by
  rw [TurnView.body, bind_eq_error] at ended
  rcases ended with monitored | ⟨finished, -, ended⟩
  · exact .inl monitored
  cases finished with
  | true => cases ended
  | false =>
    rcases (bind_eq_error _ _ _).mp ended with window | ⟨found, -, ended⟩
    · exact .inr (.inl window)
    cases found with
    | false => cases ended
    | true =>
      rcases (bind_eq_error _ _ _).mp ended with progressBar | ⟨incomplete, -, ended⟩
      · exact .inr (.inr (.inl progressBar))
      cases incomplete with
      | true => cases ended
      | false =>
        rcases (bind_eq_error _ _ _).mp ended with rounds | ⟨left, -, ended⟩
        · exact .inr (.inr (.inr rounds))
        · cases ended

theorem body_of_otherException {v : TurnView} (ended : v.turnEnd = .otherException) :
    v.body = .error .other := by
  unfold TurnView.turnEnd at ended
  cases body : v.body with
  | ok goOn => cases goOn <;> simp [body] at ended
  | error e => cases e <;> simp_all

/-! ### What the ranker returns -/

theorem serves_of {r : Ranked}
    (usable : r.hash ≠ none ∨ ∀ c ∈ r.candidates.items, ¬ 0 < c.score) : Serves r := by
  constructor
  · intro positive null
    obtain ⟨c, member, positive⟩ := positive
    cases usable with
    | inl some_ => exact some_ null
    | inr low => exact low c member positive
  · intro t d same popped quiet ended
    rcases other_of_body (body_of_otherException ended) with procs | window | bar | rounds
    · exact quiet.monitored procs
    · exact quiet.window window
    · exact quiet.progressBar bar
    · cases other_of_rounds rounds with
      | inr raised =>
        obtain ⟨q, member, raised⟩ := raised
        exact quiet.rounds q member raised
      | inl null =>
        obtain ⟨null, q, member, score, taken, positive⟩ := null
        have unhashed : r.hash = none := same ▸ Option.map_eq_none_iff.mp null
        cases usable with
        | inl some_ => exact some_ unhashed
        | inr low =>
          obtain ⟨c, inSet, scored⟩ := popped q member score taken
          exact low c inSet (Int32.lt_iff_toInt_lt.mpr (scored ▸ positive))

/-- The early return inside the `using` block. -/
theorem rank_without_shot (b : Balancing) {v : RankView} (raised : v.automation.raises = none)
    (shot : getWindowsScreenshot v.shot = none) :
    rank b v = ⟨addAll b v.automation.added, none⟩ := by
  unfold rank
  simp only [RankView.body, raised, raise, bind, Except.bind, shot]
  rfl

/-- What the three exits of `Rank` return. -/
theorem rank_cases (b : Balancing) (v : RankView) :
    (rank b v).hash ≠ none ∨ (rank b v).candidates.items = [] ∨
      (v.automation.raises = none ∧ getWindowsScreenshot v.shot = none ∧
        rank b v = ⟨addAll b v.automation.added, none⟩) := by
  cases raised : v.automation.raises with
  | some e =>
    have failed : v.body b = .error e := by
      simp only [RankView.body, raised, raise, bind, Except.bind]
    rw [rank, failed]
    exact .inr (.inl rfl)
  | none =>
    cases shot : getWindowsScreenshot v.shot with
    | none => exact .inr (.inr ⟨rfl, rfl, rank_without_shot b raised shot⟩)
    | some bitmap =>
      unfold rank
      cases body : v.body b with
      | error e => exact .inr (.inl rfl)
      | ok r =>
        simp only [RankView.body, raised, shot] at body
        obtain ⟨-, -, body⟩ := (bind_eq_ok _ _ _).mp body
        obtain ⟨-, -, body⟩ := (bind_eq_ok _ _ _).mp body
        obtain ⟨-, -, body⟩ := (bind_eq_ok _ _ _).mp body
        obtain ⟨hash, -, same⟩ := (bind_eq_ok _ _ _).mp body
        cases same
        exact .inl (Option.some_ne_none hash)

theorem positive_kept (b : Balancing) (cs : List UIControlCandidate) :
    (∃ c ∈ (addAll b cs).items, 0 < c.score) ↔ ∃ c ∈ cs, 0 < c.score := by
  constructor
  · intro holds
    obtain ⟨c, member, positive⟩ := holds
    obtain ⟨a, given, same⟩ := (addAll_score_iff cs c.score).mp ⟨c, member, rfl⟩
    exact ⟨a, given, same ▸ positive⟩
  · intro holds
    obtain ⟨c, given, positive⟩ := holds
    obtain ⟨a, member, same⟩ := (addAll_score_iff cs c.score).mpr ⟨c, given, rfl⟩
    exact ⟨a, member, same ▸ positive⟩

/-- The set serves the interaction loop exactly if the scan by UI Automation failed, there is a
screenshot, or none of the controls found has a positive score. -/
theorem rank_serves_iff (b : Balancing) (v : RankView) :
    Serves (rank b v) ↔ v.automation.raises ≠ none ∨ getWindowsScreenshot v.shot ≠ none ∨
      ∀ c ∈ v.automation.added, ¬ 0 < c.score := by
  constructor
  · intro serves
    by_cases raised : v.automation.raises = none
    · by_cases shot : getWindowsScreenshot v.shot = none
      · refine .inr (.inr fun c given positive => ?_)
        have unhashed := serves.hash
        rw [rank_without_shot b raised shot] at unhashed
        exact unhashed ((positive_kept b _).mpr ⟨c, given, positive⟩) rfl
      · exact .inr (.inl shot)
    · exact .inl raised
  · intro condition
    refine serves_of ?_
    rcases rank_cases b v with hashed | empty | ⟨raised, shot, result⟩
    · exact .inl hashed
    · exact .inr (by simp [empty])
    · rcases condition with failed | taken | low
      · exact absurd raised failed
      · exact absurd shot taken
      · refine .inr fun c member positive => ?_
        rw [result] at member
        obtain ⟨a, given, high⟩ := (positive_kept b _).mp ⟨c, member, positive⟩
        exact low a given high

/-- A button is found, and the window is closed before the screenshot. -/
def closedWindow : RankView where
  automation := ⟨[⟨0, 350⟩], none⟩
  shot := ⟨.ok none, none⟩
  visual := ⟨[], none⟩
  visualInverted := ⟨[], none⟩
  calculateHash _ := .ok "A"

/-- The button is returned without a hash. -/
theorem closedWindow_unhashed : ¬ ∀ b v, Serves (rank b v) := by
  intro serves
  have unhashed := (serves .none closedWindow).hash
  exact unhashed (by decide) rfl

end GuestAgent.Guarantees.RankedHash
