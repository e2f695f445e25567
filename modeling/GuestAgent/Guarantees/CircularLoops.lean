import Mathlib.Data.List.Induction
import Mathlib.Data.List.Infix
import GuestAgent.Source.VisitedWindows

/-!
Where circular UI loops are cut.

The counter that is compared with the threshold is read before the entry is incremented, and a
new entry starts with 1. So the first two attempts on a hash both find 1, the sixth finds 5, and
`Interact` is called six times between two clearings before the seventh attempt raises the
exception.
-/
namespace GuestAgent.Guarantees.CircularLoops
open Source

/-- The hash an attempt is made on. -/
def attempted : VisitEvent → Option String
  | .interact h => some h
  | .loop h => some h
  | .cleared => none

/-- What happened since the last clearing, the last event first. -/
def sinceClear (log : List VisitEvent) : List VisitEvent :=
  log.reverse.takeWhile fun e => e ≠ .cleared

def attemptsOn (h : String) (log : List VisitEvent) : Nat :=
  (sinceClear log).countP fun e => attempted e = some h

def interactsOn (h : String) (log : List VisitEvent) : Nat :=
  (sinceClear log).count (.interact h)

/-- Between two clearings `Interact` is called at most five times on one hash, and the next
attempt raises the exception. -/
structure CutAtThreshold (log : List VisitEvent) : Prop where
  atMost : ∀ done, done <+: log → ∀ h, interactsOn h done ≤ circularLoopThreshold
  next : ∀ done e h, done ++ [e] <+: log → attempted e = some h →
    interactsOn h done = circularLoopThreshold → e = .loop h

/-- No hash is attempted a sixth time between two clearings. -/
def FewAttempts (log : List VisitEvent) : Prop :=
  ∀ done, done <+: log → ∀ h, attemptsOn h done ≤ circularLoopThreshold

/-! ### Counting -/

theorem sinceClear_append (log : List VisitEvent) (e : VisitEvent) :
    sinceClear (log ++ [e]) = if e = .cleared then [] else e :: sinceClear log := by
  by_cases clear : e = .cleared <;> simp [sinceClear, clear]

theorem attemptsOn_append (h : String) (log : List VisitEvent) (e : VisitEvent) :
    attemptsOn h (log ++ [e]) =
      if e = .cleared then 0 else attemptsOn h log + if attempted e = some h then 1 else 0 := by
  rw [attemptsOn, sinceClear_append]
  by_cases clear : e = .cleared
  · rw [if_pos clear, if_pos clear]
    rfl
  · rw [if_neg clear, if_neg clear, List.countP_cons, attemptsOn]
    simp

theorem interactsOn_append (h : String) (log : List VisitEvent) (e : VisitEvent) :
    interactsOn h (log ++ [e]) =
      if e = .cleared then 0 else interactsOn h log + if e = .interact h then 1 else 0 := by
  rw [interactsOn, sinceClear_append]
  by_cases clear : e = .cleared
  · rw [if_pos clear, if_pos clear]
    rfl
  · rw [if_neg clear, if_neg clear, List.count_cons, interactsOn]
    simp

/-! ### What a dictionary answers -/

/-- The dictionary after an event, if it is one it can answer with. -/
def answer (d : VisitedWindows) : VisitEvent → Option VisitedWindows
  | .interact h => if circularLoopThreshold < (d.register h).1 then none else some (d.register h).2
  | .loop h => if circularLoopThreshold < (d.register h).1 then some (d.register h).2 else none
  | .cleared => some ∅

/-- An entry is the number of attempts since the last clearing. -/
def Counts (d : VisitedWindows) (log : List VisitEvent) : Prop :=
  ∀ h, d.lookup h = if attemptsOn h log = 0 then none else some (attemptsOn h log)

/-- The first six attempts interact, the later ones raise the exception. -/
def Lawful (log : List VisitEvent) : Prop :=
  ∀ done e h, done ++ [e] <+: log → attempted e = some h →
    e = if attemptsOn h done ≤ circularLoopThreshold then .interact h else .loop h

theorem Counts.getD {d : VisitedWindows} {log : List VisitEvent} (counts : Counts d log)
    (h : String) : (d.lookup h).getD 0 = attemptsOn h log ∧ d.lookup h ≠ some 0 := by
  rw [counts h]
  by_cases fresh : attemptsOn h log = 0 <;> simp [fresh]

theorem over_iff {d : VisitedWindows} {log : List VisitEvent} (counts : Counts d log) (h : String) :
    circularLoopThreshold < (d.register h).1 ↔ circularLoopThreshold < attemptsOn h log := by
  obtain ⟨entry, counted⟩ := counts.getD h
  have large : 1 < circularLoopThreshold := by decide
  rw [VisitedWindows.counter_register h counted, entry]
  omega

/-- What answering an attempt leaves. -/
theorem counts_register {d : VisitedWindows} {log : List VisitEvent} (counts : Counts d log)
    {e : VisitEvent} {h : String} (on : attempted e = some h) :
    Counts (d.register h).2 (log ++ [e]) := by
  intro k
  have uncleared : e ≠ .cleared := by
    rintro rfl
    cases on
  rw [VisitedWindows.lookup_register, (counts.getD h).1, attemptsOn_append, if_neg uncleared, on]
  by_cases same : k = h
  · subst same
    simp
  · have other : some h ≠ some k := fun eq => same (Option.some.inj eq).symm
    rw [if_neg same, if_neg other, Nat.add_zero, counts k]

theorem answered {d d' : VisitedWindows} {log : List VisitEvent} {e : VisitEvent}
    (counts : Counts d log) (next : answer d e = some d') :
    Counts d' (log ++ [e]) ∧ ∀ h, attempted e = some h →
      e = if attemptsOn h log ≤ circularLoopThreshold then .interact h else .loop h := by
  cases e with
  | cleared =>
    cases next
    refine ⟨fun h => ?_, fun h on => ?_⟩
    · rw [attemptsOn_append]
      simp
    · cases on
  | interact h =>
    simp only [answer, over_iff counts h] at next
    split at next
    · cases next
    · next few =>
      cases next
      refine ⟨counts_register counts rfl, fun k on => ?_⟩
      obtain rfl : h = k := Option.some.inj on
      rw [if_pos (Nat.le_of_not_lt few)]
  | loop h =>
    simp only [answer, over_iff counts h] at next
    split at next
    · next many =>
      cases next
      refine ⟨counts_register counts rfl, fun k on => ?_⟩
      obtain rfl : h = k := Option.some.inj on
      rw [if_neg (Nat.not_le_of_lt many)]
    · cases next

/-- Replaying a log from the empty dictionary. -/
theorem replayed {log : List VisitEvent} {d : VisitedWindows}
    (replay : log.foldlM answer ∅ = some d) : Counts d log ∧ Lawful log := by
  induction log using List.reverseRecOn generalizing d with
  | nil =>
    cases replay
    refine ⟨fun h => rfl, fun done e h within => ?_⟩
    simp at within
  | append_singleton log e ih =>
    rw [List.foldlM_append] at replay
    obtain ⟨before, first, last⟩ := Option.bind_eq_some_iff.mp replay
    rw [List.foldlM_cons] at last
    obtain ⟨after, next, same⟩ := Option.bind_eq_some_iff.mp last
    obtain rfl : after = d := Option.some.inj same
    obtain ⟨counts, lawful⟩ := ih first
    obtain ⟨countsAfter, law⟩ := answered counts next
    refine ⟨countsAfter, fun done f h within on => ?_⟩
    cases List.prefix_concat_iff.mp within with
    | inl whole =>
      obtain ⟨rfl, single⟩ := List.append_inj' whole rfl
      obtain rfl : f = e := List.singleton_inj.mp single
      exact law h on
    | inr earlier => exact lawful done f h earlier on

/-! ### What a run asks of the dictionary -/

theorem visitRounds_replay (hash : Option String) (d : VisitedWindows) (rounds : List RoundView) :
    (visitRounds hash d rounds).events.foldlM answer d =
      some (visitRounds hash d rounds).visited := by
  induction rounds generalizing d with
  | nil => rfl
  | cons r rounds ih =>
    unfold visitRounds
    cases r.popped with
    | none => rfl
    | some score =>
      by_cases positive : 0 < score
      · cases hash with
        | none => simp [positive]
        | some h =>
          by_cases many : circularLoopThreshold < (d.register h).1
          · simp [positive, many, answer]
          · have one : answer d (.interact h) = some (d.register h).2 := by
              rw [answer, if_neg many]
            simp only [positive, many, if_true, if_false]
            split
            · simp [one]
            · split
              · simp [one]
              · split
                · simp [one]
                · simp [one, ih (d.register h).2]
      · simp only [positive, if_false]
        exact ih d

theorem visits_replay (t : HashedTurn) (d : VisitedWindows) :
    (t.visits d).2.foldlM answer d = some (t.visits d).1 := by
  have rounds : ∀ r : RoundsEnd, r = (if t.interacts then visitRounds t.hash d t.view.rounds
      else ⟨d, [], .ok false⟩) → r.events.foldlM answer d = some r.visited := by
    intro r same
    rw [same]
    split
    · exact visitRounds_replay t.hash d t.view.rounds
    · rfl
  have replay := rounds _ rfl
  rw [HashedTurn.visits]
  split
  · simp only [List.foldlM_append, replay]
    rfl
  · exact replay

theorem visitTurns_replay (s : LoopState) (d : VisitedWindows) (turns : List HashedTurn) :
    (visitTurns s d turns).2.foldlM answer d = some (visitTurns s d turns).1 := by
  induction turns generalizing s d with
  | nil => rfl
  | cons t turns ih =>
    rw [visitTurns]
    cases s.turn (t.found d).turnEnd with
    | error e => exact visits_replay t d
    | ok next =>
      obtain ⟨s', goOn⟩ := next
      cases goOn with
      | false => exact visits_replay t d
      | true =>
        simp only [if_true, List.foldlM_append, visits_replay t d]
        exact ih s' (t.visits d).1

theorem visitJobs_replay (d : VisitedWindows) (jobs : List (List HashedTurn)) :
    (visitJobs d jobs).2.foldlM answer d = some (visitJobs d jobs).1 := by
  induction jobs generalizing d with
  | nil => rfl
  | cons turns jobs ih =>
    simp only [visitJobs, List.foldlM_append, visitTurns_replay]
    exact ih _

theorem visitLog_lawful (jobs : List (List HashedTurn)) : Lawful (visitLog jobs) :=
  (replayed (visitJobs_replay ∅ jobs)).2

/-! ### The bound -/

theorem Lawful.earlier {log done : List VisitEvent} (lawful : Lawful log)
    (within : done <+: log) : Lawful done :=
  fun earlier e h inside => lawful earlier e h (inside.trans within)

/-- The number of calls of `Interact` is that of the attempts, cut at six. -/
theorem interactsOn_eq {log : List VisitEvent} (lawful : Lawful log) (h : String) :
    interactsOn h log = min (attemptsOn h log) (circularLoopThreshold + 1) := by
  induction log using List.reverseRecOn with
  | nil => rfl
  | append_singleton log e ih =>
    have before := ih (lawful.earlier (List.prefix_append log [e]))
    rw [interactsOn_append, attemptsOn_append, before]
    by_cases clear : e = .cleared
    · rw [if_pos clear, if_pos clear, Nat.zero_min]
    rw [if_neg clear, if_neg clear]
    by_cases on : attempted e = some h
    · have law := lawful log e h List.prefix_rfl on
      rw [if_pos on]
      by_cases few : attemptsOn h log ≤ circularLoopThreshold
      · rw [if_pos few] at law
        rw [if_pos law]
        omega
      · rw [if_neg few] at law
        rw [if_neg (by rw [law]; exact VisitEvent.noConfusion)]
        omega
    · have other : e ≠ .interact h := by
        rintro rfl
        exact on rfl
      rw [if_neg on, if_neg other]
      rfl

/-- Over all jobs of a thread the loops are cut at the threshold exactly if no hash is attempted
a sixth time between two clearings. -/
theorem loops_cut_iff (jobs : List (List HashedTurn)) :
    CutAtThreshold (visitLog jobs) ↔ FewAttempts (visitLog jobs) := by
  have calls : ∀ done, done <+: visitLog jobs → ∀ h,
      interactsOn h done = min (attemptsOn h done) (circularLoopThreshold + 1) :=
    fun done within => interactsOn_eq ((visitLog_lawful jobs).earlier within)
  constructor
  · intro cut done within h
    have bound := cut.atMost done within h
    rw [calls done within] at bound
    omega
  · intro few
    refine ⟨fun done within h => ?_, fun done e h within on enough => ?_⟩
    · rw [calls done within]
      exact Nat.le_trans (Nat.min_le_left _ _) (few done within h)
    · have bound := few (done ++ [e]) within h
      rw [calls done ((List.prefix_append done [e]).trans within)] at enough
      have uncleared : e ≠ .cleared := by
        rintro rfl
        cases on
      rw [attemptsOn_append, if_neg uncleared, if_pos on] at bound
      omega

/-- One window whose candidates are tried six times without a reaction. -/
def unmovedWindow : HashedTurn where
  hash := some "A"
  view :=
    { monitored := [.running], window := .ok true, pids := 1, logsPerSec := 0
      progressBar := .ok false, visited := none
      rounds := List.replicate 6 ⟨some 50, none, false, 1, 0⟩
      newPrograms := .ok 0, loopLogsPerSec := 0, idle := false }

/-- `Interact` is called six times. -/
theorem sixth_interaction : ¬ ∀ jobs, CutAtThreshold (visitLog jobs) := by
  intro cut
  have bound := (cut [[unmovedWindow]]).atMost _ List.prefix_rfl "A"
  have six : interactsOn "A" (visitLog [[unmovedWindow]]) = 6 := by decide
  rw [six] at bound
  exact absurd bound (by decide)

end GuestAgent.Guarantees.CircularLoops
