import Mathlib.Data.List.AList
import GuestAgent.Source.Interaction

/-!
`_visitedVindows` over the turns of the interaction loop: LogicThread.cs, `ExecuteJob`.

The dictionary counts the attempts on windows with one hash. It is made once, with the thread,
and only the handler of a `UILoopException` clears it, so a job finds what the jobs before it
left. `VisitEvent` is what a run does with it, in order.
-/
namespace GuestAgent.Source

abbrev VisitedWindows := AList fun _ : String => Nat

/-- `TryGetValue` and its two branches: `counter` as the threshold is compared with it, and the
dictionary. -/
def VisitedWindows.register (h : String) (d : VisitedWindows) : Nat × VisitedWindows :=
  match d.lookup h with
  | some counter => (counter, d.insert h (counter + 1))
  | none => (1, d.insert h 1)

theorem VisitedWindows.lookup_register (h : String) (d : VisitedWindows) (k : String) :
    (d.register h).2.lookup k = if k = h then some ((d.lookup h).getD 0 + 1) else d.lookup k := by
  have stored : ∀ n, (d.insert h n).lookup k = if k = h then some n else d.lookup k := by
    intro n
    by_cases same : k = h
    · rw [if_pos same, same, AList.lookup_insert]
    · rw [if_neg same, AList.lookup_insert_ne same]
  unfold register
  cases d.lookup h with
  | none => exact stored 1
  | some n => exact stored (n + 1)

/-- The counter is the entry, except that a new entry is read as 1. -/
theorem VisitedWindows.counter_register (h : String) {d : VisitedWindows}
    (counted : d.lookup h ≠ some 0) :
    (d.register h).1 = max ((d.lookup h).getD 0) 1 := by
  unfold register
  cases found : d.lookup h with
  | none => rfl
  | some n =>
    have one : 1 ≤ n := Nat.one_le_iff_ne_zero.mpr fun zero => counted (zero ▸ found)
    exact (Nat.max_eq_left one).symm

inductive VisitEvent where
  /-- A call of `Interact` on a candidate of a set with this hash. -/
  | interact (hash : String)
  /-- An attempt on this hash that raises the `UILoopException`. -/
  | loop (hash : String)
  | cleared
  deriving DecidableEq, Repr

structure RoundsEnd where
  visited : VisitedWindows
  events : List VisitEvent
  left : Except TurnException Bool

/-- The inner loop on a candidate set with this hash. -/
def visitRounds (hash : Option String) (d : VisitedWindows) : List RoundView → RoundsEnd
  | [] => ⟨d, [], .ok false⟩
  | r :: rest =>
    match r.popped with
    | none => ⟨d, [], .error .noMoreCandidate⟩
    | some score =>
      if 0 < score then
        match hash with
        -- a null key is an `ArgumentNullException`
        | none => ⟨d, [], .error .other⟩
        | some h =>
          let (counter, d') := d.register h
          if circularLoopThreshold < counter then ⟨d', [.loop h], .error .uiLoop⟩
          else match r.raised with
            | some e => ⟨d', [.interact h], .error e⟩
            | none =>
              if r.uiHasChanged then ⟨d', [.interact h], .ok false⟩
              else if r.procs = 0 ∧ r.lograte = 0 then ⟨d', [.interact h], .ok true⟩
              else
                let later := visitRounds hash d' rest
                { later with events := .interact h :: later.events }
      else visitRounds hash d rest

/-- A turn and the hash of the candidate set it ranks; what the view says about the dictionary
is not read. -/
structure HashedTurn where
  hash : Option String
  view : TurnView

namespace HashedTurn

/-- The turn as it finds the dictionary. -/
def found (t : HashedTurn) (d : VisitedWindows) : TurnView :=
  { t.view with visited := t.hash.map fun h => (d.lookup h).getD 0 }

/-- Whether the turn comes to its inner loop. -/
def interacts (t : HashedTurn) : Bool :=
  decide (areProcsFinished t.view.monitored = .ok false) && decide (t.view.window = .ok true) &&
    decide (t.view.progressBar = .ok false)

end HashedTurn

/-- The handler of the `UILoopException` clears the dictionary and goes on. -/
def TurnEnd.clears : TurnEnd → Bool
  | .uiLoop (.ok 0) logsPerSec true => logPerSecIdleThreshold < logsPerSec
  | _ => false

/-- What one turn does to the dictionary. -/
def HashedTurn.visits (t : HashedTurn) (d : VisitedWindows) : VisitedWindows × List VisitEvent :=
  let rounds := if t.interacts then visitRounds t.hash d t.view.rounds else ⟨d, [], .ok false⟩
  if (t.found d).turnEnd.clears then (∅, rounds.events ++ [.cleared])
  else (rounds.visited, rounds.events)

/-- The interaction loop of one job. -/
def visitTurns (s : LoopState) (d : VisitedWindows) :
    List HashedTurn → VisitedWindows × List VisitEvent
  | [] => (d, [])
  | t :: turns =>
    let (d', events) := t.visits d
    match s.turn (t.found d).turnEnd with
    | .error _ => (d', events)
    | .ok (s', goOn) =>
      if goOn then
        let later := visitTurns s' d' turns
        (later.1, events ++ later.2)
      else (d', events)

/-- The jobs of one thread, each with the turns of its interaction loop. -/
def visitJobs (d : VisitedWindows) : List (List HashedTurn) → VisitedWindows × List VisitEvent
  | [] => (d, [])
  | turns :: jobs =>
    let job := visitTurns ⟨0, 0, .unknown⟩ d turns
    let later := visitJobs job.1 jobs
    (later.1, job.2 ++ later.2)

/-- Everything the thread does with the dictionary it was made with. -/
def visitLog (jobs : List (List HashedTurn)) : List VisitEvent := (visitJobs ∅ jobs).2

/-- The dictionary makes the rounds raise what the entry of their hash says. -/
theorem visitRounds_left (hash : Option String) (d : VisitedWindows)
    (counted : ∀ h, d.lookup h ≠ some 0) (rounds : List RoundView) :
    (visitRounds hash d rounds).left =
      interactRounds (hash.map fun h => (d.lookup h).getD 0) rounds := by
  induction rounds generalizing d with
  | nil => rfl
  | cons r rounds ih =>
    unfold visitRounds interactRounds
    cases r.popped with
    | none => rfl
    | some score =>
      by_cases positive : 0 < score
      · cases hash with
        | none => simp [positive]
        | some h =>
          have later := ih (d.register h).2 fun k => by
            rw [VisitedWindows.lookup_register]
            split
            · simp
            · exact counted k
          rw [Option.map_some, VisitedWindows.lookup_register, if_pos rfl, Option.getD_some] at later
          simp only [positive, if_true, Option.map_some, VisitedWindows.counter_register h (counted h)]
          split
          · rfl
          · cases r.raised with
            | some e => rfl
            | none =>
              simp only
              split
              · rfl
              · split
                · rfl
                · exact later
      · simp only [positive, if_false]
        exact ih d counted

end GuestAgent.Source
