import Mathlib.Data.List.Infix

/-!
Runs of machines that answer one event at a time. `run` is for machines that
answer every event; `Reached` is for guarded machines, whose step may be refused.
A condition on steps is read in the state the step is taken from, so a theorem
about a whole run splits into one fact about a single step.
-/
namespace GuestAgent.Library.Runs

variable {σ ε : Type}

section Total

variable (step : σ → ε → σ)

/-- The state after the events, answered in order. -/
def run (s : σ) (events : List ε) : σ := events.foldl step s

/-- `P` holds in every state the run passes through, the first and the last included. -/
def Throughout (P : σ → Prop) (s : σ) (events : List ε) : Prop :=
  ∀ done, done <+: events → P (run step s done)

/-- Every event meets `cond` in the state it arrives in. -/
def EachStep (cond : σ → ε → Prop) (s : σ) (events : List ε) : Prop :=
  ∀ done e rest, events = done ++ e :: rest → cond (run step s done) e

@[simp] theorem run_nil (s : σ) : run step s [] = s := rfl

theorem run_append (s : σ) (first second : List ε) :
    run step s (first ++ second) = run step (run step s first) second :=
  List.foldl_append ..

@[simp] theorem throughout_nil (P : σ → Prop) (s : σ) : Throughout step P s [] ↔ P s := by
  simp [Throughout, List.prefix_nil]

theorem throughout_cons (P : σ → Prop) (s : σ) (e : ε) (events : List ε) :
    Throughout step P s (e :: events) ↔ P s ∧ Throughout step P (step s e) events := by
  constructor
  · intro h
    refine ⟨h [] (List.nil_prefix), fun done within => ?_⟩
    exact h (e :: done) ((List.prefix_cons_inj e).mpr within)
  · intro holds done within
    obtain ⟨here, later⟩ := holds
    cases done with
    | nil => exact here
    | cons first done =>
      obtain ⟨rfl, inside⟩ := List.cons_prefix_cons.mp within
      exact later done inside

@[simp] theorem eachStep_nil (cond : σ → ε → Prop) (s : σ) : EachStep step cond s [] := by
  intro done e rest split
  simp at split

theorem eachStep_cons (cond : σ → ε → Prop) (s : σ) (e : ε) (events : List ε) :
    EachStep step cond s (e :: events) ↔ cond s e ∧ EachStep step cond (step s e) events := by
  constructor
  · intro h
    refine ⟨h [] e events rfl, fun done next rest split => ?_⟩
    exact h (e :: done) next rest (by rw [split]; rfl)
  · intro holds done next rest split
    obtain ⟨here, later⟩ := holds
    cases done with
    | nil =>
      obtain ⟨rfl, rfl⟩ := List.cons.inj split
      exact here
    | cons first done =>
      obtain ⟨rfl, tail⟩ := List.cons.inj split
      exact later done next rest tail

theorem eachStep_append (cond : σ → ε → Prop) (s : σ) (first second : List ε) :
    EachStep step cond s (first ++ second) ↔
      EachStep step cond s first ∧ EachStep step cond (run step s first) second := by
  induction first generalizing s with
  | nil => simp
  | cons e first ih => rw [List.cons_append, eachStep_cons, eachStep_cons, ih, and_assoc]; rfl

/-- Events that meet the condition in every state. -/
theorem eachStep_of_all {cond : σ → ε → Prop} {events : List ε}
    (all : ∀ e ∈ events, ∀ s, cond s e) (s : σ) : EachStep step cond s events := by
  rintro done e rest rfl
  exact all e (by simp) _

variable {step}

theorem run_of_throughout {P : σ → Prop} {s : σ} {events : List ε}
    (h : Throughout step P s events) : P (run step s events) :=
  h events (List.prefix_refl events)

/-- The exact form of the invariant rule. When, in states satisfying `P`, a possible
step keeps `P` and behaves as `Q` asks precisely if it meets `cond`, then a run of
possible steps does both throughout precisely if each of its steps meets `cond`. -/
theorem throughout_and_eachStep_iff_of_possible {P : σ → Prop} {possible Q cond : σ → ε → Prop}
    (exact_step : ∀ s e, P s → possible s e → (P (step s e) ∧ Q s e ↔ cond s e)) {s : σ}
    {events : List ε} (start : P s) (all_possible : EachStep step possible s events) :
    Throughout step P s events ∧ EachStep step Q s events ↔ EachStep step cond s events := by
  induction events generalizing s with
  | nil => simp [start]
  | cons e events ih =>
    obtain ⟨now, others⟩ := (eachStep_cons step possible s e events).mp all_possible
    rw [throughout_cons, eachStep_cons, eachStep_cons]
    constructor
    · intro holds
      obtain ⟨⟨here, later⟩, behaves, rest⟩ := holds
      have next : P (step s e) := later [] List.nil_prefix
      exact ⟨(exact_step s e here now).mp ⟨next, behaves⟩, (ih next others).mp ⟨later, rest⟩⟩
    · intro holds
      obtain ⟨meets, rest⟩ := holds
      obtain ⟨next, behaves⟩ := (exact_step s e start now).mpr meets
      obtain ⟨later, remaining⟩ := (ih next others).mpr rest
      exact ⟨⟨start, later⟩, behaves, remaining⟩

variable (step) in
theorem eachStep_true (s : σ) (events : List ε) : EachStep step (fun _ _ => True) s events :=
  fun _ _ _ _ => trivial

theorem throughout_and_eachStep_iff {P : σ → Prop} {Q cond : σ → ε → Prop}
    (exact_step : ∀ s e, P s → (P (step s e) ∧ Q s e ↔ cond s e)) {s : σ} {events : List ε}
    (start : P s) :
    Throughout step P s events ∧ EachStep step Q s events ↔ EachStep step cond s events :=
  throughout_and_eachStep_iff_of_possible (fun s e h _ => exact_step s e h) start
    (eachStep_true step s events)

/-- The simulation rule: a view that every step respects is respected by every run. -/
theorem view_run {τ : Type} {step' : τ → ε → τ} {view : σ → τ}
    (respects : ∀ s e, view (step s e) = step' (view s) e) (s : σ) (events : List ε) :
    view (run step s events) = run step' (view s) events := by
  induction events generalizing s with
  | nil => rfl
  | cons e events ih =>
    rw [run, List.foldl_cons, run, List.foldl_cons, ← respects]
    exact ih (step s e)

/-- The invariant rule for a run whose steps meet a condition. -/
theorem run_invariant {inv : σ → Prop} {cond : σ → ε → Prop}
    (keeps : ∀ s e, inv s → cond s e → inv (step s e)) {s : σ} {events : List ε} (start : inv s)
    (each : EachStep step cond s events) : inv (run step s events) := by
  induction events generalizing s with
  | nil => exact start
  | cons e events ih =>
    obtain ⟨meets, rest⟩ := (eachStep_cons step cond s e events).mp each
    exact ih (keeps s e start meets) rest

end Total

section Guarded

variable (step : σ → ε → Option σ)

/-- The states of runs whose steps are all enabled and all meet `cond`. -/
inductive Reached (cond : σ → ε → Prop) (init : σ) : σ → Prop
  | start : Reached cond init init
  | next {s s' : σ} {e : ε} (before : Reached cond init s) (meets : cond s e)
      (enabled : step s e = some s') : Reached cond init s'

variable {step}

/-- Replaying a list of enabled steps that meet the condition in every state. -/
theorem Reached.of_steps {cond : σ → ε → Prop} {init s : σ} {events : List ε}
    (meets : ∀ e ∈ events, ∀ a, cond a e) (replay : events.foldlM step init = some s) :
    Reached step cond init s := by
  have extend : ∀ (events : List ε) (a : σ), (∀ e ∈ events, ∀ a, cond a e) →
      Reached step cond init a → events.foldlM step a = some s → Reached step cond init s := by
    intro events
    induction events with
    | nil =>
      intro a _ reached done
      cases done
      exact reached
    | cons e events ih =>
      intro a meets reached done
      rw [List.foldlM_cons] at done
      obtain ⟨b, enabled, rest⟩ := Option.bind_eq_some_iff.mp done
      exact ih b (fun d later => meets d (List.mem_cons_of_mem _ later))
        (reached.next (meets e (by simp) a) enabled) rest
  exact extend events init meets .start replay

section Checked

variable (step) in
/-- The state after the events, if every one of them is enabled and meets the condition. -/
def checked (cond : σ → ε → Prop) [∀ s e, Decidable (cond s e)] : σ → List ε → Option σ
  | s, [] => some s
  | s, e :: events => if cond s e then (step s e).bind fun s' => checked cond s' events else none

theorem Reached.trans {cond : σ → ε → Prop} {init s s' : σ} (first : Reached step cond init s)
    (second : Reached step cond s s') : Reached step cond init s' := by
  induction second with
  | start => exact first
  | next _ meets enabled ih => exact ih.next meets enabled

theorem Reached.of_checked {cond : σ → ε → Prop} [∀ s e, Decidable (cond s e)] {init s : σ}
    {events : List ε} (replay : checked step cond init events = some s) :
    Reached step cond init s := by
  induction events generalizing init with
  | nil =>
    cases replay
    exact .start
  | cons e events ih =>
    rw [checked] at replay
    split at replay
    · next meets =>
      obtain ⟨next, enabled, rest⟩ := Option.bind_eq_some_iff.mp replay
      exact (Reached.start.next meets enabled).trans (ih rest)
    · cases replay

end Checked

theorem Reached.invariant {cond : σ → ε → Prop} {init : σ} (inv : σ → Prop) (start : inv init)
    (keeps : ∀ s e s', inv s → cond s e → step s e = some s' → inv s') {s : σ}
    (reached : Reached step cond init s) : inv s := by
  induction reached with
  | start => exact start
  | next _ meets enabled ih => exact keeps _ _ _ ih meets enabled

end Guarded

end GuestAgent.Library.Runs
