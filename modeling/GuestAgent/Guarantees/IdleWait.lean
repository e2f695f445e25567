import GuestAgent.Source.IdleWait

/-!
What the answer of the wait for idleness says.

A pulse says nothing of the log rate, and no update of the log rate pulses; but the first pulse a
waiting call receives ends it with true. As long as pulses only reach calls that have seen the log
rate at 0, true is only returned by those; each other call waits until its time is up, and then
returns false.
-/
namespace GuestAgent.Guarantees.IdleWait
open Library Library.Runs Source

/-- The call waits, and the log rate has not been 0 since it began. -/
def unseen : IdlePhase → Bool
  | .waiting _ zeroSeen => !zeroSeen
  | _ => false

/-- Only calls that have seen the log rate at 0 are pulsed. -/
def Warranted (s : IdleStatus) (e : IdleEvent) : Prop :=
  ∀ t ∈ s.pulsedBy e, unseen (s.phase t) = false

instance (s : IdleStatus) (e : IdleEvent) : Decidable (Warranted s e) :=
  inferInstanceAs (Decidable (∀ t ∈ s.pulsedBy e, unseen (s.phase t) = false))

/-- Calls return true only if the log rate was 0 since they began; one that has not seen it there
when its time is up returns false. -/
structure Answers (s : IdleStatus) : Prop where
  zero : ∀ t result zeroSeen, s.phase t = .returned result zeroSeen → result = true →
    zeroSeen = true
  late : ∀ t deadline, s.phase t = .waiting deadline false → deadline ≤ s.now →
    ∃ s' s'', s.step (.timeOut t) = some s' ∧ s'.step (.resume t) = some s'' ∧
      s''.phase t = .returned false false

/-- What holds of a thread while `rate` is the published log rate. -/
def Sound (rate : Nat) : IdlePhase → Prop
  | .called _ zeroSeen | .waiting _ zeroSeen => rate = 0 → zeroSeen = true
  | .woken result zeroSeen => (rate = 0 → zeroSeen = true) ∧ (result = true → zeroSeen = true)
  | .returned result zeroSeen => result = true → zeroSeen = true
  | _ => True

theorem sound_pulsed {rate : Nat} {phase : IdlePhase} (sound : Sound rate phase)
    (seen : unseen phase = false) : Sound rate phase.pulsed := by
  cases phase with
  | waiting deadline zeroSeen =>
    have zero : zeroSeen = true := by simpa [unseen] using seen
    exact ⟨fun _ => zero, fun _ => zero⟩
  | outside | waitingPids | wokenPids => trivial
  | called idleTimeout zeroSeen => exact sound
  | woken result zeroSeen => exact sound
  | returned result zeroSeen => exact sound

theorem sound_note {rate : Nat} {phase : IdlePhase} (sound : Sound rate phase) (published : Nat) :
    Sound published (phase.note (decide (published = 0))) := by
  cases phase with
  | called idleTimeout zeroSeen =>
    intro zero
    simp [zero]
  | waiting deadline zeroSeen =>
    intro zero
    simp [zero]
  | woken result zeroSeen =>
    refine ⟨fun zero => by simp [zero], fun answer => ?_⟩
    rw [sound.2 answer, Bool.true_or]
  | returned result zeroSeen => exact sound
  | outside | waitingPids | wokenPids => trivial

theorem sound_wake {s : IdleStatus} {rate n : Nat} (sound : ∀ t, Sound rate (s.phase t))
    (seen : ∀ t ∈ s.queue.take n, unseen (s.phase t) = false) (t : Nat) :
    Sound rate ((s.wake n).phase t) := by
  rw [IdleStatus.wake]
  simp only
  split
  · next first => exact sound_pulsed (sound t) (seen t first)
  · exact sound t

theorem sound_goTo {s : IdleStatus} {rate : Nat} (sound : ∀ t, Sound rate (s.phase t))
    (thread : Nat) (phase : IdlePhase) (there : Sound rate phase) (t : Nat) :
    Sound rate ((s.goTo thread phase).phase t) := by
  rw [IdleStatus.goTo_phase]
  by_cases same : t = thread
  · rw [same, Function.update_self]
    exact there
  · rw [Function.update_of_ne same]
    exact sound t

/-! ### The steps of one thread -/

section thread

variable {s s' : IdleStatus} {thread : Nat} (sound : ∀ t, Sound s.logRateVal (s.phase t))
include sound

theorem sound_readPids (stepped : s.step (.readPids thread) = some s') :
    ∀ t, Sound s'.logRateVal (s'.phase t) := by
  simp only [IdleStatus.step] at stepped
  split at stepped
  · split at stepped <;> cases stepped <;> exact sound_goTo sound thread _ trivial
  · split at stepped <;> cases stepped <;> exact sound_goTo sound thread _ trivial
  · split at stepped <;> cases stepped <;> exact sound_goTo sound thread _ trivial
  · cases stepped

theorem sound_call {idleTimeout : Nat} (stepped : s.step (.call thread idleTimeout) = some s') :
    ∀ t, Sound s'.logRateVal (s'.phase t) := by
  have fresh : Sound s.logRateVal (.called idleTimeout (decide (s.logRateVal = 0))) := by
    intro zero
    simp [zero]
  simp only [IdleStatus.step] at stepped
  split at stepped
  · cases stepped
    exact sound_goTo sound thread _ fresh
  · cases stepped
    exact sound_goTo sound thread _ fresh
  · cases stepped

theorem sound_enter (stepped : s.step (.enter thread) = some s') :
    ∀ t, Sound s'.logRateVal (s'.phase t) := by
  have before := sound thread
  simp only [IdleStatus.step] at stepped
  split at stepped
  · next idleTimeout zeroSeen here =>
    rw [here] at before
    split at stepped
    · cases stepped
      exact sound_goTo sound thread (.waiting (s.now + idleTimeout) zeroSeen) before
    · next zero =>
      cases stepped
      exact sound_goTo sound thread (.returned true zeroSeen) fun _ => before (of_not_not zero)
  · cases stepped

theorem sound_timeOut (stepped : s.step (.timeOut thread) = some s') :
    ∀ t, Sound s'.logRateVal (s'.phase t) := by
  have before := sound thread
  simp only [IdleStatus.step] at stepped
  split at stepped
  · next deadline zeroSeen here =>
    rw [here] at before
    split at stepped
    · cases stepped
      exact sound_goTo sound thread (.woken false zeroSeen) ⟨before, nofun⟩
    · cases stepped
  · cases stepped

theorem sound_resume (stepped : s.step (.resume thread) = some s') :
    ∀ t, Sound s'.logRateVal (s'.phase t) := by
  have before := sound thread
  simp only [IdleStatus.step] at stepped
  split at stepped
  · next result zeroSeen here =>
    rw [here] at before
    cases stepped
    exact sound_goTo sound thread (.returned result zeroSeen) before.2
  · cases stepped

end thread

theorem sound_step {s s' : IdleStatus} {e : IdleEvent}
    (sound : ∀ t, Sound s.logRateVal (s.phase t)) (warranted : Warranted s e)
    (stepped : s.step e = some s') : ∀ t, Sound s'.logRateVal (s'.phase t) := by
  cases e with
  | addPid procs ppid pid =>
    cases stepped
    exact sound_wake (s := { s with pids := _ }) sound warranted
  | removePid pid =>
    cases stepped
    exact sound_wake (s := { s with pids := _ }) sound warranted
  | notifyInjectorExited =>
    cases stepped
    refine sound_wake (s := { s with pids := _ }) sound fun t member => ?_
    exact warranted t (List.mem_of_mem_take member)
  | incLogRate | elapse =>
    cases stepped
    exact sound
  | updateLogRate =>
    cases stepped
    exact fun t => sound_note (sound t) s.logRate
  | readPids thread => exact sound_readPids sound stepped
  | call thread idleTimeout => exact sound_call sound stepped
  | enter thread => exact sound_enter sound stepped
  | timeOut thread => exact sound_timeOut sound stepped
  | resume thread => exact sound_resume sound stepped

/-- A call whose time is up returns false. -/
theorem times_out {s : IdleStatus} {t deadline : Nat} {zeroSeen : Bool}
    (waiting : s.phase t = .waiting deadline zeroSeen) (late : deadline ≤ s.now) :
    ∃ s' s'', s.step (.timeOut t) = some s' ∧ s'.step (.resume t) = some s'' ∧
      s''.phase t = .returned false zeroSeen := by
  let s' : IdleStatus := { s.goTo t (.woken false zeroSeen) with queue := s.queue.erase t }
  have woken : s'.phase t = .woken false zeroSeen := by simp [s']
  refine ⟨s', s'.goTo t (.returned false zeroSeen), ?_, ?_, ?_⟩
  · simp [IdleStatus.step, waiting, late, s']
  · simp [IdleStatus.step, woken]
  · simp

/-- In every run whose pulses only reach calls that have seen the log rate at 0, all answers are
right. -/
theorem answers_of_warranted {s : IdleStatus}
    (reached : Reached IdleStatus.step Warranted .start s) : Answers s := by
  have sound : ∀ t, Sound s.logRateVal (s.phase t) :=
    reached.invariant (fun s => ∀ t, Sound s.logRateVal (s.phase t))
      (fun _ => by simp [IdleStatus.start, Sound])
      fun _ _ _ sound warranted stepped => sound_step sound warranted stepped
  refine ⟨fun t result zeroSeen returned => ?_, fun t deadline => times_out⟩
  have here := sound t
  rwa [returned] at here

/-- A call of a busy moment, and a process that ends. -/
def busyCall : List IdleEvent :=
  [.incLogRate, .updateLogRate, .call 0 600000, .enter 0, .removePid 5, .resume 0]

/-- The same, but the log rate is 0 when the process ends. -/
def idleCall : List IdleEvent :=
  [.incLogRate, .updateLogRate, .call 0 600000, .enter 0, .updateLogRate, .removePid 5, .resume 0]

theorem answers_of_warranted_idle :
    Answers ((checked IdleStatus.step Warranted .start idleCall).get (by decide)) :=
  answers_of_warranted (.of_checked (Option.some_get _).symm)

/-- A process that ends in a busy moment is taken for idleness. -/
theorem idle_while_busy :
    ¬ ∀ s, Reached IdleStatus.step (fun _ _ => True) .start s → Answers s := by
  intro all
  have reached : Reached IdleStatus.step (fun _ _ => True) .start
      ((checked IdleStatus.step (fun _ _ => True) .start busyCall).get (by decide)) :=
    .of_checked (Option.some_get _).symm
  exact absurd ((all _ reached).zero 0 true false (by decide) rfl) (by decide)

end GuestAgent.Guarantees.IdleWait
