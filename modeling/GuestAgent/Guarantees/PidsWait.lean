import GuestAgent.Library.WaitQueue
import GuestAgent.Source.IdleWait

/-!
Waiting for the first process in the getter of `Pids`.

`AddPid` and `RemovePid` pulse one thread each, which may be one that waits for idleness, so the
event that makes the first process known need not reach a reader of `Pids`. A reader that is left
asleep is reached by the pulses that follow, in the order of the queue, or all at once when the
injector is over; and nobody falls asleep there any more.
-/
namespace GuestAgent.Guarantees.PidsWait
open Library Library.Runs Library.WaitQueue Source

/-- What a thread waits for on `_pidsLock`. -/
inductive Waits where
  | firstPid
  | idleness
  deriving DecidableEq, Repr

def waitsFor : IdlePhase → Option Waits
  | .waiting _ _ => some .idleness
  | .waitingPids => some .firstPid
  | _ => none

/-- The queue of `_pidsLock`. -/
def room (s : IdleStatus) : WaitQueue Nat Waits := ⟨s.queue, fun t => waitsFor (s.phase t)⟩

/-- What an event does to the queue. -/
def moveOf (s : IdleStatus) : IdleEvent → Option (WaitMove Nat Waits)
  | .addPid _ _ _ | .removePid _ => some (.wake 1)
  | .notifyInjectorExited => some (.wake s.queue.length)
  | .readPids t => if s.pids.firstDone then none else some (.join t .firstPid)
  | .enter t => if s.logRateVal ≠ 0 then some (.join t .idleness) else none
  | .timeOut t => some (.leave t)
  | _ => none

/-- The event pulses one thread. -/
def pulses : IdleEvent → Bool
  | .addPid _ _ _ | .removePid _ => true
  | _ => false

def exits : IdleEvent → Bool
  | .notifyInjectorExited => true
  | _ => false

/-- From `s` on by these events to `s'`. -/
structure Wakes (s : IdleStatus) (events : List IdleEvent) (s' : IdleStatus) : Prop where
  /-- Who sleeps in `Pids` has slept there all the time. -/
  nobodyNew : ∀ t, s'.phase t = .waitingPids → s.phase t = .waitingPids
  /-- Every pulse brought it one place nearer to the head of the queue, at least. -/
  nearer : ∀ t, s'.phase t = .waitingPids →
    s'.queue.idxOf t + events.countP pulses ≤ s.queue.idxOf t
  /-- The end of the injector wakes everyone. -/
  exited : events.any exits = true → ∀ t, s'.phase t ≠ .waitingPids

/-! ### The queue of the lock -/

theorem waitsFor_pulsed (phase : IdlePhase) : waitsFor phase.pulsed = none := by
  cases phase <;> rfl

theorem waitsFor_note (phase : IdlePhase) (zero : Bool) :
    waitsFor (phase.note zero) = waitsFor phase := by
  cases phase <;> rfl

theorem waitsFor_eq_firstPid {phase : IdlePhase} :
    waitsFor phase = some .firstPid ↔ phase = .waitingPids := by
  cases phase <;> simp [waitsFor]

theorem room_wake (s : IdleStatus) (n : Nat) :
    (room s).step (.wake n) = some (room (s.wake n)) := by
  simp only [WaitQueue.step, room, IdleStatus.wake, Option.some.injEq, WaitQueue.mk.injEq, true_and]
  funext t
  by_cases first : t ∈ s.queue.take n <;> simp [first, waitsFor_pulsed]

theorem waits_goTo (s : IdleStatus) (t : Nat) (phase : IdlePhase) :
    (fun u => waitsFor ((s.goTo t phase).phase u)) =
      Function.update (fun u => waitsFor (s.phase u)) t (waitsFor phase) := by
  funext u
  rw [IdleStatus.goTo_phase]
  by_cases same : u = t <;> simp [same]

/-- A thread that was awake and still is. -/
theorem room_goTo {s : IdleStatus} {t : Nat} {phase : IdlePhase} (before : waitsFor (s.phase t) = none)
    (after : waitsFor phase = none) : room (s.goTo t phase) = room s := by
  simp only [room, waits_goTo, after, ← before, WaitQueue.mk.injEq]
  exact ⟨rfl, Function.update_eq_self t _⟩

theorem room_join {s : IdleStatus} {t : Nat} {phase : IdlePhase} {on : Waits}
    (before : waitsFor (s.phase t) = none) (after : waitsFor phase = some on) :
    (room s).step (.join t on) =
      some (room { s.goTo t phase with queue := s.queue ++ [t] }) := by
  have awake : ((room s).waits t).isNone = true := by simp [room, before]
  rw [WaitQueue.step, if_pos awake]
  simp only [room, waits_goTo, after]

theorem room_leave {s : IdleStatus} {t : Nat} {phase : IdlePhase} {on : Waits}
    (before : waitsFor (s.phase t) = some on) (after : waitsFor phase = none) :
    (room s).step (.leave t) = some (room { s.goTo t phase with queue := s.queue.erase t }) := by
  have asleep : ((room s).waits t).isSome = true := by simp [room, before]
  rw [WaitQueue.step, if_pos asleep]
  simp only [room, waits_goTo, after]

/-- Every event does to the queue what `moveOf` says. -/
theorem room_step {s s' : IdleStatus} {e : IdleEvent} (stepped : s.step e = some s') :
    match moveOf s e with
    | none => room s' = room s
    | some m => (room s).step m = some (room s') := by
  cases e with
  | addPid procs ppid pid =>
    cases stepped
    exact room_wake { s with pids := _ } 1
  | removePid pid =>
    cases stepped
    exact room_wake { s with pids := _ } 1
  | notifyInjectorExited =>
    cases stepped
    exact room_wake { s with pids := _ } _
  | incLogRate | elapse =>
    cases stepped
    rfl
  | updateLogRate =>
    cases stepped
    simp only [moveOf, room, waitsFor_note]
  | readPids t =>
    simp only [IdleStatus.step] at stepped
    simp only [moveOf]
    split at stepped
    case h_4 => cases stepped
    all_goals
      next here =>
      split at stepped
      · next known =>
        cases stepped
        rw [if_pos known]
        exact room_goTo (by rw [here]; rfl) rfl
      · next unknown =>
        cases stepped
        rw [if_neg unknown]
        exact room_join (by rw [here]; rfl) rfl
  | call t idleTimeout =>
    simp only [IdleStatus.step] at stepped
    split at stepped
    · next here =>
      cases stepped
      exact room_goTo (by rw [here]; rfl) rfl
    · next here =>
      cases stepped
      exact room_goTo (by rw [here]; rfl) rfl
    · cases stepped
  | enter t =>
    simp only [IdleStatus.step] at stepped
    simp only [moveOf]
    split at stepped
    · next here =>
      split at stepped
      · next busy =>
        cases stepped
        rw [if_pos busy]
        exact room_join (by rw [here]; rfl) rfl
      · next zero =>
        cases stepped
        rw [if_neg zero]
        exact room_goTo (by rw [here]; rfl) rfl
    · cases stepped
  | timeOut t =>
    simp only [IdleStatus.step] at stepped
    split at stepped
    · next here =>
      split at stepped
      · cases stepped
        exact room_leave (by rw [here]; rfl) rfl
      · cases stepped
    · cases stepped
  | resume t =>
    simp only [IdleStatus.step] at stepped
    split at stepped
    · next here =>
      cases stepped
      exact room_goTo (by rw [here]; rfl) rfl
    · cases stepped

/-! ### Runs -/

theorem proper_step {s s' : IdleStatus} {e : IdleEvent} (proper : (room s).Proper)
    (stepped : s.step e = some s') : (room s').Proper := by
  have move := room_step stepped
  split at move
  · rw [move]
    exact proper
  · exact proper.step move

theorem proper_start : (room .start).Proper :=
  ⟨List.nodup_nil, fun t => by simp [room, IdleStatus.start, waitsFor]⟩

/-- The first process stays known. -/
theorem known_step {s s' : IdleStatus} {e : IdleEvent} (known : s.pids.firstDone = true)
    (stepped : s.step e = some s') : s'.pids.firstDone = true := by
  cases e with
  | addPid procs ppid pid => cases stepped; rfl
  | removePid pid => cases stepped; exact known
  | notifyInjectorExited => cases stepped; rfl
  | incLogRate | elapse | updateLogRate => cases stepped; exact known
  | readPids t | call t idleTimeout | enter t | timeOut t | resume t =>
    simp only [IdleStatus.step] at stepped
    repeat' split at stepped
    all_goals first | cases stepped; exact known | cases stepped

/-- Once the first process is known nobody waits for it any more. -/
theorem moveOf_ne_join {s : IdleStatus} (known : s.pids.firstDone = true) (e : IdleEvent) (t : Nat) :
    moveOf s e ≠ some (.join t .firstPid) := by
  cases e with
  | readPids u => simp [moveOf, known]
  | enter u =>
    simp only [moveOf]
    split <;> simp
  | addPid | removePid | notifyInjectorExited | incLogRate | updateLogRate | elapse | call
  | timeOut | resume => simp [moveOf]

theorem countP_single (e : IdleEvent) {s : IdleStatus} :
    [e].countP pulses ≤ ((moveOf s e).map WaitMove.pulses).getD 0 := by
  cases e <;> simp [pulses, moveOf, WaitMove.pulses]

/-- One event, once the first process is known. -/
theorem wakes_step {s s' : IdleStatus} {e : IdleEvent} (proper : (room s).Proper)
    (known : s.pids.firstDone = true) (stepped : s.step e = some s') : Wakes s [e] s' := by
  have move := room_step stepped
  have slept : ∀ t, s'.phase t = .waitingPids → s.phase t = .waitingPids := by
    intro t asleep
    rw [← waitsFor_eq_firstPid] at asleep ⊢
    split at move
    · exact (congrArg (fun q => q.waits t) move).symm.trans asleep
    · next m here =>
      rcases waits_step move asleep with before | joined
      · exact before
      · exact absurd (joined ▸ here) (moveOf_ne_join known e t)
  have rank : ∀ t, s'.phase t = .waitingPids →
      s'.queue.idxOf t + ((moveOf s e).map WaitMove.pulses).getD 0 ≤ s.queue.idxOf t := by
    intro t asleep
    split at move
    · next here =>
      rw [here, show s'.queue = s.queue from congrArg WaitQueue.queue move]
      exact Nat.le_refl _
    · next m here =>
      rw [here]
      refine rank_step proper move (t := t) ?_ ?_
      · rw [show (room s).waits t = _ from waitsFor_eq_firstPid.mpr (slept t asleep)]
        rfl
      · rw [show (room s').waits t = _ from waitsFor_eq_firstPid.mpr asleep]
        rfl
  refine ⟨slept, fun t asleep => ?_, fun exit t asleep => ?_⟩
  · have counted := countP_single e (s := s)
    have near := rank t asleep
    omega
  · have inside : t ∈ s.queue := (proper.member t).mpr <| by
      rw [show (room s).waits t = _ from waitsFor_eq_firstPid.mpr (slept t asleep)]
      rfl
    have early := List.idxOf_lt_length_of_mem inside
    have near := rank t asleep
    cases e with
    | notifyInjectorExited =>
      simp only [moveOf, Option.map_some, Option.getD_some, WaitMove.pulses] at near
      omega
    | addPid | removePid | incLogRate | updateLogRate | elapse | readPids | call | enter | timeOut
    | resume => cases exit

theorem wakes_run {s s' : IdleStatus} {events : List IdleEvent} (proper : (room s).Proper)
    (known : s.pids.firstDone = true) (replay : events.foldlM IdleStatus.step s = some s') :
    Wakes s events s' := by
  induction events generalizing s with
  | nil =>
    cases replay
    exact ⟨fun t asleep => asleep, fun t _ => Nat.le_refl _, nofun⟩
  | cons e events ih =>
    rw [List.foldlM_cons] at replay
    obtain ⟨next, stepped, rest⟩ := Option.bind_eq_some_iff.mp replay
    have first := wakes_step proper known stepped
    have later := ih (proper_step proper stepped) (known_step known stepped) rest
    refine ⟨fun t asleep => first.nobodyNew t (later.nobodyNew t asleep),
      fun t asleep => ?_, fun exit t asleep => ?_⟩
    · have near := first.nearer t (later.nobodyNew t asleep)
      have nearer := later.nearer t asleep
      rw [← List.singleton_append, List.countP_append]
      omega
    · rw [List.any_cons, Bool.or_eq_true] at exit
      cases exit with
      | inl here => exact first.exited (by simp [here]) t (later.nobodyNew t asleep)
      | inr behind => exact later.exited behind t asleep

/-- From any state in which the first process is known: nobody begins to wait for it, who still
waits comes nearer to the head of the queue with every process that starts or ends, and the end of
the injector wakes everyone. -/
theorem first_process_wakes_readers {s s' : IdleStatus}
    (reached : Reached IdleStatus.step (fun _ _ => True) .start s)
    (known : s.pids.firstDone = true) {events : List IdleEvent}
    (replay : events.foldlM IdleStatus.step s = some s') : Wakes s events s' := by
  have proper : (room s).Proper := reached.invariant (fun s => (room s).Proper) proper_start
    fun _ _ _ proper _ stepped => proper_step proper stepped
  exact wakes_run proper known replay

/-- Two threads read `Pids` before there is a process; then one starts, and ends. -/
def twoReaders : List IdleEvent :=
  [.readPids 0, .readPids 1, .addPid ⟨fun _ => .error .argument, fun _ => .error .argument⟩ 4 5]

/-- The second reader is still asleep though the first process is known; the end of the process
wakes it. -/
theorem first_process_wakes_readers_two : ∃ s s' : IdleStatus,
    s.pids.firstDone = true ∧ s.phase 1 = .waitingPids ∧ s'.phase 1 = .wokenPids ∧
      Wakes s [.removePid 5] s' := by
  let s := (checked IdleStatus.step (fun _ _ => True) .start twoReaders).get (by decide)
  have reached : Reached IdleStatus.step (fun _ _ => True) .start s :=
    .of_checked (Option.some_get _).symm
  exact ⟨s, ([.removePid 5].foldlM IdleStatus.step s).get (by decide), by decide, by decide,
    by decide, first_process_wakes_readers reached (by decide) (Option.some_get _).symm⟩

end GuestAgent.Guarantees.PidsWait
