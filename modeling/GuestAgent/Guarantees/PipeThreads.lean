import GuestAgent.Guarantees.PipeClients

/-!
What the pipe does for the programs that report through it.

An instance of the pipe with a client at its other end always has a server thread that is busy with
this client, so a hooked thread that waits for its ACK gets one, or is disconnected, after a few
calls of that thread. What is not safe is the end of the loops: a thread that loses its stream
behind `Stop` calls a method of null, and takes the agent down before it has reported.
-/
namespace GuestAgent.Guarantees.PipeThreads
open Library.Runs Source PipeSystem PipeServing

variable {T S E : Type} [DecidableEq T] [DecidableEq S] {s s' : PipeSystem T S E}
  {e : PipeStep T S E}

/-! ### A client that waits -/

/-- The client is in its `ReadFile`, and there is nothing to read. -/
structure Waits (t : T) (pipe : Nat) (message : E) (s : PipeSystem T S E) : Prop where
  sender : s.senders t = .written message pipe
  mine : (s.pipes pipe).clientEnd = .opened t
  silent : (s.pipes pipe).ack = false

/-- The client waits from `s` to `s'`. -/
inductive StillWaits (t : T) (pipe : Nat) (message : E) :
    PipeSystem T S E → List (PipeStep T S E) → PipeSystem T S E → Prop
  | here {s : PipeSystem T S E} (waits : Waits t pipe message s) :
      StillWaits t pipe message s [] s
  | next {s s₁ s' : PipeSystem T S E} {e : PipeStep T S E} {events : List (PipeStep T S E)}
      (waits : Waits t pipe message s) (stepped : s.step e = some s₁)
      (later : StillWaits t pipe message s₁ events s') :
      StillWaits t pipe message s (e :: events) s'

def turnOf (sv : S) : PipeStep T S E → Bool
  | .turn sv' _ => decide (sv' = sv)
  | _ => false

/-- How many calls a thread needs until its client has its answer. -/
def callsLeft : ServerPoint E → Nat
  | .wait | .connecting => 4
  | .reading => 3
  | .handling _ => 2
  | .acknowledging | .caught => 1
  | _ => 0

theorem callsLeft_le (point : ServerPoint E) : callsLeft point ≤ 4 := by
  cases point <;> simp [callsLeft]

/-- The thread of a client that waits can go on, and gets nearer to the answer. -/
theorem turn_waits {sv : S} {t : T} {pipe : Nat} {message : E} (working : Working s)
    (waits : Waits t pipe message s) (has : holds s sv = some pipe) (throws : Bool) :
    ∃ s', s.turn sv throws = some s' ∧ 0 < callsLeft (s.threads sv).point ∧
      (Waits t pipe message s' → holds s' sv = some pipe ∧
        callsLeft (s'.threads sv).point < callsLeft (s.threads sv).point) := by
  obtain ⟨state, srv⟩ := srv_of_holds has
  obtain ⟨sender, mine, silent⟩ := waits
  have serves := working.serves srv
  rw [Serves, mine] at serves
  obtain ⟨engaged, meets⟩ := serves
  rw [sender, Meets, if_pos rfl] at meets
  cases here : (s.threads sv).point with
  | wait =>
    rw [here] at engaged
    have waiting : state = .waitingToConnect := engaged
    refine ⟨s.goTo sv .reading (some (pipe, .connected)), ?_, by simp [callsLeft], fun _ => ?_⟩
    · simp [turn, waitForConnection, here, srv, mine, waiting]
    · simp [holds, PipeSystem.goTo, callsLeft]
  | connecting =>
    refine ⟨s.goTo sv .reading (some (pipe, .connected)), ?_, by simp [callsLeft], fun _ => ?_⟩
    · simp [turn, here, srv, mine]
    · simp [holds, PipeSystem.goTo, callsLeft]
  | reading =>
    rw [here] at meets
    refine ⟨(s.setPipe pipe { s.pipes pipe with message := none }).goTo sv (.handling message)
      (some (pipe, state)), ?_, by simp [callsLeft], fun _ => ?_⟩
    · simp [turn, receive, here, srv, meets.1]
    · simp [holds, PipeSystem.goTo, callsLeft]
  | handling m =>
    cases throws with
    | true =>
      refine ⟨s.goTo sv .caught (some (pipe, state)), ?_, by simp [callsLeft], fun _ => ?_⟩
      · simp [turn, here, srv]
      · simp [holds, PipeSystem.goTo, callsLeft]
    | false =>
      refine ⟨{ s.goTo sv .acknowledging (some (pipe, state)) with handled := m :: s.handled }, ?_,
        by simp [callsLeft], fun _ => ?_⟩
      · simp [turn, here, srv]
      · simp [holds, PipeSystem.goTo, callsLeft]
  | acknowledging =>
    refine ⟨s.acknowledge sv pipe state, by simp [turn, here, srv], by simp [callsLeft],
      fun answered => ?_⟩
    have silent' := answered.silent
    simp [acknowledge, mine, PipeSystem.goTo, setPipe] at silent'
  | caught =>
    rw [here] at engaged
    have connected : state = .connected := engaged
    refine ⟨s.disconnect sv pipe, by simp [turn, here, srv, connected], by simp [callsLeft],
      fun left => ?_⟩
    have mine' := left.mine
    simp [PipeSystem.disconnect, PipeSystem.goTo, setPipe] at mine'
  | disconnecting =>
    rw [here] at meets
    rw [meets.2] at silent
    cases silent
  | loop | construct | closing | ended =>
    rw [here] at engaged
    exact engaged.elim

theorem StillWaits.first {t : T} {pipe : Nat} {message : E} {events : List (PipeStep T S E)}
    (still : StillWaits t pipe message s events s') : Waits t pipe message s := by
  cases still with
  | here waits => exact waits
  | next waits _ _ => exact waits

/-- A call of a thread, while the agent is up. -/
theorem step_turn (up : s.down = false) (sv : S) (throws : Bool) :
    s.step (.turn sv throws) = s.turn sv throws := by
  rw [step, if_neg (by simp [up])]

/-- Only its own calls move a thread. -/
theorem threads_of_other {sv : S} (up : s.down = false) (stepped : s.step e = some s')
    (other : turnOf sv e = false) : s'.threads sv = s.threads sv := by
  by_cases turn : ∃ sv' throws, e = .turn sv' throws
  · obtain ⟨sv', throws, rfl⟩ := turn
    rw [step_turn up] at stepped
    refine (turn_frame stepped).threads sv ?_
    rintro rfl
    simp [turnOf] at other
  · rw [(client_frame stepped turn).threads]

omit [DecidableEq T] in
theorem turn_of_turnOf {sv : S} (own : turnOf sv e = true) :
    ∃ throws, e = PipeStep.turn sv throws := by
  cases e with
  | turn sv' throws =>
    rw [turnOf, decide_eq_true_eq] at own
    exact ⟨throws, by rw [own]⟩
  | _ => cases own

/-- While the client waits, every call of its thread uses up one of those that are left. -/
theorem StillWaits.bound {t : T} {pipe : Nat} {message : E} {sv : S}
    {events : List (PipeStep T S E)} (still : StillWaits t pipe message s events s')
    (proper : Proper s) (has : holds s sv = some pipe) :
    (∀ throws, (s'.step (.turn sv throws)).isSome = true) ∧
      events.countP (turnOf sv) < callsLeft (s.threads sv).point := by
  induction still with
  | @here s waits =>
    have up := proper.up_of_opened waits.mine
    constructor
    · intro throws
      obtain ⟨s', turned, -⟩ := turn_waits (proper.up up) waits has throws
      rw [step_turn up, turned]
      rfl
    · obtain ⟨s', -, some_, -⟩ := turn_waits (proper.up up) waits has false
      exact some_
  | @next s s₁ s' e events waits stepped later ih =>
    have up := proper.up_of_opened waits.mine
    have proper₁ := proper_step proper stepped
    cases own : turnOf sv e with
    | true =>
      obtain ⟨throws, rfl⟩ := turn_of_turnOf own
      obtain ⟨s₂, turned, -, nearer⟩ := turn_waits (proper.up up) waits has throws
      rw [step_turn up, turned] at stepped
      cases stepped
      obtain ⟨has₁, less⟩ := nearer later.first
      obtain ⟨ready, bound⟩ := ih proper₁ has₁
      refine ⟨ready, ?_⟩
      rw [List.countP_cons_of_pos own]
      omega
    | false =>
      have same := threads_of_other up stepped own
      obtain ⟨ready, bound⟩ := ih proper₁ (by rw [holds, same]; exact has)
      refine ⟨ready, ?_⟩
      rw [List.countP_cons_of_neg (by simp [own]), ← same]
      exact bound

/-- A program whose call is held up by the monitor is let go after at most four calls of one server
thread, which can always make the next of them. -/
theorem never_left_waiting {name : S → PipeName} {t : T} {pipe : Nat} {message : E}
    (reached : Reached step (fun _ _ => True) (start name) s) (waits : Waits t pipe message s) :
    ∃ sv, ∀ events s', StillWaits t pipe message s events s' →
      (∀ throws, (s'.step (.turn sv throws)).isSome = true) ∧ events.countP (turnOf sv) ≤ 3 := by
  have proper := proper_of_reached reached
  have working := proper.up (proper.up_of_opened waits.mine)
  obtain ⟨sv, has⟩ := working.table.held pipe (attached_of_opened waits.mine)
  refine ⟨sv, fun events s' still => ?_⟩
  obtain ⟨ready, bound⟩ := still.bound proper has
  have most := callsLeft_le (s.threads sv).point
  exact ⟨ready, by omega⟩

/-- One hooked thread sends the event `7` to the only server thread there is. -/
def sentEvent : List (PipeStep Unit Unit Nat) :=
  [.turn () false, .turn () false, .turn () false, .send () 7, .createFile () 0, .setMode () true,
    .writeFile ()]

/-- The server thread and the hooked thread have done these steps. -/
def after (events : List (PipeStep Unit Unit Nat))
    (enabled : (events.foldlM step (start fun _ => .eventPipe)).isSome = true) :
    PipeSystem Unit Unit Nat :=
  (events.foldlM step (start fun _ => .eventPipe)).get enabled

theorem reached_after (events : List (PipeStep Unit Unit Nat))
    (enabled : (events.foldlM step (start fun _ => .eventPipe)).isSome = true) :
    Reached step (fun _ _ => True) (start fun _ => .eventPipe) (after events enabled) :=
  Reached.of_steps (fun _ _ _ => trivial) (Option.some_get _).symm

theorem never_left_waiting_first : ∃ s : PipeSystem Unit Unit Nat, Waits () 0 7 s ∧
    ∃ sv, ∀ events s', StillWaits () 0 7 s events s' → events.countP (turnOf sv) ≤ 3 := by
  have waits : Waits () 0 7 (after sentEvent (by decide)) := ⟨rfl, rfl, rfl⟩
  obtain ⟨sv, bound⟩ := never_left_waiting (reached_after sentEvent (by decide)) waits
  exact ⟨_, waits, sv, fun events s' still => (bound events s' still).2⟩

/-- Who gets an ACK has been heard. -/
theorem acknowledged_events_handled {name : S → PipeName}
    (reached : Reached step (fun _ _ => True) (start name) s) :
    ∀ message ∈ s.acknowledged, message ∈ s.handled :=
  (proper_of_reached reached).told

/-- The event is handled, and the ACK read before the server disconnects. -/
def answeredEvent : List (PipeStep Unit Unit Nat) :=
  sentEvent ++ [.turn () false, .turn () false, .turn () false, .turn () false, .readFile ()]

theorem acknowledged_events_handled_first : ∃ s : PipeSystem Unit Unit Nat,
    s.acknowledged = [7] ∧ 7 ∈ s.handled := by
  have told := acknowledged_events_handled (reached_after answeredEvent (by decide))
  exact ⟨_, rfl, told 7 (by decide)⟩

/-! ### The end of the loops -/

/-- The thread is on its way to close a stream it does not have. -/
structure Fated (s : PipeSystem T S E) (sv : S) : Prop where
  stopped : s.shouldRun = false
  none_ : (s.threads sv).srv = none
  point : (s.threads sv).point = .loop ∨ (s.threads sv).point = .closing

def Doomed (s : PipeSystem T S E) : Prop := s.down = true ∨ ∃ sv, Fated s sv

/-- The call fails, and the thread has no stream behind it. -/
def Loses (s : PipeSystem T S E) (sv : S) (throws : Bool) : Prop :=
  match (s.threads sv).point, (s.threads sv).srv with
  | .construct, _ => throws = true
  | .wait, some (pipe, state) => state = .broken ∨ (s.pipes pipe).clientEnd = .closing
  | _, _ => False

/-- Nobody is without a stream when the loops are told to end, or loses it from then on. -/
def Holding (s : PipeSystem T S E) : PipeStep T S E → Prop
  | .stop => ∀ sv, (s.threads sv).point = .loop → (s.threads sv).srv ≠ none
  | .turn sv throws => s.shouldRun = true ∨ ¬ Loses s sv throws
  | _ => True

omit [DecidableEq T] in
/-- A thread that has a stream after the call is not in danger. -/
theorem safe_of_goTo {sv : S} {point : ServerPoint E} {srv : Nat × PipeState}
    {pipes : Nat → PipeInstance T E} {next : Nat} {handled : List E} (up : s.down = false) :
    ¬ (({ s.goTo sv point (some srv) with pipes := pipes, next := next, handled := handled } :
        PipeSystem T S E).down = true ∨
      Fated { s.goTo sv point (some srv) with pipes := pipes, next := next, handled := handled }
        sv) := by
  rintro (down | fated)
  · simp [PipeSystem.goTo, up] at down
  · have none_ := fated.none_
    simp [PipeSystem.goTo] at none_

omit [DecidableEq T] in
theorem wait_fate {sv : S} {pipe : Nat} {state : PipeState} (up : s.down = false)
    (stopped : s.shouldRun = false) (done : s.waitForConnection sv pipe state = some s') :
    s'.down = true ∨ Fated s' sv ↔ state = .broken ∨ (s.pipes pipe).clientEnd = .closing := by
  have lost : (s.drop sv pipe).down = true ∨ Fated (s.drop sv pipe) sv := by
    right
    refine ⟨stopped, ?_, Or.inl ?_⟩ <;> simp [drop, PipeSystem.goTo]
  unfold waitForConnection at done
  split at done
  · next broken =>
    cases done
    exact iff_of_true lost (Or.inl broken)
  · next whole =>
    cases fit : (s.pipes pipe).clientEnd with
    | closing =>
      rw [fit] at done
      cases done
      exact iff_of_true lost (Or.inr rfl)
    | gone =>
      rw [fit] at done
      cases done
    | listening | disconnected =>
      rw [fit] at done
      cases done
      exact iff_of_false (safe_of_goTo up) (by simp [whole])
    | opened t =>
      simp only [fit] at done
      split at done <;> cases done
      all_goals exact iff_of_false (safe_of_goTo up) (by simp [whole])

omit [DecidableEq T] in
theorem receive_fate {sv : S} {pipe : Nat} {state : PipeState} (up : s.down = false)
    (done : s.receive sv pipe state = some s') : ¬ (s'.down = true ∨ Fated s' sv) := by
  unfold receive at done
  split at done <;> cases done
  all_goals exact safe_of_goTo up

/-- Behind the end of the loops, a call leaves a thread in danger exactly if it loses the stream. -/
theorem turn_fate {sv : S} {throws : Bool} (working : Working s) (up : s.down = false)
    (stopped : s.shouldRun = false) (free : ¬ Fated s sv) (turned : s.turn sv throws = some s') :
    s'.down = true ∨ Fated s' sv ↔ Loses s sv throws := by
  unfold turn at turned
  unfold Loses
  cases here : (s.threads sv).point with
  | loop =>
    cases srv : (s.threads sv).srv with
    | none => exact absurd ⟨stopped, srv, Or.inl here⟩ free
    | some found =>
      simp only [here, srv, Option.some.injEq] at turned
      subst turned
      exact iff_of_false (safe_of_goTo up) id
  | construct =>
    simp only [here] at turned
    split at turned
    · next throws =>
      cases turned
      refine iff_of_true (Or.inr ⟨stopped, ?_, Or.inl ?_⟩) throws <;> simp [PipeSystem.goTo]
    · next made =>
      cases turned
      exact iff_of_false (safe_of_goTo up) made
  | wait =>
    obtain ⟨pipe, state, srv⟩ := working.stream sv (by rw [here]; exact id)
    simp only [here, srv] at turned
    rw [srv]
    exact wait_fate up stopped turned
  | closing =>
    simp only [here] at turned
    cases turned
    cases srv : (s.threads sv).srv with
    | none => exact absurd ⟨stopped, srv, Or.inr here⟩ free
    | some found =>
      refine iff_of_false ?_ id
      rintro (down | fated)
      · simp [up, PipeSystem.close, PipeSystem.goTo, setPipe] at down
      · have point := fated.point
        simp [PipeSystem.close, PipeSystem.goTo] at point
  | ended =>
    simp only [here] at turned
    cases turned
  | connecting | handling | caught =>
    obtain ⟨pipe, state, srv⟩ := working.stream sv (by rw [here]; exact id)
    simp only [here, srv] at turned
    refine iff_of_false ?_ id
    split at turned <;> cases turned
    all_goals exact safe_of_goTo up
  | reading =>
    obtain ⟨pipe, state, srv⟩ := working.stream sv (by rw [here]; exact id)
    simp only [here, srv] at turned
    exact iff_of_false (receive_fate up turned) id
  | acknowledging =>
    obtain ⟨pipe, state, srv⟩ := working.stream sv (by rw [here]; exact id)
    simp only [here, srv, acknowledge] at turned
    refine iff_of_false ?_ id
    split at turned <;> cases turned
    all_goals exact safe_of_goTo up
  | disconnecting =>
    obtain ⟨pipe, state, srv⟩ := working.stream sv (by rw [here]; exact id)
    simp only [here, srv] at turned
    cases turned
    exact iff_of_false (safe_of_goTo up) id

/-- How many calls a fated thread makes before it is the end of the agent. -/
def turnsLeft : ServerPoint E → Nat
  | .loop => 2
  | .closing => 1
  | _ => 0

theorem stopped_step (stopped : s.shouldRun = false) (stepped : s.step e = some s') :
    s'.shouldRun = false := by
  by_cases turn : ∃ sv throws, e = .turn sv throws
  · obtain ⟨sv, throws, rfl⟩ := turn
    simp only [step] at stepped
    split at stepped
    · cases stepped
    · rw [(turn_frame stepped).shouldRun, stopped]
  · rcases (client_frame stepped turn).shouldRun with same | rfl
    · rw [same, stopped]
    · cases stepped
      rfl

/-- Nothing helps a fated thread, and each call of its own brings the end nearer. -/
theorem fated_step {sv : S} (fated : Fated s sv) (up : s.down = false)
    (stepped : s.step e = some s') :
    s'.down = true ∨ (Fated s' sv ∧ turnsLeft (s'.threads sv).point +
      (if turnOf sv e then 1 else 0) = turnsLeft (s.threads sv).point) := by
  obtain ⟨stopped, none_, point⟩ := fated
  have later := stopped_step stopped stepped
  cases own : turnOf sv e with
  | true =>
    obtain ⟨throws, rfl⟩ := turn_of_turnOf own
    rw [step_turn up] at stepped
    rcases point with here | here
    · simp only [turn, here, none_, stopped, Bool.false_eq_true, if_false, Option.some.injEq] at stepped
      subst stepped
      right
      refine ⟨⟨stopped, ?_, Or.inr ?_⟩, ?_⟩ <;> simp [PipeSystem.goTo, turnsLeft, here]
    · simp only [turn, here, none_, Option.some.injEq] at stepped
      subst stepped
      exact Or.inl rfl
  | false =>
    right
    rw [threads_of_other up stepped own]
    refine ⟨⟨later, ?_, ?_⟩, rfl⟩
    · rw [threads_of_other up stepped own, none_]
    · rw [threads_of_other up stepped own]
      exact point

theorem down_step (down : s.down = true) (stepped : s.step e = some s') : s'.down = true := by
  by_cases turn : ∃ sv throws, e = .turn sv throws
  · obtain ⟨sv, throws, rfl⟩ := turn
    rw [step, if_pos down] at stepped
    cases stepped
  · rw [(client_frame stepped turn).down, down]

theorem down_run {events : List (PipeStep T S E)} (down : s.down = true)
    (ran : events.foldlM step s = some s') : s'.down = true := by
  induction events generalizing s with
  | nil =>
    cases ran
    exact down
  | cons e events ih =>
    rw [List.foldlM_cons] at ran
    obtain ⟨s₁, stepped, rest⟩ := Option.bind_eq_some_iff.mp ran
    exact ih (down_step down stepped) rest

theorem fated_run {sv : S} {events : List (PipeStep T S E)} (fated : Fated s sv)
    (up : s.down = false) (ran : events.foldlM step s = some s')
    (enough : turnsLeft (s.threads sv).point ≤ events.countP (turnOf sv)) : s'.down = true := by
  induction events generalizing s with
  | nil =>
    have point := fated.point
    rw [List.countP_nil] at enough
    rcases point with here | here <;> simp [here, turnsLeft] at enough
  | cons e events ih =>
    rw [List.foldlM_cons] at ran
    obtain ⟨s₁, stepped, rest⟩ := Option.bind_eq_some_iff.mp ran
    rcases fated_step fated up stepped with down | ⟨later, fewer⟩
    · exact down_run down rest
    · cases up₁ : s₁.down with
      | true => exact down_run up₁ rest
      | false =>
        refine ih later up₁ rest ?_
        rw [List.countP_cons] at enough
        omega

theorem doomed_step (doomed : Doomed s) (stepped : s.step e = some s') : Doomed s' := by
  rcases doomed with down | ⟨sv, fated⟩
  · exact Or.inl (down_step down stepped)
  · cases up : s.down with
    | true => exact Or.inl (down_step up stepped)
    | false => exact (fated_step fated up stepped).imp_right fun later => ⟨sv, later.1⟩

/-- While nobody is in danger, a step is safe exactly if it leaves everyone with a stream. -/
theorem holding_turn {sv : S} {throws : Bool} (working : Working s) (up : s.down = false)
    (free : ¬ Doomed s) (turned : s.turn sv throws = some s') :
    Holding s (.turn sv throws) ↔ ¬ Doomed s' := by
  have frame := turn_frame turned
  cases runs : s.shouldRun with
  | true =>
    refine iff_of_true (Or.inl runs) ?_
    rintro (down | ⟨sv', fated⟩)
    · rcases frame.down with same | ⟨behind, -⟩
      · rw [same, up] at down
        cases down
      · exact (working.running runs sv).1 behind
    · rw [← frame.shouldRun, fated.stopped] at runs
      cases runs
  | false =>
    have fate := turn_fate working up runs (fun fated => free (Or.inr ⟨sv, fated⟩)) turned
    have whole : Doomed s' ↔ s'.down = true ∨ Fated s' sv := by
      constructor
      · rintro (down | ⟨sv', fated⟩)
        · exact Or.inl down
        · by_cases own : sv' = sv
          · exact Or.inr (own ▸ fated)
          · have same := frame.threads sv' own
            refine absurd (Or.inr ⟨sv', runs, ?_, ?_⟩) free
            · rw [← same, fated.none_]
            · rw [← same]
              exact fated.point
      · exact Or.imp_right fun fated => ⟨sv, fated⟩
    rw [whole, fate, Holding, runs]
    simp

omit [DecidableEq T] [DecidableEq S] in
theorem holding_stop (working : Working s) (up : s.down = false) (free : ¬ Doomed s) :
    Holding s .stop ↔ ¬ Doomed { s with shouldRun := false } := by
  constructor
  · rintro holding (down | ⟨sv, -, none_, here | here⟩)
    · simp [up] at down
    · exact holding sv here none_
    · cases runs : s.shouldRun with
      | true => exact (working.running runs sv).1 here
      | false => exact free (Or.inr ⟨sv, runs, none_, Or.inr here⟩)
  · intro safe sv here none_
    exact safe (Or.inr ⟨sv, rfl, none_, Or.inl here⟩)

theorem holding_iff (proper : Proper s) (free : ¬ Doomed s) (stepped : s.step e = some s') :
    Holding s e ↔ ¬ Doomed s' := by
  have up : s.down = false := by
    by_contra down
    exact free (Or.inl (by simpa using down))
  by_cases turn : ∃ sv throws, e = .turn sv throws
  · obtain ⟨sv, throws, rfl⟩ := turn
    rw [step_turn up] at stepped
    exact holding_turn (proper.up up) up free stepped
  · have frame := client_frame stepped turn
    rcases frame.shouldRun with same | rfl
    · have still : ¬ Doomed s' := by
        rintro (down | ⟨sv, stopped, none_, point⟩)
        · rw [frame.down, up] at down
          cases down
        · rw [frame.threads] at none_ point
          exact free (Or.inr ⟨sv, same ▸ stopped, none_, point⟩)
      cases e with
      | turn sv throws => exact absurd ⟨sv, throws, rfl⟩ turn
      | stop =>
        cases stepped
        exact holding_stop (proper.up up) up free
      | _ => exact iff_of_true trivial still
    · cases stepped
      exact holding_stop (proper.up up) up free

/-- The agent outlives the end of the loops exactly if no thread is between two streams when they
are told to end, and none loses its stream from then on; one that does takes the agent down with its
next two calls, whatever else happens. -/
theorem outlives_stop (name : S → PipeName) (s : PipeSystem T S E) :
    (Reached step Holding (start name) s ↔
      Reached step (fun _ _ => True) (start name) s ∧ ¬ Doomed s) ∧
    ∀ sv, Fated s sv → s.down = false → ∀ (events : List (PipeStep T S E)) (s' : PipeSystem T S E),
      events.foldlM step s = some s' → 2 ≤ events.countP (turnOf sv) → s'.down = true := by
  refine ⟨⟨fun held => ?_, fun safe => ?_⟩, fun sv fated up events s' ran enough => ?_⟩
  · induction held with
    | start =>
      refine ⟨.start, ?_⟩
      rintro (down | ⟨sv, fated⟩)
      · cases down
      · cases fated.stopped
    | next _ holding stepped ih =>
      obtain ⟨reached, free⟩ := ih
      exact ⟨reached.next trivial stepped,
        (holding_iff (proper_of_reached reached) free stepped).mp holding⟩
  · obtain ⟨reached, free⟩ := safe
    induction reached with
    | start => exact .start
    | next before _ stepped ih =>
      have free' := mt (doomed_step · stepped) free
      exact (ih free').next ((holding_iff (proper_of_reached before) free' stepped).mpr free) stepped
  · refine fated_run fated up ran (le_trans ?_ enough)
    rcases fated.point with here | here <;> simp [here, turnsLeft]

/-- A client is killed before it has written; the thread learns it from the pipe, and loses the
broken stream just when the loops are told to end. -/
def loses : List (PipeStep Unit Unit Nat) :=
  [.turn () false, .turn () false, .turn () false, .send () 7, .createFile () 0, .turn () false,
    .kill (), .turn () false, .turn () false, .turn () false, .stop, .turn () false]

def lost : PipeSystem Unit Unit Nat :=
  (loses.foldlM step (start fun _ => .eventPipe)).get rfl

def twoTurns : List (PipeStep Unit Unit Nat) := [.turn () false, .stop, .turn () false]

theorem lost_fated : Fated lost () := ⟨rfl, rfl, .inl rfl⟩

theorem outlives_stop_lost :
    Reached step (fun _ _ => True) (start fun _ => .eventPipe) lost ∧
      ¬ Reached step Holding (start fun _ => .eventPipe) lost ∧
      ((twoTurns.foldlM step lost).get rfl).down = true := by
  obtain ⟨holding, brings_down⟩ := outlives_stop (fun _ => .eventPipe) lost
  have replay : loses.foldlM step (start fun _ => .eventPipe) = some lost :=
    (Option.some_get _).symm
  refine ⟨Reached.of_steps (fun _ _ _ => trivial) replay, fun held => ?_, ?_⟩
  · exact (holding.mp held).2 (.inr ⟨(), lost_fated⟩)
  · exact brings_down () lost_fated rfl twoTurns _ (Option.some_get _).symm (by decide)

end GuestAgent.Guarantees.PipeThreads
