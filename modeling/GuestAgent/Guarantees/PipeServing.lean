import GuestAgent.Library.Holders
import GuestAgent.Source.PipeThreads

/-!
Which thread serves which instance of a pipe.

What a server thread is doing, the state of its stream, the client end of its instance and the place
its client has come to fit together; nobody else has the instance. An instance no thread has a
stream for has no client.
-/
namespace GuestAgent.Guarantees.PipeServing
open Library Source PipeSystem

variable {T S E : Type}

/-- Where a thread is while the stream has, or may get, a client. -/
def Engaged (state : PipeState) : ServerPoint E → Prop
  | .wait => state = .waitingToConnect
  | .connecting => state = .waitingToConnect ∨ state = .disconnected
  | .reading | .handling _ | .acknowledging | .disconnecting | .caught => state = .connected
  | _ => False

/-- Where it is while the instance can be opened. -/
def Offers (state : PipeState) : ServerPoint E → Prop
  | .wait => state = .waitingToConnect
  | .connecting => state = .waitingToConnect ∨ state = .disconnected
  | _ => False

/-- Where it is behind `Disconnect`. -/
def Between : ServerPoint E → Prop
  | .loop | .wait | .closing => True
  | _ => False

/-- Where it is once it knows that its client has gone. -/
def Bereft : ServerPoint E → Prop
  | .caught | .loop | .wait | .closing => True
  | _ => False

/-- The client has not written its message. -/
def Early (p : PipeInstance T E) : ServerPoint E → Prop
  | .wait | .connecting | .reading => p.message = none ∧ p.ack = false
  | _ => False

/-- How far the thread is with the message of a client that has written it. -/
def Progress (handled : List E) (message : E) (p : PipeInstance T E) : ServerPoint E → Prop
  | .wait | .connecting | .reading => p.message = some message ∧ p.ack = false
  | .handling m => m = message ∧ p.ack = false
  | .acknowledging => message ∈ handled ∧ p.ack = false
  | .disconnecting => message ∈ handled ∧ p.ack = true
  | .caught => p.ack = false
  | _ => False

/-- A client that has the instance open, and the thread. -/
def Meets (handled : List E) (pipe : Nat) (p : PipeInstance T E) (point : ServerPoint E) :
    Sender E → Prop
  | .written message r => if r = pipe then Progress handled message p point else Early p point
  | _ => Early p point

/-- A thread with its stream and the instance. -/
def Serves (handled : List E) (senders : T → Sender E) (pipe : Nat) (p : PipeInstance T E)
    (state : PipeState) (point : ServerPoint E) : Prop :=
  match p.clientEnd with
  | .listening => Offers state point ∧ p.message = none ∧ p.ack = false
  | .opened t => Engaged state point ∧ Meets handled pipe p point (senders t)
  | .closing => Engaged state point ∨ (state = .broken ∧ Bereft point)
  | .disconnected => state = .disconnected ∧ Between point ∧ p.message = none ∧ p.ack = false
  | .gone => False

/-- A thread that has no stream. -/
def Without : ServerPoint E → Prop
  | .loop | .construct | .closing | .ended => True
  | _ => False

/-- The instance a thread has a stream for. -/
def holds (s : PipeSystem T S E) (sv : S) : Option Nat := (s.threads sv).srv.map Prod.fst

/-- Some thread has to take care of the instance. -/
def Attached (s : PipeSystem T S E) (pipe : Nat) : Prop :=
  (s.pipes pipe).clientEnd ≠ .closing ∧ (s.pipes pipe).clientEnd ≠ .gone

/-- A thread and what it has. -/
def Fits (s : PipeSystem T S E) (thread : ServerThread E) : Prop :=
  match thread.srv with
  | none => Without thread.point
  | some (pipe, state) => Serves s.handled s.senders pipe (s.pipes pipe) state thread.point

/-- What holds while the agent is up. -/
structure Working (s : PipeSystem T S E) : Prop where
  fits : ∀ sv, Fits s (s.threads sv)
  /-- An instance no thread has a stream for has no client. -/
  table : Holders (holds s) (Attached s) s.next s.leaked
  /-- While the loops run, nobody is behind them. -/
  running : s.shouldRun = true → ∀ sv,
    (s.threads sv).point ≠ .closing ∧ (s.threads sv).point ≠ .ended

/-- The agent is up and works, or it is down and has closed all its pipes. -/
structure Proper (s : PipeSystem T S E) : Prop where
  up : s.down = false → Working s
  down : s.down = true → ∀ pipe, (s.pipes pipe).clientEnd = .gone
  told : ∀ message ∈ s.acknowledged, message ∈ s.handled

variable {handled handled' : List E} {senders : T → Sender E} {pipe : Nat} {p : PipeInstance T E}
  {state : PipeState} {point : ServerPoint E}

/-! ### One instance -/

theorem Engaged.of_offers (offers : Offers state point) : Engaged state point := by
  cases point with
  | wait | connecting => exact offers
  | _ => exact offers.elim

theorem Early.of_offers (offers : Offers state point) (unread : p.message = none ∧ p.ack = false) :
    Early p point := by
  cases point with
  | wait | connecting => exact unread
  | _ => exact offers.elim

theorem Progress.mono {message : E} (more : ∀ m ∈ handled, m ∈ handled')
    (progress : Progress handled message p point) : Progress handled' message p point := by
  cases point with
  | acknowledging | disconnecting => exact ⟨more message progress.1, progress.2⟩
  | _ => exact progress

theorem Meets.mono {x : Sender E} (more : ∀ m ∈ handled, m ∈ handled')
    (meets : Meets handled pipe p point x) : Meets handled' pipe p point x := by
  cases x with
  | written message r =>
    simp only [Meets] at meets ⊢
    split
    · next same =>
      rw [if_pos same] at meets
      exact meets.mono more
    · next other =>
      rw [if_neg other] at meets
      exact meets
  | _ => exact meets

theorem Serves.mono (more : ∀ m ∈ handled, m ∈ handled')
    (serves : Serves handled senders pipe p state point) :
    Serves handled' senders pipe p state point := by
  unfold Serves at serves ⊢
  cases fit : p.clientEnd with
  | opened t =>
    rw [fit] at serves
    exact ⟨serves.1, serves.2.mono more⟩
  | _ =>
    rw [fit] at serves
    exact serves

theorem Serves.sender [DecidableEq T] {t : T} {x : Sender E}
    (meets : p.clientEnd = .opened t → Meets handled pipe p point (senders t) →
      Meets handled pipe p point x)
    (serves : Serves handled senders pipe p state point) :
    Serves handled (Function.update senders t x) pipe p state point := by
  unfold Serves at serves ⊢
  cases fit : p.clientEnd with
  | opened u =>
    rw [fit] at serves
    refine ⟨serves.1, ?_⟩
    by_cases same : u = t
    · subst same
      rw [Function.update_self]
      exact meets fit serves.2
    · rw [Function.update_of_ne same]
      exact serves.2
  | _ =>
    rw [fit] at serves
    exact serves

/-! ### One thread -/

section Threads
variable {s s' : PipeSystem T S E} {sv : S}

theorem holds_of_srv (has : (s.threads sv).srv = some (pipe, state)) : holds s sv = some pipe := by
  rw [holds, has]
  rfl

theorem srv_of_holds (has : holds s sv = some pipe) :
    ∃ state, (s.threads sv).srv = some (pipe, state) := by
  obtain ⟨⟨_, state⟩, srv, rfl⟩ := Option.map_eq_some_iff.mp has
  exact ⟨state, srv⟩

/-- A client has the instance open, so a thread has to take care of it. -/
theorem attached_of_opened {t : T} (mine : (s.pipes pipe).clientEnd = .opened t) :
    Attached s pipe := by
  rw [Attached, mine]
  constructor <;> simp

theorem setPipe_self (s : PipeSystem T S E) (pipe : Nat) : s.setPipe pipe (s.pipes pipe) = s := by
  simp [setPipe]

theorem Working.serves (working : Working s) (srv : (s.threads sv).srv = some (pipe, state)) :
    Serves s.handled s.senders pipe (s.pipes pipe) state (s.threads sv).point := by
  have fits := working.fits sv
  rwa [Fits, srv] at fits

/-- A thread that is busy with a stream has one. -/
theorem Working.stream (working : Working s) (sv : S) (busy : ¬ Without (s.threads sv).point) :
    ∃ pipe state, (s.threads sv).srv = some (pipe, state) := by
  have fits := working.fits sv
  rw [Fits] at fits
  split at fits
  · exact absurd fits busy
  · next pipe state srv => exact ⟨pipe, state, srv⟩

variable [DecidableEq S]

/-- The new state of a thread whose step leaves alone what the other threads have. -/
theorem Working.moved (working : Working s) (sv : S) {thread : ServerThread E}
    (threads : s'.threads = Function.update s.threads sv thread)
    (pipes : ∀ pipe, (∃ sv' ≠ sv, holds s sv' = some pipe) → s'.pipes pipe = s.pipes pipe)
    (senders : s'.senders = s.senders) (runs : s'.shouldRun = s.shouldRun)
    (more : ∀ m ∈ s.handled, m ∈ s'.handled) (fits : Fits s' thread)
    (table : Holders (Function.update (holds s) sv (thread.srv.map Prod.fst)) (Attached s') s'.next
      s'.leaked)
    (stays : s.shouldRun = true → thread.point ≠ .closing ∧ thread.point ≠ .ended) :
    Working s' := by
  have same : holds s' = Function.update (holds s) sv (thread.srv.map Prod.fst) := by
    funext sv'
    by_cases own : sv' = sv <;> simp [holds, threads, own]
  constructor
  · intro sv'
    rw [threads]
    by_cases own : sv' = sv
    · rw [own, Function.update_self]
      exact fits
    · rw [Function.update_of_ne own]
      have before := working.fits sv'
      unfold Fits at before ⊢
      split at before
      · exact before
      · next pipe state has =>
        rw [pipes pipe ⟨sv', own, holds_of_srv has⟩, senders]
        exact before.mono more
  · rw [same]
    exact table
  · intro run sv'
    rw [runs] at run
    rw [threads]
    by_cases own : sv' = sv
    · rw [own, Function.update_self]
      exact stays run
    · rw [Function.update_of_ne own]
      exact working.running run sv'

/-- A thread that keeps its stream. -/
theorem Working.keep (working : Working s) (has : holds s sv = some pipe)
    (more : ∀ m ∈ s.handled, m ∈ handled') (serves : Serves handled' s.senders pipe p state point)
    (stays : s.shouldRun = true → point ≠ .closing ∧ point ≠ .ended) :
    Working { (s.setPipe pipe p).goTo sv point (some (pipe, state)) with handled := handled' } := by
  refine working.moved sv rfl ?_ rfl rfl more ?_ ?_ stays
  · rintro pipe' ⟨sv', other, has'⟩
    exact Function.update_of_ne (working.table.others has other has') ..
  · simpa [Fits, goTo, setPipe] using serves
  · have same : Function.update (holds s) sv (some pipe) = holds s :=
      has ▸ Function.update_eq_self sv (holds s)
    rw [Option.map_some, same]
    refine working.table.change fun pipe' attached => ?_
    by_cases own : pipe' = pipe
    · exact Or.inr ⟨sv, own ▸ has⟩
    · left
      simpa [Attached, goTo, setPipe, Function.update_of_ne own] using attached

theorem Working.goTo (working : Working s) (has : holds s sv = some pipe)
    (serves : Serves s.handled s.senders pipe (s.pipes pipe) state point)
    (stays : s.shouldRun = true → point ≠ .closing ∧ point ≠ .ended) :
    Working (s.goTo sv point (some (pipe, state))) := by
  have kept := working.keep has (fun _ member => member) serves stays
  rwa [setPipe_self] at kept

/-- A thread that drops or closes its stream. -/
theorem Working.leave (working : Working s) {leaked' : List Nat} (has : holds s sv = some pipe)
    (past : p.clientEnd = .closing ∨ p.clientEnd = .gone) (inside : Without point)
    (dropped : ∀ r ∈ leaked', r = pipe ∨ r ∈ s.leaked)
    (stays : s.shouldRun = true → point ≠ .closing ∧ point ≠ .ended) :
    Working { (s.setPipe pipe p).goTo sv point none with leaked := leaked' } := by
  refine working.moved sv rfl ?_ rfl rfl (fun _ member => member) inside ?_ stays
  · rintro pipe' ⟨sv', other, has'⟩
    exact Function.update_of_ne (working.table.others has other has') ..
  · refine working.table.release has (fun pipe' attached => ?_) dropped
    by_cases own : pipe' = pipe
    · simp only [Attached, PipeSystem.goTo, setPipe, own, Function.update_self] at attached
      exact (past.elim attached.1 attached.2).elim
    · refine ⟨?_, own⟩
      simpa [Attached, PipeSystem.goTo, setPipe, Function.update_of_ne own] using attached

theorem Working.drop (working : Working s) (has : holds s sv = some pipe)
    (past : (s.pipes pipe).clientEnd = .closing) : Working (s.drop sv pipe) := by
  have left : Working { (s.setPipe pipe (s.pipes pipe)).goTo sv .loop none with
      leaked := pipe :: s.leaked } :=
    working.leave has (Or.inl past) trivial (fun r member => List.mem_cons.mp member)
      fun _ => ⟨nofun, nofun⟩
  rwa [setPipe_self] at left

/-- A thread that has no stream goes on without one. -/
theorem Working.goTo_none (working : Working s) (none_ : holds s sv = none) (inside : Without point)
    (stays : s.shouldRun = true → point ≠ .closing ∧ point ≠ .ended) :
    Working (s.goTo sv point none) := by
  have same : Function.update (holds s) sv none = holds s :=
    none_ ▸ Function.update_eq_self sv (holds s)
  refine working.moved sv rfl (fun _ _ => rfl) rfl rfl (fun _ member => member) inside ?_
    stays
  rw [Option.map_none, same]
  exact working.table

theorem Working.construct (working : Working s) (none_ : holds s sv = none) (name : PipeName) :
    Working { (s.setPipe s.next ⟨name, .listening, none, false⟩).goTo sv .wait
      (some (s.next, .waitingToConnect)) with next := s.next + 1 } := by
  refine working.moved sv rfl ?_ rfl rfl (fun _ member => member) ?_ ?_ fun _ =>
    ⟨nofun, nofun⟩
  · rintro pipe' ⟨sv', -, has'⟩
    exact Function.update_of_ne (Nat.ne_of_lt (working.table.below sv' pipe' has')) ..
  · simp [Fits, PipeSystem.goTo, setPipe, Serves, Offers]
  · refine working.table.acquire none_ fun pipe' attached => ?_
    by_cases own : pipe' = s.next
    · exact Or.inr own
    · left
      simpa [Attached, PipeSystem.goTo, setPipe, Function.update_of_ne own] using attached

/-- `DisconnectNamedPipe` at the end of a connection. -/
theorem Working.disconnect (working : Working s) (has : holds s sv = some pipe) :
    Working (s.disconnect sv pipe) :=
  working.keep has (fun _ member => member) ⟨rfl, trivial, rfl, rfl⟩ fun _ => ⟨nofun, nofun⟩

/-! ### The calls of a thread -/

/-- A stream is broken only when its client has gone. -/
theorem Serves.closing_of_broken (serves : Serves handled senders pipe p .broken point) :
    p.clientEnd = .closing := by
  unfold Serves at serves
  cases fit : p.clientEnd with
  | closing => rfl
  | listening =>
    rw [fit] at serves
    cases point <;> simp [Offers] at serves
  | opened t =>
    rw [fit] at serves
    cases point <;> simp [Engaged] at serves
  | disconnected =>
    rw [fit] at serves
    cases serves.1
  | gone =>
    rw [fit] at serves
    exact serves.elim

theorem working_wait (working : Working s) (srv : (s.threads sv).srv = some (pipe, state))
    (here : (s.threads sv).point = .wait) (done : s.waitForConnection sv pipe state = some s') :
    Working s' := by
  have has := holds_of_srv srv
  have serves := working.serves srv
  rw [here] at serves
  unfold waitForConnection at done
  split at done
  · next broken =>
    cases done
    subst broken
    exact working.drop has serves.closing_of_broken
  · unfold Serves at serves
    cases fit : (s.pipes pipe).clientEnd with
    | listening =>
      rw [fit] at serves done
      cases done
      exact working.keep has (fun _ member => member) ⟨Or.inl serves.1, serves.2⟩
        fun _ => ⟨nofun, nofun⟩
    | disconnected =>
      rw [fit] at serves done
      cases done
      exact working.keep has (fun _ member => member) ⟨Or.inr serves.1, serves.2.2⟩
        fun _ => ⟨nofun, nofun⟩
    | opened t =>
      simp only [fit] at serves done
      have waiting : state = .waitingToConnect := serves.1
      rw [if_neg (by rw [waiting]; exact nofun)] at done
      cases done
      refine working.goTo has ?_ fun _ => ⟨nofun, nofun⟩
      rw [Serves, fit]
      exact ⟨rfl, serves.2⟩
    | closing =>
      rw [fit] at done
      cases done
      exact working.drop has fit
    | gone =>
      rw [fit] at done
      cases done

theorem working_connecting (working : Working s) (srv : (s.threads sv).srv = some (pipe, state))
    (here : (s.threads sv).point = .connecting) (met : (s.pipes pipe).clientEnd ≠ .listening) :
    Working (s.goTo sv .reading (some (pipe, .connected))) := by
  have serves := working.serves srv
  rw [here, Serves] at serves
  refine working.goTo (holds_of_srv srv) ?_ fun _ => ⟨nofun, nofun⟩
  rw [Serves]
  cases fit : (s.pipes pipe).clientEnd with
  | listening => exact absurd fit met
  | opened t =>
    rw [fit] at serves
    exact ⟨rfl, serves.2⟩
  | closing => exact Or.inl rfl
  | disconnected =>
    rw [fit] at serves
    exact serves.2.1.elim
  | gone =>
    rw [fit] at serves
    exact serves.elim

theorem Meets.received {message : E} {x : Sender E} (unread : p.message = some message)
    (meets : Meets handled pipe p .reading x) :
    Meets handled pipe { p with message := none } (.handling message) x := by
  cases x with
  | written m r =>
    simp only [Meets] at meets ⊢
    split at meets
    · next same =>
      rw [if_pos same]
      exact ⟨Option.some.inj (unread.symm.trans meets.1), meets.2⟩
    · exact absurd (unread.symm.trans meets.1) nofun
  | _ => exact absurd (unread.symm.trans meets.1) nofun

theorem working_reading (working : Working s) (srv : (s.threads sv).srv = some (pipe, state))
    (here : (s.threads sv).point = .reading) (done : s.receive sv pipe state = some s') :
    Working s' := by
  have has := holds_of_srv srv
  have serves := working.serves srv
  rw [here, Serves] at serves
  unfold receive at done
  split at done
  · next message end_ unread =>
    cases done
    refine working.keep has (fun _ member => member) ?_ fun _ => ⟨nofun, nofun⟩
    rw [Serves]
    cases fit : (s.pipes pipe).clientEnd with
    | opened t =>
      rw [fit] at serves
      exact ⟨serves.1, serves.2.received unread⟩
    | closing =>
      rw [fit] at serves
      exact Or.inl (serves.elim id fun gone => gone.2.elim)
    | _ =>
      rw [fit] at serves
      simp [Offers, Between] at serves
  · next closed =>
    cases done
    refine working.goTo has ?_ fun _ => ⟨nofun, nofun⟩
    rw [Serves, closed]
    exact Or.inr ⟨rfl, trivial⟩
  · cases done

theorem Meets.handled_ {message : E} {x : Sender E}
    (meets : Meets handled pipe p (.handling message) x) :
    Meets handled pipe p .caught x ∧ Meets (message :: handled) pipe p .acknowledging x := by
  cases x with
  | written m r =>
    simp only [Meets] at meets ⊢
    split at meets
    · next same =>
      obtain ⟨rfl, silent⟩ := meets
      rw [if_pos same, if_pos same]
      exact ⟨silent, List.mem_cons_self, silent⟩
    · exact meets.elim
  | _ => exact meets.elim

theorem working_handling (working : Working s) {message : E}
    (srv : (s.threads sv).srv = some (pipe, state))
    (here : (s.threads sv).point = .handling message) :
    Working (s.goTo sv .caught (some (pipe, state))) ∧
      Working { s.goTo sv .acknowledging (some (pipe, state)) with
        handled := message :: s.handled } := by
  have has := holds_of_srv srv
  have serves := working.serves srv
  rw [here, Serves] at serves
  have both : Serves s.handled s.senders pipe (s.pipes pipe) state .caught ∧
      Serves (message :: s.handled) s.senders pipe (s.pipes pipe) state .acknowledging := by
    rw [Serves, Serves]
    cases fit : (s.pipes pipe).clientEnd with
    | opened t =>
      rw [fit] at serves
      obtain ⟨caught, acknowledging⟩ := serves.2.handled_
      exact ⟨⟨serves.1, caught⟩, serves.1, acknowledging⟩
    | closing =>
      rw [fit] at serves
      have engaged := serves.resolve_right fun gone => gone.2
      exact ⟨Or.inl engaged, Or.inl engaged⟩
    | _ =>
      rw [fit] at serves
      simp [Offers, Between] at serves
  refine ⟨working.goTo has both.1 fun _ => ⟨nofun, nofun⟩, ?_⟩
  have kept := working.keep has (fun m member => List.mem_cons_of_mem message member) both.2
    fun _ => ⟨nofun, nofun⟩
  rwa [setPipe_self] at kept

theorem Meets.acknowledged {x : Sender E} (meets : Meets handled pipe p .acknowledging x) :
    Meets handled pipe { p with ack := true } .disconnecting x := by
  cases x with
  | written m r =>
    simp only [Meets] at meets ⊢
    split at meets
    · next same =>
      rw [if_pos same]
      exact ⟨meets.1, rfl⟩
    · exact meets.elim
  | _ => exact meets.elim

theorem working_acknowledging (working : Working s) (srv : (s.threads sv).srv = some (pipe, state))
    (here : (s.threads sv).point = .acknowledging) : Working (s.acknowledge sv pipe state) := by
  have has := holds_of_srv srv
  have serves := working.serves srv
  rw [here, Serves] at serves
  unfold acknowledge
  cases fit : (s.pipes pipe).clientEnd with
  | opened t =>
    rw [fit] at serves
    refine working.keep has (fun _ member => member) ?_ fun _ => ⟨nofun, nofun⟩
    rw [Serves]
    simp only [fit]
    exact ⟨serves.1, serves.2.acknowledged⟩
  | closing =>
    refine working.goTo has ?_ fun _ => ⟨nofun, nofun⟩
    rw [Serves, fit]
    exact Or.inr ⟨rfl, trivial⟩
  | _ =>
    rw [fit] at serves
    simp [Offers, Between] at serves

/-- A stream that is not connected has no client, once `ProcessEvent` has failed. -/
theorem Serves.loop_of_caught (serves : Serves handled senders pipe p state .caught)
    (apart : state ≠ .connected) : Serves handled senders pipe p state .loop := by
  rw [Serves] at serves ⊢
  cases fit : p.clientEnd with
  | closing =>
    rw [fit] at serves
    exact Or.inr (serves.resolve_left apart)
  | opened t =>
    rw [fit] at serves
    exact absurd serves.1 apart
  | _ =>
    rw [fit] at serves
    simp [Offers, Between] at serves

theorem Serves.of_loop (serves : Serves handled senders pipe p state .loop)
    (next : point = .wait ∨ point = .closing) : Serves handled senders pipe p state point := by
  rw [Serves] at serves ⊢
  cases fit : p.clientEnd with
  | disconnected =>
    rw [fit] at serves
    rcases next with rfl | rfl <;> exact serves
  | closing =>
    rw [fit] at serves
    obtain ⟨broken, -⟩ := serves.resolve_left (fun engaged => engaged)
    rcases next with rfl | rfl <;> exact Or.inr ⟨broken, trivial⟩
  | _ =>
    rw [fit] at serves
    simp [Offers, Engaged] at serves

variable [DecidableEq T]

/-- Each call of a thread keeps the agent working, or ends it. -/
theorem working_turn (working : Working s) {throws : Bool} (turned : s.turn sv throws = some s')
    (up : s'.down = false) : Working s' := by
  have behind : s.shouldRun = true → (s.threads sv).point ≠ .closing :=
    fun runs => (working.running runs sv).1
  unfold turn at turned
  split at turned
  · next here srv =>
    cases turned
    refine working.goTo_none (by rw [holds, srv]; rfl) ?_ fun runs => ?_
    · split <;> trivial
    · rw [if_pos runs]
      exact ⟨nofun, nofun⟩
  · next here srv =>
    cases turned
    obtain ⟨pipe, state⟩ := ‹Nat × PipeState›
    have serves := working.serves srv
    rw [here] at serves
    refine working.goTo (holds_of_srv srv) (serves.of_loop ?_) fun runs => ?_
    · split
      · exact Or.inl rfl
      · exact Or.inr rfl
    · rw [if_pos runs]
      exact ⟨nofun, nofun⟩
  · next here =>
    have none_ : holds s sv = none := by
      cases srv : (s.threads sv).srv with
      | none => rw [holds, srv]; rfl
      | some found =>
        obtain ⟨pipe, state⟩ := found
        have serves := working.serves srv
        rw [here] at serves
        unfold Serves at serves
        split at serves <;> simp [Offers, Engaged, Bereft, Between] at serves
    split at turned
    · cases turned
      exact working.goTo_none none_ trivial fun _ => ⟨nofun, nofun⟩
    · cases turned
      exact working.construct none_ _
  · next here srv => exact working_wait working srv here turned
  · next here srv =>
    split at turned
    · cases turned
    · next met =>
      cases turned
      exact working_connecting working srv here met
  · next here srv => exact working_reading working srv here turned
  · next message here =>
    obtain ⟨pipe, state, srv⟩ := working.stream sv (by rw [here]; exact id)
    obtain ⟨caught, handled⟩ := working_handling working srv here
    rw [srv] at turned
    split at turned
    · cases turned
      exact caught
    · cases turned
      exact handled
  · next here srv =>
    cases turned
    exact working_acknowledging working srv here
  · next here srv =>
    cases turned
    exact working.disconnect (holds_of_srv srv)
  · next here srv =>
    split at turned
    · cases turned
      exact working.disconnect (holds_of_srv srv)
    · next apart =>
      cases turned
      have serves := working.serves srv
      rw [here] at serves
      exact working.goTo (holds_of_srv srv) (serves.loop_of_caught apart) fun _ => ⟨nofun, nofun⟩
  · next here =>
    cases turned
    cases srv : (s.threads sv).srv with
    | none =>
      rw [srv] at up
      cases up
    | some found =>
      obtain ⟨pipe, state⟩ := found
      exact working.leave (holds_of_srv srv) (Or.inr rfl) trivial (fun r member => Or.inr member)
        fun runs => absurd here (behind runs)
  · cases turned

/-- What a call of one thread leaves alone. -/
structure Frame (s s' : PipeSystem T S E) (sv : S) : Prop where
  senders : s'.senders = s.senders
  shouldRun : s'.shouldRun = s.shouldRun
  acknowledged : s'.acknowledged = s.acknowledged
  handled : ∀ m ∈ s.handled, m ∈ s'.handled
  threads : ∀ sv' ≠ sv, s'.threads sv' = s.threads sv'
  down : s'.down = s.down ∨
    ((s.threads sv).point = .closing ∧ ∀ pipe, (s'.pipes pipe).clientEnd = .gone)

omit [DecidableEq T] in
/-- A step that changes the thread, and what is said about the instances. -/
theorem Frame.of_goTo {point : ServerPoint E} {srv : Option (Nat × PipeState)} {next : Nat}
    {pipes : Nat → PipeInstance T E} {leaked : List Nat}
    (more : ∀ m ∈ s.handled, m ∈ handled') :
    Frame s { s.goTo sv point srv with
      pipes := pipes, leaked := leaked, next := next, handled := handled' } sv :=
  ⟨rfl, rfl, rfl, more, fun _ other => Function.update_of_ne other .., Or.inl rfl⟩

theorem turn_frame {throws : Bool} (turned : s.turn sv throws = some s') : Frame s s' sv := by
  have same : ∀ m ∈ s.handled, m ∈ s.handled := fun _ member => member
  unfold turn at turned
  split at turned
  case h_4 =>
    unfold waitForConnection at turned
    repeat' split at turned
    all_goals cases turned
    all_goals exact Frame.of_goTo same
  case h_6 =>
    unfold receive at turned
    split at turned <;> cases turned
    all_goals exact Frame.of_goTo same
  case h_7 =>
    split at turned <;> cases turned
    · exact Frame.of_goTo same
    · exact Frame.of_goTo fun m member => List.mem_cons_of_mem _ member
  case h_8 =>
    cases turned
    unfold acknowledge
    split <;> exact Frame.of_goTo same
  case h_11 here =>
    cases turned
    unfold close
    split
    · exact ⟨rfl, rfl, rfl, same, fun _ _ => rfl, Or.inr ⟨here, fun _ => rfl⟩⟩
    · exact Frame.of_goTo same
  all_goals
    repeat' split at turned
    all_goals cases turned
    all_goals exact Frame.of_goTo same

end Threads

end GuestAgent.Guarantees.PipeServing
