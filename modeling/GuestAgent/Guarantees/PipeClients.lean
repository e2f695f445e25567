import GuestAgent.Guarantees.PipeServing
import GuestAgent.Library.Runs

/-!
The clients of the pipes, and every step of the system.

What a hooked thread does with its handle keeps the instance and its server thread together. So
whatever order the steps come in, the agent works or is down, and who has read an ACK was heard.
-/
namespace GuestAgent.Guarantees.PipeServing
open Library Library.Runs Source PipeSystem

variable {T S E : Type} {handled : List E} {senders : T → Sender E} {pipe : Nat}
  {p : PipeInstance T E} {state : PipeState} {point : ServerPoint E}

/-! ### The calls of a client -/

section Clients
variable {s s' : PipeSystem T S E} {t : T} {x : Sender E}

/-- A step that leaves the threads alone. -/
theorem Working.of_threads (working : Working s) (threads : s'.threads = s.threads)
    (runs : s'.shouldRun = s.shouldRun) (next : s'.next = s.next) (leaked : s'.leaked = s.leaked)
    (serves : ∀ sv pipe state, (s.threads sv).srv = some (pipe, state) →
      Serves s'.handled s'.senders pipe (s'.pipes pipe) state (s.threads sv).point)
    (attached : ∀ pipe, Attached s' pipe → Attached s pipe) : Working s' := by
  have same : holds s' = holds s := by
    funext sv
    rw [holds, threads, holds]
  constructor
  · intro sv
    have before := working.fits sv
    rw [threads]
    unfold Fits at before ⊢
    split at before
    · exact before
    · next pipe state has => exact serves sv pipe state has
  · rw [same, next, leaked]
    exact working.table.change fun pipe now => Or.inl (attached pipe now)
  · rw [runs, threads]
    exact working.running

theorem Early.written {message : E} (early : Early p point) :
    Progress handled message { p with message := some message } point := by
  cases point with
  | wait | connecting | reading => exact ⟨rfl, early.2⟩
  | _ => exact early.elim

/-- What the client has left behind it. -/
theorem Serves.closed (serves : Serves handled senders pipe p state point)
    (mine : p.clientEnd = .opened t) (senders' : T → Sender E) :
    Serves handled senders' pipe { p with clientEnd := .closing, ack := false } state point := by
  rw [Serves, mine] at serves
  exact Or.inl serves.1

theorem working_finalize (working : Working s) (member : pipe ∈ s.leaked) :
    Working (s.setPipe pipe { s.pipes pipe with clientEnd := .gone }) := by
  refine working.of_threads rfl rfl rfl rfl (fun sv pipe' state srv => ?_) fun pipe' now => ?_
  · have other : pipe' ≠ pipe := by
      rintro rfl
      exact working.table.free pipe' member sv (holds_of_srv srv)
    simp only [setPipe, Function.update_of_ne other]
    exact working.serves srv
  · by_cases own : pipe' = pipe
    · subst own
      simp only [Attached, setPipe, Function.update_self] at now
      exact absurd rfl now.2
    · simpa [Attached, setPipe, Function.update_of_ne own] using now

variable [DecidableEq T]

/-- Only the hooked thread has gone on. -/
theorem Working.setSender (working : Working s) {y : Sender E} (sender : s.senders t = y)
    (meets : ∀ pipe (p : PipeInstance T E) (point : ServerPoint E), (s.pipes pipe).clientEnd = .opened t →
      Meets s.handled pipe p point y → Meets s.handled pipe p point x)
    (acknowledged lost : List E) :
    Working { s.setSender t x with acknowledged := acknowledged, lost := lost } :=
  working.of_threads rfl rfl rfl rfl
    (fun _ pipe _ srv => (working.serves srv).sender fun open_ => sender ▸ meets pipe _ _ open_)
    fun _ attached => attached

/-- The instance of a hooked thread has changed with it. -/
theorem Working.client (working : Working s) {p' : PipeInstance T E} {y : Sender E}
    (sender : s.senders t = y)
    (here : ∀ state (point : ServerPoint E),
      Serves s.handled s.senders pipe (s.pipes pipe) state point →
      Serves s.handled (Function.update s.senders t x) pipe p' state point)
    (others : ∀ pipe' ≠ pipe, ∀ (p : PipeInstance T E) (point : ServerPoint E),
      Meets s.handled pipe' p point y → Meets s.handled pipe' p point x)
    (attached : p'.clientEnd ≠ .closing → p'.clientEnd ≠ .gone → Attached s pipe)
    (acknowledged : List E) :
    Working { (s.setPipe pipe p').setSender t x with acknowledged := acknowledged } := by
  refine working.of_threads rfl rfl rfl rfl (fun sv pipe' state srv => ?_) fun pipe' now => ?_
  · have before := working.serves srv
    by_cases own : pipe' = pipe
    · subst own
      simpa [PipeSystem.setSender, setPipe] using here state _ before
    · simp only [PipeSystem.setSender, setPipe, Function.update_of_ne own]
      exact before.sender fun _ => sender ▸ others pipe' own _ _
  · by_cases own : pipe' = pipe
    · subst own
      simp only [Attached, PipeSystem.setSender, setPipe, Function.update_self] at now
      exact attached now.1 now.2
    · simpa [Attached, PipeSystem.setSender, setPipe, Function.update_of_ne own] using now

theorem working_createFile (working : Working s) (done : s.createFile t pipe = some s') :
    Working s' := by
  unfold createFile at done
  split at done
  · next message sender =>
    split at done
    · next ready =>
      cases done
      refine working.client sender ?_ ?_ ?_ _
      · intro state point serves
        rw [Serves, ready.2] at serves
        obtain ⟨offers, unread⟩ := serves
        rw [Serves]
        refine ⟨Engaged.of_offers offers, ?_⟩
        rw [Function.update_self]
        exact Early.of_offers offers unread
      · exact fun _ _ _ _ meets => meets
      · intro _ _
        rw [Attached, ready.2]
        constructor <;> simp
    · cases done
  · cases done

theorem working_setMode (working : Working s) {succeeds : Bool}
    (done : s.setMode t succeeds = some s') : Working s' := by
  unfold setMode at done
  split at done
  · next message pipe sender =>
    split at done
    · cases done
      refine working.setSender sender (fun _ _ _ _ meets => ?_) _ _
      exact meets
    · cases done
      refine working.setSender sender (fun _ _ _ _ meets => ?_) _ _
      exact meets
  · cases done

theorem working_writeFile (working : Working s) (done : s.writeFile t = some s') : Working s' := by
  unfold writeFile at done
  split at done
  · next message pipe sender =>
    split at done
    · next mine =>
      cases done
      refine working.client sender ?_ ?_ ?_ _
      · intro state point serves
        rw [Serves, mine] at serves
        obtain ⟨engaged, meets⟩ := serves
        rw [sender] at meets
        rw [Serves]
        simp only [mine, Function.update_self]
        refine ⟨engaged, ?_⟩
        rw [Meets, if_pos rfl]
        exact Early.written meets
      · intro pipe' other p point meets
        rw [Meets, if_neg other.symm]
        exact meets
      · intro _ _
        exact attached_of_opened mine
    · cases done
      refine working.setSender sender (fun _ _ _ _ meets => ?_) _ _
      exact meets
  · cases done

theorem working_readFile (working : Working s) (done : s.readFile t = some s') : Working s' := by
  unfold readFile at done
  split at done
  · next message pipe sender =>
    split at done
    · next mine =>
      split at done
      · cases done
        unfold closeHandle
        rw [if_pos mine]
        refine working.client sender ?_ ?_ ?_ _
        · intro state point serves
          exact serves.closed mine _
        · intro pipe' other p point meets
          rw [Meets, if_neg other.symm] at meets
          exact meets
        · exact fun left => absurd rfl left
      · cases done
    · next lost =>
      cases done
      refine working.setSender sender (fun pipe' p point open_ meets => ?_) _ _
      have other : pipe ≠ pipe' := by
        rintro rfl
        exact lost open_
      rw [Meets, if_neg other] at meets
      exact meets
  · cases done

theorem working_kill (working : Working s) (t : T) : Working (s.kill t) := by
  refine working.of_threads rfl rfl rfl rfl (fun sv pipe state srv => ?_) fun pipe now => ?_
  · have before := working.serves srv
    simp only [kill, PipeSystem.setSender]
    split
    · next mine => exact before.closed mine _
    · next other => exact before.sender fun mine => absurd mine other
  · simp only [Attached, kill] at now
    split at now
    · exact absurd rfl now.1
    · exact now

end Clients

/-! ### Every step -/

variable {s s' : PipeSystem T S E} {e : PipeStep T S E}

/-- An ACK that can be read is for a message that was handled. -/
theorem Working.handled_of_ack (working : Working s) {t : T} {message : E} {pipe : Nat}
    (sender : s.senders t = .written message pipe) (mine : (s.pipes pipe).clientEnd = .opened t)
    (ack : (s.pipes pipe).ack = true) : message ∈ s.handled := by
  obtain ⟨sv, has⟩ := working.table.held pipe (attached_of_opened mine)
  obtain ⟨state, srv⟩ := srv_of_holds has
  have serves := working.serves srv
  rw [Serves, mine] at serves
  obtain ⟨-, meets⟩ := serves
  rw [sender, Meets, if_pos rfl] at meets
  have unread : (s.pipes pipe).ack ≠ false := by
    rw [ack]
    simp
  cases here : (s.threads sv).point with
  | disconnecting =>
    rw [here] at meets
    exact meets.1
  | wait | connecting | reading | handling | acknowledging =>
    rw [here] at meets
    exact absurd meets.2 unread
  | caught =>
    rw [here] at meets
    exact absurd meets unread
  | loop | construct | closing | ended =>
    rw [here] at meets
    exact meets.elim

/-- A client has an instance open, so the agent is up. -/
theorem Proper.up_of_opened (proper : Proper s) {t : T} {pipe : Nat}
    (mine : (s.pipes pipe).clientEnd = .opened t) : s.down = false := by
  by_contra down
  rw [proper.down (by simpa using down)] at mine
  cases mine

variable [DecidableEq T] [DecidableEq S]

/-- What a step that is no call of a server thread leaves alone. -/
structure ClientFrame (s : PipeSystem T S E) (e : PipeStep T S E) (s' : PipeSystem T S E) : Prop where
  threads : s'.threads = s.threads
  shouldRun : s'.shouldRun = s.shouldRun ∨ e = .stop
  down : s'.down = s.down
  handled : s'.handled = s.handled
  acknowledged : ∀ message ∈ s'.acknowledged, message ∈ s.acknowledged ∨
    ∃ t pipe, s.senders t = .written message pipe ∧ (s.pipes pipe).clientEnd = .opened t ∧
      (s.pipes pipe).ack = true

theorem client_frame (stepped : s.step e = some s') (client : ¬ ∃ sv throws, e = .turn sv throws) :
    ClientFrame s e s' := by
  cases e with
  | turn sv throws => exact absurd ⟨sv, throws, rfl⟩ client
  | readFile t =>
    simp only [step, readFile] at stepped
    split at stepped
    · next message pipe sender =>
      split at stepped
      · next mine =>
        split at stepped
        · next ack =>
          cases stepped
          unfold closeHandle
          rw [if_pos mine]
          refine ⟨rfl, Or.inl rfl, rfl, rfl, fun m member => ?_⟩
          rcases List.mem_cons.mp member with rfl | before
          · exact Or.inr ⟨t, pipe, sender, mine, ack⟩
          · exact Or.inl before
        · cases stepped
      · cases stepped
        exact ⟨rfl, Or.inl rfl, rfl, rfl, fun _ => Or.inl⟩
    · cases stepped
  | stop =>
    cases stepped
    exact ⟨rfl, Or.inr rfl, rfl, rfl, fun _ => Or.inl⟩
  | _ =>
    simp only [step, createFile, setMode, writeFile] at stepped
    repeat' split at stepped
    all_goals cases stepped
    all_goals exact ⟨rfl, Or.inl rfl, rfl, rfl, fun _ => Or.inl⟩

theorem working_client (working : Working s) (stepped : s.step e = some s')
    (client : ¬ ∃ sv throws, e = .turn sv throws) : Working s' := by
  cases e with
  | turn sv throws => exact absurd ⟨sv, throws, rfl⟩ client
  | stop =>
    cases stepped
    refine ⟨working.fits, working.table, fun runs => ?_⟩
    cases runs
  | finalize pipe =>
    simp only [step] at stepped
    split at stepped
    · next member =>
      cases stepped
      exact working_finalize working member
    · cases stepped
  | send t message =>
    simp only [step] at stepped
    split at stepped
    · next sender =>
      cases stepped
      refine working.setSender sender (fun _ _ _ _ meets => ?_) _ _
      exact meets
    · cases stepped
  | giveUp t =>
    simp only [step] at stepped
    split at stepped
    · next message sender =>
      split at stepped
      · cases stepped
      · cases stepped
        refine working.setSender sender (fun _ _ _ _ meets => ?_) _ _
        exact meets
    · cases stepped
  | createFile t pipe => exact working_createFile working stepped
  | setMode t succeeds => exact working_setMode working stepped
  | writeFile t => exact working_writeFile working stepped
  | readFile t => exact working_readFile working stepped
  | kill t =>
    cases stepped
    exact working_kill working t

/-- What the end of the agent has closed nobody opens. -/
theorem gone_step (gone : ∀ pipe, (s.pipes pipe).clientEnd = .gone) (down : s.down = true)
    (stepped : s.step e = some s') (pipe : Nat) : (s'.pipes pipe).clientEnd = .gone := by
  have closed : ∀ t pipe, (s.pipes pipe).clientEnd ≠ .opened t := by
    intro t pipe
    rw [gone]
    simp
  cases e with
  | turn sv throws =>
    rw [step, if_pos down] at stepped
    cases stepped
  | stop =>
    cases stepped
    exact gone pipe
  | finalize r =>
    simp only [step] at stepped
    split at stepped
    · cases stepped
      by_cases own : pipe = r <;> simp [setPipe, own, gone]
    · cases stepped
  | send | giveUp =>
    simp only [step] at stepped
    repeat' split at stepped
    all_goals cases stepped
    all_goals exact gone pipe
  | createFile t r =>
    simp only [step, createFile, gone] at stepped
    split at stepped
    · rw [if_neg (by simp)] at stepped
      cases stepped
    · cases stepped
  | setMode =>
    simp only [step, setMode] at stepped
    repeat' split at stepped
    all_goals cases stepped
    all_goals exact gone pipe
  | writeFile t =>
    simp only [step, writeFile] at stepped
    split at stepped
    · rw [if_neg (closed t _)] at stepped
      cases stepped
      exact gone pipe
    · cases stepped
  | readFile t =>
    simp only [step, readFile] at stepped
    split at stepped
    · rw [if_neg (closed t _)] at stepped
      cases stepped
      exact gone pipe
    · cases stepped
  | kill t =>
    cases stepped
    simp only [kill]
    rw [if_neg (closed t pipe)]
    exact gone pipe

theorem proper_step (proper : Proper s) (stepped : s.step e = some s') : Proper s' := by
  by_cases turn : ∃ sv throws, e = .turn sv throws
  · obtain ⟨sv, throws, rfl⟩ := turn
    simp only [step] at stepped
    split at stepped
    · cases stepped
    · next up =>
      have up : s.down = false := by simpa using up
      have frame := turn_frame stepped
      refine ⟨working_turn (proper.up up) stepped, fun down => ?_, fun message member => ?_⟩
      · rcases frame.down with same | ⟨-, gone⟩
        · rw [same, up] at down
          cases down
        · exact gone
      · rw [frame.acknowledged] at member
        exact frame.handled message (proper.told message member)
  · have frame := client_frame stepped turn
    refine ⟨fun up => ?_, fun down => ?_, fun message member => ?_⟩
    · rw [frame.down] at up
      exact working_client (proper.up up) stepped turn
    · rw [frame.down] at down
      exact gone_step (proper.down down) down stepped
    · rw [frame.handled]
      rcases frame.acknowledged message member with before | ⟨t, pipe, sender, mine, ack⟩
      · exact proper.told message before
      · exact (proper.up (proper.up_of_opened mine)).handled_of_ack sender mine ack

omit [DecidableEq T] [DecidableEq S] in
theorem proper_start (name : S → PipeName) : Proper (start name : PipeSystem T S E) := by
  have table : Holders (holds (start name : PipeSystem T S E))
      (Attached (start name : PipeSystem T S E)) 0 [] := by
    constructor
    case held => exact fun pipe attached => absurd rfl attached.2
    all_goals simp [holds, start]
  refine ⟨fun _ => ⟨fun sv => trivial, table, fun _ sv => ?_⟩, ?_, ?_⟩
  · constructor <;> simp [start]
  · simp [start]
  · simp [start]

theorem proper_of_reached {name : S → PipeName} {cond : PipeSystem T S E → PipeStep T S E → Prop}
    (reached : Reached step cond (start name) s) : Proper s :=
  reached.invariant Proper (proper_start name) fun _ _ _ proper _ stepped =>
    proper_step proper stepped

end GuestAgent.Guarantees.PipeServing
