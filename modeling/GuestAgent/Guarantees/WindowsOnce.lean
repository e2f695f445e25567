import GuestAgent.Library.Observation
import GuestAgent.Source.NetworkWorker

/-!
The windows a worker is shown. Each is looked up among the ones before, from the start of the job
on, and one that is known ends the exploration. So all windows of a run but possibly the last are
different, and a guest with few windows cannot keep a worker for ever.
-/
namespace GuestAgent.Guarantees.WindowsOnce
open Library Library.Method Library.Observation Source.Host Source.Host.Work

/-- The hash of a window the guest shows. -/
def windowOf : (i : WorkerCall) × WorkerAnswer i → Option Text
  | ⟨.external .readPossibleInteraction, answer⟩ =>
    match (answer : Except Exn PossibleInteraction) with
    | .ok res => some res.winStatusHash
    | .error _ => none
  | _ => none

/-- A method that is shown no window and does not touch `_noLoop`. -/
abbrev Silent {α : Type} (never : Stop → Prop) (m : Work α) : Prop :=
  Quiet windowOf NetworkWorker.noLoop never m

/-! ### The methods that are shown no window -/

section silent

variable {never : Stop → Prop} (raises : ∀ e, ¬ never (.raised e)) (collation : Collation)
include raises

theorem silent_throw {α : Type} (e : Exn) : Silent never (Work.throw e : Work α) :=
  quiet_raise (raises e)

theorem silent_ofExcept {α : Type} (result : Except Exn α) : Silent never (ofExcept result) := by
  cases result with
  | ok a => exact quiet_pure a
  | error e => exact silent_throw raises e

theorem silent_external {call : ExternalCall}
    (other : ∀ answer, windowOf ⟨.external call, answer⟩ = none) : Silent never (external call) :=
  (quiet_perform other).bind fun _ => silent_ofExcept raises _

omit raises in
theorem silent_mark (b : Branch) : Silent never (mark b) := quiet_modify fun _ => rfl

theorem silent_readInt16 : Silent never readInt16 := silent_external raises fun _ => rfl

theorem silent_readString : Silent never readString := silent_external raises fun _ => rfl

theorem silent_writeInt16 (value : Int16) : Silent never (writeInt16 value) :=
  silent_external raises fun _ => rfl

theorem silent_revertVm : Silent never revertVm :=
  quiet_get.bind fun _ => silent_external raises fun _ => rfl

theorem silent_todoJob : Silent never todoJob := by
  refine quiet_get.bind fun s => ?_
  cases s.todoJob with
  | some t => exact quiet_pure t
  | none => exact silent_throw raises _

theorem silent_mainJob : Silent never Work.mainJob := by
  refine quiet_get.bind fun s => ?_
  cases s.mainJob with
  | some j => exact quiet_pure j
  | none => exact silent_throw raises _

omit raises in
theorem silent_letOthers : Silent never (letOthers collation) :=
  (quiet_perform fun _ => rfl).bind fun _ => quiet_modify fun _ => rfl

omit raises in
theorem silent_execute (statement : Statement) : Silent never (execute collation statement) := by
  refine (silent_letOthers collation).bind fun _ => quiet_get.bind fun _ => ?_
  refine Quiet.bind (quiet_modify ?_) fun _ => quiet_pure _
  intro s
  rfl

theorem silent_popTodoJob : Silent never (popTodoJob collation) := by
  refine (silent_letOthers collation).bind fun _ => quiet_get.bind fun s => ?_
  cases selectJobUnfinished s.tables with
  | nil => exact quiet_modify fun _ => rfl
  | cons first rest =>
    refine (quiet_perform fun _ => rfl).bind fun (k : Nat) => ?_
    refine Quiet.bind (quiet_modify ?_) fun _ => (silent_execute collation _).bind fun res =>
      (silent_throw raises _).ite (quiet_modify fun _ => rfl)
    intro s
    rfl

theorem silent_insertDoneWithError (followedPath xmlError : Text) :
    Silent never (insertDoneWithError collation followedPath xmlError) :=
  (silent_mainJob raises).bind fun _ => (silent_execute collation _).bind fun _ =>
    (silent_throw raises _).ite (quiet_pure ())

theorem silent_insertDone (finalPath xmlResult : Text) :
    Silent never (insertDone collation finalPath xmlResult) :=
  (silent_mainJob raises).bind fun _ => (silent_execute collation _).bind fun _ =>
    (silent_throw raises _).ite (quiet_pure ())

theorem silent_deleteTodoJob : Silent never (deleteTodoJob collation) :=
  (silent_todoJob raises).bind fun _ => (silent_execute collation _).bind fun _ => quiet_pure ()

omit raises in
theorem silent_deleteTodoJobsStartingWithPath (followedPath : Text) :
    Silent never (deleteTodoJobsStartingWithPath collation followedPath) :=
  (silent_execute collation _).bind fun _ => quiet_pure ()

theorem silent_insertAction (controlPath : Text) : Silent never (insertAction collation controlPath) :=
  (silent_mainJob raises).bind fun _ => (silent_execute collation _).bind fun _ => quiet_pure ()

omit raises in
theorem silent_filterDoneOrTodo (paths : List Text) :
    Silent never (filterDoneOrTodo collation paths) := by
  induction paths with
  | nil => exact quiet_pure []
  | cons path rest ih =>
    exact (silent_letOthers collation).bind fun _ => quiet_get.bind fun _ =>
      ih.bind fun _ => quiet_pure _

theorem silent_receiveAck : Silent never receiveAck :=
  (silent_readInt16 raises).bind fun _ => (silent_throw raises _).ite (quiet_pure ())

theorem silent_receiveCallForWork : Silent never receiveCallForWork := by
  refine (silent_readInt16 raises).bind fun ans => (silent_throw raises _).ite ?_
  refine (silent_readString raises).bind fun vmName => ?_
  refine Quiet.bind (quiet_modify ?_) fun _ => silent_external raises fun _ => rfl
  intro s
  rfl

theorem silent_sendWork : Silent never sendWork := by
  refine (silent_mainJob raises).bind fun j => (silent_external raises fun _ => rfl).bind fun _ => ?_
  refine (silent_receiveAck raises).bind fun _ => (silent_external raises fun _ => rfl).bind fun _ => ?_
  exact silent_receiveAck raises

theorem silent_sendCommand (controlId : Text) (intType : Int32) :
    Silent never (sendCommand controlId intType) :=
  (silent_external raises fun _ => rfl).bind fun _ => (silent_readInt16 raises).bind fun _ =>
    (quiet_pure true).ite ((quiet_pure false).ite (silent_throw raises _))

theorem silent_markChosen (res : PossibleInteraction) (controlId : Text) :
    Silent never (markChosen res controlId) := by
  unfold markChosen
  cases res.controls.findIdx? fun c => decide (controlId = c.id) with
  | none => exact silent_throw raises _
  | some id => exact (silent_external raises fun _ => rfl).bind fun _ => quiet_modify fun _ => rfl

theorem silent_nextAction : Silent never nextAction := by
  refine (silent_todoJob raises).bind fun t => ?_
  refine Quiet.bind (quiet_modify ?_) fun _ => silent_ofExcept raises _
  intro s
  rfl

theorem silent_buildHostXmlError (customMessage : String) (e : Exn) :
    Silent never (buildHostXmlError customMessage e) :=
  quiet_get.bind fun _ => silent_external raises fun _ => rfl

theorem silent_receiveUISteps : Silent never receiveUISteps := by
  refine Quiet.attempt_bind (silent_external raises fun _ => rfl) fun r other => ?_
  rcases r with (_ | e) | (_ | _)
  · exact silent_throw raises _
  · exact quiet_raise (other _ rfl)
  · exact silent_throw raises _
  · exact quiet_get.bind fun _ => quiet_pure _

theorem silent_pollTurn : Silent never (pollTurn collation) := by
  refine quiet_get.bind fun s => (quiet_pure false).ite ?_
  refine (silent_receiveCallForWork raises).bind fun _ => (silent_popTodoJob raises collation).bind
    fun _ => quiet_get.bind fun s => ?_
  cases s.mainJob with
  | none => exact (silent_writeInt16 raises _).bind fun _ => quiet_pure true
  | some j => exact (silent_writeInt16 raises _).bind fun _ => quiet_pure true

theorem silent_failed1 (e : Exn) : Silent never (failed1 collation e) :=
  (silent_mark _).bind fun _ => (silent_todoJob raises).bind fun _ =>
    (silent_buildHostXmlError raises _ e).bind fun _ =>
      (silent_insertDoneWithError raises collation _ _).bind fun _ =>
        (silent_deleteTodoJob raises collation).bind fun _ => silent_revertVm raises

theorem silent_cleanUp2 (xmlError : Text) : Silent never (cleanUp2 collation xmlError) :=
  (silent_insertDoneWithError raises collation _ _).bind fun _ => quiet_get.bind fun _ =>
    (silent_deleteTodoJobsStartingWithPath collation _).bind fun _ =>
      silent_deleteTodoJob raises collation

theorem silent_failed2 (e : Exn) : Silent never (failed2 collation e) :=
  (silent_mark _).bind fun _ => (silent_buildHostXmlError raises _ e).bind fun _ =>
    (silent_cleanUp2 raises collation _).bind fun _ => silent_revertVm raises

theorem silent_cleanUp (xmlErrorLog : Text) : Silent never (cleanUp collation xmlErrorLog) :=
  quiet_get.bind fun _ => (silent_insertDoneWithError raises collation _ _).bind fun _ =>
    quiet_get.bind fun _ => silent_deleteTodoJobsStartingWithPath collation _

theorem silent_failed3 (e : Exn) : Silent never (failed3 collation e) :=
  (silent_mark _).bind fun _ => (silent_buildHostXmlError raises _ e).bind fun _ =>
    (silent_cleanUp raises collation _).bind fun _ => silent_revertVm raises

theorem silent_failed4 (e : Exn) : Silent never (failed4 collation e) :=
  (silent_mark _).bind fun _ => (silent_buildHostXmlError raises _ e).bind fun _ =>
    silent_cleanUp raises collation _

theorem silent_phase4 : Silent never (phase4 collation) := by
  refine (silent_receiveUISteps raises).bind fun uisteps => (silent_mainJob raises).bind fun j =>
    (silent_todoJob raises).bind fun t => (silent_external raises fun _ => rfl).bind fun report => ?_
  refine (silent_mark _).bind fun _ => quiet_get.bind fun _ =>
    (silent_insertDone raises collation _ _).bind fun _ =>
      (silent_deleteTodoJob raises collation).bind fun _ => ?_
  exact (silent_readInt16 raises).bind fun ans =>
    ((silent_readString raises).bind fun _ => quiet_pure ()).ite
      ((silent_throw raises _).ite (silent_throw raises _))

/-- The end of a run, behind phase 3. -/
theorem silent_lastPhase : Silent never
    (tryFinally (tryCatch (phase4 collation) (failed4 collation) (pure ())) revertVm) := by
  refine Quiet.attempt_bind (Quiet.attempt_bind (silent_phase4 raises collation) fun r other => ?_)
    fun r other => ?_
  · rcases r with (e | _) | _
    · exact silent_failed4 raises collation e
    · exact quiet_raise (other _ rfl)
    · exact quiet_pure ()
  · cases r with
    | ok _ => exact silent_revertVm raises
    | error e => exact (silent_revertVm raises).bind fun _ => quiet_raise (other e rfl)

end silent

/-! ### Phases 2 and 3 -/

/-- Behind these windows, none of which was known. -/
structure Fresh (s : NetworkWorker) (windows : List Text) (s' : NetworkWorker) : Prop where
  noLoop : s'.noLoop = s.noLoop ++ windows
  nodup : s.noLoop.Nodup → s'.noLoop.Nodup

theorem Fresh.none {s s' : NetworkWorker} (same : s'.noLoop = s.noLoop) : Fresh s [] s' :=
  ⟨by rw [same, List.append_nil], fun nodup => by rwa [same]⟩

theorem Fresh.trans {s s' s'' : NetworkWorker} {first second : List Text} (one : Fresh s first s')
    (two : Fresh s' second s'') : Fresh s (first ++ second) s'' :=
  ⟨by rw [two.noLoop, one.noLoop, List.append_assoc], fun nodup => two.nodup (one.nodup nodup)⟩

/-- New windows; if an exception ends it, there may be another window behind them. -/
def Looks {α : Type} (s : NetworkWorker) (shown : List Text) (r : Except Stop α)
    (s' : NetworkWorker) : Prop :=
  ∃ windows, Fresh s windows s' ∧
    (shown = windows ∨ ∃ last e, shown = windows ++ [last] ∧ r = .error (.raised e))

/-- A turn of a loop; one that goes on has shown a window. -/
def Turn (s : NetworkWorker) (shown : List Text) (r : Except Stop Bool) (s' : NetworkWorker) :
    Prop :=
  Looks s shown r s' ∧ r ≠ .error .unobserved ∧ (r = .ok true → shown.length = 1)

/-- A loop watched for so many turns. -/
def Loop (turns : Nat) (s : NetworkWorker) (shown : List Text) (r : Except Stop Unit)
    (s' : NetworkWorker) : Prop :=
  Looks s shown r s' ∧ (r = .error .unobserved → turns ≤ shown.length)

/-- What ends with an exception has shown nothing known before its last window. -/
theorem Looks.before {α β : Type} {s s' s'' : NetworkWorker} {first second : List Text} {a : α}
    {r : Except Stop β} (one : Looks s first (.ok a : Except Stop α) s')
    (two : Looks s' second r s'') : Looks s (first ++ second) r s'' := by
  obtain ⟨windows, fresh, rfl | ⟨last, e, -, ended⟩⟩ := one
  · obtain ⟨later, fresh', rfl | ⟨last, e, rfl, ended⟩⟩ := two
    · exact ⟨_, fresh.trans fresh', .inl rfl⟩
    · exact ⟨_, fresh.trans fresh', .inr ⟨last, e, (List.append_assoc ..).symm, ended⟩⟩
  · cases ended

theorem Looks.moved {α : Type} {s s' s'' : NetworkWorker} {l : List Text} {r : Except Stop α}
    (same : s'.noLoop = s.noLoop) (looks : Looks s' l r s'') : Looks s l r s'' := by
  obtain ⟨windows, fresh, shown⟩ := looks
  refine ⟨windows, ⟨by rw [fresh.noLoop, same], fun nodup => fresh.nodup (by rwa [same])⟩, shown⟩

theorem Turn.moved {s s' s'' : NetworkWorker} {l : List Text} {r : Except Stop Bool}
    (same : s'.noLoop = s.noLoop) (turn : Turn s' l r s'') : Turn s l r s'' :=
  ⟨turn.1.moved same, turn.2⟩

theorem Turn.raised {s s' : NetworkWorker} (same : s'.noLoop = s.noLoop) (e : Exn) :
    Turn s [] (.error (.raised e)) s' :=
  ⟨⟨[], .none same, .inl rfl⟩, nofun, nofun⟩

/-- A method that is shown no window in front of one that is. -/
theorem turn_behind {α : Type} {m : Work α} {k : α → Work Bool} (first : Silent (· = .unobserved) m)
    (second : ∀ a, Shows windowOf (k a) Turn) : Shows windowOf (m >>= k) Turn := by
  refine Shows.bind first second (fun s l e s' here => ?_) fun s l a s' l' r s'' here there => ?_
  · obtain ⟨rfl, same, other⟩ := here
    cases e with
    | raised e => exact Turn.raised same e
    | unobserved => exact absurd rfl (other _ rfl)
  · rw [here.1, List.nil_append]
    exact there.moved here.2.1

/-- The check of a window and what follows it: the window becomes known, or an exception ends it. -/
def Checked (hash : Text) (s : NetworkWorker) (shown : List Text) (r : Except Stop Bool)
    (s' : NetworkWorker) : Prop :=
  shown = [] ∧ r ≠ .error .unobserved ∧
    (Fresh s [hash] s' ∨ s'.noLoop = s.noLoop ∧ ∃ e, r = .error (.raised e))

/-- A known window raises, another one is added. -/
theorem path_checkLoop {hash : Text} {s s' : NetworkWorker} {r : Except Stop Unit}
    {trace : List ((i : WorkerCall) × WorkerAnswer i)}
    (way : Prog.Path (checkLoop hash s) trace (r, s')) : trace = [] ∧
      (hash ∈ s.noLoop ∧ r = .error (.raised .loop) ∧ s' = s ∨
        hash ∉ s.noLoop ∧ r = .ok () ∧ s' = { s with noLoop := s.noLoop ++ [hash] }) := by
  have body : Prog.Path ((if hash ∈ s.noLoop then Work.throw .loop
    else Method.modify fun s => { s with noLoop := s.noLoop ++ [hash] } : Work Unit) s) trace
      (r, s') := way
  split at body
  · next known =>
    cases body
    exact ⟨rfl, .inl ⟨known, rfl, rfl⟩⟩
  · next unknown =>
    cases body
    exact ⟨rfl, .inr ⟨unknown, rfl, rfl⟩⟩

theorem checked_rest {rest : Work Bool} (silent : Silent (· = .unobserved) rest) (hash : Text) :
    Shows windowOf (do checkLoop hash; rest) (Checked hash) := by
  intro s trace r s' way
  obtain ⟨front, back, ⟨result, middle⟩, rfl, before, after⟩ := path_bind way
  obtain ⟨rfl, ⟨known, rfl, rfl⟩ | ⟨unknown, rfl, rfl⟩⟩ := path_checkLoop before
  · cases after
    exact ⟨rfl, nofun, .inr ⟨rfl, .loop, rfl⟩⟩
  · obtain ⟨unseen, same, other⟩ := silent _ back r s' after
    refine ⟨unseen, fun late => other _ late rfl, .inl ⟨same, fun nodup => ?_⟩⟩
    rw [same]
    exact List.nodup_append'.mpr ⟨nodup, List.nodup_singleton hash, by simpa using unknown⟩

/-- What the guest shows is what is received. -/
theorem shows_receivePossibleInteractions : Shows windowOf receivePossibleInteractions
    fun s shown r s' => s' = s ∧ match r with
      | .ok res => shown = [res.winStatusHash]
      | .error e => shown = [] ∧ e ≠ .unobserved := by
  intro s trace r s' way
  cases way with
  | ask answer rest =>
    cases answer with
    | ok res =>
      cases rest
      exact ⟨rfl, rfl⟩
    | error e =>
      cases rest
      exact ⟨rfl, rfl, nofun⟩

/-- A window is shown and checked. -/
theorem turn_window {rest : PossibleInteraction → Work Bool}
    (silent : ∀ res, Silent (· = .unobserved) (rest res)) :
    Shows windowOf (do
      let res ← receivePossibleInteractions
      checkLoop res.winStatusHash
      rest res) Turn := by
  refine Shows.bind shows_receivePossibleInteractions
    (fun res => checked_rest (silent res) res.winStatusHash) (fun s l e s' here => ?_)
    fun s l res s' l' r s'' here there => ?_
  · obtain ⟨rfl, rfl, other⟩ := here
    cases e with
    | raised e => exact Turn.raised rfl e
    | unobserved => exact absurd rfl other
  · obtain ⟨rfl, rfl⟩ := here
    obtain ⟨rfl, observed, fresh | ⟨same, e, ended⟩⟩ := there
    · exact ⟨⟨_, fresh, .inl rfl⟩, observed, fun _ => rfl⟩
    · refine ⟨⟨[], .none same, .inr ⟨_, e, rfl, ended⟩⟩, observed, fun again => ?_⟩
      rw [ended] at again
      cases again

theorem turn_throw (e : Exn) : Shows windowOf (Work.throw e : Work Bool) Turn :=
  shows_raise fun _ => Turn.raised rfl e

/-- The loop is left before a window is shown. -/
theorem turn_false : Shows windowOf (pure false : Work Bool) Turn :=
  shows_pure fun _ => ⟨⟨[], .none rfl, .inl rfl⟩, nofun, nofun⟩

theorem turn_followTurn : Shows windowOf followTurn Turn := by
  have raises : ∀ e, ¬ Stop.raised e = .unobserved := nofun
  refine turn_behind (silent_todoJob raises) fun t => turn_behind quiet_get fun s => ?_
  split
  · exact turn_false
  refine turn_behind (silent_readInt16 raises) fun status => ?_
  split
  · exact turn_throw _
  refine turn_window fun res => (silent_nextAction raises).bind fun next =>
    (silent_sendCommand raises _ _).bind fun done => ?_
  refine Quiet.ite ?_ (silent_throw raises _)
  refine (silent_markChosen raises res _).bind fun _ => Quiet.bind (quiet_modify ?_) fun _ =>
    quiet_pure true
  intro s
  rfl

theorem turn_discoverTurn (collation : Collation) : Shows windowOf (discoverTurn collation) Turn := by
  have raises : ∀ e, ¬ Stop.raised e = .unobserved := nofun
  refine turn_behind (silent_readInt16 raises) fun status => ?_
  split
  · exact turn_false
  refine turn_window fun res => quiet_get.bind fun s =>
    (silent_filterDoneOrTodo collation _).bind fun paths => ?_
  cases paths with
  | nil =>
    exact (silent_mark _).bind fun _ => (silent_deleteTodoJob raises collation).bind fun _ =>
      (silent_revertVm raises).bind fun _ => quiet_pure true
  | cons fullPathToPerform toDo =>
    refine (quiet_forEach (silent_insertAction raises collation) toDo).bind fun _ =>
      (silent_ofExcept raises _).bind fun chosen => (silent_sendCommand raises _ _).bind fun done => ?_
    refine Quiet.ite ?_ (silent_throw raises _)
    refine (silent_markChosen raises res _).bind fun _ => Quiet.bind (quiet_modify ?_) fun _ =>
      quiet_pure true
    intro s
    rfl

/-- The turns of a loop, one after the other. -/
theorem loop_turns {body : Work Bool} (turn : Shows windowOf body Turn) (turns : Nat) :
    Shows windowOf (repeatWhile .unobserved body turns) (Loop turns) := by
  induction turns with
  | zero => exact shows_raise fun s => ⟨⟨[], .none rfl, .inl rfl⟩, fun _ => Nat.le_refl 0⟩
  | succ turns ih =>
    have later : ∀ again : Bool, Shows windowOf
        (if again then repeatWhile .unobserved body turns else pure () : Work Unit)
        fun s l r s' => if again then Loop turns s l r s' else l = [] ∧ s' = s ∧ r = .ok () := by
      intro again
      cases again with
      | true => exact ih
      | false => exact shows_pure fun s => ⟨rfl, rfl, rfl⟩
    refine Shows.bind turn later (fun s l e s' here => ?_) fun s l again s' l' r s'' here there => ?_
    · obtain ⟨⟨windows, fresh, shown⟩, observed, -⟩ := here
      refine ⟨⟨windows, fresh, shown.imp_right ?_⟩, fun late => ?_⟩
      · rintro ⟨last, e', rfl, ended⟩
        cases ended
        exact ⟨last, e', rfl, rfl⟩
      · cases late
        exact absurd rfl observed
    · obtain ⟨looks, -, counts⟩ := here
      cases again with
      | true =>
        refine ⟨looks.before there.1, fun late => ?_⟩
        have one := counts rfl
        have others := there.2 late
        rw [List.length_append]
        omega
      | false =>
        obtain ⟨rfl, rfl, rfl⟩ := there
        obtain ⟨windows, fresh, rfl | ⟨last, e, -, ended⟩⟩ := looks
        · exact ⟨⟨l, fresh, .inl (List.append_nil l)⟩, nofun⟩
        · cases ended

/-! ### The whole run -/

/-- The part of a run behind phase 1, its loops watched for so many turns. -/
def Run (turns : Nat) (s : NetworkWorker) (shown : List Text) (r : Except Stop Unit)
    (s' : NetworkWorker) : Prop :=
  ∃ windows, Fresh s windows s' ∧ (shown = windows ∨ ∃ last, shown = windows ++ [last]) ∧
    (r = .error .unobserved → shown = windows ∧ turns ≤ shown.length)

theorem Run.silent {turns : Nat} {m : Work Unit} (silent : Silent (· = .unobserved) m) :
    Shows windowOf m (Run turns) :=
  Shows.mono silent fun _ _ _ _ ⟨unseen, same, other⟩ =>
    ⟨[], .none same, .inl unseen, fun late => absurd rfl (other _ late)⟩

/-- A `try` block, its handler, and what comes behind them. -/
theorem shows_tryCatch {body rest : Work Unit} {handler : Exn → Work Unit}
    {spec caught later whole : NetworkWorker → List Text → Except Stop Unit → NetworkWorker → Prop}
    (first : Shows windowOf body spec) (handles : ∀ e, Shows windowOf (handler e) caught)
    (behind : Shows windowOf rest later)
    (goes : ∀ s l s' l' r s'', spec s l (.ok ()) s' → later s' l' r s'' → whole s (l ++ l') r s'')
    (raised : ∀ s l e s' l' r s'', spec s l (.error (.raised e)) s' → caught s' l' r s'' →
      whole s (l ++ l') r s'')
    (late : ∀ s l s', spec s l (.error .unobserved) s' → whole s l (.error .unobserved) s') :
    Shows windowOf (tryCatch body handler rest) whole := by
  intro s trace r s'' way
  obtain ⟨front, back, ⟨result, _⟩, rfl, before, after⟩ := path_bind way
  obtain ⟨inside, rest, ⟨inner, s'⟩, rfl, within, last⟩ := path_bind before
  cases last
  have here := first s inside inner s' within
  rw [List.append_nil, List.filterMap_append]
  rcases inner with (e | _) | _
  · exact raised s _ e s' _ r s'' here (handles e s' back r s'' after)
  · cases after
    rw [List.filterMap_nil, List.append_nil]
    exact late s _ s' here
  · exact goes s _ s' _ r s'' here (behind s' back r s'' after)

/-- A loop, a handler that is shown nothing, and what comes behind them. -/
theorem run_tryCatch {turns : Nat} {body rest : Work Unit} {handler : Exn → Work Unit}
    (loop : Shows windowOf body (Loop turns)) (silent : ∀ e, Silent (· = .unobserved) (handler e))
    (behind : Shows windowOf rest (Run turns)) :
    Shows windowOf (tryCatch body handler rest) (Run turns) := by
  refine shows_tryCatch loop silent behind ?_ ?_ ?_
  · intro s l s' l' r s'' here there
    obtain ⟨⟨windows, fresh, rfl | ⟨_, _, _, ended⟩⟩, -⟩ := here
    · obtain ⟨windows', fresh', shown', counts'⟩ := there
      refine ⟨l ++ windows', fresh.trans fresh', ?_, fun late => ?_⟩
      · rcases shown' with rfl | ⟨last, rfl⟩
        · exact .inl rfl
        · exact .inr ⟨last, (List.append_assoc ..).symm⟩
      · obtain ⟨rfl, enough⟩ := counts' late
        refine ⟨rfl, ?_⟩
        rw [List.length_append]
        omega
    · cases ended
  · intro s l e s' l' r s'' here there
    obtain ⟨⟨windows, fresh, shown⟩, -⟩ := here
    obtain ⟨rfl, same, observed⟩ := there
    rw [List.append_nil]
    have all := fresh.trans (.none same)
    rw [List.append_nil] at all
    refine ⟨windows, all, ?_, fun late => absurd rfl (observed _ late)⟩
    exact shown.imp_right fun ⟨last, _, same, _⟩ => ⟨last, same⟩
  · intro s l s' here
    obtain ⟨⟨windows, fresh, rfl | ⟨_, _, _, ended⟩⟩, counts⟩ := here
    · exact ⟨l, fresh, .inl rfl, fun _ => ⟨rfl, counts rfl⟩⟩
    · cases ended

/-- The windows a whole run shows. -/
structure ShownOnce (turns : Nat) (r : Except Stop Unit) (shown : List Text) : Prop where
  /-- All are different but possibly the last. -/
  distinct : shown.dropLast.Nodup
  /-- A run that goes on for longer than it is watched shows a new window every turn, or has not
  begun with the job. -/
  late : r = .error .unobserved → shown = [] ∨ shown.Nodup ∧ turns ≤ shown.length

theorem ShownOnce.of_run {turns : Nat} {s s' : NetworkWorker} {shown : List Text}
    {r : Except Stop Unit} (run : Run turns s shown r s') (nodup : s.noLoop.Nodup) :
    ShownOnce turns r shown := by
  obtain ⟨windows, fresh, shown, late⟩ := run
  have all := fresh.nodup nodup
  rw [fresh.noLoop] at all
  have windows := (List.nodup_append'.mp all).2.1
  refine ⟨?_, fun unobserved => ?_⟩
  · rcases shown with rfl | ⟨last, rfl⟩
    · exact windows.sublist (List.dropLast_sublist _)
    · rwa [List.dropLast_concat]
  · obtain ⟨rfl, enough⟩ := late unobserved
    exact .inr ⟨windows, enough⟩

theorem silent_phase1 (collation : Collation) (turns : Nat) :
    Silent (fun _ => False) (phase1 collation turns) := by
  have raises : ∀ e : Exn, ¬ False := fun _ => id
  exact (quiet_repeatWhile (silent_pollTurn raises collation) id turns).bind fun _ =>
    (silent_sendWork raises).bind fun _ => silent_receiveAck raises

theorem run_behind (collation : Collation) (turns : Nat) : Shows windowOf
    (tryCatch (phase2 turns) (failed2 collation) <|
      tryCatch (phase3 collation turns) (failed3 collation) <|
        tryFinally (tryCatch (phase4 collation) (failed4 collation) (pure ())) revertVm)
    (Run turns) := by
  have raises : ∀ e, ¬ Stop.raised e = .unobserved := nofun
  apply run_tryCatch (loop_turns turn_followTurn turns) (silent_failed2 raises collation)
  apply run_tryCatch (loop_turns (turn_discoverTurn collation) turns) (silent_failed3 raises collation)
  exact Run.silent (silent_lastPhase raises collation)

theorem shows_run (collation : Collation) (turns : Nat) :
    Shows windowOf (run collation turns) fun s shown r _ =>
      s.noLoop.Nodup → ShownOnce turns r shown := by
  have silent : ∀ e, Silent (· = .unobserved) (failed1 collation e) := silent_failed1 nofun collation
  have behind : Shows windowOf (do
      Method.modify fun s => { s with followedPath := uriAppStart }
      tryCatch (phase2 turns) (failed2 collation) <|
        tryCatch (phase3 collation turns) (failed3 collation) <|
          tryFinally (tryCatch (phase4 collation) (failed4 collation) (pure ())) revertVm)
      fun s l r _ => s.noLoop.Nodup → ShownOnce turns r l := by
    intro s trace r s' way nodup
    obtain ⟨front, back, ⟨result, middle⟩, rfl, before, after⟩ := path_bind way
    cases before
    have ran := run_behind collation turns { s with followedPath := uriAppStart } back r s' after
    exact ShownOnce.of_run ran nodup
  refine shows_tryCatch (silent_phase1 collation turns) silent behind ?_ ?_ ?_
  · intro s l s' l' r s'' here there nodup
    obtain ⟨rfl, same, -⟩ := here
    rw [List.nil_append]
    exact there (by rwa [same])
  · intro s l e s' l' r s'' here there _
    obtain ⟨rfl, -⟩ := here
    obtain ⟨rfl, -⟩ := there
    exact ⟨List.nodup_nil, fun _ => .inl rfl⟩
  · intro s l s' here _
    obtain ⟨rfl, -⟩ := here
    exact ⟨List.nodup_nil, fun _ => .inl rfl⟩

/-- On every way through the run of a worker, whatever the guest, the database and the file system
answer: no window is looked at twice but perhaps the last, and as long as the exploration goes on
every turn shows a new one. -/
theorem windows_shown_once (collation : Collation) (tables : Tables) (turns : Nat)
    {trace : List ((i : WorkerCall) × WorkerAnswer i)} {r : Except Stop Unit} {s' : NetworkWorker}
    (way : Goes (run collation turns) (.new tables) trace r s') :
    ShownOnce turns r (trace.filterMap windowOf) :=
  shows_run collation turns _ trace r s' way List.nodup_nil

/-- A window with nothing to do in it. -/
def welcome : PossibleInteraction := ⟨"f00d".toList, []⟩

/-- One job that nobody has begun. -/
def oneWaiting : Tables :=
  ⟨Table.empty.insert ⟨"setup.exe".toList, "d41d8c".toList, false⟩,
    Table.empty.insert ⟨1, uriAppStart, false⟩, Table.empty⟩

/-- A guest that asks for a job and then shows one window again and again. -/
def sameWindow (n : Nat) : (call : WorkerCall) → WorkerAnswer call
  | .others => ([] : List Statement)
  | .limit _ => (0 : Nat)
  | .external call => match call with
    | .readInt16 =>
      let number := if n = 0 then Protocol.jobPollMsg
        else if n < 12 then Protocol.ack else Protocol.processGoing
      (.ok number : Except Exn Int16)
    | .readPossibleInteraction => (.ok welcome : Except Exn PossibleInteraction)
    | .readString | .drawBitmap _ | .saveReport _ _ _ | .writeErrorXml _ _ =>
      (.ok [] : Except Exn Text)
    | .readMachineInfo => (.ok true : Except Exn Bool)
    | .writeInt16 _ | .configureLogger _ | .sendFileInfo _ | .sendFileBytes _ | .writeCommand _ _
    | .revertVm _ => (.ok () : Except Exn Unit)

/-- The calls of the worker, and how it ends. -/
def sameWindowRun : List ((i : WorkerCall) × WorkerAnswer i) × Except Stop Unit × NetworkWorker :=
  followScript sameWindow 0 (run .binary 3 (.new oneWaiting))

/-- The window is looked at twice, and that ends the exploration. -/
theorem windows_shown_once_same : sameWindowRun.1.filterMap windowOf =
    [welcome.winStatusHash, welcome.winStatusHash] ∧
    sameWindowRun.2.2.taken = [.nothingNew, .failed3] ∧
    ShownOnce 3 sameWindowRun.2.1 (sameWindowRun.1.filterMap windowOf) := by
  have way : Goes (run .binary 3) (.new oneWaiting) sameWindowRun.1 sameWindowRun.2.1
      sameWindowRun.2.2 := goes_followScript sameWindow (run .binary 3) (.new oneWaiting)
  exact ⟨by decide +kernel, by decide +kernel, windows_shown_once .binary oneWaiting 3 way⟩

end GuestAgent.Guarantees.WindowsOnce
