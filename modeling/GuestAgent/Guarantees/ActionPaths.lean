import Mathlib.Data.List.TakeWhile
import GuestAgent.Guarantees.WorkerSteps

/-!
Stored paths of actions. A path is read back as the actions it was built from, recorded by phase 3
and followed by phase 2, exactly if no control id contains one of the two separators. The path a
job starts with is not the path of no action; reading its first action raises.
-/
namespace GuestAgent.Guarantees.ActionPaths
open Library Library.Method Source.Host Source.Host.Work WorkerSteps

/-! ### Integers -/

theorem digits_toDigits (n : Nat) : digits (Nat.toDigits 10 n) = some n := by
  have all : (Nat.toDigits 10 n).all Char.isDigit = true := List.all_eq_true.mpr fun c member =>
    Nat.isDigit_of_mem_toDigits (by decide) (by decide) member
  rw [digits, if_pos ⟨Nat.toDigits_ne_nil, all⟩, Nat.ofDigitChars_toDigits (by decide) (by decide)]

/-- A sign or a digit. -/
def Numeral (c : Char) : Prop := c = '-' ∨ c.isDigit = true

theorem numeral_of_mem {n : Int32} {c : Char} (member : c ∈ intToString n) : Numeral c := by
  unfold intToString at member
  split at member
  · exact .inr (Nat.isDigit_of_mem_toDigits (by decide) (by decide) member)
  · rcases List.mem_cons.mp member with sign | digit
    · exact .inl sign
    · exact .inr (Nat.isDigit_of_mem_toDigits (by decide) (by decide) digit)

theorem Numeral.visible {c : Char} (numeral : Numeral c) :
    isWhite c = false ∧ c ≠ '\x00' ∧ c ≠ '/' ∧ c ≠ '=' := by
  rcases numeral with rfl | digit
  · decide
  · rw [Char.isDigit_iff_toNat] at digit
    have bounds : 48 ≤ c.toNat ∧ c.toNat ≤ 57 := digit
    have apart (d : Char) (outside : d.toNat < 48 ∨ 57 < d.toNat) : c ≠ d := by
      rintro rfl
      omega
    refine ⟨?_, apart _ (by decide), apart _ (by decide), apart _ (by decide)⟩
    unfold isWhite
    simp only [apart ' ' (by decide), decide_false, Bool.false_or, Bool.and_eq_false_iff,
      decide_eq_false_iff_not]
    omega

theorem trimNumber_intToString (n : Int32) : trimNumber (intToString n) = intToString n := by
  have stays (q : Char → Bool) (text : Text) (quiet : ∀ c ∈ text, q c = false) :
      text.dropWhile q = text := by
    rw [List.dropWhile_eq_self_iff]
    intro _
    simp [quiet]
  have white : ∀ c ∈ intToString n, isWhite c = false := fun c member =>
    (numeral_of_mem member).visible.1
  have null : ∀ c ∈ (intToString n).reverse, decide (c = '\x00') = false := by
    intro c member
    simpa using (numeral_of_mem (List.mem_reverse.mp member)).visible.2.1
  have white' : ∀ c ∈ (intToString n).reverse, isWhite c = false := fun c member =>
    white c (List.mem_reverse.mp member)
  rw [trimNumber, stays _ _ white, stays _ _ null, stays _ _ white', List.reverse_reverse]

theorem signed_toDigits (n : Nat) : signed (Nat.toDigits 10 n) = some (n : Int) := by
  have read := digits_toDigits n
  have all : ∀ c ∈ Nat.toDigits 10 n, c.isDigit = true := fun c member =>
    Nat.isDigit_of_mem_toDigits (by decide) (by decide) member
  unfold signed
  split
  · next text eq => exact absurd (all '-' (by rw [eq]; exact List.mem_cons_self)) (by decide)
  · next text eq => exact absurd (all '+' (by rw [eq]; exact List.mem_cons_self)) (by decide)
  · rw [read]
    rfl

theorem signed_intToString (n : Int32) : signed (intToString n) = some n.toInt := by
  unfold intToString
  split
  · next m value =>
    rw [signed_toDigits, value]
    rfl
  · next m value =>
    rw [signed, digits_toDigits, value]
    rfl

theorem intToString_ne_nil (n : Int32) : intToString n ≠ [] := by
  unfold intToString
  split
  · exact Nat.toDigits_ne_nil
  · exact List.cons_ne_nil _ _

theorem intParse_intToString (n : Int32) : intParse (intToString n) = .ok n := by
  have bounds : -0x80000000 ≤ n.toInt ∧ n.toInt < 0x80000000 := ⟨n.le_toInt, n.toInt_lt⟩
  rw [intParse, trimNumber_intToString, signed_intToString]
  simp only [bounds, and_self, if_true, Int32.ofInt_toInt]

/-! ### Paths -/

/-- An action as it stands in a path. -/
def entry (c : Control) : Text := c.id ++ '=' :: intToString c.interactionId

/-- The path `BuildPaths` makes for the last of these actions, once the others are followed. -/
def pathOf (actions : List Control) : Text := actions.foldl extendPath uriAppStart

/-- No control id contains a separator. -/
def Separable (actions : List Control) : Prop := ∀ c ∈ actions, '/' ∉ c.id ∧ '=' ∉ c.id

instance (actions : List Control) : Decidable (Separable actions) :=
  inferInstanceAs (Decidable (∀ c ∈ actions, '/' ∉ c.id ∧ '=' ∉ c.id))

theorem extendPath_eq (followedPath : Text) (c : Control) :
    extendPath followedPath c = followedPath ++ (entry c ++ [uriPathSep]) := by
  simp [extendPath, entry]

theorem foldl_extendPath (followedPath : Text) (actions : List Control) :
    actions.foldl extendPath followedPath =
      followedPath ++ Split.terminated uriPathSep (actions.map entry) := by
  induction actions generalizing followedPath with
  | nil => simp
  | cons c actions ih =>
    rw [List.foldl_cons, ih, extendPath_eq, List.map_cons, Split.terminated_cons]
    simp

theorem pathOf_eq (actions : List Control) :
    pathOf actions = uriAppStart ++ Split.terminated uriPathSep (actions.map entry) :=
  foldl_extendPath uriAppStart actions

theorem entry_ne_nil (c : Control) : entry c ≠ [] := by simp [entry]

theorem not_mem_entry {c : Control} (fresh : '/' ∉ c.id) : uriPathSep ∉ entry c := by
  unfold entry
  rw [List.mem_append, List.mem_cons]
  rintro (inId | same | inNumber)
  · exact fresh inId
  · exact absurd same (by decide)
  · exact (numeral_of_mem inNumber).visible.2.2.1 rfl

theorem not_mem_intToString (n : Int32) : '=' ∉ intToString n := fun member =>
  (numeral_of_mem member).visible.2.2.2 rfl

theorem parseAction_entry {c : Control} (fresh : '=' ∉ c.id) :
    TodoJob.parseAction (entry c) = .ok ⟨c.id, c.interactionId, entry c⟩ := by
  have cut : (entry c).splitOn '=' = [c.id, intToString c.interactionId] := by
    rw [entry, List.splitOn_append_cons_self_of_not_mem fresh,
      List.splitOn_eq_singleton (not_mem_intToString _)]
  rw [TodoJob.parseAction, cut]
  simp only [intParse_intToString]
  rfl

/-- What phase 3 cuts out of the path it has chosen. -/
theorem lastAction_extendPath {c : Control} (nonempty : c.id ≠ []) (fresh : '/' ∉ c.id)
    (fresh' : '=' ∉ c.id) {followedPath before : Text} (closed : followedPath = before ++ ['/']) :
    lastAction (extendPath followedPath c) = .ok c := by
  have last : (Split.pieces uriPathSep (extendPath followedPath c)).getLast? = some (entry c) := by
    have shape : extendPath followedPath c =
        before ++ uriPathSep :: (entry c ++ uriPathSep :: []) := by
      rw [extendPath_eq, closed]
      simp [uriPathSep]
    rw [shape, Split.pieces_append_cons, Split.pieces_append (not_mem_entry fresh) (entry_ne_nil c),
      Split.pieces_nil, List.getLast?_concat]
  have cut : Split.pieces '=' (entry c) = [c.id, intToString c.interactionId] := by
    rw [entry, Split.pieces_append fresh' nonempty,
      Split.pieces_of_not_mem (not_mem_intToString _) (intToString_ne_nil _)]
  rw [lastAction, last]
  simp only [cut, intParse_intToString]
  rfl

/-- Only the start of a path contains `APPSTART://`. -/
theorem not_infix_terminated {list : List Text} (fresh : ∀ p ∈ list, uriPathSep ∉ p)
    (nonempty : ∀ p ∈ list, p ≠ []) : ¬ uriAppStart <:+: Split.terminated uriPathSep list := by
  intro occurs
  have slashes : [uriPathSep, uriPathSep] <:+: uriAppStart := by decide
  exact Split.not_infix_terminated fresh nonempty (slashes.trans occurs)

/-! ### Reading a path -/

/-- The calls of `NextAction` that are left return these actions, and then there are no more. -/
def Yields : List Control → TodoJob → Prop
  | [], t => t.hasNextAction = false
  | c :: rest, t => t.hasNextAction = true ∧
      (∃ a, t.nextAction.1 = .ok a ∧ a.controlId = c.id ∧ a.interactionType = c.interactionId) ∧
      Yields rest t.nextAction.2

/-- The entries that are left are those of these actions. -/
def Left (t : TodoJob) (actions : List Control) : Prop :=
  t.actions.drop t.currentAction = actions.map entry

theorem new_actions {actions : List Control} (fresh : ∀ c ∈ actions, '/' ∉ c.id) (id : Nat) :
    (TodoJob.new id (pathOf actions)).actions = actions.map entry := by
  have fresh' : ∀ p ∈ actions.map entry, uriPathSep ∉ p :=
    List.forall_mem_map.mpr fun c member => not_mem_entry (fresh c member)
  have nonempty : ∀ p ∈ actions.map entry, p ≠ [] :=
    List.forall_mem_map.mpr fun c _ => entry_ne_nil c
  have cut : Split.cut uriAppStart (pathOf actions) =
      [[], Split.terminated uriPathSep (actions.map entry)] := by
    rw [pathOf_eq, Split.cut_append (by decide) (not_infix_terminated fresh' nonempty)]
  have read := Split.pieces_terminated fresh' nonempty
  unfold TodoJob.new
  simp only [cut]
  cases body : Split.terminated uriPathSep (actions.map entry) with
  | nil =>
    rw [body, Split.pieces_nil] at read
    rw [← read]
    rfl
  | cons c rest =>
    rw [body] at read
    rw [← read]
    rfl

theorem left_new {actions : List Control} (separable : Separable actions) (id : Nat) :
    Left (.new id (pathOf actions)) actions :=
  new_actions (fun c member => (separable c member).1) id

section left

variable {t : TodoJob} {c : Control} {actions : List Control}

theorem hasNextAction_nil (left : Left t []) : t.hasNextAction = false := by
  have short : t.actions.length ≤ t.currentAction := by
    rw [← List.drop_eq_nil_iff]
    exact left
  simpa [TodoJob.hasNextAction] using short

theorem getElem?_left (left : Left t (c :: actions)) :
    t.actions[t.currentAction]? = some (entry c) := by
  rw [← List.head?_drop, left]
  rfl

theorem hasNextAction_cons (left : Left t (c :: actions)) : t.hasNextAction = true := by
  obtain ⟨inside, -⟩ := List.getElem?_eq_some_iff.mp (getElem?_left left)
  simpa [TodoJob.hasNextAction] using inside

theorem nextAction_left (left : Left t (c :: actions)) (fresh : '=' ∉ c.id) :
    t.nextAction = (.ok ⟨c.id, c.interactionId, entry c⟩,
      { t with currentAction := t.currentAction + 1 }) := by
  rw [TodoJob.nextAction, getElem?_left left]
  simp only [parseAction_entry fresh]

theorem left_later (left : Left t (c :: actions)) :
    Left { t with currentAction := t.currentAction + 1 } actions := by
  unfold Left
  rw [← List.tail_drop, left]
  rfl

theorem yields_of_left {t : TodoJob} {actions : List Control} (separable : Separable actions)
    (left : Left t actions) : Yields actions t := by
  induction actions generalizing t with
  | nil => exact hasNextAction_nil left
  | cons c actions ih =>
    rw [Separable, List.forall_mem_cons] at separable
    have next := nextAction_left left separable.1.2
    refine ⟨hasNextAction_cons left, ?_, ?_⟩
    · rw [next]
      exact ⟨_, rfl, rfl, rfl⟩
    · rw [next]
      exact ih separable.2 (left_later left)

end left

/-- A control id that is read has no `=`, and no character its entry does not have. -/
theorem parseAction_controlId {current : Text} {a : TodoJob.Action}
    (read : TodoJob.parseAction current = .ok a) :
    '=' ∉ a.controlId ∧ ∀ c ∈ a.controlId, c ∈ current := by
  unfold TodoJob.parseAction at read
  split at read
  · next controlId interactionType _ cut =>
    have member : controlId ∈ current.splitOn '=' := by
      rw [cut]
      exact List.mem_cons_self
    cases number : intParse interactionType with
    | error e =>
      rw [number] at read
      cases read
    | ok n =>
      rw [number] at read
      cases read
      exact Split.of_mem_splitOn member
  · cases read

theorem nextAction_actions (t : TodoJob) : t.nextAction.2.actions = t.actions := by
  unfold TodoJob.nextAction
  split <;> rfl

theorem separable_of_yields {t : TodoJob} {actions : List Control}
    (fresh : ∀ p ∈ t.actions, '/' ∉ p) (yields : Yields actions t) : Separable actions := by
  induction actions generalizing t with
  | nil => exact List.forall_mem_nil _
  | cons c actions ih =>
    obtain ⟨-, ⟨a, read, id, -⟩, rest⟩ := yields
    have later : Separable actions := ih (by rwa [nextAction_actions]) rest
    have here : '/' ∉ c.id ∧ '=' ∉ c.id := by
      rw [← id]
      unfold TodoJob.nextAction at read
      split at read
      · cases read
      · next current at_ =>
        obtain ⟨noEq, inside⟩ := parseAction_controlId read
        exact ⟨fun slash => fresh current (List.mem_of_getElem? at_) (inside _ slash), noEq⟩
    exact List.forall_mem_cons.mpr ⟨here, later⟩

/-- The entries of a path never contain its separator. -/
theorem not_mem_actions (id : Nat) (actionPath : Text) :
    ∀ p ∈ (TodoJob.new id actionPath).actions, uriPathSep ∉ p := by
  intro p member
  unfold TodoJob.new at member
  simp only at member
  split at member
  · cases member
  · exact Split.not_mem_of_mem_pieces member

/-! ### Recording a path -/

/-- The turns of phase 3 that choose these actions: each time the last action is cut out of a path
from `BuildPaths` and put behind `followedPath`. -/
def record (followedPath : Text) (actions : List Control) : Except Exn Text :=
  actions.foldlM (fun followedPath c => do
    return extendPath followedPath (← lastAction (extendPath followedPath c))) followedPath

theorem record_eq {actions : List Control} {followedPath before : Text}
    (separable : Separable actions) (nonempty : ∀ c ∈ actions, c.id ≠ [])
    (closed : followedPath = before ++ ['/']) :
    record followedPath actions = .ok (actions.foldl extendPath followedPath) := by
  unfold record
  induction actions generalizing followedPath before with
  | nil => rfl
  | cons c actions ih =>
    rw [Separable, List.forall_mem_cons] at separable
    rw [List.forall_mem_cons] at nonempty
    have closed' : extendPath followedPath c = (followedPath ++ entry c) ++ ['/'] := by
      rw [extendPath_eq, uriPathSep, List.append_assoc]
    rw [List.foldlM_cons, lastAction_extendPath nonempty.1 separable.1.1 separable.1.2 closed]
    exact ih separable.2 nonempty.2 closed'

theorem record_concat {followedPath later : Text} {actions : List Control} {c a : Control}
    (before : record followedPath actions = .ok later)
    (chosen : lastAction (extendPath later c) = .ok a) :
    record followedPath (actions ++ [c]) = .ok (extendPath later a) := by
  unfold record at before ⊢
  rw [List.foldlM_append, before]
  simp [chosen, bind, Except.bind, pure, Except.pure]

/-- The path was recorded from `start`. -/
def Recorded (start path : Text) : Prop := ∃ actions, record start actions = .ok path

theorem Recorded.extend {start path : Text} {c a : Control} (recorded : Recorded start path)
    (chosen : lastAction (extendPath path c) = .ok a) : Recorded start (extendPath path a) := by
  obtain ⟨actions, before⟩ := recorded
  exact ⟨actions ++ [c], record_concat before chosen⟩

section phase3

variable {collation : Collation} {s : NetworkWorker} {start : Text}

theorem keeps_followedPath {α : Type} {m : Work α} (keeps : Keeps shown m) :
    Keeps NetworkWorker.followedPath m :=
  keeps.image fun view => view.2.2.1

theorem keeps_execute (statement : Statement) :
    Keeps NetworkWorker.followedPath (execute collation statement) := by
  intro s
  rw [wp_execute]
  intro statements
  rfl

theorem keeps_deleteTodoJob : Keeps NetworkWorker.followedPath (deleteTodoJob collation) :=
  (keeps_followedPath keeps_todoJob).bind fun _ => (keeps_execute _).bind fun _ => keeps_pure ()

theorem keeps_insertAction (controlPath : Text) :
    Keeps NetworkWorker.followedPath (insertAction collation controlPath) :=
  (keeps_followedPath keeps_mainJob).bind fun _ => (keeps_execute _).bind fun _ => keeps_pure ()

/-- Only paths that were given come back. -/
theorem wp_filterDoneOrTodo (paths : List Text) : wp (filterDoneOrTodo collation paths)
    (Then (fun kept s' => s'.followedPath = s.followedPath ∧ ∀ p ∈ kept, p ∈ paths)
      fun _ s' => s'.followedPath = s.followedPath) s := by
  induction paths generalizing s with
  | nil => exact ⟨rfl, nofun⟩
  | cons p paths ih =>
    unfold filterDoneOrTodo
    rw [wp_bind, wp_letOthers]
    intro statements
    rw [then_ok, wp_bind, wp_get, then_ok, wp_bind]
    refine wp_mono (fun r s' rest => ?_) ih
    cases r with
    | error stop => exact rest
    | ok kept =>
      refine ⟨rest.1, fun q member => ?_⟩
      rcases List.mem_append.mp member with here | later
      · have same := List.mem_of_mem_filter here
        rw [List.mem_singleton] at same
        rw [same]
        exact List.mem_cons_self
      · exact List.mem_cons_of_mem p (rest.2 q later)

/-- What is sent for a path of `BuildPaths` is what is recorded. -/
theorem wp_choose {c : Control} {path : Text} (recorded : Recorded start path)
    (now : s.followedPath = path) (res : PossibleInteraction) : wp (do
      let chosen ← ofExcept (lastAction (extendPath path c))
      if ← sendCommand chosen.id chosen.interactionId then
        markChosen res chosen.id
        modify fun s => { s with followedPath := extendPath s.followedPath chosen }
        return true
      else Work.throw .guestCommandFailed) (fun _ s' => Recorded start s'.followedPath) s := by
  have closed : ∀ s₁ s₂ : NetworkWorker, s₁.followedPath = path →
      s₂.followedPath = s₁.followedPath → s₂.followedPath = path :=
    fun _ _ now same => same.trans now
  have stays (s' : NetworkWorker) (now : s'.followedPath = path) :
      Recorded start s'.followedPath := by
    rwa [now]
  cases chosen : lastAction (extendPath path c) with
  | error e => exact stays s now
  | ok a =>
    refine (keeps_followedPath (keeps_sendCommand _ _)).wp_bind closed now (fun good s₁ now => ?_)
      fun _ => stays
    split
    · refine (keeps_followedPath (keeps_markChosen _ _)).wp_bind closed now (fun _ s₂ now => ?_)
        fun _ => stays
      rw [wp_bind, wp_modify, then_ok, wp_pure, now]
      exact recorded.extend chosen
    · exact stays s₁ now

/-- A turn of phase 3 records at most one action, chosen from a path of `BuildPaths`. -/
theorem wp_discoverTurn (recorded : Recorded start s.followedPath) :
    wp (discoverTurn collation) (fun _ s' => Recorded start s'.followedPath) s := by
  have closed : ∀ s₁ s₂ : NetworkWorker, s₁.followedPath = s.followedPath →
      s₂.followedPath = s₁.followedPath → s₂.followedPath = s.followedPath :=
    fun _ _ now same => same.trans now
  have stays (s' : NetworkWorker) (now : s'.followedPath = s.followedPath) :
      Recorded start s'.followedPath := by
    rwa [now]
  unfold discoverTurn
  refine (keeps_followedPath keeps_readInt16).wp_bind closed rfl (fun status s₁ now => ?_)
    fun _ => stays
  split
  · exact stays s₁ now
  · refine (keeps_followedPath (keeps_external _)).wp_bind closed now (fun res s₂ now => ?_)
      fun _ => stays
    refine (keeps_followedPath (keeps_checkLoop _)).wp_bind closed now (fun _ s₃ now => ?_)
      fun _ => stays
    simp only [wp_bind, wp_get, then_ok]
    refine wp_mono (fun r s₄ filtered => ?_) (wp_filterDoneOrTodo _)
    cases r with
    | error stop => exact stays s₄ (filtered.trans now)
    | ok kept =>
      have now₄ : s₄.followedPath = s.followedPath := filtered.1.trans now
      cases kept with
      | nil =>
        have quiet : Keeps NetworkWorker.followedPath (do
            mark .nothingNew
            deleteTodoJob collation
            revertVm
            return true) :=
          Keeps.bind (keeps_modify fun _ => rfl) fun _ => keeps_deleteTodoJob.bind fun _ =>
            (keeps_followedPath keeps_revertVm).bind fun _ => keeps_pure true
        exact quiet.wp fun _ s₅ same => stays s₅ (same.trans now₄)
      | cons fullPathToPerform toDo =>
        obtain ⟨c, -, built⟩ := List.mem_map.mp (filtered.2 fullPathToPerform List.mem_cons_self)
        rw [now] at built
        rw [then_ok, ← built, wp_bind]
        refine wp_forEach (fun s' => s'.followedPath = s.followedPath) (fun p _ s' now' => ?_)
          (fun s' now' => ?_) now₄
        · refine (keeps_insertAction p).wp fun r s'' same => ?_
          cases r with
          | error stop => exact stays s'' (same.trans now')
          | ok _ => exact same.trans now'
        · exact wp_choose recorded now' res

/-- What phase 3 leaves in `followedPath` is the record of some actions. -/
theorem wp_phase3 (recorded : Recorded start s.followedPath) (turns : Nat) :
    wp (phase3 collation turns) (fun _ s' => Recorded start s'.followedPath) s := by
  refine wp_repeatWhile (fun s' => Recorded start s'.followedPath) (fun s' now => ?_)
    (fun _ now => now) turns recorded
  refine wp_mono (fun r s'' later => ?_) (wp_discoverTurn now)
  rcases r with stop | (_ | _) <;> exact later

end phase3

/-! ### Following a path -/

/-- A window of the guest, and the image phase 2 makes of it. -/
structure Screen where
  res : PossibleInteraction
  image : Text

/-- The guest shows a new window for each action, and the window has the control. -/
def Cooperates : (noLoop : List Text) → List (Control × Screen) → Prop
  | _, [] => True
  | noLoop, (c, w) :: rest =>
    w.res.winStatusHash ∉ noLoop ∧ (∃ d ∈ w.res.controls, c.id = d.id) ∧
      Cooperates (noLoop ++ [w.res.winStatusHash]) rest

/-- Where the window has the control. -/
def Screen.position (w : Screen) (c : Control) : Nat :=
  w.res.controls.findIdx fun d => decide (c.id = d.id)

abbrev Exchange : Type := (call : WorkerCall) × WorkerAnswer call

/-- The process goes on and shows the window; it is sent the action and performs it. -/
def performs (c : Control) (w : Screen) : List Exchange :=
  [⟨.external .readInt16, .ok Protocol.processGoing⟩,
    ⟨.external .readPossibleInteraction, .ok w.res⟩,
    ⟨.external (.writeCommand c.id c.interactionId), .ok ()⟩,
    ⟨.external .readInt16, .ok Protocol.cmdOkAck⟩,
    ⟨.external (.drawBitmap (w.position c)), .ok w.image⟩]

/-- The actions performed one by one. -/
def conversation (guest : List (Control × Screen)) : List Exchange :=
  guest.flatMap fun turn => performs turn.1 turn.2

section follow

variable {s : NetworkWorker} {t : TodoJob}

theorem goes_external (call : ExternalCall) (a : call.Result) (s : NetworkWorker) :
    Goes (external call) s [⟨.external call, Except.ok a⟩] (.ok a) s := by
  let answer : WorkerAnswer (.external call) := Except.ok a
  exact (goes_perform (WorkerCall.external call) answer s).asking (goes_pure a s)

theorem goes_todoJob (todo : s.todoJob = some t) : Goes todoJob s [] (.ok t) s := by
  unfold todoJob
  refine (goes_get s).silent ?_
  rw [todo]
  exact goes_pure t s

theorem goes_checkLoop {winStatusHash : Text} (new : winStatusHash ∉ s.noLoop) :
    Goes (checkLoop winStatusHash) s [] (.ok ())
      { s with noLoop := s.noLoop ++ [winStatusHash] } := by
  refine (goes_get s).silent ?_
  rw [if_neg new]
  exact goes_modify _ s

theorem goes_nextAction {a : TodoJob.Action} (todo : s.todoJob = some t)
    (next : t.nextAction.1 = .ok a) :
    Goes nextAction s [] (.ok a) { s with todoJob := some t.nextAction.2 } := by
  refine (goes_todoJob todo).silent ((goes_modify _ s).silent ?_)
  rw [next]
  exact goes_pure a _

theorem goes_sendCommand (controlId : Text) (intType : Int32) (s : NetworkWorker) :
    Goes (sendCommand controlId intType) s
      [⟨.external (.writeCommand controlId intType), .ok ()⟩,
        ⟨.external .readInt16, .ok Protocol.cmdOkAck⟩] (.ok true) s := by
  unfold sendCommand
  refine (goes_external (.writeCommand controlId intType) () s).asking ?_
  refine (goes_external .readInt16 Protocol.cmdOkAck s).asking ?_
  exact goes_pure true s

theorem goes_markChosen {c : Control} {w : Screen} (listed : ∃ d ∈ w.res.controls, c.id = d.id) :
    Goes (markChosen w.res c.id) s [⟨.external (.drawBitmap (w.position c)), .ok w.image⟩] (.ok ())
      { s with followedPathBitmaps := s.followedPathBitmaps ++ [w.image] } := by
  have found : w.res.controls.findIdx? (fun d => decide (c.id = d.id)) = some (w.position c) := by
    refine List.findIdx?_eq_some_of_exists ?_
    simpa using listed
  unfold markChosen
  rw [found]
  refine (goes_external (.drawBitmap (w.position c)) w.image s).asking ?_
  exact goes_modify _ s

/-- A turn that performs an action. -/
theorem goes_followTurn {c : Control} {w : Screen} {relativePath : Text} (todo : s.todoJob = some t)
    (more : s.followedPath ≠ t.actionPath)
    (next : t.nextAction.1 = .ok ⟨c.id, c.interactionId, relativePath⟩)
    (new : w.res.winStatusHash ∉ s.noLoop) (listed : ∃ d ∈ w.res.controls, c.id = d.id) :
    Goes followTurn s (performs c w) (.ok true)
      { s with
        noLoop := s.noLoop ++ [w.res.winStatusHash]
        todoJob := some t.nextAction.2
        followedPathBitmaps := s.followedPathBitmaps ++ [w.image]
        followedPath := s.followedPath ++ (relativePath ++ [uriPathSep]) } := by
  unfold followTurn
  refine (goes_todoJob todo).silent ((goes_get s).silent ?_)
  rw [if_neg more]
  refine (goes_external .readInt16 Protocol.processGoing s).asking ?_
  refine (goes_external .readPossibleInteraction w.res s).asking ?_
  refine (goes_checkLoop new).silent ?_
  refine (goes_nextAction (s := { s with noLoop := s.noLoop ++ [w.res.winStatusHash] })
    todo next).silent ?_
  refine (goes_sendCommand c.id c.interactionId _).bind ?_
  refine (goes_markChosen listed).asking ?_
  exact (goes_modify _ _).silent (goes_pure true _)

/-- The turn that finds nothing more to follow. -/
theorem goes_followTurn_end (todo : s.todoJob = some t) (reached : s.followedPath = t.actionPath) :
    Goes followTurn s [] (.ok false) s := by
  unfold followTurn
  refine (goes_todoJob todo).silent ((goes_get s).silent ?_)
  rw [if_pos reached]
  exact goes_pure false s

/-- Phase 2 performs the actions that are left and ends at the stored path. -/
theorem goes_phase2 {guest : List (Control × Screen)} {turns : Nat} (todo : s.todoJob = some t)
    (separable : Separable (guest.map Prod.fst)) (left : Left t (guest.map Prod.fst))
    (rest : t.actionPath = (guest.map Prod.fst).foldl extendPath s.followedPath)
    (cooperates : Cooperates s.noLoop guest) (patience : guest.length < turns) :
    ∃ s', Goes (phase2 turns) s (conversation guest) (.ok ()) s' ∧
      s'.followedPath = t.actionPath := by
  induction guest generalizing s t turns with
  | nil =>
    obtain ⟨later, rfl⟩ : ∃ k, turns = k + 1 := ⟨turns - 1, by omega⟩
    exact ⟨s, (goes_followTurn_end todo rest.symm).leave later, rest.symm⟩
  | cons turn guest ih =>
    obtain ⟨c, w⟩ := turn
    obtain ⟨later, rfl⟩ : ∃ k, turns = k + 1 := ⟨turns - 1, by omega⟩
    obtain ⟨new, listed, cooperates⟩ := cooperates
    rw [List.map_cons] at separable left rest
    rw [Separable, List.forall_mem_cons] at separable
    have next := nextAction_left left separable.1.2
    -- The path is longer than what is followed, by the entries that are left.
    have more : s.followedPath ≠ t.actionPath := by
      rw [rest, foldl_extendPath]
      simp
    have performed := goes_followTurn todo more (by rw [next]) new listed
    rw [next] at performed
    rw [List.foldl_cons, extendPath_eq] at rest
    rw [List.length_cons] at patience
    obtain ⟨s', goes, reached⟩ := ih (s := { s with
        noLoop := s.noLoop ++ [w.res.winStatusHash]
        todoJob := some { t with currentAction := t.currentAction + 1 }
        followedPathBitmaps := s.followedPathBitmaps ++ [w.image]
        followedPath := s.followedPath ++ (entry c ++ [uriPathSep]) })
      rfl separable.2 (left_later left) rest cooperates (Nat.lt_of_succ_lt_succ patience)
    exact ⟨s', performed.again goes, reached⟩

end follow

/-! ### The round trip -/

/-- The path of the actions is what phase 3 records, is read back as the actions, and is followed
by phase 2 to its end, by performing them, with a guest that goes along. -/
structure RoundTrips (actions : List Control) : Prop where
  recorded : record uriAppStart actions = .ok (pathOf actions)
  yields : ∀ id, Yields actions (.new id (pathOf actions))
  followed : ∀ (s : NetworkWorker) (id : Nat) (guest : List (Control × Screen)) (turns : Nat),
    s.todoJob = some (.new id (pathOf actions)) → s.followedPath = uriAppStart →
    guest.map Prod.fst = actions → Cooperates s.noLoop guest → actions.length < turns →
    ∃ s', Goes (phase2 turns) s (conversation guest) (.ok ()) s' ∧ s'.followedPath = pathOf actions

theorem roundTrips_of_separable {actions : List Control} (nonempty : ∀ c ∈ actions, c.id ≠ [])
    (separable : Separable actions) : RoundTrips actions where
  recorded :=
    have closed : uriAppStart = "APPSTART:/".toList ++ ['/'] := by decide
    record_eq separable nonempty closed
  yields id := yields_of_left separable (left_new separable id)
  followed := by
    rintro s id guest turns todo start rfl cooperates patience
    rw [List.length_map] at patience
    have rest : pathOf (guest.map Prod.fst) =
        (guest.map Prod.fst).foldl extendPath s.followedPath := by
      rw [start]
      rfl
    exact goes_phase2 todo separable (left_new separable id) rest cooperates patience

/-! ### The path a job starts with -/

section default

variable {s : NetworkWorker} {id : Nat}

theorem nextAction_default (id : Nat) :
    (TodoJob.new id defaultTodoPath).nextAction.1 = .error .indexOutOfRange := rfl

theorem wp_nextAction_default {post : Except Stop TodoJob.Action → NetworkWorker → Prop}
    (todo : s.todoJob = some (.new id defaultTodoPath))
    (stop : post (.error (.raised .indexOutOfRange))
      { s with todoJob := some (TodoJob.new id defaultTodoPath).nextAction.2 }) :
    wp nextAction post s := by
  unfold nextAction
  rw [wp_bind, wp_todoJob todo, then_ok, wp_bind, wp_modify, then_ok, nextAction_default]
  exact stop

theorem wp_followTurn_default (todo : s.todoJob = some (.new id defaultTodoPath))
    (start : s.followedPath = uriAppStart) :
    wp followTurn (Outcome (fun _ _ => False) fun _ => True) s := by
  have differs : uriAppStart ≠ defaultTodoPath := by decide
  have other : uriAppStart ≠ (TodoJob.new id defaultTodoPath).actionPath := differs
  unfold followTurn
  rw [wp_bind, wp_todoJob todo, then_ok, wp_bind, wp_get, then_ok, start, if_neg other, wp_bind,
    readInt16, wp_external]
  refine ⟨fun status => ?_, fun _ => trivial⟩
  rw [then_ok]
  split
  · trivial
  · rw [wp_bind, receivePossibleInteractions, wp_external]
    refine ⟨fun res => ?_, fun _ => trivial⟩
    rw [then_ok, wp_bind, checkLoop, wp_bind, wp_get, then_ok]
    split
    · trivial
    · rw [wp_modify, then_ok, wp_bind]
      exact wp_nextAction_default todo trivial

/-- Phase 2 never gets through the path a job starts with. -/
theorem wp_phase2_default (todo : s.todoJob = some (.new id defaultTodoPath))
    (start : s.followedPath = uriAppStart) (turns : Nat) :
    wp (phase2 turns) (Outcome (fun _ _ => False) fun _ => True) s := by
  refine wp_repeatWhile
    (fun s => s.todoJob = some (.new id defaultTodoPath) ∧ s.followedPath = uriAppStart) ?_
    (fun _ _ => trivial) turns ⟨todo, start⟩
  rintro s ⟨todo, start⟩
  refine wp_mono (fun r s' never => ?_) (wp_followTurn_default todo start)
  cases r with
  | ok _ => exact never.elim
  | error stop => cases stop <;> trivial

end default

/-- The law holds of the actions whose control ids contain no separator, and of no others. It
never holds of the path a job starts with, which is not the path of no action; phase 2 cannot
return from it. -/
theorem roundTrips_iff_separable (actions : List Control) (nonempty : ∀ c ∈ actions, c.id ≠ []) :
    (RoundTrips actions ↔ Separable actions) ∧ defaultTodoPath ≠ pathOf [] ∧
    ∀ (s : NetworkWorker) (id turns : Nat), s.todoJob = some (.new id defaultTodoPath) →
      s.followedPath = uriAppStart →
      wp (phase2 turns) (Outcome (fun _ _ => False) fun _ => True) s := by
  refine ⟨⟨?_, roundTrips_of_separable nonempty⟩, by decide,
    fun s id turns todo start => wp_phase2_default todo start turns⟩
  intro law
  exact separable_of_yields (not_mem_actions 0 _) (law.yields 0)

/-- A guest whose first window has a button `ok` and whose second a button `go`. -/
def okGuest : List (Control × Screen) :=
  [(⟨"ok".toList, 1⟩, ⟨⟨"first".toList, [⟨"no".toList, 1⟩, ⟨"ok".toList, 1⟩]⟩, "image".toList⟩),
    (⟨"go".toList, -2⟩, ⟨⟨"second".toList, [⟨"go".toList, -2⟩]⟩, "image".toList⟩)]

theorem roundTrips_iff_separable_okGuest :
    RoundTrips (okGuest.map Prod.fst) ∧ Cooperates [] okGuest :=
  ⟨(roundTrips_iff_separable _ (by decide)).1.mpr (by decide), by decide, ⟨_, by decide, rfl⟩,
    by decide, ⟨_, by decide, rfl⟩, trivial⟩

/-- A control id with a path separator, one with an equals sign, and the path a job starts with. -/
theorem not_roundTrips : ¬ RoundTrips [⟨"yes/no".toList, 1⟩] ∧ ¬ RoundTrips [⟨"a=b".toList, 1⟩] ∧
    defaultTodoPath ≠ pathOf [] := by
  refine ⟨fun law => ?_, fun law => ?_, by decide⟩
  · have noSlash := separable_of_yields (not_mem_actions 0 _) (law.yields 0)
    revert noSlash
    decide
  · have noEq := separable_of_yields (not_mem_actions 0 _) (law.yields 0)
    revert noEq
    decide

end GuestAgent.Guarantees.ActionPaths
