import GuestAgent.Library.Effects

/-!
Methods: programs that also change a state, and return a value or stop early with an error. `wp`
is what must hold in a state for every way the method can go from there to end as a postcondition
says; there is a rule for each of the constructs, and an invariant rule for loops. `Goes` is one
such way, and `Keeps` says what a method leaves alone. A loop is watched for some number of turns
and stops with `late` when that is not enough.
-/
namespace GuestAgent.Library

/-- A method called in a state. -/
def Method (ι : Type) (Ans : ι → Type) (σ ε α : Type) : Type := σ → Prog ι Ans (Except ε α × σ)

namespace Method

variable {ι : Type} {Ans : ι → Type} {σ ε α β : Type}

/-- What comes after a result: the next method, unless there was an error. -/
def continue_ (k : α → Method ι Ans σ ε β) (r : Except ε α × σ) : Prog ι Ans (Except ε β × σ) :=
  match r.1 with
  | .ok a => k a r.2
  | .error e => .done (.error e, r.2)

instance : Monad (Method ι Ans σ ε) where
  pure a := fun s => .done (.ok a, s)
  bind m k := fun s => (m s).bind (continue_ k)

def raise (e : ε) : Method ι Ans σ ε α := fun s => .done (.error e, s)

def get : Method ι Ans σ ε σ := fun s => .done (.ok s, s)

def modify (f : σ → σ) : Method ι Ans σ ε Unit := fun s => .done (.ok (), f s)

def perform (i : ι) : Method ι Ans σ ε (Ans i) := fun s => .ask i fun a => .done (.ok a, s)

/-- The result of a method as a value, an error included. -/
def attempt (m : Method ι Ans σ ε α) : Method ι Ans σ ε (Except ε α) :=
  fun s => (m s).bind fun r => .done (.ok r.1, r.2)

/-- Repeats `body` until it returns `false`. -/
def repeatWhile (late : ε) (body : Method ι Ans σ ε Bool) : Nat → Method ι Ans σ ε Unit
  | 0 => raise late
  | turns + 1 => body >>= fun again => if again then repeatWhile late body turns else pure ()

/-- Calls `body` with every element, in order. -/
def forEach (body : α → Method ι Ans σ ε Unit) : List α → Method ι Ans σ ε Unit
  | [] => pure ()
  | a :: rest => body a >>= fun _ => forEach body rest

/-! ### Weakest preconditions -/

def wp (m : Method ι Ans σ ε α) (post : Except ε α → σ → Prop) (s : σ) : Prop :=
  Prog.Ends (fun r => post r.1 r.2) (m s)

/-- The postcondition of the first of two methods. -/
def Then (next : α → σ → Prop) (stop : ε → σ → Prop) : Except ε α → σ → Prop
  | .ok a, s => next a s
  | .error e, s => stop e s

@[simp] theorem then_ok (next : α → σ → Prop) (stop : ε → σ → Prop) (a : α) (s : σ) :
    Then next stop (.ok a) s ↔ next a s := Iff.rfl

@[simp] theorem then_error (next : α → σ → Prop) (stop : ε → σ → Prop) (e : ε) (s : σ) :
    Then next stop (.error e) s ↔ stop e s := Iff.rfl

variable {post post' : Except ε α → σ → Prop} {s : σ}

@[simp] theorem wp_pure (post : Except ε α → σ → Prop) (a : α) (s : σ) :
    wp (pure a : Method ι Ans σ ε α) post s ↔ post (.ok a) s := Iff.rfl

@[simp] theorem wp_raise (post : Except ε α → σ → Prop) (e : ε) (s : σ) :
    wp (raise e : Method ι Ans σ ε α) post s ↔ post (.error e) s := Iff.rfl

@[simp] theorem wp_get (post : Except ε σ → σ → Prop) (s : σ) :
    wp (get : Method ι Ans σ ε σ) post s ↔ post (.ok s) s := Iff.rfl

@[simp] theorem wp_modify (f : σ → σ) (post : Except ε Unit → σ → Prop) (s : σ) :
    wp (modify f : Method ι Ans σ ε Unit) post s ↔ post (.ok ()) (f s) := Iff.rfl

@[simp] theorem wp_perform (i : ι) (post : Except ε (Ans i) → σ → Prop) (s : σ) :
    wp (perform i : Method ι Ans σ ε (Ans i)) post s ↔ ∀ a, post (.ok a) s := Iff.rfl

@[simp] theorem wp_bind (m : Method ι Ans σ ε α) (k : α → Method ι Ans σ ε β)
    (post : Except ε β → σ → Prop) (s : σ) : wp (m >>= k) post s ↔
      wp m (Then (fun a s' => wp (k a) post s') fun e s' => post (.error e) s') s := by
  refine (Prog.ends_bind _ (m s) (continue_ k)).trans ?_
  have same : ∀ r : Except ε α × σ, Prog.Ends (fun r => post r.1 r.2) (continue_ k r) ↔
      Then (fun a s' => wp (k a) post s') (fun e s' => post (.error e) s') r.1 r.2 := by
    intro r
    cases r with
    | mk result s' => cases result <;> exact Iff.rfl
  exact ⟨Prog.Ends.mono fun r => (same r).mp, Prog.Ends.mono fun r => (same r).mpr⟩

@[simp] theorem wp_attempt (m : Method ι Ans σ ε α) (post : Except ε (Except ε α) → σ → Prop)
    (s : σ) : wp (attempt m) post s ↔ wp m (fun r s' => post (.ok r) s') s :=
  Prog.ends_bind _ (m s) _

theorem wp_mono (imp : ∀ r s, post r s → post' r s) {m : Method ι Ans σ ε α} (holds : wp m post s) :
    wp m post' s := by
  unfold wp at holds ⊢
  exact holds.mono fun (r : Except ε α × σ) => imp r.1 r.2

/-- The postcondition on a way the method takes. -/
theorem post_of_path {m : Method ι Ans σ ε α} (holds : wp m post s)
    {trace : List ((i : ι) × Ans i)} {r : Except ε α} {s' : σ}
    (path : Prog.Path (m s) trace (r, s')) : post r s' :=
  Prog.Ends.of_path holds path

/-- The invariant rule: a turn keeps `inv`, or ends the loop as `post` says. -/
theorem wp_repeatWhile {late : ε} {body : Method ι Ans σ ε Bool} (inv : σ → Prop)
    {post : Except ε Unit → σ → Prop}
    (turn : ∀ s, inv s → wp body (Then (fun again s' => if again then inv s' else post (.ok ()) s')
      fun e s' => post (.error e) s') s)
    (patience : ∀ s, inv s → post (.error late) s) (turns : Nat) (start : inv s) :
    wp (repeatWhile late body turns) post s := by
  induction turns generalizing s with
  | zero => exact patience s start
  | succ turns ih =>
    rw [repeatWhile, wp_bind]
    refine wp_mono (fun r s' holds => ?_) (turn s start)
    cases r with
    | error e => exact holds
    | ok again =>
      cases again with
      | false => exact holds
      | true => exact ih holds

theorem wp_forEach {body : α → Method ι Ans σ ε Unit} (inv : σ → Prop)
    {post : Except ε Unit → σ → Prop} {list : List α}
    (turn : ∀ a ∈ list, ∀ s, inv s →
      wp (body a) (Then (fun _ s' => inv s') fun e s' => post (.error e) s') s)
    (last : ∀ s, inv s → post (.ok ()) s) (start : inv s) :
    wp (forEach body list) post s := by
  induction list generalizing s with
  | nil => exact last s start
  | cons a rest ih =>
    rw [forEach, wp_bind]
    refine wp_mono (fun r s' holds => ?_) (turn a List.mem_cons_self s start)
    cases r with
    | error e => exact holds
    | ok _ => exact ih (fun b member => turn b (List.mem_cons_of_mem a member)) holds

/-! ### One way through a method -/

section goes

variable {first second : List ((i : ι) × Ans i)} {s s' s'' : σ}

/-- With these answers the method ends with `r` in the state `s'`. -/
def Goes (m : Method ι Ans σ ε α) (s : σ) (trace : List ((i : ι) × Ans i)) (r : Except ε α) (s' : σ) :
    Prop :=
  Prog.Path (m s) trace (r, s')

theorem goes_pure (a : α) (s : σ) : Goes (pure a : Method ι Ans σ ε α) s [] (.ok a) s := .done _

theorem goes_get (s : σ) : Goes (get : Method ι Ans σ ε σ) s [] (.ok s) s := .done _

theorem goes_modify (f : σ → σ) (s : σ) :
    Goes (modify f : Method ι Ans σ ε Unit) s [] (.ok ()) (f s) := .done _

theorem goes_perform (i : ι) (a : Ans i) (s : σ) :
    Goes (perform i : Method ι Ans σ ε (Ans i)) s [⟨i, a⟩] (.ok a) s := .ask a (.done _)

theorem Goes.bind {m : Method ι Ans σ ε α} {k : α → Method ι Ans σ ε β} {a : α} {r : Except ε β}
    (before : Goes m s first (.ok a) s') (after : Goes (k a) s' second r s'') :
    Goes (m >>= k) s (first ++ second) r s'' :=
  Prog.Path.bind before after

/-- A first method that asks for nothing. -/
theorem Goes.silent {m : Method ι Ans σ ε α} {k : α → Method ι Ans σ ε β} {a : α} {r : Except ε β}
    (before : Goes m s [] (.ok a) s') (after : Goes (k a) s' second r s'') :
    Goes (m >>= k) s second r s'' :=
  before.bind after

/-- A first method that asks for one thing. -/
theorem Goes.asking {m : Method ι Ans σ ε α} {k : α → Method ι Ans σ ε β} {a : α} {r : Except ε β}
    {e : (i : ι) × Ans i} (before : Goes m s [e] (.ok a) s') (after : Goes (k a) s' second r s'') :
    Goes (m >>= k) s (e :: second) r s'' :=
  before.bind after

theorem Goes.again {late : ε} {body : Method ι Ans σ ε Bool} {turns : Nat} {r : Except ε Unit}
    (turn : Goes body s first (.ok true) s')
    (later : Goes (repeatWhile late body turns) s' second r s'') :
    Goes (repeatWhile late body (turns + 1)) s (first ++ second) r s'' :=
  turn.bind later

theorem Goes.leave {late : ε} {body : Method ι Ans σ ε Bool} (turns : Nat)
    (turn : Goes body s first (.ok false) s') :
    Goes (repeatWhile late body (turns + 1)) s first (.ok ()) s' := by
  have last : Goes (repeatWhile late body (turns + 1)) s (first ++ []) (.ok ()) s' :=
    Prog.Path.bind turn (.done _)
  rwa [List.append_nil] at last

end goes

/-! ### What a method does not touch -/

section view

variable {ν : Type} {view : σ → ν}

variable (view) in
/-- Whatever the method does, the state looks the same afterwards. -/
def Keeps (m : Method ι Ans σ ε α) : Prop := ∀ s, wp m (fun _ s' => view s' = view s) s

theorem Keeps.wp {m : Method ι Ans σ ε α} (keeps : Keeps view m)
    (all : ∀ r s', view s' = view s → post r s') : wp m post s :=
  wp_mono all (keeps s)

theorem keeps_pure (a : α) : Keeps view (pure a : Method ι Ans σ ε α) := fun _ => rfl

theorem keeps_raise (e : ε) : Keeps view (raise e : Method ι Ans σ ε α) := fun _ => rfl

theorem keeps_get : Keeps view (get : Method ι Ans σ ε σ) := fun _ => rfl

theorem keeps_modify {f : σ → σ} (same : ∀ s, view (f s) = view s) :
    Keeps view (modify f : Method ι Ans σ ε Unit) := same

theorem Keeps.bind {m : Method ι Ans σ ε α} {k : α → Method ι Ans σ ε β} (first : Keeps view m)
    (second : ∀ a, Keeps view (k a)) : Keeps view (m >>= k) := by
  intro s
  rw [wp_bind]
  refine first.wp fun r s' same => ?_
  cases r with
  | error e => exact same
  | ok a => exact (second a).wp fun _ s'' later => later.trans same

theorem Keeps.ite {c : Prop} [Decidable c] {m m' : Method ι Ans σ ε α} (yes : Keeps view m)
    (no : Keeps view m') : Keeps view (if c then m else m') := by
  split
  · exact yes
  · exact no

/-- What is made of something untouched is untouched. -/
theorem Keeps.image {μ : Type} {m : Method ι Ans σ ε α} (keeps : Keeps view m) (f : ν → μ) :
    Keeps (fun s => f (view s)) m :=
  fun _ => keeps.wp fun _ _ same => congrArg f same

/-- An invariant of what is seen goes through a method that does not touch it. -/
theorem Keeps.wp_bind {m : Method ι Ans σ ε α} {k : α → Method ι Ans σ ε β}
    {post : Except ε β → σ → Prop} {inv : σ → Prop} (keeps : Keeps view m)
    (closed : ∀ s s', inv s → view s' = view s → inv s') (start : inv s)
    (next : ∀ a s', inv s' → Method.wp (k a) post s')
    (stop : ∀ e s', inv s' → post (.error e) s') : Method.wp (m >>= k) post s := by
  rw [Method.wp_bind]
  refine keeps.wp fun r s' same => ?_
  cases r with
  | error e => exact stop e s' (closed s s' start same)
  | ok a => exact next a s' (closed s s' start same)

end view

end Method

end GuestAgent.Library
