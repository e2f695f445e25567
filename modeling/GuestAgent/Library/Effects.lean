import Mathlib.Data.List.Basic

/-!
Programs as trees of the effects they ask for. A program is run by a handler that answers each
effect from a state, if it returns at all, and its log tells what it asked and was answered. `Exec`
is for a thread on which further programs may run while an effect is performed: it executes a
program or a sequence of calls, finished or cut off anywhere, with the calls made during its
effects.
-/
namespace GuestAgent.Library

inductive Prog (ι : Type) (Ans : ι → Type) (α : Type) : Type where
  | done (a : α)
  | ask (i : ι) (next : Ans i → Prog ι Ans α)

namespace Prog

variable {ι : Type} {Ans : ι → Type} {α β σ : Type}

def bind : Prog ι Ans α → (α → Prog ι Ans β) → Prog ι Ans β
  | done a, k => k a
  | ask i next, k => ask i fun a => bind (next a) k

instance : Monad (Prog ι Ans) where
  pure := done
  bind := bind

def perform (i : ι) : Prog ι Ans (Ans i) := ask i done

@[simp] theorem pure_eq (a : α) : (pure a : Prog ι Ans α) = done a := rfl

@[simp] theorem done_bind (a : α) (k : α → Prog ι Ans β) : (done a : Prog ι Ans α) >>= k = k a :=
  rfl

@[simp] theorem ask_bind (i : ι) (next : Ans i → Prog ι Ans α) (k : α → Prog ι Ans β) :
    ask i next >>= k = ask i fun a => next a >>= k := rfl

/-! ### Running a program -/

section run

variable (handler : (i : ι) → σ → Option (Ans i × σ))

/-- What the program returns and the state it leaves; `none` if an effect never returns. -/
def run : Prog ι Ans α → σ → Option (α × σ)
  | done a, s => some (a, s)
  | ask i next, s => match handler i s with
    | none => none
    | some (a, s') => run (next a) s'

/-- What the program asks for, with the answers as far as there are any. -/
def log : Prog ι Ans α → σ → List ((i : ι) × Option (Ans i))
  | done _, _ => []
  | ask i next, s => match handler i s with
    | none => [⟨i, none⟩]
    | some (a, s') => ⟨i, some a⟩ :: log (next a) s'

section ask

variable {handler} {i : ι} {s : σ}

theorem run_ask_none (stuck : handler i s = none) (next : Ans i → Prog ι Ans α) :
    run handler (ask i next) s = none := by
  rw [run, stuck]

theorem log_ask_none (stuck : handler i s = none) (next : Ans i → Prog ι Ans α) :
    log handler (ask i next) s = [⟨i, none⟩] := by
  rw [log, stuck]

theorem run_ask_some {a : Ans i} {s' : σ} (answered : handler i s = some (a, s'))
    (next : Ans i → Prog ι Ans α) : run handler (ask i next) s = run handler (next a) s' := by
  rw [run, answered]

theorem log_ask_some {a : Ans i} {s' : σ} (answered : handler i s = some (a, s'))
    (next : Ans i → Prog ι Ans α) :
    log handler (ask i next) s = ⟨i, some a⟩ :: log handler (next a) s' := by
  rw [log, answered]

end ask

/-- Every effect the program asks for meets `ok` in the state it is asked in. -/
def Always (ok : ι → σ → Prop) : Prog ι Ans α → σ → Prop
  | done _, _ => True
  | ask i next, s => ok i s ∧ ∀ a s', handler i s = some (a, s') → Always ok (next a) s'

end run

/-! ### The ways through a program -/

section path

/-- One way through the program: what it asks for, whatever the answers are, and its result. -/
inductive Path : Prog ι Ans α → List ((i : ι) × Ans i) → α → Prop where
  | done (a : α) : Path (done a) [] a
  | ask {i : ι} {next : Ans i → Prog ι Ans α} {r : α} {later : List ((i : ι) × Ans i)} (a : Ans i)
      (rest : Path (next a) later r) : Path (ask i next) (⟨i, a⟩ :: later) r

theorem Path.bind {p : Prog ι Ans α} {k : α → Prog ι Ans β} {first second : List ((i : ι) × Ans i)}
    {a : α} {b : β} (before : Path p first a) (after : Path (k a) second b) :
    Path (p.bind k) (first ++ second) b := by
  induction before with
  | done a => exact after
  | ask a _ ih => exact .ask a (ih after)

/-- The way taken when each effect has its one answer. -/
def follow (reply : (i : ι) → Ans i) : Prog ι Ans α → List ((i : ι) × Ans i) × α
  | done a => ([], a)
  | ask i next => (⟨i, reply i⟩ :: (follow reply (next (reply i))).1,
      (follow reply (next (reply i))).2)

theorem path_follow (reply : (i : ι) → Ans i) (p : Prog ι Ans α) :
    Path p (follow reply p).1 (follow reply p).2 := by
  induction p with
  | done a => exact .done a
  | ask i next ih => exact .ask (reply i) (ih (reply i))

/-- What is returned is returned on one of the ways. -/
theorem exists_path_of_run {handler : (i : ι) → σ → Option (Ans i × σ)} {p : Prog ι Ans α} {s s' : σ}
    {a : α} (returned : run handler p s = some (a, s')) : ∃ trace, Path p trace a := by
  induction p generalizing s with
  | done b =>
    cases returned
    exact ⟨[], .done a⟩
  | ask i next ih =>
    cases answered : handler i s with
    | none =>
      rw [run_ask_none answered] at returned
      cases returned
    | some answer =>
      rw [run_ask_some answered] at returned
      obtain ⟨trace, path⟩ := ih answer.1 returned
      exact ⟨⟨i, answer.1⟩ :: trace, .ask answer.1 path⟩

section ends

/-- Every way through the program ends as `post` says. -/
def Ends (post : α → Prop) : Prog ι Ans α → Prop
  | done a => post a
  | ask _ next => ∀ a, Ends post (next a)

@[simp] theorem ends_ask (post : α → Prop) (i : ι) (next : Ans i → Prog ι Ans α) :
    Ends post (ask i next) ↔ ∀ a, Ends post (next a) := Iff.rfl

theorem ends_bind (post : β → Prop) (p : Prog ι Ans α) (k : α → Prog ι Ans β) :
    Ends post (p >>= k) ↔ Ends (fun a => Ends post (k a)) p := by
  induction p with
  | done a => rfl
  | ask i next ih =>
    rw [ask_bind, ends_ask, ends_ask]
    exact forall_congr' ih

theorem Ends.mono {post post' : α → Prop} (imp : ∀ a, post a → post' a) {p : Prog ι Ans α}
    (ends : Ends post p) : Ends post' p := by
  induction p with
  | done a => exact imp a ends
  | ask i next ih => exact fun a => ih a (ends a)

theorem Ends.of_path {post : α → Prop} {p : Prog ι Ans α} (ends : Ends post p)
    {trace : List ((i : ι) × Ans i)} {a : α} (path : Path p trace a) : post a := by
  induction path with
  | done a => exact ends
  | ask a rest ih => exact ih (ends a)

end ends

section every

variable {κ : Type} (label : (i : ι) → Ans i → κ)

/-- What a trace amounts to. -/
def labels (trace : List ((i : ι) × Ans i)) : List κ := trace.map fun e => label e.1 e.2

/-- Every way through the program ends as `post` says of its labels. -/
def EveryPath (post : List κ → α → Prop) : Prog ι Ans α → Prop
  | done a => post [] a
  | ask i next => ∀ a, EveryPath (fun later => post (label i a :: later)) (next a)

@[simp] theorem everyPath_done (post : List κ → α → Prop) (a : α) :
    EveryPath label post (done a : Prog ι Ans α) ↔ post [] a := Iff.rfl

variable {label}

theorem EveryPath.post {post : List κ → α → Prop} {p : Prog ι Ans α}
    (every : EveryPath label post p) {trace : List ((i : ι) × Ans i)} {r : α}
    (path : Path p trace r) : post (labels label trace) r := by
  induction path generalizing post with
  | done a => exact every
  | ask a rest ih => exact ih (every a)

end every

end path

/-! ### Two handlers -/

section Simulation

variable {τ : Type} {handler : (i : ι) → σ → Option (Ans i × σ)}
  {handler' : (i : ι) → τ → Option (Ans i × τ)} {R : σ → τ → Prop} {ok : ι → σ → Prop}

/-- Both return the same and leave related states, or neither returns. -/
def Agree (R : σ → τ → Prop) (x : Option (α × σ)) (y : Option (α × τ)) : Prop :=
  Option.Rel (fun x y => x.1 = y.1 ∧ R x.2 y.2) x y

theorem Agree.fst_eq {x : Option (α × σ)} {y : Option (α × τ)} (agree : Agree R x y) :
    x.map Prod.fst = y.map Prod.fst := by
  cases agree with
  | none => rfl
  | some same => exact congrArg some same.1

/-- Where the two handlers agree effect by effect, a program runs the same with either. -/
theorem run_agree (step : ∀ i s t, R s t → ok i s → Agree R (handler i s) (handler' i t))
    (p : Prog ι Ans α) : ∀ {s : σ} {t : τ}, R s t → Always handler ok p s →
      Agree R (run handler p s) (run handler' p t) := by
  induction p with
  | done a =>
    intro s t related _
    exact .some ⟨rfl, related⟩
  | ask i next ih =>
    intro s t related always
    have agree := step i s t related always.1
    simp only [run]
    cases left : handler i s with
    | none =>
      cases right : handler' i t with
      | none => exact .none
      | some answer =>
        rw [left, right] at agree
        cases agree
    | some answer =>
      cases right : handler' i t with
      | none =>
        rw [left, right] at agree
        cases agree
      | some answer' =>
        rw [left, right] at agree
        obtain ⟨a, s'⟩ := answer
        obtain ⟨a', t'⟩ := answer'
        cases agree with
        | some same =>
          obtain ⟨rfl, related'⟩ := same
          exact ih a related' (always.2 a s' left)

end Simulation

/-! ### Programs that run during effects -/

section Nested

variable {κ θ : Type}

/-- What a thread is busy with: the rest of a program, or calls made one after the other. -/
inductive Activity (ι : Type) (Ans : ι → Type) (α : Type) where
  | program (p : Prog ι Ans α)
  | calls

inductive Happening (ι κ θ : Type) where
  | effect (i : ι) (t : θ)
  | call (c : κ) (t : θ)
  | returned (c : κ) (before after : θ)

variable (body : κ → Prog ι Ans α) (enter leave : ι → θ → θ) (may : (i : ι) → θ → Ans i → Prop)

/-- The thread takes the state `enter` makes into an effect, and the one `leave` makes out of it.
The last state is `none` for an execution that is cut off. -/
inductive Exec : Activity ι Ans α → θ → List (Happening ι κ θ) → Option θ → Prop where
  | cut (w : Activity ι Ans α) (t : θ) : Exec w t [] none
  | done (a : α) (t : θ) : Exec (.program (done a)) t [] (some t)
  | ask {i : ι} {next : Ans i → Prog ι Ans α} {t t' : θ} {a : Ans i} {r : Option θ}
      {inner rest : List (Happening ι κ θ)} (answered : may i t a)
      (during : Exec .calls (enter i t) inner (some t'))
      (later : Exec (.program (next a)) (leave i t') rest r) :
      Exec (.program (ask i next)) t (.effect i t :: (inner ++ rest)) r
  | stuck {i : ι} {next : Ans i → Prog ι Ans α} {t : θ} {inner : List (Happening ι κ θ)}
      (during : Exec .calls (enter i t) inner none) :
      Exec (.program (ask i next)) t (.effect i t :: inner) none
  | idle (t : θ) : Exec .calls t [] (some t)
  | call {c : κ} {t t' : θ} {r : Option θ} {inner rest : List (Happening ι κ θ)}
      (runs : Exec (.program (body c)) t inner (some t')) (later : Exec .calls t' rest r) :
      Exec .calls t (.call c t :: (inner ++ .returned c t t' :: rest)) r
  | away {c : κ} {t : θ} {inner : List (Happening ι κ θ)}
      (runs : Exec (.program (body c)) t inner none) : Exec .calls t (.call c t :: inner) none

variable {body enter leave may}

/-- An effect during which nothing happens. -/
theorem Exec.ask_idle {i : ι} {next : Ans i → Prog ι Ans α} {t : θ} {a : Ans i} {r : Option θ}
    {rest : List (Happening ι κ θ)} (answered : may i t a)
    (later : Exec body enter leave may (.program (next a)) (leave i (enter i t)) rest r) :
    Exec body enter leave may (.program (Prog.ask i next)) t (.effect i t :: rest) r :=
  .ask answered (.idle _) later

/-- When every effect leaves the state it found, so does every call and the whole execution. -/
theorem Exec.restores (undone : ∀ i t, leave i (enter i t) = t) {w : Activity ι Ans α} {t : θ}
    {trace : List (Happening ι κ θ)} {r : Option θ} (exec : Exec body enter leave may w t trace r) :
    (∀ t', r = some t' → t' = t) ∧
      ∀ c before after, .returned c before after ∈ trace → before = after := by
  induction exec with
  | cut | done | idle => simp
  | @ask i next t t' a r inner rest answered during later ihDuring ihLater =>
    obtain rfl := ihDuring.1 t' rfl
    rw [undone] at ihLater
    refine ⟨ihLater.1, fun c before after member => ?_⟩
    simp only [List.mem_cons, reduceCtorEq, false_or, List.mem_append] at member
    cases member with
    | inl inside => exact ihDuring.2 c before after inside
    | inr behind => exact ihLater.2 c before after behind
  | stuck during ih =>
    refine ⟨fun t' same => (by cases same), fun c before after member => ?_⟩
    simp only [List.mem_cons, reduceCtorEq, false_or] at member
    exact ih.2 c before after member
  | @call c t t' r inner rest runs later ihRuns ihLater =>
    obtain rfl := ihRuns.1 t' rfl
    refine ⟨ihLater.1, fun c before after member => ?_⟩
    simp only [List.mem_cons, reduceCtorEq, false_or, List.mem_append] at member
    rcases member with inside | here | behind
    · exact ihRuns.2 c before after inside
    · cases here
      rfl
    · exact ihLater.2 c before after behind
  | away runs ih =>
    refine ⟨fun t' same => (by cases same), fun c before after member => ?_⟩
    simp only [List.mem_cons, reduceCtorEq, false_or] at member
    exact ih.2 c before after member

/-! ### Effects that are good where they happen -/

variable (may) in
/-- Run in the state `t`, the program asks only for effects that are good there. -/
def Fits (good : ι → θ → Prop) (t : θ) : Prog ι Ans α → Prop
  | done _ => True
  | ask i next => good i t ∧ ∀ a, may i t a → Fits good t (next a)

theorem fits_of_good {good : ι → θ → Prop} {t : θ} (all : ∀ i, good i t) (p : Prog ι Ans α) :
    Fits may good t p := by
  induction p with
  | done a => trivial
  | ask i next ih => exact ⟨all i, fun a _ => ih a⟩

variable (may) in
def Activity.Fits (good : ι → θ → Prop) (t : θ) : Activity ι Ans α → Prop
  | .program p => Prog.Fits may good t p
  | .calls => True

/-- When the program of every permitted call asks only for good effects, so does the whole
execution, however deep the calls are nested. -/
theorem Exec.good {good : ι → θ → Prop} {permitted : κ → θ → Prop} {Inv : θ → Prop}
    (undone : ∀ i t, leave i (enter i t) = t)
    (enters : ∀ i t, Inv t → good i t → Inv (enter i t))
    (bodies : ∀ c t, Inv t → permitted c t → Prog.Fits may good t (body c))
    {w : Activity ι Ans α} {t : θ} {trace : List (Happening ι κ θ)} {r : Option θ}
    (exec : Exec body enter leave may w t trace r) (inv : Inv t) (fits : w.Fits may good t)
    (calls : ∀ c t, .call c t ∈ trace → permitted c t) :
    ∀ i t', .effect i t' ∈ trace → good i t' := by
  induction exec with
  | cut | done | idle => simp
  | @ask i next t t' a r inner rest answered during later ihDuring ihLater =>
    obtain rfl := (during.restores undone).1 t' rfl
    rw [undone] at ihLater
    have inside := ihDuring (enters i t inv fits.1) trivial fun c t member =>
      calls c t (by simp [member])
    have behind := ihLater inv (fits.2 a answered) fun c t member => calls c t (by simp [member])
    intro i' t' member
    simp only [List.mem_cons, List.mem_append] at member
    rcases member with here | member | member
    · cases here
      exact fits.1
    · exact inside i' t' member
    · exact behind i' t' member
  | @stuck i next t inner during ih =>
    have inside := ih (enters i t inv fits.1) trivial fun c t member => calls c t (by simp [member])
    intro i' t' member
    cases member with
    | head => exact fits.1
    | tail _ member => exact inside i' t' member
  | @call c t t' r inner rest runs later ihRuns ihLater =>
    obtain rfl := (runs.restores undone).1 t' rfl
    have inside := ihRuns inv (bodies c t' inv (calls c t' (by simp))) fun c t member =>
      calls c t (by simp [member])
    have behind := ihLater inv trivial fun c t member => calls c t (by simp [member])
    intro i' t' member
    simp only [List.mem_cons, reduceCtorEq, false_or, List.mem_append] at member
    rcases member with member | member
    · exact inside i' t' member
    · exact behind i' t' member
  | @away c t inner runs ih =>
    have inside := ih inv (bodies c t inv (calls c t (by simp))) fun c t member =>
      calls c t (by simp [member])
    intro i' t' member
    simp only [List.mem_cons, reduceCtorEq, false_or] at member
    exact inside i' t' member

end Nested

end Prog

end GuestAgent.Library
