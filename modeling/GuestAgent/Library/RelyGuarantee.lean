import GuestAgent.Library.Effects
import GuestAgent.Library.Runs

/-!
A program that runs among others. Its calls and the steps of the others change one world, in any
order. An assertion about the world is stable if the others cannot break it. A program is verified
by a stable assertion for each point between its calls; what all of these imply holds at all times,
and what the last ones imply holds when the program has ended.
-/
namespace GuestAgent.Library.RelyGuarantee
open Prog Runs

variable {ι : Type} {Ans : ι → Type} {α β ω ε : Type}

/-- What a call and its answer do to the world, and what the others do; `none` where this cannot
happen. -/
structure Surroundings (ι : Type) (Ans : ι → Type) (ω ε : Type) where
  react : (i : ι) → Ans i → ω → Option ω
  other : ε → ω → Option ω

/-- The rest of the program, and the world. -/
structure Among (ι : Type) (Ans : ι → Type) (α ω : Type) where
  rest : Prog ι Ans α
  world : ω

inductive Turn (ι : Type) (Ans : ι → Type) (ε : Type) where
  /-- The next call of the program. -/
  | own (reply : (i : ι) → Ans i)
  | other (e : ε)

variable (env : Surroundings ι Ans ω ε)

def Among.step (s : Among ι Ans α ω) : Turn ι Ans ε → Option (Among ι Ans α ω)
  | .own reply => match s.rest with
    | .done _ => none
    | .ask i next => (env.react i (reply i) s.world).map fun w => ⟨next (reply i), w⟩
  | .other e => (env.other e s.world).map fun w => { s with world := w }

/-- The others cannot break the assertion. -/
def Stable (P : ω → Prop) : Prop := ∀ e w w', P w → env.other e w = some w' → P w'

/-- Begun where `P` holds, the program keeps to `always`, and it ends as `post` says. -/
def Verified (always : ω → Prop) (post : α → ω → Prop) : Prog ι Ans α → (ω → Prop) → Prop
  | .done a, P => Stable env P ∧ ∀ w, P w → always w ∧ post a w
  | .ask i next, P => Stable env P ∧ (∀ w, P w → always w) ∧
      ∀ a, ∃ Q : ω → Prop, (∀ w w', P w → env.react i a w = some w' → Q w') ∧
        Verified always post (next a) Q

variable {env} {always : ω → Prop} {post : α → ω → Prop} {P : ω → Prop}

theorem Verified.stable {p : Prog ι Ans α} (verified : Verified env always post p P) :
    Stable env P := by
  cases p with
  | done a => exact verified.1
  | ask i next => exact verified.1

theorem Verified.keeps {p : Prog ι Ans α} (verified : Verified env always post p P) {w : ω}
    (here : P w) : always w := by
  cases p with
  | done a => exact (verified.2 w here).1
  | ask i next => exact verified.2.1 w here

/-- What is made of the result. -/
theorem Verified.map {mid : α → ω → Prop} {post : β → ω → Prop} {f : α → β} {p : Prog ι Ans α}
    (first : Verified env always mid p P) (ends : ∀ a w, mid a w → post (f a) w) :
    Verified env always post (p >>= fun a => done (f a)) P := by
  induction p generalizing P with
  | done a => exact ⟨first.1, fun w here => ⟨(first.2 w here).1, ends a w (first.2 w here).2⟩⟩
  | ask i next ih =>
    refine ⟨first.1, first.2.1, fun a => ?_⟩
    obtain ⟨R, after, later⟩ := first.2.2 a
    exact ⟨R, after, ih a later⟩

/-- The world takes no notice of any call of the program. -/
def Unnoticed (env : Surroundings ι Ans ω ε) : Prog ι Ans α → Prop
  | .done _ => True
  | .ask i next => (∀ a w, env.react i a w = some w) ∧ ∀ a, Unnoticed env (next a)

/-- Behind a call the world takes no notice of, the assertion still holds. -/
theorem verified_ask_idle {i : ι} {next : Ans i → Prog ι Ans α}
    (idle : ∀ a w, env.react i a w = some w) (stable : Stable env P) (implies : ∀ w, P w → always w)
    (later : ∀ a, Verified env always post (next a) P) :
    Verified env always post (ask i next) P := by
  refine ⟨stable, implies, fun a => ⟨P, fun w w' here after => ?_, later a⟩⟩
  rw [idle] at after
  cases after
  exact here

theorem Unnoticed.bind {k : α → Prog ι Ans β} {p : Prog ι Ans α} (first : Unnoticed env p)
    (second : ∀ a, Unnoticed env (k a)) : Unnoticed env (p >>= k) := by
  induction p with
  | done a => exact second a
  | ask i next ih => exact ⟨first.1, fun a => ih a (first.2 a)⟩

/-- A program the world takes no notice of may come in front, with what is known of its result. -/
theorem Unnoticed.ends_bind {ends : α → Prop} {post : β → ω → Prop} {k : α → Prog ι Ans β}
    {p : Prog ι Ans α} (first : Unnoticed env p) (result : Ends ends p) (stable : Stable env P)
    (implies : ∀ w, P w → always w) (second : ∀ a, ends a → Verified env always post (k a) P) :
    Verified env always post (p >>= k) P := by
  induction p with
  | done a => exact second a result
  | ask i next ih =>
    exact verified_ask_idle first.1 stable implies fun a => ih a (first.2 a) (result a)

theorem Verified.step {p : Prog ι Ans α} {w : ω} (verified : Verified env always post p P)
    (here : P w) {e : Turn ι Ans ε} {s' : Among ι Ans α ω}
    (enabled : Among.step env ⟨p, w⟩ e = some s') :
    ∃ Q : ω → Prop, Verified env always post s'.rest Q ∧ Q s'.world := by
  cases e with
  | own reply =>
    cases p with
    | done a => cases enabled
    | ask i next =>
      obtain ⟨w', reacts, rfl⟩ := Option.map_eq_some_iff.mp enabled
      obtain ⟨Q, after, later⟩ := verified.2.2 (reply i)
      exact ⟨Q, later, after w w' here reacts⟩
  | other e =>
    obtain ⟨w', moves, rfl⟩ := Option.map_eq_some_iff.mp enabled
    exact ⟨P, verified, verified.stable e w w' here moves⟩

/-- In whatever order the calls and the steps of the others come. -/
theorem Verified.reached {p : Prog ι Ans α} {w : ω} (verified : Verified env always post p P)
    (here : P w) {cond : Among ι Ans α ω → Turn ι Ans ε → Prop} {s : Among ι Ans α ω}
    (reached : Reached (Among.step env) cond ⟨p, w⟩ s) :
    always s.world ∧ ∀ a, s.rest = .done a → post a s.world := by
  obtain ⟨Q, later, now⟩ := reached.invariant
    (fun s => ∃ Q : ω → Prop, Verified env always post s.rest Q ∧ Q s.world) ⟨P, verified, here⟩
    (fun s e s' ⟨Q, later, now⟩ _ enabled => later.step now enabled)
  refine ⟨later.keeps now, fun a ended => ?_⟩
  rw [ended] at later
  exact (later.2 _ now).2

end GuestAgent.Library.RelyGuarantee
