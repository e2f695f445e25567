import GuestAgent.Library.Methods

/-!
What an observer sees of a method. A specification says of every way through the method what was
seen on it, with the result and the states before and after. A quiet method shows nothing, and
leaves a view of the state as it was.
-/
namespace GuestAgent.Library.Observation
open Method

variable {ι : Type} {Ans : ι → Type} {σ ε α β ν κ : Type}

/-- A way through two programs is a way through each. -/
theorem path_bind {p : Prog ι Ans α} {k : α → Prog ι Ans β} {trace : List ((i : ι) × Ans i)} {b : β}
    (way : Prog.Path (p.bind k) trace b) : ∃ first second a, trace = first ++ second ∧
      Prog.Path p first a ∧ Prog.Path (k a) second b := by
  induction p generalizing trace with
  | done a => exact ⟨[], trace, a, rfl, .done a, way⟩
  | ask i next ih =>
    cases way with
    | ask answer rest =>
      obtain ⟨first, second, a, rfl, before, after⟩ := ih answer rest
      exact ⟨⟨i, answer⟩ :: first, second, a, rfl, .ask answer before, after⟩

/-- The way on which the `n`-th call is answered by `reply n`. -/
def followScript (reply : Nat → (i : ι) → Ans i) : Nat → Prog ι Ans α →
    List ((i : ι) × Ans i) × α
  | _, .done a => ([], a)
  | n, .ask i next =>
    (⟨i, reply n i⟩ :: (followScript reply (n + 1) (next (reply n i))).1,
      (followScript reply (n + 1) (next (reply n i))).2)

theorem path_followScript (reply : Nat → (i : ι) → Ans i) (n : Nat) (p : Prog ι Ans α) :
    Prog.Path p (followScript reply n p).1 (followScript reply n p).2 := by
  induction p generalizing n with
  | done a => exact .done a
  | ask i next ih => exact .ask (reply n i) (ih (reply n i) (n + 1))

/-- A method goes the way the answers take it. -/
theorem goes_followScript (reply : Nat → (i : ι) → Ans i) (m : Method ι Ans σ ε α) (s : σ) :
    Goes m s (followScript reply 0 (m s)).1 (followScript reply 0 (m s)).2.1
      (followScript reply 0 (m s)).2.2 :=
  path_followScript reply 0 (m s)

variable (seen : (i : ι) × Ans i → Option ν)

/-- On every way through the method, what is seen fits its result and the two states. -/
def Shows (m : Method ι Ans σ ε α) (spec : σ → List ν → Except ε α → σ → Prop) : Prop :=
  ∀ s trace r s', Goes m s trace r s' → spec s (trace.filterMap seen) r s'

variable {seen} {spec : σ → List ν → Except ε α → σ → Prop} {m : Method ι Ans σ ε α}

theorem shows_pure {a : α} (holds : ∀ s, spec s [] (.ok a) s) : Shows seen (pure a) spec := by
  intro s trace r s' way
  cases way
  exact holds s

theorem shows_raise {e : ε} (holds : ∀ s, spec s [] (.error e) s) :
    Shows seen (raise e : Method ι Ans σ ε α) spec := by
  intro s trace r s' way
  cases way
  exact holds s

theorem shows_perform {i : ι} {spec : σ → List ν → Except ε (Ans i) → σ → Prop}
    (holds : ∀ s a, spec s ([⟨i, a⟩].filterMap seen) (.ok a) s) :
    Shows seen (perform i) spec := by
  intro s trace r s' way
  cases way with
  | ask a rest =>
    cases rest
    exact holds s a

theorem Shows.bind {k : α → Method ι Ans σ ε β} {later : α → σ → List ν → Except ε β → σ → Prop}
    {whole : σ → List ν → Except ε β → σ → Prop} (first : Shows seen m spec)
    (second : ∀ a, Shows seen (k a) (later a))
    (stops : ∀ s l e s', spec s l (.error e) s' → whole s l (.error e) s')
    (goes : ∀ s l a s' l' r s'', spec s l (.ok a) s' → later a s' l' r s'' →
      whole s (l ++ l') r s'') : Shows seen (m >>= k) whole := by
  intro s trace r s'' way
  obtain ⟨front, back, ⟨result, s'⟩, rfl, before, after⟩ := path_bind way
  have here := first s front result s' before
  rw [List.filterMap_append]
  cases result with
  | error e =>
    cases after
    rw [List.filterMap_nil, List.append_nil]
    exact stops s _ e s' here
  | ok a => exact goes s _ a s' _ r s'' here (second a s' back r s'' after)

/-- The result of the first method, an error included, is given to the second. -/
theorem Shows.attempt_bind {k : Except ε α → Method ι Ans σ ε β}
    {later : Except ε α → σ → List ν → Except ε β → σ → Prop}
    {whole : σ → List ν → Except ε β → σ → Prop} (first : Shows seen m spec)
    (second : ∀ r, (∃ s l s', spec s l r s') → Shows seen (k r) (later r))
    (goes : ∀ s l r s' l' r' s'', spec s l r s' → later r s' l' r' s'' →
      whole s (l ++ l') r' s'') : Shows seen (attempt m >>= k) whole := by
  intro s trace r s'' way
  obtain ⟨front, back, ⟨result, s'⟩, rfl, before, after⟩ := path_bind way
  obtain ⟨inside, rest, ⟨inner, s'⟩, rfl, within, last⟩ := path_bind before
  cases last
  have here := first s inside inner s' within
  rw [List.append_nil, List.filterMap_append]
  exact goes s _ inner s' _ r s'' here (second inner ⟨s, _, s', here⟩ s' back r s'' after)

theorem Shows.mono {spec' : σ → List ν → Except ε α → σ → Prop} (shows_ : Shows seen m spec)
    (imp : ∀ s l r s', spec s l r s' → spec' s l r s') : Shows seen m spec' :=
  fun s trace r s' way => imp s _ r s' (shows_ s trace r s' way)

/-! ### Quiet methods -/

section quiet

variable (seen) (view : σ → κ) (never : ε → Prop)

/-- Nothing is seen of the method, the state looks the same afterwards, and it does not stop with
an error it `never` stops with. -/
def Quiet (m : Method ι Ans σ ε α) : Prop :=
  Shows seen m fun s l r s' => l = [] ∧ view s' = view s ∧ ∀ e, r = .error e → ¬ never e

variable {seen} {view} {never}

theorem quiet_pure (a : α) : Quiet seen view never (pure a : Method ι Ans σ ε α) :=
  shows_pure fun _ => ⟨rfl, rfl, nofun⟩

theorem quiet_raise {e : ε} (other : ¬ never e) :
    Quiet seen view never (raise e : Method ι Ans σ ε α) :=
  shows_raise fun _ => ⟨rfl, rfl, by rintro _ ⟨⟩; exact other⟩

theorem quiet_get : Quiet seen view never (get : Method ι Ans σ ε σ) := by
  intro s trace r s' way
  cases way
  exact ⟨rfl, rfl, nofun⟩

theorem quiet_modify {f : σ → σ} (same : ∀ s, view (f s) = view s) :
    Quiet seen view never (modify f : Method ι Ans σ ε Unit) := by
  intro s trace r s' way
  cases way
  exact ⟨rfl, same s, nofun⟩

theorem quiet_perform {i : ι} (unseen : ∀ a, seen ⟨i, a⟩ = none) :
    Quiet seen view never (perform i : Method ι Ans σ ε (Ans i)) :=
  shows_perform fun _ a => ⟨by simp [unseen a], rfl, nofun⟩

theorem Quiet.bind {k : α → Method ι Ans σ ε β} (first : Quiet seen view never m)
    (second : ∀ a, Quiet seen view never (k a)) : Quiet seen view never (m >>= k) := by
  refine Shows.bind first second (fun s l e s' here => ?_) fun s l a s' l' r s'' here there => ?_
  · refine ⟨here.1, here.2.1, fun e' same => ?_⟩
    cases same
    exact here.2.2 e rfl
  · exact ⟨by rw [here.1, there.1, List.append_nil], there.2.1.trans here.2.1, there.2.2⟩

theorem Quiet.ite {c : Prop} [Decidable c] {m m' : Method ι Ans σ ε α}
    (yes : Quiet seen view never m) (no : Quiet seen view never m') :
    Quiet seen view never (if c then m else m') := by
  split
  · exact yes
  · exact no

theorem Quiet.attempt_bind {k : Except ε α → Method ι Ans σ ε β} (first : Quiet seen view never m)
    (second : ∀ r, (∀ e, r = .error e → ¬ never e) → Quiet seen view never (k r)) :
    Quiet seen view never (attempt m >>= k) := by
  have each : ∀ r : Except ε α, (∃ s : σ, ∃ l : List ν, ∃ s' : σ, l = [] ∧ view s' = view s ∧
      ∀ e, r = .error e → ¬ never e) → Quiet seen view never (k r) := by
    rintro r ⟨_, _, _, -, -, other⟩
    exact second r other
  refine Shows.attempt_bind first each fun s l r s' l' r' s'' here there => ?_
  exact ⟨by rw [here.1, there.1, List.append_nil], there.2.1.trans here.2.1, there.2.2⟩

theorem quiet_forEach {body : α → Method ι Ans σ ε Unit}
    (each : ∀ a, Quiet seen view never (body a)) (list : List α) :
    Quiet seen view never (forEach body list) := by
  induction list with
  | nil => exact quiet_pure ()
  | cons a rest ih => exact (each a).bind fun _ => ih

/-- A loop whose body is quiet; it may stop with `late` if that is not excluded. -/
theorem quiet_repeatWhile {late : ε} {body : Method ι Ans σ ε Bool}
    (turn : Quiet seen view never body) (other : ¬ never late) (turns : Nat) :
    Quiet seen view never (repeatWhile late body turns) := by
  induction turns with
  | zero => exact quiet_raise other
  | succ turns ih => exact turn.bind fun _ => ih.ite (quiet_pure ())

end quiet

end GuestAgent.Library.Observation
