import GuestAgent.Library.Raising

/-!
Computations that loop or recurse without an end in sight, watched through a bound. The bound
is the observer's, not the program's: `Returns` says that from some bound on the computation is
seen to end, and how. What a `Watched` computation returns is an `Except`, so that sequencing
and mapping carry over from the one to the other.
-/
namespace GuestAgent.Library

/-- A computation as seen within a bound; `none` says that it was still running. -/
abbrev Watched (ε α : Type) := ExceptT ε Option α

namespace Watched

variable {ε α β : Type}

def running : Watched ε α := (none : Option (Except ε α))

def done (r : Except ε α) : Watched ε α := (some r : Option (Except ε α))

/-- From some bound on, the computation is seen to end with `r`. -/
def Returns (x : Nat → Watched ε α) (r : Except ε α) : Prop := ∃ n, ∀ m, n ≤ m → x m = done r

theorem done_bind_ok (a : α) (k : α → Watched ε β) : (done (.ok a) : Watched ε α) >>= k = k a := rfl

theorem done_bind_error (e : ε) (k : α → Watched ε β) :
    (done (.error e) : Watched ε α) >>= k = done (.error e) := rfl

theorem returns_done (r : Except ε α) : Returns (fun _ => done r) r := ⟨0, fun _ _ => rfl⟩

theorem Returns.unique {x : Nat → Watched ε α} {r s : Except ε α} (first : Returns x r)
    (second : Returns x s) : r = s := by
  obtain ⟨n, first⟩ := first
  obtain ⟨k, second⟩ := second
  have one := first (max n k) (Nat.le_max_left n k)
  have two := second (max n k) (Nat.le_max_right n k)
  exact Option.some.inj (one.symm.trans two)

/-- What is watched one level deeper returns the same. -/
theorem Returns.deeper {x y : Nat → Watched ε α} {r : Except ε α} (returns : Returns x r)
    (same : ∀ m, y (m + 1) = x m) : Returns y r := by
  obtain ⟨n, returns⟩ := returns
  refine ⟨n + 1, fun m bound => ?_⟩
  cases m with
  | zero => omega
  | succ m => rw [same, returns m (by omega)]

theorem Returns.bind {x : Nat → Watched ε α} {k : Nat → α → Watched ε β} {r : Except ε α}
    {s : α → Except ε β} (first : Returns x r)
    (later : ∀ a, r = .ok a → Returns (fun m => k m a) (s a)) :
    Returns (fun m => x m >>= k m) (r >>= s) := by
  obtain ⟨n, first⟩ := first
  cases r with
  | error e =>
    refine ⟨n, fun m bound => ?_⟩
    show x m >>= k m = _
    rw [first m bound]
    exact done_bind_error e (k m)
  | ok a =>
    obtain ⟨n', later⟩ := later a rfl
    refine ⟨max n n', fun m bound => ?_⟩
    show x m >>= k m = _
    rw [first m (by omega), done_bind_ok]
    exact later m (by omega)

theorem Returns.mapM {f : Nat → α → Watched ε β} {r : α → Except ε β} {l : List α}
    (each : ∀ a ∈ l, Returns (fun m => f m a) (r a)) :
    Returns (fun m => l.mapM (f m)) (l.mapM r) := by
  induction l with
  | nil => exact returns_done (.ok [])
  | cons a l ih =>
    simp only [List.mapM_cons]
    refine (each a (by simp)).bind fun b _ => ?_
    refine (ih fun c member => each c (by simp [member])).bind fun bs _ => ?_
    exact returns_done (.ok (b :: bs))

end Watched

end GuestAgent.Library
