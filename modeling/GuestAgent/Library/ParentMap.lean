import Mathlib.Data.Fintype.Card
import Mathlib.Logic.Relation
import GuestAgent.Library.Watched

/-!
Parent maps: every element has at most one parent. A map without a cycle is a forest, and on
finitely many elements both directions of it are well-founded: going up reaches a root, going
down reaches a leaf. `climb` is the usual check before an element is hung under another one,
and `cyclic_attach_iff` says that it is the right one.
-/
namespace GuestAgent.Library.ParentMap
open Relation Watched

variable {α ε : Type}

def IsParent (parent : α → Option α) (p q : α) : Prop := parent p = some q

/-- Following parents from some element comes back to it. -/
def Cyclic (parent : α → Option α) : Prop := ∃ p, TransGen (IsParent parent) p p

/-- `p` is `q` or somewhere below it. -/
abbrev Under (parent : α → Option α) (p q : α) : Prop := ReflTransGen (IsParent parent) p q

variable {parent parent' : α → Option α}

theorem IsParent.unique {p q r : α} (first : IsParent parent p q) (second : IsParent parent p r) :
    q = r := Option.some.inj (first.symm.trans second)

theorem Cyclic.mono (more : ∀ p q, IsParent parent p q → IsParent parent' p q)
    (cyclic : Cyclic parent) : Cyclic parent' := by
  obtain ⟨p, round⟩ := cyclic
  exact ⟨p, TransGen.mono more p p round⟩

/-- A map whose parents all rank below their children has no cycle. -/
theorem acyclic_of_rank (rank : α → Nat)
    (below : ∀ p q, IsParent parent p q → rank q < rank p) : ¬ Cyclic parent := by
  intro cyclic
  obtain ⟨p, round⟩ := cyclic
  have descends : ∀ q, TransGen (IsParent parent) p q → rank q < rank p := by
    intro q path
    induction path with
    | single step => exact below p _ step
    | tail _ step descended => exact (below _ _ step).trans descended
  exact lt_irrefl _ (descends p round)

/-- Two elements with a common descendant lie one below the other. -/
theorem under_total {x a b : α} (first : Under parent x a) (second : Under parent x b) :
    Under parent a b ∨ Under parent b a :=
  ReflTransGen.total_of_right_unique (fun _ _ _ => IsParent.unique) first second

theorem eq_of_under_of_parents {p c d : α} (acyclic : ¬ Cyclic parent) (below : IsParent parent c p)
    (also : IsParent parent d p) (under : Under parent c d) : c = d := by
  cases under.cases_head with
  | inl same => exact same
  | inr further =>
    obtain ⟨e, step, rest⟩ := further
    rw [step.unique below] at rest
    exact absurd ⟨p, TransGen.tail' rest also⟩ acyclic

/-- No element lies below two children of one parent. -/
theorem siblings_disjoint {p c d x : α} (acyclic : ¬ Cyclic parent) (first : IsParent parent c p)
    (second : IsParent parent d p) (underFirst : Under parent x c)
    (underSecond : Under parent x d) : c = d := by
  cases under_total underFirst underSecond with
  | inl below => exact eq_of_under_of_parents acyclic first second below
  | inr below => exact (eq_of_under_of_parents acyclic second first below).symm

theorem eq_of_under_root {r s : α} (root : parent r = none) (under : Under parent r s) : r = s := by
  cases under.cases_head with
  | inl same => exact same
  | inr further =>
    obtain ⟨e, step, -⟩ := further
    rw [IsParent, root] at step
    cases step

/-- No element lies below two roots. -/
theorem roots_disjoint {r s x : α} (first : parent r = none) (second : parent s = none)
    (underFirst : Under parent x r) (underSecond : Under parent x s) : r = s := by
  cases under_total underFirst underSecond with
  | inl below => exact eq_of_under_root first below
  | inr below => exact (eq_of_under_root second below).symm

section attach

variable [DecidableEq α] {c q : α}

/-- The edges once the root `c` hangs under `q`. -/
theorem isParent_attach (root : parent c = none) {d e : α} :
    IsParent (Function.update parent c (some q)) d e ↔ d = c ∧ e = q ∨ IsParent parent d e := by
  by_cases here : d = c
  · subst here
    rw [IsParent, IsParent, Function.update_self, root]
    simp [eq_comm]
  · rw [IsParent, IsParent, Function.update_of_ne here]
    simp [here]

/-- A path that uses the new edge leads to `c` first and goes on from `q`. -/
theorem path_attach (root : parent c = none) (apart : ¬ Under parent q c) {a b : α}
    (path : TransGen (IsParent (Function.update parent c (some q))) a b) :
    TransGen (IsParent parent) a b ∨ Under parent a c ∧ Under parent q b := by
  induction path with
  | single step =>
    cases (isParent_attach root).mp step with
    | inl new =>
      obtain ⟨rfl, rfl⟩ := new
      exact .inr ⟨.refl, .refl⟩
    | inr old => exact .inl (.single old)
  | tail _ step ih =>
    cases (isParent_attach root).mp step with
    | inl new =>
      obtain ⟨rfl, rfl⟩ := new
      cases ih with
      | inl before => exact .inr ⟨before.to_reflTransGen, .refl⟩
      | inr before => exact absurd before.2 apart
    | inr old =>
      cases ih with
      | inl before => exact .inl (before.tail old)
      | inr before => exact .inr ⟨before.1, before.2.tail old⟩

/-- Hanging a root `c` under `q` closes a cycle exactly if `q` lies below `c`. -/
theorem cyclic_attach_iff (acyclic : ¬ Cyclic parent) (root : parent c = none) :
    Cyclic (Function.update parent c (some q)) ↔ Under parent q c := by
  constructor
  · intro cyclic
    by_contra apart
    obtain ⟨p, round⟩ := cyclic
    cases path_attach root apart round with
    | inl inside => exact acyclic ⟨p, inside⟩
    | inr through => exact apart (through.2.trans through.1)
  · intro below
    have kept : ∀ a b, IsParent parent a b → IsParent (Function.update parent c (some q)) a b :=
      fun a b step => (isParent_attach root).mpr (.inr step)
    refine ⟨c, TransGen.head' ?_ (ReflTransGen.mono kept q c below)⟩
    exact (isParent_attach root).mpr (.inl ⟨rfl, rfl⟩)

end attach

section Finite

variable [Finite α]

theorem wellFounded_child (acyclic : ¬ Cyclic parent) :
    WellFounded (fun c p => IsParent parent c p) := by
  have order : WellFounded (TransGen (IsParent parent)) := by
    have : Std.Irrefl (TransGen (IsParent parent)) := ⟨fun p round => acyclic ⟨p, round⟩⟩
    exact Finite.wellFounded_of_trans_of_irrefl _
  exact Subrelation.wf (fun step => TransGen.single step) order

theorem wellFounded_parent (acyclic : ¬ Cyclic parent) :
    WellFounded (fun q p => IsParent parent p q) := by
  have order : WellFounded (fun q p => TransGen (IsParent parent) p q) := by
    have : IsTrans α (fun q p => TransGen (IsParent parent) p q) :=
      ⟨fun _ _ _ first second => second.trans first⟩
    have : Std.Irrefl (fun q p => TransGen (IsParent parent) p q) :=
      ⟨fun p round => acyclic ⟨p, round⟩⟩
    exact Finite.wellFounded_of_trans_of_irrefl _
  exact Subrelation.wf (fun step => TransGen.single step) order

theorem exists_root (acyclic : ¬ Cyclic parent) (x : α) :
    ∃ r, parent r = none ∧ Under parent x r := by
  induction x using (wellFounded_parent acyclic).induction with
  | _ x ih =>
    cases up : parent x with
    | none => exact ⟨x, up, .refl⟩
    | some q =>
      obtain ⟨r, root, under⟩ := ih q up
      exact ⟨r, root, .head up under⟩

end Finite

section Climb

variable [DecidableEq α]

/-- Going up from an element, if there is one, until `target` is met or there is no parent. -/
def climb (parent : α → Option α) (target : α) : Nat → Option α → Watched ε Bool
  | _, none => done (.ok false)
  | 0, some _ => running
  | bound + 1, some p =>
    if p = target then done (.ok true) else climb parent target bound (parent p)

theorem climb_none (target : α) (bound : Nat) :
    climb parent target bound none = (done (.ok false) : Watched ε Bool) := by
  cases bound <;> rfl

theorem climb_returns [Finite α] (acyclic : ¬ Cyclic parent) {target p : α} {found : Bool}
    (meaning : found = true ↔ Under parent p target) :
    Returns (fun m => climb (ε := ε) parent target m (some p)) (.ok found) := by
  induction p using (wellFounded_parent acyclic).induction with
  | _ p ih =>
    by_cases here : p = target
    · obtain rfl : found = true := meaning.mpr (here ▸ .refl)
      refine (returns_done (.ok true)).deeper fun m => ?_
      rw [climb, if_pos here]
    · have above : Under parent p target ↔ ∃ q, IsParent parent p q ∧ Under parent q target :=
        ReflTransGen.cases_head_iff.trans (or_iff_right here)
      have next : ∀ m, climb (ε := ε) parent target (m + 1) (some p) =
          climb parent target m (parent p) := by
        intro m
        rw [climb, if_neg here]
      cases up : parent p with
      | none =>
        obtain rfl : found = false := by
          rw [Bool.eq_false_iff]
          intro yes
          obtain ⟨q, step, -⟩ := above.mp (meaning.mp yes)
          rw [IsParent, up] at step
          cases step
        refine (returns_done (.ok false)).deeper fun m => ?_
        rw [next, up, climb_none]
      | some q =>
        have there : found = true ↔ Under parent q target := by
          rw [meaning, above]
          constructor
          · intro holds
            obtain ⟨r, step, under⟩ := holds
            exact step.unique up ▸ under
          · intro under
            exact ⟨q, up, under⟩
        exact (ih q up there).deeper fun m => by rw [next, up]

end Climb

end GuestAgent.Library.ParentMap
