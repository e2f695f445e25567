import Mathlib.Data.List.Destutter

/-!
Logs without repetitions. A log that takes an entry unless it equals the last one holds what was
offered to it, with every run of equal entries collapsed to one.
-/
namespace GuestAgent.Library.Collapse

variable {α : Type} [DecidableEq α]

/-- Runs of equal entries collapsed to one. -/
def collapse (l : List α) : List α := l.destutter (· ≠ ·)

/-- Take an entry unless it equals the last one. -/
def offer (log : List α) (x : α) : List α := if log.getLast? = some x then log else log ++ [x]

@[simp] theorem collapse_nil : collapse ([] : List α) = [] := rfl

@[simp] theorem collapse_singleton (x : α) : collapse [x] = [x] := rfl

@[simp] theorem getLast?_offer (log : List α) (x : α) : (offer log x).getLast? = some x := by
  unfold offer
  split
  next same => exact same
  · simp

theorem head?_offer (log : List α) (x : α) : (offer log x).head? = some (log.head?.getD x) := by
  unfold offer
  cases log with
  | nil => simp
  | cons first rest => split <;> rfl

/-- The last entry stays in sight of the run it ends. -/
theorem destutter'_concat (a : α) (l : List α) (x : α) :
    (l ++ [x]).destutter' (· ≠ ·) a =
      if (a :: l).getLast? = some x then l.destutter' (· ≠ ·) a
      else l.destutter' (· ≠ ·) a ++ [x] := by
  induction l generalizing a with
  | nil => by_cases same : a = x <;> simp [same]
  | cons b l ih =>
    have last : (a :: b :: l).getLast? = (b :: l).getLast? := List.getLast?_cons_cons
    rw [List.cons_append, last]
    by_cases same : a = b
    · subst same
      rw [List.destutter'_cons_neg _ (by simp), List.destutter'_cons_neg _ (by simp), ih]
    · rw [List.destutter'_cons_pos _ same, List.destutter'_cons_pos _ same, ih]
      split <;> rfl

theorem collapse_concat (l : List α) (x : α) :
    collapse (l ++ [x]) = if l.getLast? = some x then collapse l else collapse l ++ [x] := by
  cases l with
  | nil => simp
  | cons a l => exact destutter'_concat a l x

theorem getLast?_collapse (l : List α) : (collapse l).getLast? = l.getLast? := by
  induction l using List.reverseRecOn with
  | nil => rfl
  | append_singleton l x ih =>
    rw [collapse_concat]
    split
    next same => rw [ih, same, List.getLast?_concat]
    · rw [List.getLast?_concat, List.getLast?_concat]

theorem offer_collapse (l : List α) (x : α) : offer (collapse l) x = collapse (l ++ [x]) := by
  rw [offer, getLast?_collapse, collapse_concat]

theorem head?_collapse (l : List α) : (collapse l).head? = l.head? := by
  induction l using List.reverseRecOn with
  | nil => rfl
  | append_singleton l x ih =>
    rw [← offer_collapse, head?_offer, ih]
    cases l <;> rfl

end GuestAgent.Library.Collapse
