import Mathlib.Data.List.Basic
import Mathlib.Data.List.Nodup
import Mathlib.Logic.Function.Basic

/-!
The queue of a monitor. A thread that waits joins the queue at its end; a pulse wakes the first one
in it, and a thread whose time is up leaves from anywhere. Nobody is overtaken: while a thread waits,
each pulse brings it one place nearer to the head.
-/
namespace GuestAgent.Library

/-- Who waits, in order, and what each thread waits for, if it does. -/
structure WaitQueue (T κ : Type) where
  queue : List T
  waits : T → Option κ

inductive WaitMove (T κ : Type) where
  /-- The first `n` threads are pulsed. -/
  | wake (n : Nat)
  | join (t : T) (on : κ)
  | leave (t : T)

/-- How many threads a move pulses. -/
def WaitMove.pulses {T κ : Type} : WaitMove T κ → Nat
  | .wake n => n
  | .join _ _ | .leave _ => 0

namespace WaitQueue

variable {T κ : Type} [DecidableEq T]

def step (q : WaitQueue T κ) : WaitMove T κ → Option (WaitQueue T κ)
  | .wake n => some ⟨q.queue.drop n, fun t => if t ∈ q.queue.take n then none else q.waits t⟩
  | .join t on =>
    if (q.waits t).isNone then some ⟨q.queue ++ [t], Function.update q.waits t (some on)⟩ else none
  | .leave t =>
    if (q.waits t).isSome then some ⟨q.queue.erase t, Function.update q.waits t none⟩ else none

/-- The threads in the queue are those that wait, each once. -/
structure Proper (q : WaitQueue T κ) : Prop where
  nodup : q.queue.Nodup
  member : ∀ t, t ∈ q.queue ↔ (q.waits t).isSome = true

variable {q q' : WaitQueue T κ}

theorem Proper.wake (proper : q.Proper) (n : Nat) (woken : q.step (.wake n) = some q') :
    q'.Proper := by
  cases woken
  have parts : (q.queue.take n ++ q.queue.drop n).Nodup := by
    rw [List.take_append_drop]
    exact proper.nodup
  refine ⟨proper.nodup.sublist (List.drop_sublist n q.queue), fun t => ?_⟩
  have either : t ∈ q.queue.take n ∨ t ∈ q.queue.drop n ↔ (q.waits t).isSome = true := by
    rw [← proper.member, ← List.mem_append, List.take_append_drop]
  by_cases first : t ∈ q.queue.take n
  · have apart : t ∉ q.queue.drop n := (List.nodup_append'.mp parts).2.2 first
    simp [first, apart]
  · simpa [first] using either

theorem Proper.join (proper : q.Proper) {t : T} {on : κ} (joined : q.step (.join t on) = some q') :
    q'.Proper := by
  simp only [step] at joined
  split at joined
  · next awake =>
    cases joined
    have outside : t ∉ q.queue := by
      rw [proper.member, Option.isNone_iff_eq_none.mp awake]
      exact nofun
    refine ⟨List.nodup_append'.mpr ⟨proper.nodup, List.nodup_singleton t, by simpa using outside⟩,
      fun u => ?_⟩
    by_cases same : u = t
    · simp [same]
    · simp [same, proper.member]
  · cases joined

theorem Proper.leave (proper : q.Proper) {t : T} (left : q.step (.leave t) = some q') :
    q'.Proper := by
  simp only [step] at left
  split at left
  · cases left
    refine ⟨proper.nodup.erase t, fun u => ?_⟩
    rw [proper.nodup.mem_erase_iff]
    by_cases same : u = t
    · simp [same]
    · simp [same, proper.member]
  · cases left

theorem Proper.step (proper : q.Proper) {m : WaitMove T κ} (moved : q.step m = some q') :
    q'.Proper := by
  cases m with
  | wake n => exact proper.wake n moved
  | join t on => exact proper.join moved
  | leave t => exact proper.leave moved

theorem idxOf_erase_le {l : List T} {t u : T} (other : u ≠ t) :
    (l.erase u).idxOf t ≤ l.idxOf t := by
  induction l with
  | nil => simp
  | cons a l ih =>
    by_cases here : a = t
    · subst here
      rw [List.erase_cons_tail (by simpa using other.symm), List.idxOf_cons_self]
      exact Nat.zero_le _
    · rw [List.idxOf_cons_ne _ here]
      by_cases gone : a = u
      · subst gone
        rw [List.erase_cons_head]
        exact Nat.le_succ _
      · rw [List.erase_cons_tail (by simpa using gone), List.idxOf_cons_ne _ here]
        exact Nat.succ_le_succ ih

/-- A thread that is in the queue behind `n` others. -/
theorem idxOf_drop {l : List T} {t : T} {n : Nat} (behind : t ∉ l.take n) (inside : t ∈ l) :
    (l.drop n).idxOf t + n = l.idxOf t := by
  have long : n ≤ l.length := by
    by_contra short
    rw [List.take_of_length_le (by omega)] at behind
    exact behind inside
  have whole : (l.take n ++ l.drop n).idxOf t = (l.take n).length + (l.drop n).idxOf t :=
    List.idxOf_append_of_notMem behind
  rw [List.take_append_drop, List.length_take] at whole
  omega

/-- While a thread waits, every pulse brings it nearer to the head, and nothing takes it back. -/
theorem rank_step (proper : q.Proper) {m : WaitMove T κ} (moved : q.step m = some q') {t : T}
    (before : (q.waits t).isSome = true) (after : (q'.waits t).isSome = true) :
    q'.queue.idxOf t + m.pulses ≤ q.queue.idxOf t := by
  have inside := (proper.member t).mpr before
  cases m with
  | wake n =>
    cases moved
    have behind : t ∉ q.queue.take n := by
      intro first
      simp [first] at after
    exact Nat.le_of_eq (idxOf_drop behind inside)
  | join u on =>
    simp only [step] at moved
    split at moved
    · cases moved
      rw [List.idxOf_append_of_mem inside]
      exact Nat.le_refl _
    · cases moved
  | leave u =>
    simp only [step] at moved
    split at moved
    · cases moved
      have other : u ≠ t := by
        rintro rfl
        simp at after
      exact idxOf_erase_le other
    · cases moved

/-- Who waits has waited before, or has just joined. -/
theorem waits_step {m : WaitMove T κ} (moved : q.step m = some q') {t : T} {on : κ}
    (after : q'.waits t = some on) : q.waits t = some on ∨ m = .join t on := by
  cases m with
  | wake n =>
    cases moved
    simp only at after
    split at after
    · cases after
    · exact .inl after
  | join u on' =>
    simp only [step] at moved
    split at moved
    · cases moved
      dsimp only at after
      by_cases same : t = u
      · subst same
        rw [Function.update_self] at after
        cases after
        exact .inr rfl
      · rw [Function.update_of_ne same] at after
        exact .inl after
    · cases moved
  | leave u =>
    simp only [step] at moved
    split at moved
    · cases moved
      dsimp only at after
      by_cases same : t = u
      · subst same
        rw [Function.update_self] at after
        cases after
      · rw [Function.update_of_ne same] at after
        exact .inl after
    · cases moved

end WaitQueue

end GuestAgent.Library
