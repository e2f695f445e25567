import Mathlib.Logic.Basic

/-!
Enumerating a collection that may be modified meanwhile. A modification raises the version of the
collection; an enumerator remembers the version it was made at, and its next move raises when the
two differ. So an enumeration shows one content from its first element to its end, or it raises.
-/
namespace GuestAgent.Library

structure Versioned (β : Type) where
  content : List β
  version : Nat
  deriving DecidableEq, Repr

structure Enumerator where
  version : Nat
  index : Nat
  deriving DecidableEq, Repr

inductive Move (β : Type) where
  | current (b : β)
  | ended
  | modified

namespace Versioned

variable {β : Type}

def modify (d : Versioned β) (content : List β) : Versioned β := ⟨content, d.version + 1⟩

def getEnumerator (d : Versioned β) : Enumerator := ⟨d.version, 0⟩

/-- The next element; the enumerator moves on by one. -/
def moveNext (d : Versioned β) (e : Enumerator) : Move β :=
  if e.version ≠ d.version then .modified
  else match d.content[e.index]? with
    | some b => .current b
    | none => .ended

/-- The enumerator is up to date, and `seen` is what it went past. -/
structure Reading (d : Versioned β) (e : Enumerator) (seen : List β) : Prop where
  current : e.version = d.version
  seen : seen = d.content.take e.index

theorem reading_getEnumerator (d : Versioned β) : Reading d d.getEnumerator [] := ⟨rfl, rfl⟩

theorem moveNext_stale {d : Versioned β} {e : Enumerator} (stale : e.version ≠ d.version) :
    d.moveNext e = .modified := by
  rw [moveNext, if_pos stale]

theorem moveNext_current_lt {d : Versioned β} {e : Enumerator} {b : β}
    (move : d.moveNext e = .current b) : e.index < d.content.length := by
  rw [moveNext] at move
  split at move
  · cases move
  · cases found : d.content[e.index]? with
    | some c => exact (List.getElem?_eq_some_iff.mp found).1
    | none =>
      rw [found] at move
      cases move

/-- A move of an enumerator that is up to date goes one further, or everything was seen. -/
theorem Reading.moveNext {d : Versioned β} {e : Enumerator} {seen : List β}
    (reading : Reading d e seen) :
    (∃ b, d.moveNext e = .current b ∧ e.index < d.content.length ∧
      Reading d ⟨e.version, e.index + 1⟩ (seen ++ [b])) ∨
      d.moveNext e = .ended ∧ seen = d.content := by
  have upToDate : ¬ e.version ≠ d.version := not_not.mpr reading.current
  cases found : d.content[e.index]? with
  | some b =>
    refine .inl ⟨b, by rw [Versioned.moveNext, if_neg upToDate, found], ?_, reading.current, ?_⟩
    · exact (List.getElem?_eq_some_iff.mp found).1
    · rw [List.take_add_one, found, reading.seen]
      rfl
  | none =>
    refine .inr ⟨by rw [Versioned.moveNext, if_neg upToDate, found], ?_⟩
    rw [reading.seen, List.take_of_length_le (List.getElem?_eq_none_iff.mp found)]

end Versioned

end GuestAgent.Library
