import GuestAgent.Source.Monitoring

/-!
Hooks and servers in pairs: a busy server works for a thread that waits for it, and no two work
for the same thread. A step that leaves the pairs as they are, sends an event or ends the service
of one keeps this.
-/
namespace GuestAgent.Guarantees.ServedThreads
open Library Source

variable {T S : Type}

/-- Each server that is busy works for a thread that waits for it alone. -/
structure Linked (clients : T → Client) (servers : S → Server T) : Prop where
  waits : ∀ sv t e, (servers sv).serves = some (t, e) →
    ∃ call called events, clients t = .sending call called (e :: events) true
  alone : ∀ sv sv' t e e', (servers sv).serves = some (t, e) →
    (servers sv').serves = some (t, e') → sv = sv'

variable {clients : T → Client} {servers : S → Server T}

/-- No server works for a thread that does not wait. -/
theorem Linked.unserved (linked : Linked clients servers) {t : T}
    (free : ∀ call called events, clients t ≠ .sending call called events true) (sv : S)
    (e : Event) : (servers sv).serves ≠ some (t, e) := by
  intro serves
  obtain ⟨call, called, events, waiting⟩ := linked.waits sv t e serves
  exact free call called (e :: events) waiting

theorem Linked.setClient [DecidableEq T] (linked : Linked clients servers) {t : T}
    (free : ∀ call called events, clients t ≠ .sending call called events true) (c : Client) :
    Linked (Function.update clients t c) servers where
  waits := by
    intro sv u e serves
    have other : u ≠ t := by
      rintro rfl
      exact linked.unserved free sv e serves
    rw [Function.update_of_ne other]
    exact linked.waits sv u e serves
  alone := linked.alone

/-- A server may go on with the event it has in hand. -/
theorem Linked.setServer [DecidableEq S] (linked : Linked clients servers) {sv : S} {v : Server T}
    (same : v.serves = (servers sv).serves) :
    Linked clients (Function.update servers sv v) := by
  have serves : ∀ w, (Function.update servers sv v w).serves = (servers w).serves := by
    intro w
    by_cases hit : w = sv
    · subst hit
      rw [Function.update_self, same]
    · rw [Function.update_of_ne hit]
  exact ⟨fun w t e h => linked.waits w t e ((serves w).symm.trans h),
    fun w w' t e e' h h' =>
      linked.alone w w' t e e' ((serves w).symm.trans h) ((serves w').symm.trans h')⟩

theorem Linked.send [DecidableEq T] [DecidableEq S] (linked : Linked clients servers) {t : T}
    {sv : S} {call : NtCall} {called : Bool} {e : Event} {events : List Event}
    (idle : clients t = .sending call called (e :: events) false) (free : servers sv = .free) :
    Linked (Function.update clients t (.sending call called (e :: events) true))
      (Function.update servers sv (.received t e)) := by
  have unserved := linked.unserved (t := t) (by simp [idle])
  constructor
  · intro w u d serves
    by_cases hit : w = sv
    · subst hit
      rw [Function.update_self] at serves
      obtain ⟨rfl, rfl⟩ := Prod.mk.inj (Option.some.inj serves)
      exact ⟨call, called, events, Function.update_self ..⟩
    · rw [Function.update_of_ne hit] at serves
      have other : u ≠ t := by
        rintro rfl
        exact unserved w d serves
      rw [Function.update_of_ne other]
      exact linked.waits w u d serves
  · intro w w' u d d' first second
    by_cases hit : w = sv <;> by_cases hit' : w' = sv
    · exact hit.trans hit'.symm
    · subst hit
      rw [Function.update_self] at first
      rw [Function.update_of_ne hit'] at second
      obtain ⟨rfl, rfl⟩ := Prod.mk.inj (Option.some.inj first)
      exact absurd second (unserved w' d')
    · subst hit'
      rw [Function.update_self] at second
      rw [Function.update_of_ne hit] at first
      obtain ⟨rfl, rfl⟩ := Prod.mk.inj (Option.some.inj second)
      exact absurd first (unserved w d)
    · rw [Function.update_of_ne hit] at first
      rw [Function.update_of_ne hit'] at second
      exact linked.alone w w' u d d' first second

theorem Linked.release [DecidableEq T] [DecidableEq S] (linked : Linked clients servers) {t : T}
    {sv : S} {e : Event} (serves : (servers sv).serves = some (t, e)) (c : Client) :
    Linked (Function.update clients t c) (Function.update servers sv .free) := by
  have still : ∀ w u d, (Function.update servers sv .free w).serves = some (u, d) →
      w ≠ sv ∧ (servers w).serves = some (u, d) := by
    intro w u d h
    by_cases hit : w = sv
    · subst hit
      rw [Function.update_self] at h
      cases h
    · rw [Function.update_of_ne hit] at h
      exact ⟨hit, h⟩
  constructor
  · intro w u d h
    obtain ⟨other, busy⟩ := still w u d h
    have apart : u ≠ t := by
      rintro rfl
      exact other (linked.alone w sv u d e busy serves)
    rw [Function.update_of_ne apart]
    exact linked.waits w u d busy
  · intro w w' u d d' first second
    exact linked.alone w w' u d d' (still w u d first).2 (still w' u d' second).2

end GuestAgent.Guarantees.ServedThreads
