import Mathlib.Data.List.Forall2

/-!
Code in which a step either goes on or raises: `Except`, with what a single raise point does
given as an `Option`. `Completes` says that a computation raises nothing, and distributes over
sequencing, so that a computation completes exactly if each step it comes to does.
-/
namespace GuestAgent.Library

variable {ε α β : Type}

/-- A raise point: what it raises, if anything. -/
def raise : Option ε → Except ε Unit
  | none => .ok ()
  | some e => .error e

def Completes (x : Except ε α) : Prop := ∃ a, x = .ok a

@[simp] theorem completes_ok (a : α) : Completes (.ok a : Except ε α) := ⟨a, rfl⟩

@[simp] theorem completes_pure (a : α) : Completes (pure a : Except ε α) := ⟨a, rfl⟩

@[simp] theorem not_completes_error (e : ε) : ¬ Completes (.error e : Except ε α) := by
  intro holds
  obtain ⟨a, h⟩ := holds
  cases h

theorem bind_eq_ok (x : Except ε α) (next : α → Except ε β) (b : β) :
    x >>= next = .ok b ↔ ∃ a, x = .ok a ∧ next a = .ok b := by
  cases x with
  | ok a => simp [bind, Except.bind]
  | error e => simp [bind, Except.bind]

theorem bind_eq_error (x : Except ε α) (next : α → Except ε β) (e : ε) :
    x >>= next = .error e ↔ x = .error e ∨ ∃ a, x = .ok a ∧ next a = .error e := by
  cases x with
  | ok a => simp [bind, Except.bind]
  | error e' => simp [bind, Except.bind]

theorem completes_bind (x : Except ε α) (next : α → Except ε β) :
    Completes (x >>= next) ↔ ∃ a, x = .ok a ∧ Completes (next a) := by
  cases x with
  | ok a => simp [bind, Except.bind]
  | error e => simp [bind, Except.bind]

/-- What is made of the result in the end raises nothing. -/
theorem completes_bind_pure (x : Except ε α) (f : α → β) :
    Completes (x >>= fun a => pure (f a)) ↔ Completes x := by
  cases x with
  | ok a => simp [bind, Except.bind]
  | error e => simp [bind, Except.bind]

@[simp] theorem completes_raise_bind (raised : Option ε) (next : Unit → Except ε β) :
    Completes (raise raised >>= next) ↔ raised = none ∧ Completes (next ()) := by
  cases raised <;> simp [raise, bind, Except.bind]

/-- Mapping goes through exactly if every single call does. -/
theorem mapM_eq_ok (f : α → Except ε β) (l : List α) (bs : List β) :
    l.mapM f = .ok bs ↔ List.Forall₂ (fun a b => f a = .ok b) l bs := by
  induction l generalizing bs with
  | nil =>
    rw [List.mapM_nil, List.forall₂_nil_left_iff]
    constructor
    · intro same
      cases same
      rfl
    · intro empty
      rw [empty]
      rfl
  | cons a l ih =>
    rw [List.mapM_cons, bind_eq_ok]
    constructor
    · intro holds
      obtain ⟨b, first, rest⟩ := holds
      obtain ⟨cs, mapped, same⟩ := (bind_eq_ok _ _ _).mp rest
      cases same
      exact .cons first ((ih cs).mp mapped)
    · intro holds
      cases holds with
      | cons first rest =>
        exact ⟨_, first, (bind_eq_ok _ _ _).mpr ⟨_, (ih _).mpr rest, rfl⟩⟩

/-- What a list of results contains is the result of an element. -/
theorem exists_of_mem_mapM {f : α → Except ε β} {l : List α} {bs : List β}
    (mapped : l.mapM f = .ok bs) {b : β} (member : b ∈ bs) : ∃ a ∈ l, f a = .ok b := by
  rw [mapM_eq_ok] at mapped
  induction mapped with
  | nil => cases member
  | cons head _ ih =>
    rcases List.mem_cons.mp member with rfl | later
    · exact ⟨_, List.mem_cons_self, head⟩
    · obtain ⟨a, here, same⟩ := ih later
      exact ⟨a, List.mem_cons_of_mem _ here, same⟩

theorem completes_mapM (f : α → Except ε β) (l : List α) :
    Completes (l.mapM f) ↔ ∀ a ∈ l, Completes (f a) := by
  induction l with
  | nil =>
    rw [List.mapM_nil]
    simp
  | cons a l ih =>
    rw [List.mapM_cons, completes_bind, List.forall_mem_cons, ← ih]
    constructor
    · intro holds
      obtain ⟨b, first, rest⟩ := holds
      obtain ⟨bs, mapped, -⟩ := (completes_bind _ _).mp rest
      exact ⟨⟨b, first⟩, ⟨bs, mapped⟩⟩
    · intro holds
      obtain ⟨⟨b, first⟩, bs, mapped⟩ := holds
      exact ⟨b, first, (completes_bind _ _).mpr ⟨bs, mapped, completes_pure _⟩⟩

end GuestAgent.Library
