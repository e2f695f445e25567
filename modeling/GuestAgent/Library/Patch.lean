import Mathlib.Data.List.Nodup

/-!
Comparing two dictionaries, given as lists of entries with distinct keys. The comparison takes the
entries that are missing on either side and, of the keys on both sides, those for which a test
finds a change. Taken as a patch of the old dictionary it gives the new one exactly if the test
finds a change wherever there is one.
-/
namespace GuestAgent.Library.Patch

variable {α β γ : Type} [BEq α] [LawfulBEq α]

def Distinct (l : List (α × β)) : Prop := (l.map Prod.fst).Nodup

/-- The same dictionary, whatever the order of the entries. -/
def Same (l l' : List (α × β)) : Prop := ∀ k, l.lookup k = l'.lookup k

/-- The entries of `l` whose keys `other` does not have. -/
def missing (l other : List (α × β)) : List (α × β) :=
  l.filter fun kv => !(other.lookup kv.1).isSome

/-- The changes the test finds, in the order of the new entries. -/
def changes (change : β → β → Option γ) (old new : List (α × β)) : List (α × γ) :=
  new.filterMap fun kv => ((old.lookup kv.1).bind fun was => change was kv.2).map fun g => (kv.1, g)

/-- The old entries without the removed ones and with the changed ones replaced, then the added. -/
def patch (current : γ → β) (removed added : List (α × β)) (changed : List (α × γ))
    (old : List (α × β)) : List (α × β) :=
  (old.filter fun kv => !(removed.lookup kv.1).isSome).map (fun kv =>
    (kv.1, ((changed.lookup kv.1).map current).getD kv.2)) ++ added

/-! ### Lookups -/

theorem lookup_filter_key (p : α → Bool) (l : List (α × β)) (k : α) :
    (l.filter fun kv => p kv.1).lookup k = if p k then l.lookup k else none := by
  induction l with
  | nil => simp
  | cons e l ih =>
    obtain ⟨k', b⟩ := e
    by_cases here : k = k'
    · subst here
      cases keep : p k <;> simp [keep, ih]
    · cases keep : p k' <;> simp [keep, ih, List.lookup_cons, beq_false_of_ne here]

theorem lookup_map_value (f : α → β → γ) (l : List (α × β)) (k : α) :
    (l.map fun kv => (kv.1, f kv.1 kv.2)).lookup k = (l.lookup k).map (f k) := by
  induction l with
  | nil => rfl
  | cons e l ih =>
    obtain ⟨k', b⟩ := e
    by_cases here : k = k'
    · subst here
      simp
    · simp only [List.map_cons, List.lookup_cons, beq_false_of_ne here, ih]

theorem lookup_none_of_not_mem {l : List (α × β)} {k : α} (absent : k ∉ l.map Prod.fst) :
    l.lookup k = none := by
  rw [List.lookup_eq_none_iff]
  intro e member
  have other : k ≠ e.1 := fun same => absent (same ▸ List.mem_map_of_mem member)
  simpa using other

theorem mem_of_lookup {l : List (α × β)} {k : α} {b : β} (found : l.lookup k = some b) :
    (k, b) ∈ l := by
  obtain ⟨before, after, rfl, -⟩ := List.lookup_eq_some_iff.mp found
  simp

theorem lookup_of_mem {l : List (α × β)} (distinct : Distinct l) {k : α} {b : β}
    (member : (k, b) ∈ l) : l.lookup k = some b := by
  induction l with
  | nil => cases member
  | cons e l ih =>
    obtain ⟨fresh, rest⟩ := List.nodup_cons.mp distinct
    cases List.mem_cons.mp member with
    | inl here =>
      rw [← here, List.lookup_cons_self]
    | inr later =>
      have other : k ≠ e.1 := fun same => fresh (same ▸ List.mem_map_of_mem later)
      obtain ⟨k', b'⟩ := e
      rw [List.lookup_cons, beq_false_of_ne other]
      exact ih rest later

theorem lookup_missing (l other : List (α × β)) (k : α) :
    (missing l other).lookup k = if (other.lookup k).isSome then none else l.lookup k := by
  rw [missing, lookup_filter_key (fun k => !(other.lookup k).isSome)]
  cases (other.lookup k).isSome <;> rfl

theorem lookup_filterMap_value (h : α → β → Option γ) {l : List (α × β)} (distinct : Distinct l)
    (k : α) :
    (l.filterMap fun kv => (h kv.1 kv.2).map fun g => (kv.1, g)).lookup k =
      (l.lookup k).bind (h k) := by
  induction l with
  | nil => rfl
  | cons e l ih =>
    obtain ⟨k', b⟩ := e
    obtain ⟨fresh, rest⟩ := List.nodup_cons.mp distinct
    have later := ih rest
    by_cases here : k = k'
    · subst here
      rw [lookup_none_of_not_mem fresh] at later
      cases kept : h k b <;> simp [kept, later]
    · cases kept : h k' b <;> simp [kept, later, List.lookup_cons, beq_false_of_ne here]

theorem lookup_changes (change : β → β → Option γ) (old : List (α × β)) {new : List (α × β)}
    (distinct : Distinct new) (k : α) :
    (changes change old new).lookup k =
      (new.lookup k).bind fun b => (old.lookup k).bind fun was => change was b :=
  lookup_filterMap_value (fun k b => (old.lookup k).bind fun was => change was b) distinct k

theorem lookup_patch (current : γ → β) (removed added : List (α × β)) (changed : List (α × γ))
    (old : List (α × β)) (k : α) :
    (patch current removed added changed old).lookup k =
      (if (removed.lookup k).isSome then none
        else (old.lookup k).map fun b => ((changed.lookup k).map current).getD b).or
      (added.lookup k) := by
  rw [patch, List.lookup_append, lookup_map_value (fun k b => ((changed.lookup k).map current).getD b),
    lookup_filter_key (fun k => !(removed.lookup k).isSome)]
  cases (removed.lookup k).isSome <;> rfl

/-! ### The comparison as a patch -/

section comparison

variable {change : β → β → Option γ} {current : γ → β} {old new : List (α × β)}

/-- Patching the old dictionary gives the new one exactly if every difference is found. -/
theorem patch_same_iff (old : List (α × β)) (shows : ∀ a b g, change a b = some g → current g = b)
    (distinct : Distinct new) :
    Same (patch current (missing old new) (missing new old) (changes change old new) old) new ↔
      ∀ k a b, old.lookup k = some a → new.lookup k = some b → a = b ∨ (change a b).isSome := by
  have at_key : ∀ k,
      (patch current (missing old new) (missing new old) (changes change old new) old).lookup k =
        new.lookup k ↔
      ∀ a b, old.lookup k = some a → new.lookup k = some b → a = b ∨ (change a b).isSome := by
    intro k
    rw [lookup_patch, lookup_missing, lookup_missing, lookup_changes change old distinct]
    cases was : old.lookup k with
    | none => cases new.lookup k <;> simp
    | some a =>
      cases is_ : new.lookup k with
      | none => simp
      | some b =>
        cases found : change a b with
        | none => simp [found]
        | some g => simp [found, shows a b g found]
  constructor
  · intro same k
    exact (at_key k).mp (same k)
  · intro found k
    exact (at_key k).mpr (found k)

theorem missing_eq_nil_iff (l other : List (α × β)) :
    missing l other = [] ↔ ∀ k, (l.lookup k).isSome → (other.lookup k).isSome := by
  rw [missing, List.filter_eq_nil_iff]
  constructor
  · intro kept k found
    obtain ⟨b, found⟩ := Option.isSome_iff_exists.mp found
    simpa using kept (k, b) (mem_of_lookup found)
  · intro known e member
    have found : (l.lookup e.1).isSome := List.lookup_isSome_iff.mpr ⟨e, member, beq_self_eq_true _⟩
    simpa using known e.1 found

theorem changes_eq_nil_iff (change : β → β → Option γ) (old : List (α × β))
    (distinct : Distinct new) :
    changes change old new = [] ↔
      ∀ k a b, old.lookup k = some a → new.lookup k = some b → change a b = none := by
  rw [changes, List.filterMap_eq_nil_iff]
  constructor
  · intro kept k a b was is_
    simpa [was] using kept (k, b) (mem_of_lookup is_)
  · intro none_found e member
    cases was : old.lookup e.1 with
    | none => rfl
    | some a => simpa using none_found e.1 a e.2 was (lookup_of_mem distinct member)

/-- Nothing is found exactly if there is no difference, when every difference is found. -/
theorem nothing_found_iff (apart : ∀ a b, (change a b).isSome → a ≠ b) (distinct : Distinct new)
    (found : ∀ k a b, old.lookup k = some a → new.lookup k = some b →
      a = b ∨ (change a b).isSome) :
    (missing old new = [] ∧ missing new old = [] ∧ changes change old new = []) ↔
      Same old new := by
  rw [missing_eq_nil_iff, missing_eq_nil_iff, changes_eq_nil_iff change old distinct]
  constructor
  · intro nothing k
    obtain ⟨gone, added, unchanged⟩ := nothing
    cases was : old.lookup k with
    | none =>
      cases is_ : new.lookup k with
      | none => rfl
      | some b => simpa [was, is_] using added k
    | some a =>
      cases is_ : new.lookup k with
      | none => simpa [was, is_] using gone k
      | some b =>
        cases found k a b was is_ with
        | inl same => rw [same]
        | inr differs => simp [unchanged k a b was is_] at differs
  · intro same
    refine ⟨fun k present => same k ▸ present, fun k present => same k ▸ present, ?_⟩
    intro k a b was is_
    rw [same k, is_] at was
    obtain rfl := Option.some.inj was
    cases differs : change b b with
    | none => rfl
    | some g => exact absurd rfl (apart b b (by simp [differs]))

end comparison

end GuestAgent.Library.Patch
