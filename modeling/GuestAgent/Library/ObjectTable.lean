import Mathlib.Data.List.AList
import Mathlib.Logic.Function.Basic

/-!
A dictionary whose values are mutable objects, kept by reference. The table
carries two facts with it: a reference it holds was allocated, and no reference
is held under two keys. Objects that lost their key stay in the store, where
nothing reaches them: that is what a garbage-collected object is.
-/
namespace GuestAgent.Library

abbrev Ref := Nat

@[ext]
structure ObjectTable (κ α : Type) [DecidableEq κ] where
  map : AList (fun _ : κ => Ref)
  objects : Ref → α
  next : Ref
  allocated : ∀ k r, map.lookup k = some r → r < next
  single : ∀ k l r, map.lookup k = some r → map.lookup l = some r → k = l

namespace ObjectTable

variable {κ α : Type} [DecidableEq κ]

/-- A table without entries; `unborn` is what unallocated references show. -/
def empty (unborn : α) : ObjectTable κ α where
  map := ∅
  objects := fun _ => unborn
  next := 0
  allocated := by simp
  single := by simp

def ref? (t : ObjectTable κ α) (k : κ) : Option Ref := t.map.lookup k

def contains (t : ObjectTable κ α) (k : κ) : Bool := (t.ref? k).isSome

/-- The object a key leads to. -/
def entry? (t : ObjectTable κ α) (k : κ) : Option α := (t.ref? k).map t.objects

/-- The objects of the table, in enumeration order. -/
def values (t : ObjectTable κ α) : List α := t.map.entries.map (fun e => t.objects e.2)

/-- The references of the table, in enumeration order. -/
def refs (t : ObjectTable κ α) : List Ref := t.map.entries.map (·.2)

/-- Change the object behind a reference, whoever holds it. -/
def update (t : ObjectTable κ α) (r : Ref) (f : α → α) : ObjectTable κ α where
  map := t.map
  objects := Function.update t.objects r (f (t.objects r))
  next := t.next
  allocated := t.allocated
  single := t.single

theorem lookup_insert_cases {d : AList (fun _ : κ => Ref)} {k l : κ} {r q : Ref}
    (h : (d.insert k r).lookup l = some q) : (l = k ∧ q = r) ∨ (l ≠ k ∧ d.lookup l = some q) := by
  by_cases same : l = k
  · subst same
    rw [AList.lookup_insert] at h
    exact .inl ⟨rfl, (Option.some.inj h).symm⟩
  · rw [AList.lookup_insert_ne same] at h
    exact .inr ⟨same, h⟩

/-- Store a new object under `k`. -/
def addNew (t : ObjectTable κ α) (k : κ) (a : α) : ObjectTable κ α where
  map := t.map.insert k t.next
  objects := Function.update t.objects t.next a
  next := t.next + 1
  allocated := by
    intro l r held
    rcases lookup_insert_cases held with ⟨_, rfl⟩ | ⟨_, old⟩
    · exact Nat.lt_succ_self _
    · exact Nat.lt_succ_of_lt (t.allocated l r old)
  single := by
    intro l m r first second
    rcases lookup_insert_cases first with ⟨hl, rfl⟩ | ⟨_, hl⟩ <;>
      rcases lookup_insert_cases second with ⟨hm, hr⟩ | ⟨_, hm⟩
    · exact hl.trans hm.symm
    · exact absurd (t.allocated m _ hm) (Nat.lt_irrefl _)
    · subst hr
      exact absurd (t.allocated l _ hl) (Nat.lt_irrefl _)
    · exact t.single l m r hl hm

theorem lookup_erase_cases {d : AList (fun _ : κ => Ref)} {k l : κ} {q : Ref}
    (h : (d.erase k).lookup l = some q) : l ≠ k ∧ d.lookup l = some q := by
  by_cases same : l = k
  · subst same
    rw [AList.lookup_erase] at h
    cases h
  · rw [AList.lookup_erase_ne same] at h
    exact ⟨same, h⟩

/-- Move the object of `old` to the key `new`; an object that had the key `new` loses it. -/
def rekey (t : ObjectTable κ α) (old new : κ) : ObjectTable κ α :=
  match h : t.ref? old with
  | none => t
  | some r =>
    { map := (t.map.erase old).insert new r
      objects := t.objects
      next := t.next
      allocated := by
        intro l q held
        rcases lookup_insert_cases held with ⟨_, rfl⟩ | ⟨_, kept⟩
        · exact t.allocated old _ h
        · exact t.allocated l q (lookup_erase_cases kept).2
      single := by
        intro l m q first second
        rcases lookup_insert_cases first with ⟨hl, rfl⟩ | ⟨_, kl⟩ <;>
          rcases lookup_insert_cases second with ⟨hm, hq⟩ | ⟨_, km⟩
        · exact hl.trans hm.symm
        · have kept := lookup_erase_cases km
          exact absurd (t.single m old _ kept.2 h) kept.1
        · subst hq
          have kept := lookup_erase_cases kl
          exact absurd (t.single l old _ kept.2 h) kept.1
        · exact t.single l m q (lookup_erase_cases kl).2 (lookup_erase_cases km).2 }

@[simp] theorem ref?_empty (unborn : α) (k : κ) :
    (empty unborn : ObjectTable κ α).ref? k = none := rfl

@[simp] theorem objects_update_self (t : ObjectTable κ α) (r : Ref) (f : α → α) :
    (t.update r f).objects r = f (t.objects r) := Function.update_self ..

theorem objects_update_ne (t : ObjectTable κ α) {r q : Ref} (f : α → α) (other : q ≠ r) :
    (t.update r f).objects q = t.objects q := Function.update_of_ne other ..

/-- An update that leaves its object as it was changes nothing. -/
theorem update_of_fixed {t : ObjectTable κ α} {r : Ref} {f : α → α}
    (fixed : f (t.objects r) = t.objects r) : t.update r f = t := by
  ext1
  · rfl
  · simp [update, fixed]
  · rfl

@[simp] theorem ref?_addNew_self (t : ObjectTable κ α) (k : κ) (a : α) :
    (t.addNew k a).ref? k = some t.next := AList.lookup_insert ..

theorem ref?_addNew_ne (t : ObjectTable κ α) {k l : κ} (a : α) (other : l ≠ k) :
    (t.addNew k a).ref? l = t.ref? l := AList.lookup_insert_ne other

@[simp] theorem objects_addNew_next (t : ObjectTable κ α) (k : κ) (a : α) :
    (t.addNew k a).objects t.next = a := Function.update_self ..

theorem objects_addNew_lt (t : ObjectTable κ α) (k : κ) (a : α) {r : Ref} (born : r < t.next) :
    (t.addNew k a).objects r = t.objects r := Function.update_of_ne (Nat.ne_of_lt born) ..

theorem rekey_of_none {t : ObjectTable κ α} {old : κ} (h : t.ref? old = none) (new : κ) :
    t.rekey old new = t := by
  unfold rekey
  split
  · rfl
  next held => rw [h] at held; cases held

@[simp] theorem objects_rekey (t : ObjectTable κ α) (old new : κ) :
    (t.rekey old new).objects = t.objects := by
  unfold rekey
  split <;> rfl

@[simp] theorem next_rekey (t : ObjectTable κ α) (old new : κ) :
    (t.rekey old new).next = t.next := by
  unfold rekey
  split <;> rfl

theorem map_rekey {t : ObjectTable κ α} {old : κ} {r : Ref} (h : t.ref? old = some r) (new : κ) :
    (t.rekey old new).map = (t.map.erase old).insert new r := by
  unfold rekey
  split
  next none => rw [h] at none; cases none
  next q held =>
    rw [h] at held
    cases held
    rfl

theorem ref?_rekey_new {t : ObjectTable κ α} {old : κ} {r : Ref} (h : t.ref? old = some r)
    (new : κ) : (t.rekey old new).ref? new = some r := by
  rw [ref?, map_rekey h, AList.lookup_insert]

theorem ref?_rekey_old {t : ObjectTable κ α} {old new : κ} {r : Ref} (h : t.ref? old = some r)
    (moved : old ≠ new) : (t.rekey old new).ref? old = none := by
  rw [ref?, map_rekey h, AList.lookup_insert_ne moved, AList.lookup_erase]

theorem ref?_rekey_other {t : ObjectTable κ α} {old new k : κ} (hold : k ≠ old) (hnew : k ≠ new) :
    (t.rekey old new).ref? k = t.ref? k := by
  cases h : t.ref? old with
  | none => rw [rekey_of_none h]
  | some r =>
    rw [ref?, map_rekey h, AList.lookup_insert_ne hnew, AList.lookup_erase_ne hold, ref?]

/-- The entries once an object was added. -/
theorem ref?_addNew_iff (t : ObjectTable κ α) {k l : κ} (a : α) {q : Ref} :
    (t.addNew k a).ref? l = some q ↔ (l = k ∧ q = t.next) ∨ (l ≠ k ∧ t.ref? l = some q) := by
  by_cases same : l = k
  · subst same
    simp [eq_comm]
  · simp [t.ref?_addNew_ne a same, same]

/-- The entries once the object `r` was moved. -/
theorem ref?_rekey_iff {t : ObjectTable κ α} {old new k : κ} {r q : Ref} (h : t.ref? old = some r) :
    (t.rekey old new).ref? k = some q ↔
      (k = new ∧ q = r) ∨ (k ≠ old ∧ k ≠ new ∧ t.ref? k = some q) := by
  by_cases target : k = new
  · subst target
    simp [ref?_rekey_new h, eq_comm]
  by_cases source : k = old
  · subst source
    simp [ref?_rekey_old h target, target]
  · simp [ref?_rekey_other source target, source, target]

/-! ### The table as a map of values -/

theorem entry?_eq_some {t : ObjectTable κ α} {k : κ} {a : α} :
    t.entry? k = some a ↔ ∃ r, t.ref? k = some r ∧ t.objects r = a := by
  simp [Option.map_eq_some_iff, entry?]

theorem entry?_of_ref? {t : ObjectTable κ α} {k : κ} {r : Ref} (h : t.ref? k = some r) :
    t.entry? k = some (t.objects r) := entry?_eq_some.mpr ⟨r, h, rfl⟩

/-- A key and its object: nobody else sees the update. -/
theorem entry?_update {t : ObjectTable κ α} {k : κ} {r : Ref} (h : t.ref? k = some r) (f : α → α) :
    ObjectTable.entry? (t.update r f) =
      Function.update t.entry? k (some (f (t.objects r))) := by
  funext l
  have refs : (t.update r f).ref? l = t.ref? l := rfl
  by_cases same : l = k
  · subst same
    rw [Function.update_self, entry?, refs, h, Option.map_some, objects_update_self]
  · rw [Function.update_of_ne same, entry?, entry?, refs]
    cases held : t.ref? l with
    | none => rfl
    | some q =>
      have apart : q ≠ r := by
        rintro rfl
        exact same (t.single l k q held h)
      rw [Option.map_some, Option.map_some, objects_update_ne t f apart]

theorem entry?_addNew (t : ObjectTable κ α) (k : κ) (a : α) :
    ObjectTable.entry? (t.addNew k a) = Function.update t.entry? k (some a) := by
  funext l
  by_cases same : l = k
  · subst same
    rw [Function.update_self, entry?, ref?_addNew_self, Option.map_some, objects_addNew_next]
  · rw [Function.update_of_ne same, entry?, entry?, ref?_addNew_ne t a same]
    cases held : t.ref? l with
    | none => rfl
    | some q => rw [Option.map_some, Option.map_some, objects_addNew_lt t k a (t.allocated l q held)]

theorem entry?_rekey {t : ObjectTable κ α} {old : κ} {r : Ref} (h : t.ref? old = some r) (new : κ) :
    ObjectTable.entry? (t.rekey old new) =
      Function.update (Function.update t.entry? old none) new (some (t.objects r)) := by
  funext l
  rw [ entry?, objects_rekey]
  by_cases target : l = new
  · subst target
    rw [Function.update_self, ref?_rekey_new h, Option.map_some]
  rw [Function.update_of_ne target]
  by_cases source : l = old
  · subst source
    rw [Function.update_self, ref?_rekey_old h target, Option.map_none]
  · rw [Function.update_of_ne source, ref?_rekey_other source target, entry?]

theorem mem_values {t : ObjectTable κ α} {a : α} :
    a ∈ t.values ↔ ∃ k r, t.ref? k = some r ∧ t.objects r = a := by
  simp only [values, List.mem_map, ref?]
  constructor
  · intro holds
    obtain ⟨⟨k, r⟩, member, rfl⟩ := holds
    exact ⟨k, r, AList.mem_lookup_iff.mpr member, rfl⟩
  · intro holds
    obtain ⟨k, r, held, rfl⟩ := holds
    exact ⟨⟨k, r⟩, AList.mem_lookup_iff.mp held, rfl⟩

end ObjectTable

end GuestAgent.Library
