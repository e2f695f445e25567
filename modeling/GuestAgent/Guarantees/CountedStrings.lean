import Mathlib.Data.List.TakeWhile
import GuestAgent.Source.Hooks

/-!
Which counted strings are read without what lies behind them.

`from_unicode_to_wstring` takes the length in bytes for one in units, so it scans twice the units
that are counted. Only a NUL among the counted ones ends the scan in time; a NUL right behind them
makes the result right, but it is read.
-/
namespace GuestAgent.Guarantees.CountedStrings
open Library Source

/-- A `UNICODE_STRING` with a length in whole units and a buffer for them. -/
structure CountedString extends UnicodeString where
  even : length.toNat % 2 = 0
  room : buffer = none → length = 0

/-- Only the counted units matter: for the result, for what is read, and from one memory to
another. -/
structure CountedOnly (u : CountedString) : Prop where
  result : fromUnicodeToWstring u.toUnicodeString = u.counted.takeWhile (· ≠ 0)
  reads : ∀ i ∈ unitsRead u.toUnicodeString, i < u.length.toNat / 2
  depends : ∀ other : CountedString, other.length = u.length → other.counted = u.counted →
    fromUnicodeToWstring other.toUnicodeString = fromUnicodeToWstring u.toUnicodeString

/-- The string is empty, or a NUL is counted. -/
def EndsInside (u : CountedString) : Prop := u.length = 0 ∨ 0 ∈ u.counted

instance (u : CountedString) : Decidable (EndsInside u) := inferInstanceAs (Decidable (_ ∨ _))

/-! ### Results -/

theorem mem_units {mem : Memory} {n : Nat} {c : WChar} :
    c ∈ mem.units n ↔ ∃ i, i < n ∧ mem i = c := by
  simp [Memory.units]

/-- A NUL among the counted units ends the string there. -/
theorem fromUnicodeToWstring_of_nul {u : UnicodeString} (nul : 0 ∈ u.counted) :
    fromUnicodeToWstring u = u.counted.takeWhile (· ≠ 0) := by
  obtain ⟨length, buffer⟩ := u
  cases buffer with
  | none => cases nul
  | some mem =>
    rw [fromUnicodeToWstring_split, List.takeWhile_append, if_neg]
    intro whole
    have all := (List.takeWhile_prefix _).eq_of_length whole
    have kept := List.takeWhile_eq_self_iff.mp all 0 nul
    exact absurd kept (by decide)

theorem fromUnicodeToWstring_of_empty {u : UnicodeString} (empty : u.length = 0) :
    fromUnicodeToWstring u = [] ∧ u.counted = [] := by
  obtain ⟨length, buffer⟩ := u
  cases empty
  cases buffer with
  | none => exact ⟨rfl, rfl⟩
  | some mem => exact ⟨rfl, by simp [UnicodeString.counted, Memory.units]⟩

theorem result_of_endsInside {u : CountedString} (ends : EndsInside u) :
    fromUnicodeToWstring u.toUnicodeString = u.counted.takeWhile (· ≠ 0) := by
  cases ends with
  | inl empty =>
    obtain ⟨result, counted⟩ := fromUnicodeToWstring_of_empty empty
    rw [result, counted]
    rfl
  | inr nul => exact fromUnicodeToWstring_of_nul nul

/-- The result is right exactly if a NUL is counted or nothing is read behind the counted units. -/
theorem result_iff (u : UnicodeString) :
    fromUnicodeToWstring u = u.counted.takeWhile (· ≠ 0) ↔ 0 ∈ u.counted ∨ u.behind = [] := by
  by_cases nul : 0 ∈ u.counted
  · exact iff_of_true (fromUnicodeToWstring_of_nul nul) (.inl nul)
  · have whole : u.counted.takeWhile (· ≠ 0) = u.counted :=
      List.takeWhile_eq_self_iff.mpr fun c member =>
        decide_eq_true fun zero : c = 0 => nul (zero ▸ member)
    rw [fromUnicodeToWstring_counted nul, whole, List.append_right_eq_self, or_iff_right nul]

/-! ### Reads -/

/-- The scan stays within the counted units exactly if it ends there. -/
theorem scan_inside_iff {length : UInt16} (mem : Memory) (even : length.toNat % 2 = 0) :
    (∀ i ∈ Scan.looked (fun i => mem i == 0) 0 length.toNat, i < length.toNat / 2) ↔
      length = 0 ∨ 0 ∈ mem.units (length.toNat / 2) := by
  rw [Scan.looked_below_iff, mem_units]
  simp only [beq_iff_eq]
  have none : length.toNat ≤ length.toNat / 2 ↔ length = 0 := by
    rw [← UInt16.toNat_inj]
    change _ ↔ length.toNat = 0
    omega
  rw [none]

/-- What is copied was looked at: it is in front of the first NUL. -/
theorem copied_inside {u : UnicodeString} {mem : Memory} (buffer : u.buffer = some mem)
    (ends : u.length = 0 ∨ 0 ∈ u.counted) {i : Nat}
    (copied : i < wcsnlenS u.buffer u.length.toNat) : i < u.length.toNat / 2 := by
  have size : (fromUnicodeToWstring u).length = wcsnlenS u.buffer u.length.toNat := by
    simp only [fromUnicodeToWstring, buffer, Memory.units_length]
  have counted : u.counted.length = u.length.toNat / 2 := by
    simp only [UnicodeString.counted, buffer, Memory.units_length]
  rw [← size] at copied
  rw [← counted]
  cases ends with
  | inl empty =>
    rw [(fromUnicodeToWstring_of_empty empty).1] at copied
    cases copied
  | inr nul =>
    rw [fromUnicodeToWstring_of_nul nul] at copied
    exact Nat.lt_of_lt_of_le copied (List.takeWhile_prefix _).length_le

theorem reads_iff (u : CountedString) :
    (∀ i ∈ unitsRead u.toUnicodeString, i < u.length.toNat / 2) ↔ EndsInside u := by
  obtain ⟨⟨length, buffer⟩, even, room⟩ := u
  cases buffer with
  | none =>
    have empty : length = 0 := room rfl
    exact iff_of_true (fun i member => absurd member List.not_mem_nil) (.inl empty)
  | some mem =>
    have scan := scan_inside_iff mem even
    constructor
    · intro reads
      exact scan.mp fun i member => reads i (List.mem_append_left _ member)
    · intro ends i member
      cases List.mem_append.mp member with
      | inl looked => exact scan.mpr ends i looked
      | inr copied => exact copied_inside (u := ⟨length, some mem⟩) rfl ends (List.mem_range.mp copied)

/-! ### Two memories -/

/-- The memory with the unit behind the first `n` changed from a NUL or to one. -/
def flipBehind (mem : Memory) (n : Nat) : Memory := fun i =>
  if i = n then if mem n = 0 then 1 else 0 else mem i

theorem units_flipBehind (mem : Memory) (n : Nat) : (flipBehind mem n).units n = mem.units n := by
  rw [Memory.units, Memory.units]
  refine List.map_congr_left fun i inside => ?_
  rw [flipBehind, if_neg (Nat.ne_of_lt (List.mem_range.mp inside))]

/-- Nothing is read behind the counted units exactly if a NUL follows them. -/
theorem behind_eq_nil_iff {length : UInt16} {mem : Memory} (nonempty : length ≠ 0) :
    UnicodeString.behind ⟨length, some mem⟩ = [] ↔ mem (length.toNat / 2) = 0 := by
  have positive : 0 < length.toNat :=
    Nat.pos_of_ne_zero fun zero => nonempty (UInt16.toNat_inj.mp zero)
  have bound : length.toNat / 2 < (mem.units length.toNat).length := by
    rw [Memory.units_length]
    omega
  have first : (mem.units length.toNat)[length.toNat / 2] = mem (length.toNat / 2) := by
    simp [Memory.units]
  simp only [UnicodeString.behind]
  rw [List.drop_eq_getElem_cons bound, first, List.takeWhile_cons]
  by_cases nul : mem (length.toNat / 2) = 0 <;> simp [nul]

/-- Two memories that agree on the counted units give the same string exactly if it is empty or a
NUL is counted: otherwise the unit behind them shows in the result. -/
theorem depends_iff (u : CountedString) :
    (∀ other : CountedString, other.length = u.length → other.counted = u.counted →
      fromUnicodeToWstring other.toUnicodeString = fromUnicodeToWstring u.toUnicodeString) ↔
      EndsInside u := by
  constructor
  · intro depends
    by_contra runs
    rw [EndsInside, not_or] at runs
    obtain ⟨nonempty, plain⟩ := runs
    obtain ⟨⟨length, buffer⟩, even, room⟩ := u
    cases buffer with
    | none => exact nonempty (room rfl)
    | some mem =>
      have counted : UnicodeString.counted ⟨length, some (flipBehind mem (length.toNat / 2))⟩ =
          UnicodeString.counted ⟨length, some mem⟩ := units_flipBehind mem _
      have results := depends ⟨⟨length, some (flipBehind mem (length.toNat / 2))⟩, even, nofun⟩ rfl
        counted
      rw [fromUnicodeToWstring_counted plain, fromUnicodeToWstring_counted (counted ▸ plain), counted]
        at results
      have behind := List.append_cancel_left results
      have nuls : flipBehind mem (length.toNat / 2) (length.toNat / 2) = 0 ↔
          mem (length.toNat / 2) = 0 := by
        rw [← behind_eq_nil_iff nonempty, ← behind_eq_nil_iff nonempty, behind]
      rw [flipBehind, if_pos rfl] at nuls
      split at nuls
      · next nul => exact absurd (nuls.mpr nul) (by decide)
      · next other => exact other (nuls.mp rfl)
  · intro ends other length counted
    have same : EndsInside other := by
      rw [EndsInside, length, counted]
      exact ends
    rw [result_of_endsInside same, result_of_endsInside ends, counted]

/-- A string is read as the counted string it is exactly if it is empty or a NUL is counted. -/
theorem counted_only_iff (u : CountedString) : CountedOnly u ↔ EndsInside u := by
  constructor
  · intro only
    exact (reads_iff u).mp only.reads
  · intro ends
    exact ⟨result_of_endsInside ends, (reads_iff u).mpr ends, (depends_iff u).mpr ends⟩

/-- The name `AB` with a `C` behind it. -/
def unterminated : CountedString :=
  ⟨⟨4, some fun i => [65, 66, 67].getD i 0⟩, by decide, nofun⟩

/-- It is read as `ABC`. -/
theorem unterminated_overread : ¬ ∀ u, CountedOnly u := by
  intro only
  have result := (only unterminated).result
  exact absurd result (by decide)

end GuestAgent.Guarantees.CountedStrings
