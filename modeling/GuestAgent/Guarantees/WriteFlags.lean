import GuestAgent.Source.NativeHooks

/-!
Which masks are rightly taken for requests to write.

The loops over `WRITE_FLAGS` and `REGISTRY_WRITE_FLAGS` run to the size of the table in bytes, which
is four times the number of its entries. A mask with one of the rights ends the loop inside the
table; any other mask is compared with the words behind it, and a zero word there is contained in
every mask.
-/
namespace GuestAgent.Guarantees.WriteFlags
open Library Source NativeHooks

/-- The mask contains all bits of an entry of the table. -/
def HoldsFlag (table : List UInt32) (mask : AccessMask) : Prop :=
  ∃ flag ∈ table, mask &&& flag = flag

instance (table : List UInt32) (mask : AccessMask) : Decidable (HoldsFlag table mask) :=
  inferInstanceAs (Decidable (∃ flag ∈ table, _))

/-- What a loop over a table owes the mask, whatever lies behind the table. -/
structure TellsFlag (table : List UInt32) (behind : Nat → UInt32) (mask : AccessMask)
    (answer : Bool) : Prop where
  answer : answer = true ↔ HoldsFlag table mask
  inside : ∀ i ∈ flagsRead table behind mask, i < table.length

/-- A word within the bound of the loop, but behind the table, is contained in the mask. -/
def HoldsBehind (table : List UInt32) (behind : Nat → UInt32) (mask : AccessMask) : Prop :=
  ∃ i, i < 3 * table.length ∧ mask &&& behind i = behind i

section loop

variable {table : List UInt32} (behind : Nat → UInt32) {mask : AccessMask}

theorem tableAt_inside {i : Nat} (bound : i < table.length) : tableAt table behind i = table[i] := by
  rw [tableAt, dif_pos bound]

theorem tableAt_behind (i : Nat) : tableAt table behind (table.length + i) = behind i := by
  rw [tableAt, dif_neg (by omega), Nat.add_sub_cancel_left]

/-- The flags are met at the indices below the number of entries. -/
theorem holdsFlag_iff : HoldsFlag table mask ↔
    ∃ i, i < table.length ∧ mask &&& tableAt table behind i = tableAt table behind i := by
  constructor
  · intro holds
    obtain ⟨flag, listed, contained⟩ := holds
    obtain ⟨i, bound, same⟩ := List.getElem_of_mem listed
    refine ⟨i, bound, ?_⟩
    rw [tableAt_inside behind bound, same]
    exact contained
  · intro met
    obtain ⟨i, bound, contained⟩ := met
    rw [tableAt_inside behind bound] at contained
    exact ⟨table[i], List.getElem_mem bound, contained⟩

/-- What the loop answers: the words behind the table count like its entries. -/
theorem scan_iff : ((List.range (4 * table.length)).any fun i =>
      mask &&& tableAt table behind i == tableAt table behind i) = true ↔
    HoldsFlag table mask ∨ HoldsBehind table behind mask := by
  rw [List.any_eq_true, holdsFlag_iff behind]
  constructor
  · intro met
    obtain ⟨i, bound, contained⟩ := met
    have bound := List.mem_range.mp bound
    have contained := eq_of_beq contained
    by_cases inside : i < table.length
    · exact .inl ⟨i, inside, contained⟩
    · obtain ⟨k, rfl⟩ := Nat.exists_eq_add_of_le (Nat.not_lt.mp inside)
      rw [tableAt_behind] at contained
      exact .inr ⟨k, by omega, contained⟩
  · intro either
    cases either with
    | inl flag =>
      obtain ⟨i, bound, contained⟩ := flag
      exact ⟨i, List.mem_range.mpr (by omega), beq_iff_eq.mpr contained⟩
    | inr word =>
      obtain ⟨k, bound, contained⟩ := word
      refine ⟨table.length + k, List.mem_range.mpr (by omega), beq_iff_eq.mpr ?_⟩
      rw [tableAt_behind]
      exact contained

/-- The loop stays in the table exactly if it meets a flag there. -/
theorem inside_iff (entries : 0 < table.length) :
    (∀ i ∈ flagsRead table behind mask, i < table.length) ↔ HoldsFlag table mask := by
  rw [flagsRead, Scan.looked_below_iff, holdsFlag_iff behind]
  simp only [beq_iff_eq]
  have beyond : ¬ 4 * table.length ≤ table.length := by omega
  exact or_iff_right beyond

/-- A loop that answers what it meets owes nothing exactly if it meets a flag: then it answers
true, and otherwise it runs past the table, whatever it answers. -/
theorem tellsFlag_iff (entries : 0 < table.length) {answer : Bool}
    (scanned : answer = true ↔ HoldsFlag table mask ∨ HoldsBehind table behind mask) :
    TellsFlag table behind mask answer ↔ HoldsFlag table mask := by
  constructor
  · intro tells
    exact (inside_iff behind entries).mp tells.inside
  · intro holds
    exact ⟨iff_of_true (scanned.mpr (.inl holds)) holds, (inside_iff behind entries).mpr holds⟩

/-- The answer of such a loop is wrong exactly if it comes from a word behind the table. -/
theorem answer_right_iff {answer : Bool}
    (scanned : answer = true ↔ HoldsFlag table mask ∨ HoldsBehind table behind mask) :
    (answer = true ↔ HoldsFlag table mask) ↔
      HoldsFlag table mask ∨ ¬ HoldsBehind table behind mask := by
  rw [scanned]
  by_cases flag : HoldsFlag table mask
  · exact iff_of_true (iff_of_true (.inl flag) flag) (.inl flag)
  · rw [or_iff_right flag, or_iff_right flag, iff_false_right flag]

end loop

theorem isRequestingWriteAccess_iff (p : Process) (mask : AccessMask) :
    isRequestingWriteAccess p mask = true ↔
      HoldsFlag writeFlags mask ∨ HoldsBehind writeFlags p.behindWriteFlags mask :=
  scan_iff p.behindWriteFlags

theorem isRequestingRegistryWriteAccess_iff (behind : Nat → UInt32) (mask : AccessMask) :
    isRequestingRegistryWriteAccess behind mask = true ↔
      HoldsFlag registryWriteFlags mask ∨ HoldsBehind registryWriteFlags behind mask :=
  scan_iff behind

/-- The answer alone is right exactly if the mask has a flag or none of the words behind. -/
theorem answers_right_iff (p : Process) (behind : Nat → UInt32) (mask : AccessMask) :
    ((isRequestingWriteAccess p mask = true ↔ HoldsFlag writeFlags mask) ↔
      HoldsFlag writeFlags mask ∨ ¬ HoldsBehind writeFlags p.behindWriteFlags mask) ∧
    ((isRequestingRegistryWriteAccess behind mask = true ↔ HoldsFlag registryWriteFlags mask) ↔
      HoldsFlag registryWriteFlags mask ∨ ¬ HoldsBehind registryWriteFlags behind mask) :=
  ⟨answer_right_iff p.behindWriteFlags (isRequestingWriteAccess_iff p mask),
    answer_right_iff behind (isRequestingRegistryWriteAccess_iff behind mask)⟩

/-- The functions tell a request to write, and read their tables only, exactly for the masks that
contain a flag: any other mask takes the loop past the end of the table. -/
theorem write_access_told_iff (p : Process) (behind : Nat → UInt32) (mask : AccessMask) :
    (TellsFlag writeFlags p.behindWriteFlags mask (isRequestingWriteAccess p mask) ↔
      HoldsFlag writeFlags mask) ∧
    (TellsFlag registryWriteFlags behind mask (isRequestingRegistryWriteAccess behind mask) ↔
      HoldsFlag registryWriteFlags mask) :=
  ⟨tellsFlag_iff p.behindWriteFlags (by decide) (isRequestingWriteAccess_iff p mask),
    tellsFlag_iff behind (by decide) (isRequestingRegistryWriteAccess_iff behind mask)⟩

/-- A process with zeros behind the table. -/
def zerosBehind : Process := ⟨fun _ => [], fun _ => [], fun _ => 0⟩

/-- `FILE_READ_DATA` alone is taken for a request to write there. -/
theorem readData_taken_for_write : ¬ ∀ p behind mask,
    TellsFlag writeFlags p.behindWriteFlags mask (isRequestingWriteAccess p mask) ∧
      TellsFlag registryWriteFlags behind mask (isRequestingRegistryWriteAccess behind mask) := by
  intro tells
  have write := (tells zerosBehind (fun _ => 0) 0x1).1.answer
  have none : ¬ HoldsFlag writeFlags 0x1 := by decide
  exact none (write.mp (by decide))

end GuestAgent.Guarantees.WriteFlags
