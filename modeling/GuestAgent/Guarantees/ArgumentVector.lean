import GuestAgent.Library.Quoting
import GuestAgent.Source.ArgumentVector

/-!
What `CommandLineToArgvA` writes and returns.

Every character of the line adds at most one character to the block, and a new argument needs a
space behind the one before it, so the sizes computed in advance suffice. The three flags tell no
more than whether an argument is being read and whether a quotation is open; what is returned are
the pieces of the line.
-/
namespace GuestAgent.Guarantees.ArgumentVector
open Library Library.Quoting Source

/-- A string in C, without its NUL. -/
structure CString where
  chars : List CHAR
  noNul : 0 ∉ chars

/-- A string that fits into the address space of a 32-bit process together with the block made
of it, as any command line does: Windows limits it to 32767 characters. -/
structure CommandLine extends CString where
  fits : (chars.length + 2) / 2 * sizeofPVOID + sizeofPVOID + (chars.length + 2) < 0x100000000

/-- The string an entry of `argv` points to. -/
def argument (r : ArgumentVector) (start : Nat) : List CHAR := stringAt 0 r.text start

def arguments (r : ArgumentVector) : List (List CHAR) := r.argv.map (argument r)

structure StaysInside (line : List CHAR) (r : ArgumentVector) : Prop where
  writes : ∀ w ∈ r.writes, w.offset + w.bytes ≤ r.bytes
  /-- The pointers, with the NULL entry, end before the characters begin. -/
  apart : (r.argv.length + 1) * sizeofPVOID ≤ pointerBytes line.length
  arguments : r.argv.length ≤ (line.length + 1) / 2
  characters : r.text.length ≤ line.length + 1
  /-- Each string is closed by a NUL that was written. -/
  terminated : ∀ start ∈ r.argv, r.text[start + (argument r start).length]? = some 0

/-! ### The indices -/

/-- What holds after `i` characters, with the characters behind so many bytes of pointers. -/
structure Bounded (pointers i : Nat) (s : ArgvState) : Prop where
  text : s.text.length ≤ i
  argv : 2 * s.argv.length ≤ i + if s.inSPACE then 0 else 1
  starts : ∀ start ∈ s.argv, start ≤ s.text.length
  writes : ∀ w ∈ s.writes, (∃ k, k ≤ s.argv.length ∧ w = ⟨k * sizeofPVOID, sizeofPVOID⟩) ∨
    ∃ j, j < s.text.length ∧ w = ⟨pointers + j, sizeofCHAR⟩

section bounds

variable {pointers i : Nat} {s : ArgvState}

theorem Bounded.start (pointers : Nat) : Bounded pointers 0 .start where
  text := Nat.le_refl 0
  argv := Nat.le_refl 0
  starts := fun _ member => absurd member List.not_mem_nil
  writes := fun _ member => .inl ⟨0, Nat.le_refl 0, List.mem_singleton.mp member⟩

/-- The flags are of no account but for `in_SPACE`, which may be cleared. -/
theorem Bounded.next (bounded : Bounded pointers i s) {qm text space : Bool}
    (cleared : space = true → s.inSPACE = true) :
    Bounded pointers i { s with inQM := qm, inTEXT := text, inSPACE := space } where
  text := bounded.text
  argv := by
    have argv := bounded.argv
    cases space with
    | true =>
      rw [cleared rfl] at argv
      exact argv
    | false =>
      refine Nat.le_trans argv ?_
      simp only [Bool.false_eq_true, if_false]
      split <;> omega
  starts := bounded.starts
  writes := bounded.writes

/-- A new argument is only started behind a space. -/
theorem Bounded.pushArgument (bounded : Bounded pointers i s) (space : s.inSPACE = true) :
    Bounded pointers (i + 1) { s.pushArgument with inSPACE := false } where
  text := Nat.le_succ_of_le bounded.text
  argv := by
    have argv := bounded.argv
    rw [space] at argv
    simp only [ArgvState.pushArgument, List.length_append, List.length_singleton,
      Bool.false_eq_true, if_false]
    simp only [if_true] at argv
    omega
  starts := by
    intro start member
    cases List.mem_append.mp member with
    | inl old => exact bounded.starts start old
    | inr new => exact Nat.le_of_eq (List.mem_singleton.mp new)
  writes := by
    intro w member
    simp only [ArgvState.pushArgument, List.length_append, List.length_singleton]
    cases List.mem_append.mp member with
    | inl old =>
      cases bounded.writes w old with
      | inl pointer =>
        obtain ⟨k, below, same⟩ := pointer
        exact .inl ⟨k, Nat.le_succ_of_le below, same⟩
      | inr char => exact .inr char
    | inr new => exact .inl ⟨s.argv.length, Nat.le_succ _, List.mem_singleton.mp new⟩

theorem Bounded.pushChar (bounded : Bounded pointers i s) (room : s.text.length < i)
    (a : CHAR) : Bounded pointers i (s.pushChar pointers a) where
  text := by
    simp only [ArgvState.pushChar, List.length_append, List.length_singleton]
    omega
  argv := bounded.argv
  starts := by
    intro start member
    simp only [ArgvState.pushChar, List.length_append, List.length_singleton]
    exact Nat.le_succ_of_le (bounded.starts start member)
  writes := by
    intro w member
    simp only [ArgvState.pushChar, List.length_append, List.length_singleton]
    cases List.mem_append.mp member with
    | inl old =>
      cases bounded.writes w old with
      | inl pointer => exact .inl pointer
      | inr char =>
        obtain ⟨j, below, same⟩ := char
        exact .inr ⟨j, Nat.lt_succ_of_lt below, same⟩
    | inr new => exact .inr ⟨s.text.length, Nat.lt_succ_self _, List.mem_singleton.mp new⟩

theorem Bounded.later (bounded : Bounded pointers i s) : Bounded pointers (i + 1) s where
  text := Nat.le_succ_of_le bounded.text
  argv := by
    have argv := bounded.argv
    omega
  starts := bounded.starts
  writes := bounded.writes

/-- A character that is read makes room for one more argument behind a space. -/
theorem Bounded.space (bounded : Bounded pointers i s) (text : Bool) :
    Bounded pointers (i + 1) { s with inTEXT := text, inSPACE := true } where
  text := Nat.le_succ_of_le bounded.text
  argv := by
    have argv := bounded.argv
    simp only [if_true]
    split at argv <;> omega
  starts := bounded.starts
  writes := bounded.writes

/-- Entering an argument, or going on with one. -/
theorem Bounded.enter (bounded : Bounded pointers i s) (qm text : Bool) :
    Bounded pointers (i + 1)
      { (if s.inSPACE then { s with inQM := qm, inTEXT := text }.pushArgument
          else { s with inQM := qm, inTEXT := text }) with inSPACE := false } := by
  have flagged : Bounded pointers i { s with inQM := qm, inTEXT := text } := bounded.next id
  cases space : s.inSPACE with
  | true => exact flagged.pushArgument space
  | false => exact flagged.later.next fun set => Bool.noConfusion set

theorem Bounded.step (bounded : Bounded pointers i s) (a : CHAR) :
    Bounded pointers (i + 1) (s.step pointers a) := by
  have room : s.text.length < i + 1 := Nat.lt_succ_of_le bounded.text
  unfold ArgvState.step
  split
  · split
    · exact bounded.later.next id
    · exact bounded.later.pushChar room a
  · split
    · exact bounded.enter true true
    · split
      · cases text : s.inTEXT with
        | true => exact (bounded.space false).pushChar room 0
        | false => exact bounded.space false
      · have entered := bounded.enter s.inQM true
        refine entered.pushChar ?_ a
        cases s.inSPACE <;> exact room

theorem bounded_foldl (pointers : Nat) (line : List CHAR) :
    Bounded pointers line.length (line.foldl (ArgvState.step pointers) .start) := by
  induction line using List.reverseRecOn with
  | nil => exact Bounded.start pointers
  | append_singleton line a ih =>
    rw [List.foldl_append, List.length_append, List.length_singleton]
    exact ih.step a

end bounds

/-! ### The sizes -/

theorem sizes (line : CommandLine) :
    pointerBytes line.chars.length = (line.chars.length + 2) / 2 * 4 + 4 ∧
      blockBytes line.chars.length =
        (line.chars.length + 2) / 2 * 4 + 4 + (line.chars.length + 2) := by
  have fits := line.fits
  simp only [sizeofPVOID] at fits
  have len : ulong (line.chars.length + 2) = line.chars.length + 2 :=
    Nat.mod_eq_of_lt (by omega)
  have pointers : pointerBytes line.chars.length = (line.chars.length + 2) / 2 * 4 + 4 := by
    rw [pointerBytes, len]
    exact Nat.mod_eq_of_lt (by simp only [sizeofPVOID]; omega)
  refine ⟨pointers, ?_⟩
  rw [blockBytes, pointers, len, sizeofCHAR, Nat.mul_one]
  exact Nat.mod_eq_of_lt fits

theorem staysInside (line : CommandLine) :
    StaysInside line.chars (commandLineToArgvA line.chars) := by
  have bounded := bounded_foldl (pointerBytes line.chars.length) line.chars
  obtain ⟨pointers, block⟩ := sizes line
  have text := bounded.text
  have argv : 2 * ((line.chars.foldl (ArgvState.step (pointerBytes line.chars.length))
      .start).argv.length) ≤ line.chars.length + 1 := by
    have argv := bounded.argv
    split at argv <;> omega
  have entries : (commandLineToArgvA line.chars).argv.length ≤ (line.chars.length + 1) / 2 := by
    change (line.chars.foldl (ArgvState.step (pointerBytes line.chars.length))
      .start).argv.length ≤ (line.chars.length + 1) / 2
    omega
  refine ⟨fun w member => ?_, ?_, entries, ?_, fun start member => ?_⟩
  · have place : (∃ k, 2 * k ≤ line.chars.length + 1 ∧ w = ⟨k * sizeofPVOID, sizeofPVOID⟩) ∨
        ∃ j, j ≤ line.chars.length ∧
          w = ⟨pointerBytes line.chars.length + j, sizeofCHAR⟩ := by
      rcases List.mem_append.mp member with old | last
      · rcases bounded.writes w old with ⟨k, below, same⟩ | ⟨j, below, same⟩
        · exact .inl ⟨k, by omega, same⟩
        · exact .inr ⟨j, by omega, same⟩
      · rcases List.mem_pair.mp last with nul | null
        · exact .inr ⟨_, text, nul⟩
        · exact .inl ⟨_, argv, null⟩
    change w.offset + w.bytes ≤ blockBytes line.chars.length
    rw [block]
    rcases place with ⟨k, below, rfl⟩ | ⟨j, below, rfl⟩
    · simp only [sizeofPVOID]
      omega
    · simp only [sizeofCHAR, pointers]
      omega
  · rw [pointers, sizeofPVOID]
    omega
  · simp only [commandLineToArgvA, List.length_append, List.length_singleton]
    omega
  · refine terminated_of_mem 0 ?_
    have behind := bounded.starts start member
    simp only [commandLineToArgvA]
    rw [List.drop_append_of_le_length behind]
    exact List.mem_append_right _ (List.mem_singleton.mpr rfl)

/-! ### The pieces of the line -/

/-- The flags and the block of a state tell of the line what a reading of it knows. -/
structure Represents (s : ArgvState) (r : Reading CHAR) : Prop where
  inQM : s.inQM = r.quoted
  inTEXT : s.inTEXT = r.current.isSome
  inSPACE : s.inSPACE = r.current.isNone
  argv : s.argv = offsets 0 r.pieces
  text : s.text = Split.terminated 0 r.done ++ r.current.getD []

section pieces

variable {s : ArgvState} {r : Reading CHAR}

theorem Represents.start : Represents .start .start := ⟨rfl, rfl, rfl, rfl, rfl⟩

/-- An argument that is begun starts behind the strings that are complete. -/
theorem offsets_begun (done : List (List CHAR)) (p : List CHAR) :
    offsets 0 (done ++ [p]) = offsets 0 done ++ [(Split.terminated 0 done).length] := by
  rw [offsets_append 0, Nat.zero_add]
  rfl

/-- Entering an argument, or going on with one. -/
theorem Represents.enter (represents : Represents s r) (qm : Bool) :
    Represents
      { (if s.inSPACE then { s with inQM := qm, inTEXT := true }.pushArgument
          else { s with inQM := qm, inTEXT := true }) with inSPACE := false }
      ⟨r.done, some (r.current.getD []), qm⟩ := by
  obtain ⟨done, current, quoted⟩ := r
  have argv := represents.argv
  have text := represents.text
  rw [represents.inSPACE]
  cases current with
  | none =>
    refine ⟨rfl, rfl, rfl, ?_, text⟩
    simp only [Reading.pieces, Option.toList_none, List.append_nil, Option.getD_none] at argv text
    change s.argv ++ [s.text.length] = offsets 0 (done ++ [[]])
    rw [offsets_begun, argv, text]
  | some p => exact ⟨rfl, rfl, rfl, argv, text⟩

/-- A character of the argument that is being read. -/
theorem Represents.pushChar {p : List CHAR} (represents : Represents s r)
    (current : r.current = some p) (pointers : Nat) (a : CHAR) :
    Represents (s.pushChar pointers a) (r.extend a) := by
  obtain ⟨done, _, quoted⟩ := r
  cases current
  refine ⟨represents.inQM, represents.inTEXT, represents.inSPACE, ?_, ?_⟩
  · have argv := represents.argv
    simp only [Reading.pieces, Option.toList_some] at argv
    change s.argv = offsets 0 (done ++ [p ++ [a]])
    rw [argv, offsets_begun, offsets_begun]
  · change s.text ++ [a] = Split.terminated 0 done ++ (p ++ [a])
    rw [represents.text, Option.getD_some, List.append_assoc]

/-- A space closes the argument that is being read, if there is one. -/
theorem Represents.space (represents : Represents s r) (unquoted : r.quoted = false)
    (pointers : Nat) :
    Represents
      { (if s.inTEXT then s.pushChar pointers 0 else s) with inTEXT := false, inSPACE := true }
      ⟨r.pieces, none, false⟩ := by
  have argv := represents.argv
  have text := represents.text
  have inQM := represents.inQM.trans unquoted
  rw [represents.inTEXT]
  obtain ⟨done, current, quoted⟩ := r
  simp only [Reading.pieces] at argv text ⊢
  cases current with
  | none =>
    refine ⟨inQM, rfl, rfl, ?_, ?_⟩
    · simpa [Reading.pieces] using argv
    · simpa using text
  | some p =>
    refine ⟨inQM, rfl, rfl, ?_, ?_⟩
    · simpa [Reading.pieces, ArgvState.pushChar] using argv
    · simp [ArgvState.pushChar, Split.terminated, text]

theorem Represents.step (represents : Represents s r) (wellFormed : r.WellFormed)
    (pointers : Nat) (a : CHAR) :
    Represents (s.step pointers a) (r.read (fun c => c = quotationMark) isArgumentSpace a) := by
  unfold ArgvState.step Reading.read
  rw [represents.inQM]
  simp only [decide_eq_true_eq]
  split
  case isTrue quoted =>
    split
    · exact ⟨rfl, represents.inTEXT, represents.inSPACE, represents.argv, represents.text⟩
    · obtain ⟨p, current⟩ := Option.isSome_iff_exists.mp (wellFormed quoted)
      exact represents.pushChar current pointers a
  case isFalse unquoted =>
    have unquoted := Bool.eq_false_iff.mpr unquoted
    split
    · exact represents.enter true
    · split
      · exact represents.space unquoted pointers
      · have entered := (represents.enter s.inQM).pushChar rfl pointers a
        rw [represents.inQM] at entered
        cases space : s.inSPACE <;> rw [space] at entered <;> exact entered

theorem represents_foldl (pointers : Nat) (line : List CHAR) :
    Represents (line.foldl (ArgvState.step pointers) .start)
      (line.foldl (Reading.read (fun c => c = quotationMark) isArgumentSpace) .start) := by
  induction line using List.reverseRecOn with
  | nil => exact Represents.start
  | append_singleton line a ih =>
    rw [List.foldl_append, List.foldl_append]
    exact ih.step (Reading.wellFormed_foldl _ _ line) pointers a

/-- The last argument is closed behind the loop. -/
theorem Represents.closed (represents : Represents s r) :
    ∃ rest, s.text ++ [0] = Split.terminated 0 r.pieces ++ rest := by
  rw [represents.text]
  obtain ⟨done, current, quoted⟩ := r
  cases current with
  | none => exact ⟨[0], by simp [Reading.pieces]⟩
  | some p => exact ⟨[], by simp [Reading.pieces, Split.terminated]⟩

end pieces

/-- What is returned are the pieces of the line. -/
theorem arguments_commandLineToArgvA {line : List CHAR} (noNul : 0 ∉ line) :
    arguments (commandLineToArgvA line) =
      piecesOf (fun c => c = quotationMark) isArgumentSpace line := by
  have represents := represents_foldl (pointerBytes line.length) line
  obtain ⟨rest, text⟩ := represents.closed
  have fresh : ∀ p ∈ piecesOf (fun c => c = quotationMark) isArgumentSpace line, 0 ∉ p :=
    fun p member within => noNul (mem_of_mem_piecesOf member within)
  have back := stringAt_offsets 0 fresh [] rest
  simp only [List.nil_append, List.length_nil] at back
  simp only [arguments, commandLineToArgvA, text, represents.argv]
  exact back

/-! ### The injector's line -/

/-- The line of the injector holds the image and the path, both quoted. -/
theorem injectorCommandLine_eq (image path : List CHAR) :
    injectorCommandLine image path = quotedLine quotationMark 32 [image, path] := rfl

theorem injectorCommandLine_noNul (image path : CString) :
    0 ∉ injectorCommandLine image.chars path.chars := by
  have image := image.noNul
  have path := path.noNul
  simp [injectorCommandLine, injectorArguments, quotationMark, image, path]

/-- A command line is split within the block, and the image and the path the injector is started
with come out as they went in. -/
theorem commandLineToArgvA_safe_inverse :
    (∀ line : CommandLine, StaysInside line.chars (commandLineToArgvA line.chars)) ∧
      ∀ image path : CString, quotationMark ∉ image.chars → quotationMark ∉ path.chars →
        arguments (commandLineToArgvA (injectorCommandLine image.chars path.chars)) =
          [image.chars, path.chars] := by
  refine ⟨staysInside, fun image path imageQ pathQ => ?_⟩
  rw [arguments_commandLineToArgvA (injectorCommandLine_noNul image path), injectorCommandLine_eq]
  refine piecesOf_quotedLine rfl rfl rfl fun p member a within => decide_eq_false fun same => ?_
  subst same
  rcases List.mem_pair.mp member with rfl | rfl
  · exact imageQ within
  · exact pathQ within

/-- The line `"a b` with its quotation left open, and the image `a b` with an empty path. -/
theorem spaces_safe_inverse :
    StaysInside [34, 97, 32, 98] (commandLineToArgvA [34, 97, 32, 98]) ∧
      quotationMark ∉ [97, 32, 98] ∧ quotationMark ∉ ([] : List CHAR) ∧
      arguments (commandLineToArgvA (injectorCommandLine [97, 32, 98] [])) =
        [[97, 32, 98], []] :=
  ⟨commandLineToArgvA_safe_inverse.1 ⟨⟨[34, 97, 32, 98], by decide⟩, by decide⟩,
    by decide, by decide,
    commandLineToArgvA_safe_inverse.2 ⟨[97, 32, 98], by decide⟩ ⟨[], by decide⟩
      (by decide) (by decide)⟩

end GuestAgent.Guarantees.ArgumentVector
