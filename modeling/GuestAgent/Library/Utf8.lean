import Mathlib.Data.List.Basic

/-!
Text read from UTF-8. A decoder reads an ASCII byte as itself wherever it stands; for the bytes of
other runs it has fewer units than bytes, or replaces some of them. How many replacement characters
it takes for an ill-formed run differs between decoders. So what it reads is the text with one unit
for each byte exactly if all bytes are ASCII.

`standard` is one that replaces as much at a time as could still begin a character.
-/
namespace GuestAgent.Library.Utf8

structure Decoder where
  decode : List UInt8 → List UInt16
  nothing : decode [] = []
  ascii : ∀ (before : List UInt8) (b : UInt8) (behind : List UInt8), b.toNat < 0x80 →
    decode (before ++ b :: behind) = decode before ++ b.toUInt16 :: decode behind
  length_le : ∀ bytes, (decode bytes).length ≤ bytes.length
  lossy : ∀ run, run ≠ [] → (∀ b ∈ run, 0x80 ≤ b.toNat) →
    (decode run).length < run.length ∨ 0xFFFD ∈ decode run

namespace Decoder

variable (d : Decoder)

theorem decode_cons {b : UInt8} (plain : b.toNat < 0x80) (behind : List UInt8) :
    d.decode (b :: behind) = b.toUInt16 :: d.decode behind := by
  have split := d.ascii [] b behind plain
  rwa [d.nothing] at split

theorem decode_append {before : List UInt8} (plain : ∀ b ∈ before, b.toNat < 0x80)
    (behind : List UInt8) :
    d.decode (before ++ behind) = before.map UInt8.toUInt16 ++ d.decode behind := by
  induction before with
  | nil => rfl
  | cons b before ih =>
    have later := ih fun x member => plain x (List.mem_cons_of_mem b member)
    rw [List.cons_append, d.decode_cons (plain b List.mem_cons_self), later]
    rfl

/-- The bytes up to the next ASCII byte, or to the end. -/
theorem exists_run (bytes : List UInt8) : ∃ run behind, bytes = run ++ behind ∧
    (∀ b ∈ run, 0x80 ≤ b.toNat) ∧ ∀ b ∈ behind.head?, b.toNat < 0x80 := by
  induction bytes with
  | nil => exact ⟨[], [], rfl, nofun, nofun⟩
  | cons b rest ih =>
    by_cases plain : b.toNat < 0x80
    · refine ⟨[], b :: rest, rfl, nofun, ?_⟩
      intro x here
      cases here
      exact plain
    · obtain ⟨run, behind, rfl, high, next⟩ := ih
      refine ⟨b :: run, behind, rfl, ?_, next⟩
      intro x member
      rcases List.mem_cons.mp member with rfl | later
      · exact Nat.le_of_not_lt plain
      · exact high x later

/-- What is not ASCII is not read as one unit for each byte. -/
theorem decode_run_ne {run behind : List UInt8} (some : run ≠ [])
    (high : ∀ b ∈ run, 0x80 ≤ b.toNat) (next : ∀ b ∈ behind.head?, b.toNat < 0x80) :
    d.decode (run ++ behind) ≠ (run ++ behind).map UInt8.toUInt16 := by
  intro same
  have units : ∀ u ∈ (run ++ behind).map UInt8.toUInt16, u ≠ 0xFFFD := by
    intro u member replaced
    obtain ⟨b, -, rfl⟩ := List.mem_map.mp member
    have value := congrArg UInt16.toNat replaced
    rw [UInt8.toNat_toUInt16] at value
    have bound := b.toNat_lt
    have number : (0xFFFD : UInt16).toNat = 0xFFFD := rfl
    omega
  have first : ∃ rest, d.decode (run ++ behind) = d.decode run ++ rest ∧
      ∀ u ∈ rest.head?, u.toNat < 0x80 := by
    cases behind with
    | nil => exact ⟨[], by rw [List.append_nil, List.append_nil], nofun⟩
    | cons b tail =>
      have plain := next b rfl
      refine ⟨_, d.ascii run b tail plain, ?_⟩
      intro u here
      cases here
      rwa [UInt8.toNat_toUInt16]
  obtain ⟨rest, split, low⟩ := first
  rcases d.lossy run some high with short | replaced
  · -- the unit behind the run stands where a byte of the run should
    rw [split, List.map_append] at same
    rcases List.append_eq_append_iff.mp same with ⟨inside, whole, here⟩ | ⟨inside, whole, -⟩
    · cases inside with
      | nil =>
        have lengths := congrArg List.length whole
        rw [List.append_nil, List.length_map] at lengths
        omega
      | cons u tail =>
        have member : u ∈ run.map UInt8.toUInt16 := by simp [whole]
        obtain ⟨b, inRun, rfl⟩ := List.mem_map.mp member
        have below := low b.toUInt16 (by simp [here])
        have above := high b inRun
        rw [UInt8.toNat_toUInt16] at below
        omega
    · have lengths := congrArg List.length whole
      rw [List.length_append, List.length_map] at lengths
      omega
  · have member : 0xFFFD ∈ d.decode (run ++ behind) := by
      rw [split]
      exact List.mem_append_left rest replaced
    rw [same] at member
    exact units _ member rfl

/-- Only a text of ASCII bytes has one unit for each byte, the same one. -/
theorem decode_eq_iff (bytes : List UInt8) :
    d.decode bytes = bytes.map UInt8.toUInt16 ↔ ∀ b ∈ bytes, b.toNat < 0x80 := by
  constructor
  · intro same
    induction bytes with
    | nil => exact nofun
    | cons b rest ih =>
      by_cases plain : b.toNat < 0x80
      · rw [d.decode_cons plain, List.map_cons, List.cons.injEq] at same
        intro x member
        rcases List.mem_cons.mp member with rfl | later
        · exact plain
        · exact ih same.2 x later
      · obtain ⟨run, behind, cut, high, next⟩ := exists_run (b :: rest)
        cases run with
        | nil =>
          rw [List.nil_append] at cut
          subst cut
          exact absurd (next b rfl) plain
        | cons first run =>
          rw [cut] at same
          exact absurd same (d.decode_run_ne (List.cons_ne_nil first run) high next)
  · intro plain
    have all := d.decode_append plain []
    rwa [d.nothing, List.append_nil, List.append_nil] at all

end Decoder

/-! ### The standard decoder -/

/-- A character that has begun: the bytes read of it, how many follow the next one, which byte may
come next, and the bits so far. -/
structure Pending where
  read : Nat
  more : Nat
  low : Nat
  high : Nat
  bits : Nat
  begun : 1 ≤ read
  tail : 0x80 ≤ low

/-- A byte between characters: what is read, and the character it begins. -/
def start (b : UInt8) : List UInt16 × Option Pending :=
  let n := b.toNat
  if n < 0x80 then ([b.toUInt16], none)
  else if 0xC2 ≤ n ∧ n ≤ 0xDF then
    ([], some ⟨1, 0, 0x80, 0xBF, n - 0xC0, Nat.le_refl 1, Nat.le_refl _⟩)
  else if n = 0xE0 then ([], some ⟨1, 1, 0xA0, 0xBF, 0, Nat.le_refl 1, by decide⟩)
  else if n = 0xED then ([], some ⟨1, 1, 0x80, 0x9F, 0xD, Nat.le_refl 1, Nat.le_refl _⟩)
  else if 0xE1 ≤ n ∧ n ≤ 0xEF then
    ([], some ⟨1, 1, 0x80, 0xBF, n - 0xE0, Nat.le_refl 1, Nat.le_refl _⟩)
  else if n = 0xF0 then ([], some ⟨1, 2, 0x90, 0xBF, 0, Nat.le_refl 1, by decide⟩)
  else if n = 0xF4 then ([], some ⟨1, 2, 0x80, 0x8F, 4, Nat.le_refl 1, Nat.le_refl _⟩)
  else if 0xF1 ≤ n ∧ n ≤ 0xF3 then
    ([], some ⟨1, 2, 0x80, 0xBF, n - 0xF0, Nat.le_refl 1, Nat.le_refl _⟩)
  else ([0xFFFD], none)

/-- A character of four bytes is a pair of surrogates, any other one unit. -/
def units (read bits : Nat) : List UInt16 :=
  if read = 3 then
    [(0xD800 + (bits - 0x10000) / 0x400).toUInt16, (0xDC00 + (bits - 0x10000) % 0x400).toUInt16]
  else [bits.toUInt16]

def step : Option Pending → UInt8 → List UInt16 × Option Pending
  | none, b => start b
  | some p, b =>
    if p.low ≤ b.toNat ∧ b.toNat ≤ p.high then
      let bits := p.bits * 0x40 + (b.toNat - 0x80)
      if p.more = 0 then (units p.read bits, none)
      else ([], some ⟨p.read + 1, p.more - 1, 0x80, 0xBF, bits, Nat.le_add_left 1 _, Nat.le_refl _⟩)
    else (0xFFFD :: (start b).1, (start b).2)

def decodeFrom : Option Pending → List UInt8 → List UInt16
  | none, [] => []
  | some _, [] => [0xFFFD]
  | p, b :: rest => (step p b).1 ++ decodeFrom (step p b).2 rest

/-- How many bytes of the next character have been read. -/
def Pending.count : Option Pending → Nat
  | none => 0
  | some p => p.read

theorem decodeFrom_cons (p : Option Pending) (b : UInt8) (rest : List UInt8) :
    decodeFrom p (b :: rest) = (step p b).1 ++ decodeFrom (step p b).2 rest := by
  cases p <;> rfl

theorem start_ascii {b : UInt8} (plain : b.toNat < 0x80) : start b = ([b.toUInt16], none) :=
  if_pos plain

/-- A byte is read, replaced, or begins a character. -/
theorem start_cases (b : UInt8) : b.toNat < 0x80 ∧ start b = ([b.toUInt16], none) ∨
    start b = ([0xFFFD], none) ∨ ∃ p, start b = ([], some p) ∧ p.read = 1 := by
  unfold start
  simp only
  split
  · next plain => exact .inl ⟨plain, rfl⟩
  · right
    repeat' split
    all_goals first | exact .inr ⟨_, rfl, rfl⟩ | exact .inl rfl

theorem length_units (read bits : Nat) (begun : 1 ≤ read) : (units read bits).length ≤ read := by
  unfold units
  split
  · next three => simp [three]
  · exact begun

/-- A step behind the beginning of a character: it fits and ends it, fits and goes on, or does not
fit. -/
theorem step_cases (p : Pending) (b : UInt8) :
    (∃ text, step (some p) b = (text, none) ∧ text.length ≤ p.read ∧ 0x80 ≤ b.toNat) ∨
    (∃ p', step (some p) b = ([], some p') ∧ p'.read = p.read + 1 ∧ 0x80 ≤ b.toNat) ∨
    step (some p) b = (0xFFFD :: (start b).1, (start b).2) := by
  unfold step
  simp only
  split
  · next fits =>
    have tail := Nat.le_trans p.tail fits.1
    split
    · exact .inl ⟨_, rfl, length_units _ _ p.begun, tail⟩
    · exact .inr (.inl ⟨_, rfl, rfl, tail⟩)
  · exact .inr (.inr rfl)

theorem decodeFrom_ascii (p : Option Pending) (before : List UInt8) {b : UInt8}
    (plain : b.toNat < 0x80) (behind : List UInt8) :
    decodeFrom p (before ++ b :: behind) =
      decodeFrom p before ++ b.toUInt16 :: decodeFrom none behind := by
  induction before generalizing p with
  | nil =>
    cases p with
    | none => rw [List.nil_append, decodeFrom_cons, step, start_ascii plain]; rfl
    | some p =>
      rw [List.nil_append, decodeFrom_cons]
      rcases step_cases p b with ⟨_, _, _, high⟩ | ⟨_, _, _, high⟩ | other
      · omega
      · omega
      · rw [other, start_ascii plain]
        rfl
  | cons x before ih => rw [List.cons_append, decodeFrom_cons, decodeFrom_cons, ih, List.append_assoc]

theorem length_decodeFrom (p : Option Pending) (bytes : List UInt8) :
    (decodeFrom p bytes).length ≤ Pending.count p + bytes.length := by
  have begins : ∀ b, (start b).1.length + Pending.count (start b).2 = 1 := by
    intro b
    rcases start_cases b with ⟨-, same⟩ | same | ⟨p, same, one⟩
    · simp [same, Pending.count]
    · simp [same, Pending.count]
    · simp [same, Pending.count, one]
  induction bytes generalizing p with
  | nil =>
    cases p with
    | none => exact Nat.le_refl 0
    | some p => exact p.begun
  | cons b rest ih =>
    have later := ih (step p b).2
    have first : (step p b).1.length + Pending.count (step p b).2 ≤ Pending.count p + 1 := by
      cases p with
      | none => exact Nat.le_of_eq (begins b)
      | some p =>
        have begun := p.begun
        have one := begins b
        rcases step_cases p b with ⟨text, same, short, -⟩ | ⟨p', same, read, -⟩ | same
        · simp only [same, Pending.count]
          omega
        · simp only [same, Pending.count, List.length_nil]
          omega
        · simp only [same, Pending.count, List.length_cons] at one ⊢
          omega
    rw [decodeFrom_cons, List.length_append, List.length_cons]
    omega

/-- In a run without ASCII bytes a character is completed, or something is replaced. -/
theorem decodeFrom_lossy (p : Option Pending) (run : List UInt8)
    (some : p.isSome = true ∨ run ≠ []) (high : ∀ b ∈ run, 0x80 ≤ b.toNat) :
    (decodeFrom p run).length < Pending.count p + run.length ∨ 0xFFFD ∈ decodeFrom p run := by
  induction run generalizing p with
  | nil =>
    cases p with
    | none => simp at some
    | some p => exact .inr List.mem_cons_self
  | cons b rest ih =>
    have above := high b List.mem_cons_self
    have later : ∀ p', (decodeFrom (Option.some p') rest).length < p'.read + rest.length ∨
        0xFFFD ∈ decodeFrom (Option.some p') rest :=
      fun p' => ih _ (.inl rfl) fun x member => high x (List.mem_cons_of_mem b member)
    rw [decodeFrom_cons, List.length_append, List.mem_append, List.length_cons]
    cases p with
    | none =>
      rw [step]
      rcases start_cases b with ⟨plain, -⟩ | same | ⟨p', same, one⟩
      · omega
      · exact .inr (.inl (by simp [same]))
      · rw [same]
        refine (later p').imp (fun short => ?_) .inr
        simp only [List.length_nil, Pending.count]
        omega
    | some p =>
      rcases step_cases p b with ⟨text, same, short, -⟩ | ⟨p', same, read, -⟩ | same
      · have whole := length_decodeFrom none rest
        left
        simp only [same, Pending.count] at whole ⊢
        omega
      · rw [same]
        refine (later p').imp (fun short => ?_) .inr
        simp only [List.length_nil, Pending.count]
        omega
      · exact .inr (.inl (by simp [same]))

/-- Ill-formed bytes are replaced as far as they could begin a character. -/
def standard : Decoder where
  decode := decodeFrom none
  nothing := rfl
  ascii before b behind plain := decodeFrom_ascii none before plain behind
  length_le bytes := by
    have whole := length_decodeFrom none bytes
    rwa [Pending.count, Nat.zero_add] at whole
  lossy run some high := by
    have lossy := decodeFrom_lossy none run (.inr some) high
    rwa [Pending.count, Nat.zero_add] at lossy

/-- A letter of two bytes, an ill-formed byte, and a character outside the basic plane. -/
example : standard.decode [0xC3, 0xA9, 0xE9, 0x78, 0xF0, 0x9F, 0x98, 0x80] =
    [0xE9, 0xFFFD, 0x78, 0xD83D, 0xDE00] := by decide

end GuestAgent.Library.Utf8
