import Mathlib.Data.List.Basic

/-!
Files read through a stream of the C library. The position may be moved behind the end of the file,
but not in front of its start. A read asks for items of one size and is told how many whole ones it
got; items of no size are never counted.
-/
namespace GuestAgent.Library

/-- A file that is open for reading. -/
structure FileStream where
  bytes : List UInt8
  position : Nat
  deriving DecidableEq, Repr

namespace FileStream

/-- `SEEK_SET` and `SEEK_END`. -/
inductive Origin where
  | seekSet | seekEnd
  deriving DecidableEq, Repr

/-- `fseek`: `none` if it fails, which leaves the position alone. -/
def seek (f : FileStream) (offset : Int32) (origin : Origin) : Option FileStream :=
  let target := offset.toInt + match origin with
    | .seekSet => 0
    | .seekEnd => (f.bytes.length : Int)
  if 0 ≤ target then some { f with position := target.toNat } else none

/-- `ftell`: a position that does not fit into a `long` is answered with an error. -/
def tell (f : FileStream) : Int32 :=
  if f.position < 0x80000000 then Int32.ofNat f.position else -1

/-- What `fread` answers and stores, and the stream behind it. -/
structure ReadResult where
  items : Nat
  data : List UInt8
  file : FileStream

/-- `fread` of `count` items of this size. -/
def read (f : FileStream) (size count : Nat) : ReadResult :=
  let data := (f.bytes.drop f.position).take (size * count)
  { items := if size = 0 then 0 else data.length / size
    data
    file := { f with position := f.position + data.length } }

theorem length_read (f : FileStream) (size count : Nat) :
    (f.read size count).data.length = min (size * count) (f.bytes.length - f.position) := by
  rw [read, List.length_take, List.length_drop]

/-- The one item that was asked for is read exactly if it has a size and is there. -/
theorem read_one_iff (f : FileStream) (size : Nat) :
    (f.read size 1).items = 1 ↔ 0 < size ∧ f.position + size ≤ f.bytes.length := by
  have length := length_read f size 1
  have items : (f.read size 1).items =
      if size = 0 then 0 else (f.read size 1).data.length / size := rfl
  rw [items, length, Nat.mul_one]
  by_cases empty : size = 0
  · rw [if_pos empty]
    omega
  · have positive : 0 < size := Nat.pos_of_ne_zero empty
    rw [if_neg empty, and_iff_right positive]
    constructor
    · intro one
      have whole := Nat.div_mul_le_self (min size (f.bytes.length - f.position)) size
      rw [one] at whole
      omega
    · intro there
      rw [Nat.min_eq_left (by omega), Nat.div_self positive]

/-- Reading the rest of a file. -/
theorem read_rest {bytes : List UInt8} {position size : Nat}
    (rest : position + size = bytes.length) :
    (read ⟨bytes, position⟩ size 1).data = bytes.drop position ∧
      (read ⟨bytes, position⟩ size 1).file = ⟨bytes, bytes.length⟩ := by
  have all : (bytes.drop position).take (size * 1) = bytes.drop position :=
    List.take_of_length_le (by rw [List.length_drop]; omega)
  have behind : position + (bytes.drop position).length = bytes.length := by
    rw [List.length_drop]
    omega
  constructor
  · rw [read, all]
  · simp only [read, all, behind]

end FileStream

end GuestAgent.Library
