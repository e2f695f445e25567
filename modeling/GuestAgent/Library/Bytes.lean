import Mathlib.Algebra.Order.Group.Nat
import Mathlib.Data.List.Basic
import Mathlib.Data.List.Forall2

/-!
Unsigned numbers as fixed numbers of bytes: the little-endian digits of a number, the number
they stand for, and the swap of byte order that a network format asks for. Numbers are
`Nat`, and the width is a parameter, so a 32-bit length is the case of four bytes.
-/
namespace GuestAgent.Library

/-- The `k` low bytes of `n`, lowest first. -/
def leBytes : Nat → Nat → List UInt8
  | 0, _ => []
  | k + 1, n => UInt8.ofNat n :: leBytes k (n / 256)

/-- The number a list of bytes, lowest first, stands for. -/
def leValue : List UInt8 → Nat
  | [] => 0
  | b :: bs => b.toNat + 256 * leValue bs

@[simp] theorem leBytes_length (k n : Nat) : (leBytes k n).length = k := by
  induction k generalizing n with
  | zero => rfl
  | succ k ih => simp [leBytes, ih]

theorem leValue_lt (bs : List UInt8) : leValue bs < 256 ^ bs.length := by
  induction bs with
  | nil => simp [leValue]
  | cons b bs ih =>
    have low := b.toNat_lt
    simp only [leValue, List.length_cons, Nat.pow_succ]
    omega

theorem leValue_leBytes {k n : Nat} (fits : n < 256 ^ k) : leValue (leBytes k n) = n := by
  induction k generalizing n with
  | zero =>
    have none : n = 0 := by simpa using fits
    simp [none, leBytes, leValue]
  | succ k ih =>
    have high : n / 256 < 256 ^ k := Nat.div_lt_of_lt_mul (by rwa [Nat.pow_succ'] at fits)
    have low : (UInt8.ofNat n).toNat = n % 256 := UInt8.toNat_ofNat'
    rw [leBytes, leValue, ih high, low]
    exact Nat.mod_add_div n 256

theorem leBytes_leValue (bs : List UInt8) : leBytes bs.length (leValue bs) = bs := by
  induction bs with
  | nil => rfl
  | cons b bs ih =>
    have low := b.toNat_lt
    have head : UInt8.ofNat (b.toNat + 256 * leValue bs) = b := by
      apply UInt8.toNat_inj.mp
      rw [UInt8.toNat_ofNat']
      omega
    have tail : (b.toNat + 256 * leValue bs) / 256 = leValue bs := by omega
    rw [List.length_cons, leValue, leBytes, head, tail, ih]

/-- Lowering bytes lowers the number. -/
theorem leValue_mono {lower upper : List UInt8}
    (bytewise : List.Forall₂ (fun a b => a.toNat ≤ b.toNat) lower upper) :
    leValue lower ≤ leValue upper := by
  induction bytewise with
  | nil => exact Nat.le_refl _
  | cons head _ ih =>
    simp only [leValue]
    omega

/-- The number with its `k` bytes in the opposite order. -/
def byteSwap (k n : Nat) : Nat := leValue (leBytes k n).reverse

theorem byteSwap_lt (k n : Nat) : byteSwap k n < 256 ^ k := by
  simpa [byteSwap] using leValue_lt (leBytes k n).reverse

theorem leBytes_byteSwap (k n : Nat) : leBytes k (byteSwap k n) = (leBytes k n).reverse := by
  simpa [byteSwap] using leBytes_leValue (leBytes k n).reverse

theorem byteSwap_leValue (bs : List UInt8) :
    byteSwap bs.length (leValue bs) = leValue bs.reverse := by
  rw [byteSwap, leBytes_leValue]

@[simp] theorem byteSwap_byteSwap {k n : Nat} (fits : n < 256 ^ k) :
    byteSwap k (byteSwap k n) = n := by
  rw [byteSwap, leBytes_byteSwap, List.reverse_reverse, leValue_leBytes fits]

/-- Bytes missing at the end of a buffer that was zero before count as zero bytes. -/
theorem zeroFilled_le (bs : List UInt8) (r : Nat) :
    List.Forall₂ (fun a b => a.toNat ≤ b.toNat)
      (bs.take r ++ List.replicate (bs.length - r) 0) bs := by
  induction bs generalizing r with
  | nil => simp
  | cons b bs ih =>
    cases r with
    | zero => simpa [List.replicate_succ] using ih 0
    | succ r => simpa using ih r

end GuestAgent.Library
