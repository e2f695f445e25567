import Mathlib.Data.List.Basic

/-!
Text as UTF-16: a character of the Basic Multilingual Plane is one unit, any other a pair of
surrogates. A reader that looks at one unit at a time can only put the replacement character in
the place of a surrogate; `lossy` is what it reads, again a text, and the text sent exactly if no
character lies outside the plane.
-/
namespace GuestAgent.Library.Utf16

/-- The character lies in the Basic Multilingual Plane. -/
def basic (c : Char) : Bool := decide (c.toNat < 0x10000)

def isSurrogate (u : UInt16) : Bool := decide (0xD800 ≤ u.toNat ∧ u.toNat ≤ 0xDFFF)

def encodeChar (c : Char) : List UInt16 :=
  if basic c then [c.toNat.toUInt16]
  else [(0xD800 + (c.toNat - 0x10000) / 0x400).toUInt16,
    (0xDC00 + (c.toNat - 0x10000) % 0x400).toUInt16]

def encode (text : List Char) : List UInt16 := text.flatMap encodeChar

/-- One unit, decoded on its own. -/
def decodeUnit (u : UInt16) : UInt16 := if isSurrogate u then 0xFFFD else u

/-- What is left of a character whose units are decoded one by one. -/
def lossyChar (c : Char) : List Char :=
  if basic c then [c] else [Char.ofNat 0xFFFD, Char.ofNat 0xFFFD]

def lossy (text : List Char) : List Char := text.flatMap lossyChar

theorem toNat_lt (c : Char) : c.toNat < 0x110000 := by
  rcases c.valid with low | high
  · exact Nat.lt_trans low (by decide)
  · exact high.2

theorem not_surrogate (c : Char) : ¬ (0xD800 ≤ c.toNat ∧ c.toNat ≤ 0xDFFF) := by
  intro inside
  rcases c.valid with low | high
  · exact absurd inside.1 (Nat.not_le.mpr low)
  · exact absurd inside.2 (Nat.not_le.mpr high.1)

theorem encodeChar_basic {c : Char} (plane : basic c = true) :
    encodeChar c = [c.toNat.toUInt16] ∧ c.toNat.toUInt16.toNat = c.toNat := by
  have small : c.toNat < 0x10000 := of_decide_eq_true plane
  refine ⟨by rw [encodeChar, if_pos plane], ?_⟩
  simp only [UInt16.toNat_ofNat']
  omega

theorem encodeChar_pair {c : Char} (above : basic c = false) :
    ∃ high low, encodeChar c = [high, low] ∧ isSurrogate high = true ∧ isSurrogate low = true := by
  have bound := toNat_lt c
  refine ⟨_, _, by rw [encodeChar, if_neg (by simp [above])], ?_, ?_⟩
  all_goals
    simp only [isSurrogate, decide_eq_true_eq, UInt16.toNat_ofNat']
    omega

theorem map_decodeUnit_encodeChar (c : Char) :
    (encodeChar c).map decodeUnit = encode (lossyChar c) := by
  cases plane : basic c with
  | true =>
    obtain ⟨single, value⟩ := encodeChar_basic plane
    have plain : isSurrogate c.toNat.toUInt16 = false := by
      simp only [isSurrogate, value, decide_eq_false_iff_not]
      exact not_surrogate c
    simp [encode, lossyChar, plane, single, decodeUnit, plain]
  | false =>
    obtain ⟨high, low, pair, first, second⟩ := encodeChar_pair plane
    have lost : lossyChar c = [Char.ofNat 0xFFFD, Char.ofNat 0xFFFD] := by
      rw [lossyChar, if_neg (by simp [plane])]
    have replaced : (encodeChar c).map decodeUnit = [0xFFFD, 0xFFFD] := by
      simp [pair, decodeUnit, first, second]
    rw [lost, replaced]
    decide

theorem map_decodeUnit_encode (text : List Char) :
    (encode text).map decodeUnit = encode (lossy text) := by
  induction text with
  | nil => rfl
  | cons c text ih =>
    have head := map_decodeUnit_encodeChar c
    simp only [encode, lossy, List.flatMap_cons, List.map_append, List.flatMap_append] at ih head ⊢
    rw [ih, head]

/-- The text survives unit by unit decoding exactly if it has no character above the plane. -/
theorem encode_lossy_iff (text : List Char) :
    encode (lossy text) = encode text ↔ ∀ c ∈ text, basic c = true := by
  constructor
  · intro same c member
    rw [← map_decodeUnit_encode] at same
    cases plane : basic c with
    | true => rfl
    | false =>
      obtain ⟨high, low, pair, first, second⟩ := encodeChar_pair plane
      have unit : high ∈ encode text := List.mem_flatMap.mpr ⟨c, member, by simp [pair]⟩
      have fixed : decodeUnit high = high :=
        List.map_inj_left.mp (same.trans (List.map_id _).symm) high unit
      rw [decodeUnit, if_pos first] at fixed
      subst fixed
      exact absurd first (by decide)
  · intro plane
    have same : lossy text = text := by
      induction text with
      | nil => rfl
      | cons c text ih =>
        have here := plane c (by simp)
        have later := ih fun d member => plane d (by simp [member])
        simp only [lossy, List.flatMap_cons, lossyChar, here] at later ⊢
        rw [later]
        rfl
    rw [same]

end GuestAgent.Library.Utf16
