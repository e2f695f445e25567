import Mathlib.Data.List.Infix

/-!
What the guest (C#) and the hook DLL (C++) take from their languages. Strings on
both sides are sequences of UTF-16 code units, compared unit by unit.
-/
namespace GuestAgent.Source

abbrev WChar := UInt16
abbrev WString := List WChar

/-- A string literal of the source; every literal used lies in the Basic Multilingual Plane. -/
def wide (literal : String) : WString := literal.toList.map (fun c => c.toNat.toUInt16)

/-- The exceptions the modelled code can meet. -/
inductive Exn where
  | argument | argumentNull | application | fileNotFound | format | indexOutOfRange
  | invalidOperation | io | notSupported | nullReference | objectDisposed | overflow | protocol | security
  | unauthorizedAccess | win32 | xml
  deriving DecidableEq, Repr

/-- `\??\`, the prefix of an absolute NT name. -/
def ntPrefix : WString := wide "\\??\\"

def backslash : WChar := 92
def asterisk : WChar := 42

/-- `p.StartsWith(@"\??\") ? p.Substring(4) : p`. -/
def purge (p : WString) : WString := if ntPrefix.isPrefixOf p then p.drop 4 else p

theorem ntPrefix_length : ntPrefix.length = 4 := by decide

@[simp] theorem purge_ntPrefix (p : WString) : purge (ntPrefix ++ p) = p := by
  rw [purge, if_pos (by simp), ← ntPrefix_length, List.drop_left]

end GuestAgent.Source
