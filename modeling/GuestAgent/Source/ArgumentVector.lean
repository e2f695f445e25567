import Mathlib.Data.List.Basic

/-!
The arguments of the injector: Injector.cpp, `CommandLineToArgvA`, and the line
`StartProcessWithInjector` in LogicThread.cs starts it with.

One block holds the pointers and behind them the characters. An entry of `argv` is the offset of
its string among the characters. Both are only ever written at their ends; each write is recorded
with its place in the block. The allocation is taken to succeed.
-/
namespace GuestAgent.Source

abbrev CHAR := UInt8

/-- `"`. -/
def quotationMark : CHAR := 34

/-- The cases `' '`, `'\t'`, `'\n'` and `'\r'`. -/
def isArgumentSpace (a : CHAR) : Bool := a = 32 || a = 9 || a = 10 || a = 13

/-- The injector is a 32-bit program. -/
def sizeofPVOID : Nat := 4

def sizeofCHAR : Nat := 1

/-- Arithmetic of an ULONG. -/
def ulong (n : Nat) : Nat := n % 0x100000000

/-- The bytes of the block in front of the characters. -/
def pointerBytes (len : Nat) : Nat := ulong (ulong (len + 2) / 2 * sizeofPVOID + sizeofPVOID)

/-- The bytes of the block. -/
def blockBytes (len : Nat) : Nat := ulong (pointerBytes len + ulong (len + 2) * sizeofCHAR)

/-- A write of so many bytes at an offset of the block. -/
structure Write where
  offset : Nat
  bytes : Nat
  deriving DecidableEq, Repr

structure ArgvState where
  inQM : Bool
  inTEXT : Bool
  inSPACE : Bool
  /-- `argv[0]` to `argv[argc - 1]`. -/
  argv : List Nat
  /-- `_argv[0]` to `_argv[j - 1]`. -/
  text : List CHAR
  writes : List Write

namespace ArgvState

/-- `argv[0] = _argv` is written before the loop. -/
def start : ArgvState := ⟨false, false, true, [], [], [⟨0, sizeofPVOID⟩]⟩

/-- `argv[argc] = _argv + j; argc++`. -/
def pushArgument (s : ArgvState) : ArgvState :=
  { s with
    argv := s.argv ++ [s.text.length]
    writes := s.writes ++ [⟨s.argv.length * sizeofPVOID, sizeofPVOID⟩] }

variable (pointers : Nat)

/-- `_argv[j] = a; j++`, with the characters behind so many bytes of pointers. -/
def pushChar (s : ArgvState) (a : CHAR) : ArgvState :=
  { s with
    text := s.text ++ [a]
    writes := s.writes ++ [⟨pointers + s.text.length, sizeofCHAR⟩] }

/-- The body of the loop. -/
def step (s : ArgvState) (a : CHAR) : ArgvState :=
  if s.inQM then
    if a = quotationMark then { s with inQM := false } else s.pushChar pointers a
  else if a = quotationMark then
    let s := { s with inQM := true, inTEXT := true }
    let s := if s.inSPACE then s.pushArgument else s
    { s with inSPACE := false }
  else if isArgumentSpace a then
    let s := if s.inTEXT then s.pushChar pointers 0 else s
    { s with inTEXT := false, inSPACE := true }
  else
    let s := { s with inTEXT := true }
    let s := if s.inSPACE then s.pushArgument else s
    { s.pushChar pointers a with inSPACE := false }

end ArgvState

/-- The block that is returned; behind the arguments stands the NULL entry. -/
structure ArgumentVector where
  bytes : Nat
  argv : List Nat
  text : List CHAR
  writes : List Write
  deriving DecidableEq, Repr

/-- `CommandLineToArgvA`, on the characters in front of the NUL. -/
def commandLineToArgvA (cmdLine : List CHAR) : ArgumentVector :=
  let pointers := pointerBytes cmdLine.length
  let s := cmdLine.foldl (ArgvState.step pointers) .start
  { bytes := blockBytes cmdLine.length
    argv := s.argv
    text := s.text ++ [0]
    writes := s.writes ++
      [⟨pointers + s.text.length, sizeofCHAR⟩, ⟨s.argv.length * sizeofPVOID, sizeofPVOID⟩] }

/-- `"\"" + j.LocalFullPath + "\""`, which is `StartInfo.Arguments`. -/
def injectorArguments (localFullPath : List CHAR) : List CHAR :=
  quotationMark :: (localFullPath ++ [quotationMark])

/-- The line the process is started with: the file name in quotes, a space, the arguments. -/
def injectorCommandLine (fileName localFullPath : List CHAR) : List CHAR :=
  quotationMark :: (fileName ++ quotationMark :: 32 :: injectorArguments localFullPath)

end GuestAgent.Source
