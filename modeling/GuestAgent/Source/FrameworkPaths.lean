import Mathlib.Data.List.DropRight
import GuestAgent.Source.Runtime

/-!
What the guest takes from .NET Framework 4 for file names: `String.Trim`, `GetDirectoryName` and
`Combine` of `Path`, and what `File.Create` makes of a path before it opens it.

`GetDirectoryName` and `File.Create` look at the normalized path, in which runs of separators are
one backslash, components lose the dots and spaces at their end, and a component of dots is `.` or
`..`. The limits on the length of a path and the expansion of short names with a tilde are left out.
-/
namespace GuestAgent.Source

def slash : WChar := 47
def colon : WChar := 58
def dot : WChar := 46
def space : WChar := 32

/-- `Char.IsWhiteSpace`. -/
def isWhiteSpace (u : WChar) : Bool :=
  (9 ≤ u && u ≤ 13) || u = 0x20 || u = 0x85 || u = 0xA0 || u = 0x1680 || u = 0x180E ||
    (0x2000 ≤ u && u ≤ 0x200A) || u = 0x2028 || u = 0x2029 || u = 0x202F || u = 0x205F || u = 0x3000

/-- `s.Trim()`. -/
def trim (s : WString) : WString := (s.dropWhile isWhiteSpace).rdropWhile isWhiteSpace

/-- `DirectorySeparatorChar` or `AltDirectorySeparatorChar`. -/
def isSeparator (u : WChar) : Bool := u = backslash || u = slash

/-- What `CheckInvalidPathChars` throws on: control characters and `"`, `<`, `>`, `|`. -/
def isInvalidPathChar (u : WChar) : Bool := u = 34 || u = 60 || u = 62 || u = 124 || u < 32

def isPathRooted : WString → Bool
  | [] => false
  | u :: rest => isSeparator u || rest.head? = some colon

def combine (path1 path2 : WString) : Except Exn WString :=
  if path1.any isInvalidPathChar || path2.any isInvalidPathChar then .error .argument
  else if path2 = [] then .ok path1
  else if path1 = [] then .ok path2
  else if isPathRooted path2 then .ok path2
  else
    match path1.getLast? with
    | some ch =>
      if isSeparator ch || ch = colon then .ok (path1 ++ path2)
      else .ok (path1 ++ backslash :: path2)
    | none => .ok path2

/-! ### `GetDirectoryName` -/

/-- The scan of `NormalizePath`: the new path, the dots and spaces since the last other character,
the number of such characters in the component, whether a separator was just written, whether the
component started with a drive, whether it is the first one, and the character before. -/
structure Normalizing where
  newBuffer : WString
  pending : WString
  numSigChars : Nat
  fixupDirectorySeparator : Bool
  startedWithVolumeSeparator : Bool
  firstSegment : Bool
  last : Option WChar
  deriving DecidableEq, Repr

/-- What is written for a component of dots and spaces: `.` or `..`, nothing for spaces alone. -/
def normalizeDots (pending : WString) (startedWithVolumeSeparator : Bool) : Except Exn WString :=
  let numDots := pending.count dot
  if numDots = 0 then .ok []
  else if pending.head? ≠ some dot then .error .argument
  else if numDots = 1 then .ok [dot]
  else if startedWithVolumeSeparator && 2 < numDots then .error .argument
  else if (pending.take numDots).all (· = dot) then .ok [dot, dot]
  else .error .argument

namespace Normalizing

/-- The dots of a component without other characters. -/
def flushDots (s : Normalizing) : Except Exn Normalizing :=
  if s.numSigChars = 0 then do
    let dots ← normalizeDots s.pending s.startedWithVolumeSeparator
    if dots = [] then .ok s
    else .ok { s with newBuffer := s.newBuffer ++ dots, fixupDirectorySeparator := false }
  else .ok s

/-- A separator; `next` is the character behind it. -/
def separator (s : Normalizing) (c : WChar) (next : Option WChar) : Except Exn Normalizing := do
  let s' ← s.flushDots
  let spaced : Bool := s.numSigChars = 0 && s.pending.contains space && s.firstSegment &&
    next.any isSeparator
  let newBuffer := if spaced then s'.newBuffer ++ [backslash] else s'.newBuffer
  .ok
    { newBuffer :=
        if s'.fixupDirectorySeparator then newBuffer else newBuffer ++ [backslash]
      pending := []
      numSigChars := 0
      fixupDirectorySeparator := true
      startedWithVolumeSeparator := false
      firstSegment := false
      last := some c }

/-- The colon behind a drive letter. -/
def volumeSeparator (s : Normalizing) : Except Exn Normalizing :=
  let driveLetter := s.last.getD space
  if s.pending.contains dot || s.numSigChars = 0 || driveLetter = space then .error .argument
  else
    let spaceCount := (s.newBuffer.takeWhile (· = space)).length
    let newBuffer :=
      if 1 < s.numSigChars && s.numSigChars - spaceCount = 1 then [driveLetter] else s.newBuffer
    .ok
      { s with
        newBuffer := newBuffer ++ s.pending ++ [colon]
        pending := []
        numSigChars := 0
        fixupDirectorySeparator := false
        startedWithVolumeSeparator := true
        last := some colon }

/-- Any other character. -/
def other (s : Normalizing) (c : WChar) : Normalizing :=
  { s with
    newBuffer := s.newBuffer ++ s.pending ++ [c]
    pending := []
    numSigChars := s.numSigChars + 1 + s.pending.length
    fixupDirectorySeparator := false
    last := some c }

def scan : Normalizing → WString → Except Exn Normalizing
  | s, [] => s.flushDots
  | s, c :: rest =>
    if isSeparator c then do (← s.separator c rest.head?).scan rest
    else if c = dot ∨ c = space then scan { s with pending := s.pending ++ [c], last := some c } rest
    else if s.firstSegment && c = colon then do (← s.volumeSeparator).scan rest
    else (s.other c).scan rest

end Normalizing

/-- `NormalizePath(path, false)`. -/
def normalizePath (path : WString) : Except Exn WString := do
  let s ← match path with
    | c :: rest =>
      if isSeparator c then
        (Normalizing.mk [backslash] [] 0 false false true (some c)).scan rest
      else (Normalizing.mk [] [] 0 false false true none).scan path
    | [] => .ok ⟨[], [], 0, false, false, true, none⟩
  if s.newBuffer = [] then .error .argument else .ok s.newBuffer

/-- `TrimEndChars` of `Path`. -/
def isTrimEndChar (u : WChar) : Bool := (9 ≤ u && u ≤ 13) || u = 0x20 || u = 0x85 || u = 0xA0

/-- `NormalizePath(path, true)`, up to `GetFullPathName`. -/
def normalizeFullPath (path : WString) : Except Exn WString :=
  let path := path.rdropWhile isTrimEndChar
  if path.any isInvalidPathChar then .error .argument
  else normalizePath path

/-- `\\`, `\\server` or `\\server\`, which has no share, or the name of a device. -/
def isIllegalShare (full : WString) : Bool :=
  full.take 2 = [backslash, backslash] &&
    (((full.drop 2).dropWhile (· ≠ backslash)).length ≤ 1 ||
      (full.drop 2).take 2 = [dot, backslash])

def questionMark : WChar := 63

/-- The path `File.Create` opens; it refuses wildcards, and a colon behind that of a drive. -/
def createdPath (path : WString) : Except Exn WString := do
  let full ← normalizeFullPath path
  if isIllegalShare full || full.any (fun u => u = asterisk || u = questionMark) then
    .error .argument
  else if (full.drop 2).contains colon then .error .notSupported
  else .ok full

/-- The characters of `server\share`, up to the separator behind it; `n` separators end it. -/
def shareLength : (n : Nat) → WString → Nat
  | _, [] => 0
  | n, u :: rest =>
    if isSeparator u then if 1 < n then 1 + shareLength (n - 1) rest else 0
    else 1 + shareLength n rest

def getRootLength : WString → Nat
  | [] => 0
  | [u] => if isSeparator u then 1 else 0
  | u :: v :: rest =>
    if isSeparator u then if isSeparator v then 2 + shareLength 2 rest else 1
    else if v = colon then if rest.head?.any isSeparator then 3 else 2
    else 0

/-- `none` stands for null, the answer for a root. -/
def getDirectoryName (path : WString) : Except Exn (Option WString) :=
  if path.any isInvalidPathChar then .error .argument
  else do
    let path ← normalizePath path
    let root := getRootLength path
    if root < path.length then
      .ok (some (path.take root ++
        ((path.drop root).rdropWhile fun u => !isSeparator u).dropLast))
    else .ok none

example : getDirectoryName (wide "setup.exe") = .ok (some []) ∧
    getDirectoryName (wide "dir\\setup.exe") = .ok (some (wide "dir")) ∧
    getDirectoryName (wide "..\\setup.exe") = .ok (some (wide "..")) ∧
    getDirectoryName (wide "..") = .ok (some []) ∧
    getDirectoryName (wide "C:\\") = .ok none ∧
    getDirectoryName (wide "C:setup.exe") = .ok (some (wide "C:")) ∧
    getDirectoryName (wide "\\\\server\\share") = .ok none ∧
    getDirectoryName [] = .error .argument := by decide

example : createdPath (wide "C:\\T\\setup.exe ") = .ok (wide "C:\\T\\setup.exe") ∧
    createdPath (wide "C:\\T\\ \\..\\x") = .ok (wide "C:\\T\\..\\x") ∧
    createdPath (wide "C:\\T\\a:b") = .error .notSupported ∧
    createdPath (wide "\\\\server\\") = .error .argument := by decide

end GuestAgent.Source
