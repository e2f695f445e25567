import Mathlib.Data.Nat.Digits.Defs
import Mathlib.Tactic.IntervalCases
import GuestAgent.Source.Processes

/-!
The events on the wire: Common/common.h and, in dllmain.cpp of the hook DLL,
`NotifyFileAccess`, `NotifyFileRename`, `NotifyRegistryAccess`, `notifyNewPid` and
`notifyRemovedPid`, which build one element each. `XmlElement` is the document
element as it leaves the hook and, the XML transport taken as the identity, as
the guest finds it.
-/
namespace GuestAgent.Source

structure XmlElement where
  name : WString
  attributes : List (WString × WString)
  deriving DecidableEq, Repr

inductive FileMode where
  | created | opened | deleted
  deriving DecidableEq, Repr

inductive KeyMode where
  | opened | created
  deriving DecidableEq, Repr

def wkProcessEvent : WString := wide "ProcessEvent"
def wkProcessEventType : WString := wide "Type"
def wkProcessEventTypeSpawned : WString := wide "Spawned"
def wkProcessEventTypeDead : WString := wide "Dead"
def wkProcessEventParentPid : WString := wide "ParentPid"
def wkProcessEventPid : WString := wide "Pid"
def wkFileEvent : WString := wide "FileEvent"
def wkFileEventMode : WString := wide "Mode"
def wkFileEventPath : WString := wide "Path"
def wkFileEventOldPath : WString := wide "OldPath"
def wkFileEventNewPath : WString := wide "NewPath"
def wkFileRenamed : WString := wide "Rename"
def wkRegistryEvent : WString := wide "RegistryEvent"
def wkRegistryEventMode : WString := wide "Mode"
def wkRegistryEventPath : WString := wide "Path"

/-- `WK_FILE_CREATED`, `WK_FILE_OPENED`, `WK_FILE_DELETED`. -/
def FileMode.text : FileMode → WString
  | .created => wide "Create"
  | .opened => wide "Open"
  | .deleted => wide "Delete"

/-- `WK_KEY_OPENED`, `WK_KEY_CREATED`. -/
def KeyMode.text : KeyMode → WString
  | .opened => wide "Open"
  | .created => wide "Create"

/-- What a hook can announce. -/
inductive Event where
  | newPid (parentPid childPid : Pid)
  | removedPid (pid : Pid)
  | fileAccess (fullPath : WString) (mode : FileMode)
  | fileRename (oldPath newPath : WString)
  | registryAccess (fullPath : WString) (mode : KeyMode)
  deriving DecidableEq, Repr

/-- `std::to_wstring` of an unsigned value. -/
def toWstring (n : Nat) : WString :=
  if n = 0 then [48] else (Nat.digits 10 n).reverse.map (fun d => (48 + d).toUInt16)

/-- The element a notification function hands to `sendToEventPipe`. -/
def Event.element : Event → XmlElement
  | .newPid parentPid childPid =>
    ⟨wkProcessEvent, [(wkProcessEventType, wkProcessEventTypeSpawned),
      (wkProcessEventParentPid, toWstring parentPid.toNat),
      (wkProcessEventPid, toWstring childPid.toNat)]⟩
  | .removedPid pid =>
    ⟨wkProcessEvent, [(wkProcessEventType, wkProcessEventTypeDead),
      (wkProcessEventPid, toWstring pid.toNat)]⟩
  | .fileAccess fullPath mode =>
    ⟨wkFileEvent, [(wkFileEventMode, mode.text), (wkFileEventPath, fullPath)]⟩
  | .fileRename oldPath newPath =>
    ⟨wkFileEvent, [(wkFileEventMode, wkFileRenamed), (wkFileEventOldPath, oldPath),
      (wkFileEventNewPath, newPath)]⟩
  | .registryAccess fullPath mode =>
    ⟨wkRegistryEvent, [(wkRegistryEventMode, mode.text), (wkRegistryEventPath, fullPath)]⟩

def isWhite (c : WChar) : Bool := decide (9 ≤ c.toNat ∧ c.toNat ≤ 13 ∨ c.toNat = 32)
def isDigit (c : WChar) : Bool := decide (48 ≤ c.toNat ∧ c.toNat ≤ 57)

/-- The digits after an optional sign. -/
def parseDigits (body : WString) : Except Exn Nat :=
  if body ≠ [] ∧ body.all isDigit then
    .ok (Nat.ofDigits 10 (body.reverse.map (fun c => c.toNat - 48)))
  else .error .format

/-- `uint.Parse`: white space around, an optional sign, decimal digits. -/
def uintParse (s : WString) : Except Exn Pid := do
  let body := ((s.dropWhile isWhite).reverse.dropWhile isWhite).reverse
  match body with
  | 43 :: digits =>
    let n ← parseDigits digits
    if n < 2 ^ 32 then .ok (.ofNat n) else .error .overflow
  | 45 :: digits =>
    let n ← parseDigits digits
    if n = 0 then .ok 0 else .error .overflow
  | digits =>
    let n ← parseDigits digits
    if n < 2 ^ 32 then .ok (.ofNat n) else .error .overflow

theorem toUInt16_digit {d : Nat} (h : d < 10) :
    isDigit (48 + d).toUInt16 = true ∧ (48 + d).toUInt16.toNat - 48 = d := by
  interval_cases d <;> decide

theorem toWstring_digits (n : Nat) : toWstring n ≠ [] ∧ ∀ c ∈ toWstring n, isDigit c = true := by
  unfold toWstring
  split
  · refine ⟨by simp, ?_⟩
    intro c member
    rw [List.mem_singleton.mp member]
    decide
  next positive =>
    refine ⟨by simpa using Nat.digits_ne_nil_iff_ne_zero.mpr positive, ?_⟩
    intro c member
    simp only [List.mem_map, List.mem_reverse] at member
    obtain ⟨d, digit, rfl⟩ := member
    exact (toUInt16_digit (Nat.digits_lt_base (by decide) digit)).1

theorem parseDigits_toWstring (n : Nat) : parseDigits (toWstring n) = .ok n := by
  obtain ⟨nonempty, digits⟩ := toWstring_digits n
  rw [parseDigits, if_pos ⟨nonempty, List.all_eq_true.mpr digits⟩]
  unfold toWstring
  split
  next zero => subst zero; rfl
  · have back : ((Nat.digits 10 n).map fun d => (48 + d).toUInt16.toNat - 48) = Nat.digits 10 n := by
      conv_rhs => rw [← List.map_id (Nat.digits 10 n)]
      exact List.map_congr_left fun d digit =>
        (toUInt16_digit (Nat.digits_lt_base (by decide) digit)).2
    rw [← List.map_reverse, List.reverse_reverse, List.map_map]
    exact congrArg Except.ok ((congrArg _ back).trans (Nat.ofDigits_digits 10 n))

theorem dropWhile_of_digits {s : WString} (digits : ∀ c ∈ s, isDigit c = true) :
    s.dropWhile isWhite = s := by
  cases s with
  | nil => rfl
  | cons c rest =>
    have digit := digits c (by simp)
    have ink : isWhite c = false := by
      simp only [isDigit, isWhite, decide_eq_true_eq, decide_eq_false_iff_not] at digit ⊢
      omega
    rw [List.dropWhile_cons_of_neg (by simp [ink])]

/-- A pid the hook prints is the pid the guest reads. -/
theorem uintParse_toWstring (pid : Pid) : uintParse (toWstring pid.toNat) = .ok pid := by
  obtain ⟨nonempty, digits⟩ := toWstring_digits pid.toNat
  have trimmed : (((toWstring pid.toNat).dropWhile isWhite).reverse.dropWhile isWhite).reverse =
      toWstring pid.toNat := by
    rw [dropWhile_of_digits digits,
      dropWhile_of_digits (fun c h => digits c (List.mem_reverse.mp h)), List.reverse_reverse]
  have parsed := parseDigits_toWstring pid.toNat
  have bound : pid.toNat < 2 ^ 32 := pid.toNat_lt
  simp only [uintParse, trimmed]
  split
  next ds h => exact absurd (digits 43 (by rw [h]; simp)) (by decide)
  next ds h => exact absurd (digits 45 (by rw [h]; simp)) (by decide)
  next => simpa [parsed, bind, Except.bind] using bound

end GuestAgent.Source
