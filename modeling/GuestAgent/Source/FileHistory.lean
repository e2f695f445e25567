import GuestAgent.Library.Outcome
import GuestAgent.Source.Runtime

/-!
One tracked file: ProgramStatus.cs, `AccessInfo` and `FileAccessInfo`, and the
bucket `PrepareReport` of LogicThread.cs files it under.

`FileSystem` is what the guest sees of the disk during one call. `File.Exists`,
`Utils.CalculateHash` and `CalculateFuzzyHash` swallow their exceptions; reading
the length does not, so a file that vanishes after the existence test makes
`NotifyAccess` throw. `IncBusy` and `DecBusy` cancel out within a call.
-/
namespace GuestAgent.Source
open Library

structure Hashes where
  sha1 : Option String
  md5 : Option String
  deriving DecidableEq, Repr

/-- One line of a file's history; `exists_` is the field `exists` of the source. -/
structure AccessInfo where
  exists_ : Bool
  size : Int
  hashes : Hashes
  fuzzyHash : Option String
  path : WString
  deriving DecidableEq, Repr

/-- What the guest's file calls answer. `getDirectoryName` yields `none` for a root. -/
structure FileSystem where
  fileExists : WString → Bool
  length : WString → Except Exn Int
  calculateHash : WString → Hashes
  calculateFuzzyHash : WString → Option String
  getDirectoryName : WString → Except Exn (Option WString)
  getFileName : WString → Except Exn WString
  directoryExists : WString → Bool
  getFiles : WString → WString → Except Exn (List WString)

/-- A disk without files, whose directories cannot be read. -/
def FileSystem.bare : FileSystem where
  fileExists := fun _ => false
  length := fun _ => .error .fileNotFound
  calculateHash := fun _ => ⟨none, none⟩
  calculateFuzzyHash := fun _ => none
  getDirectoryName := fun _ => .error .argument
  getFileName := fun _ => .error .argument
  directoryExists := fun _ => false
  getFiles := fun _ _ => .error .io

structure FileAccessInfo where
  info : List AccessInfo
  finalized : Bool
  path : WString
  deriving DecidableEq, Repr

namespace FileAccessInfo

/-- `new FileAccessInfo()` with its `Path` set. -/
def new (path : WString) : FileAccessInfo := ⟨[], false, path⟩

end FileAccessInfo

/-- The struct `NotifyAccess` fills; a missing file keeps the defaults of the struct. -/
def collect (fs : FileSystem) (path : WString) : Except Exn AccessInfo :=
  if fs.fileExists path then do
    let size ← fs.length path
    .ok ⟨true, size, fs.calculateHash path, fs.calculateFuzzyHash path, path⟩
  else .ok ⟨false, 0, ⟨none, none⟩, none, path⟩

namespace FileAccessInfo

/-- Append the observation unless all its fields equal those of the last one. -/
def record (t : FileAccessInfo) (x : AccessInfo) : FileAccessInfo :=
  if t.info.getLast? = some x then t else { t with info := t.info ++ [x] }

def notifyAccess (fs : FileSystem) (t : FileAccessInfo) : Outcome FileAccessInfo Exn :=
  if t.finalized then .ok t
  else match collect fs t.path with
    | .ok x => .ok (t.record x)
    | .error e => .fail t e

def notifyRenamedTo (fs : FileSystem) (nPath : WString) (t : FileAccessInfo) :
    Outcome FileAccessInfo Exn :=
  notifyAccess fs { t with path := nPath }

/-- `CheckoutHistory`: one last look at the file, then its history is frozen. -/
def checkoutHistory (fs : FileSystem) (t : FileAccessInfo) : Outcome FileAccessInfo Exn :=
  (t.notifyAccess fs).andThen fun t => .ok { t with finalized := true }

def isNew (t : FileAccessInfo) : Bool :=
  match t.info.head? with
  | some first => !first.exists_
  | none => false

def isModified (t : FileAccessInfo) : Bool :=
  match t.info.head?, t.info.getLast? with
  | some first, some last => first.exists_ && decide (first.hashes.sha1 ≠ last.hashes.sha1)
  | _, _ => false

def isDeleted (t : FileAccessInfo) : Bool :=
  match t.info.head?, t.info.getLast? with
  | some first, some last => first.exists_ && !last.exists_
  | _, _ => false

def leftOver (t : FileAccessInfo) : Bool :=
  match t.info.head?, t.info.getLast? with
  | some first, some last => !first.exists_ && last.exists_
  | _, _ => false

end FileAccessInfo

/-- The child of `FileAccess` a file element is appended to. -/
inductive ReportBucket where
  | newFiles | deletedFiles | modifiedFiles | otherAccessFiles
  deriving DecidableEq, Repr

/-- The branches at the end of the file loop of `PrepareReport`, in their order. -/
def FileAccessInfo.bucket (t : FileAccessInfo) : ReportBucket :=
  if t.leftOver then .newFiles
  else if t.isDeleted then .deletedFiles
  else if t.isModified then .modifiedFiles
  else .otherAccessFiles

namespace FileAccessInfo

@[simp] theorem record_path (t : FileAccessInfo) (x : AccessInfo) : (t.record x).path = t.path := by
  unfold record
  split <;> rfl

@[simp] theorem record_finalized (t : FileAccessInfo) (x : AccessInfo) :
    (t.record x).finalized = t.finalized := by
  unfold record
  split <;> rfl

theorem record_prefix (t : FileAccessInfo) (x : AccessInfo) : t.info <+: (t.record x).info := by
  unfold record
  split
  · exact List.prefix_refl _
  · exact List.prefix_append ..

theorem mem_record (t : FileAccessInfo) (x y : AccessInfo) :
    x ∈ (t.record y).info ↔ x ∈ t.info ∨ x = y := by
  unfold record
  split
  next same => simpa using fun h : x = y => h ▸ List.mem_of_getLast? same
  · simp

@[simp] theorem record_getLast? (t : FileAccessInfo) (x : AccessInfo) :
    (t.record x).info.getLast? = some x := by
  unfold record
  split
  next same => exact same
  · simp

/-- The first record is the first observation. -/
theorem record_head? (t : FileAccessInfo) (x : AccessInfo) :
    (t.record x).info.head? = some (t.info.head?.getD x) := by
  unfold record
  split
  next same =>
    cases h : t.info with
    | nil => simp [h] at same
    | cons first rest => rfl
  next => cases h : t.info <;> rfl

@[simp] theorem record_record (t : FileAccessInfo) (x : AccessInfo) :
    (t.record x).record x = t.record x := by
  rw [record, if_pos (record_getLast? t x)]

/-- All that `NotifyAccess` can do to the object it is called on. -/
theorem notifyAccess_cases (fs : FileSystem) (t : FileAccessInfo) :
    (t.finalized = true ∧ t.notifyAccess fs = .ok t) ∨
    (t.finalized = false ∧ ∃ e, collect fs t.path = .error e ∧ t.notifyAccess fs = .fail t e) ∨
    (t.finalized = false ∧ ∃ x, collect fs t.path = .ok x ∧
      t.notifyAccess fs = .ok (t.record x)) := by
  unfold notifyAccess
  cases hf : t.finalized with
  | true => exact .inl ⟨rfl, rfl⟩
  | false =>
    cases hc : collect fs t.path with
    | error e => exact .inr (.inl ⟨rfl, e, rfl, rfl⟩)
    | ok x => exact .inr (.inr ⟨rfl, x, rfl, rfl⟩)

@[simp] theorem notifyAccess_path (fs : FileSystem) (t : FileAccessInfo) :
    (t.notifyAccess fs).state.path = t.path := by
  rcases notifyAccess_cases fs t with ⟨_, h⟩ | ⟨_, e, _, h⟩ | ⟨_, x, _, h⟩ <;> simp [h]

@[simp] theorem notifyAccess_finalized (fs : FileSystem) (t : FileAccessInfo) :
    (t.notifyAccess fs).state.finalized = t.finalized := by
  rcases notifyAccess_cases fs t with ⟨_, h⟩ | ⟨_, e, _, h⟩ | ⟨_, x, _, h⟩ <;> simp [h]

/-- The records after a look: those before it and what it saw. -/
theorem mem_notifyAccess_info (fs : FileSystem) (t : FileAccessInfo) (x : AccessInfo) :
    x ∈ (t.notifyAccess fs).state.info ↔
      x ∈ t.info ∨ (t.finalized = false ∧ collect fs t.path = .ok x) := by
  rcases notifyAccess_cases fs t with ⟨frozen, h⟩ | ⟨_, e, failed, h⟩ | ⟨live, y, seen, h⟩
  · simp [h, frozen]
  · simp [h, failed]
  · simp only [h, Outcome.ok_state, mem_record, live, seen, Except.ok.injEq, true_and]
    exact or_congr_right eq_comm

/-- Histories only grow. -/
theorem notifyAccess_prefix (fs : FileSystem) (t : FileAccessInfo) :
    t.info <+: (t.notifyAccess fs).state.info := by
  rcases notifyAccess_cases fs t with ⟨_, h⟩ | ⟨_, e, _, h⟩ | ⟨_, x, _, h⟩ <;> simp only [h]
  · exact List.prefix_refl _
  · exact List.prefix_refl _
  · exact record_prefix t x

theorem notifyRenamedTo_prefix (fs : FileSystem) (nPath : WString) (t : FileAccessInfo) :
    t.info <+: (t.notifyRenamedTo fs nPath).state.info :=
  notifyAccess_prefix fs { t with path := nPath }

/-- Looking again at an unchanged disk changes nothing and ends the same way. -/
theorem notifyAccess_again (fs : FileSystem) (t : FileAccessInfo) :
    (t.notifyAccess fs).state.notifyAccess fs =
      ⟨(t.notifyAccess fs).state, (t.notifyAccess fs).thrown⟩ := by
  rcases notifyAccess_cases fs t with ⟨_, h⟩ | ⟨_, e, _, h⟩ | ⟨live, x, seen, h⟩
  · simp only [h, Outcome.ok_state, Outcome.ok_thrown]
    rfl
  · simp only [h, Outcome.fail_state, Outcome.fail_thrown]
    rfl
  · simp only [h, Outcome.ok_state, Outcome.ok_thrown]
    simp [notifyAccess, live, seen, Outcome.ok]

/-- A look at the file goes through: it is frozen, or missing, or its length can be read. -/
def Readable (fs : FileSystem) (t : FileAccessInfo) : Prop :=
  t.finalized = true ∨ fs.fileExists t.path = false ∨ ∃ size, fs.length t.path = .ok size

theorem notifyAccess_completes_iff (fs : FileSystem) (t : FileAccessInfo) :
    (t.notifyAccess fs).thrown = none ↔ t.Readable fs := by
  unfold notifyAccess Readable
  cases frozen : t.finalized with
  | true => simp
  | false =>
    simp only [Bool.false_eq_true, if_false, false_or, collect]
    cases fs.fileExists t.path with
    | false => simp
    | true => cases fs.length t.path <;> simp [bind, Except.bind]

/-- The same for a second arrival under one name. -/
theorem notifyRenamedTo_again (fs : FileSystem) (nPath : WString) (t : FileAccessInfo) :
    ((t.notifyRenamedTo fs nPath).state.notifyRenamedTo fs nPath).state =
      (t.notifyRenamedTo fs nPath).state := by
  have named : { (t.notifyRenamedTo fs nPath).state with path := nPath } =
      (t.notifyRenamedTo fs nPath).state := by
    have path : (t.notifyRenamedTo fs nPath).state.path = nPath := notifyAccess_path fs _
    generalize (t.notifyRenamedTo fs nPath).state = a at path ⊢
    subst path
    rfl
  rw [notifyRenamedTo, named]
  exact congrArg Outcome.state (notifyAccess_again fs { t with path := nPath })

end FileAccessInfo

end GuestAgent.Source
