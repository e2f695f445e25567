import GuestAgent.Library.Collapse
import GuestAgent.Library.Runs
import GuestAgent.Source.FileHistory

/-!
The history of one file, from its first notification to the report.

What `CheckoutHistory` returns is what the calls saw, runs of equal observations collapsed, and
the report files the file by the first and the last of them. From then on the history stands
still. The path does not: `NotifyRenamedTo` sets it before `NotifyAccess` looks at the flag.
-/
namespace GuestAgent.Guarantees.FileHistory
open Library.Collapse Library.Runs Source Source.FileAccessInfo

/-- A call that reaches the object, with the disk it sees. -/
inductive Notice where
  | access (fs : FileSystem)
  | renamedTo (fs : FileSystem) (nPath : WString)

/-- A call on an object whose history was checked out. -/
inductive LateCall where
  | notice (n : Notice)
  | checkoutHistory (fs : FileSystem)

def notified (t : FileAccessInfo) : Notice → FileAccessInfo
  | .access fs => (t.notifyAccess fs).state
  | .renamedTo fs nPath => (t.notifyRenamedTo fs nPath).state

def late (t : FileAccessInfo) : LateCall → FileAccessInfo
  | .notice n => notified t n
  | .checkoutHistory fs => (t.checkoutHistory fs).state

/-- What a look at the file sees; nothing if its length cannot be read. -/
def observation (fs : FileSystem) (path : WString) : List AccessInfo :=
  match collect fs path with
  | .ok x => [x]
  | .error _ => []

def observations : WString → List Notice → List AccessInfo
  | _, [] => []
  | path, .access fs :: notices => observation fs path ++ observations path notices
  | _, .renamedTo fs nPath :: notices => observation fs nPath ++ observations nPath notices

/-- The path of the file after the renames. -/
def renamed : WString → List Notice → WString
  | path, [] => path
  | path, .access _ :: notices => renamed path notices
  | _, .renamedTo _ nPath :: notices => renamed nPath notices

/-- An object made for `path`, the calls, and `CheckoutHistory` with the disk `fs`. -/
def checkout (path : WString) (notices : List Notice) (fs : FileSystem) :
    Library.Outcome FileAccessInfo Exn :=
  (run notified (.new path) notices).checkoutHistory fs

/-- All that was seen, the look of `CheckoutHistory` included. -/
def seen (path : WString) (notices : List Notice) (fs : FileSystem) : List AccessInfo :=
  observations path notices ++ observation fs (renamed path notices)

/-- What the report says about a file next to its history. -/
structure Verdict where
  isNew : Bool
  isModified : Bool
  isDeleted : Bool
  leftOver : Bool
  bucket : ReportBucket
  deriving DecidableEq, Repr

def verdict (t : FileAccessInfo) : Verdict :=
  ⟨t.isNew, t.isModified, t.isDeleted, t.leftOver, t.bucket⟩

/-- The verdict on a file from its first and last observation. -/
def verdictOf (first last : AccessInfo) : Verdict where
  isNew := !first.exists_
  isModified := first.exists_ && decide (first.hashes.sha1 ≠ last.hashes.sha1)
  isDeleted := first.exists_ && !last.exists_
  leftOver := !first.exists_ && last.exists_
  bucket :=
    if first.exists_ = false then
      if last.exists_ then .newFiles else .otherAccessFiles
    else if last.exists_ = false then .deletedFiles
    else if first.hashes.sha1 ≠ last.hashes.sha1 then .modifiedFiles
    else .otherAccessFiles

/-- The object after the checkout tells what was seen, and later calls leave that alone. -/
structure Faithful (path : WString) (notices : List Notice) (fs : FileSystem)
    (later : List LateCall) : Prop where
  history : (checkout path notices fs).state.info = collapse (seen path notices fs)
  verdict : ∃ first last, (seen path notices fs).head? = some first ∧
    (seen path notices fs).getLast? = some last ∧
    (checkout path notices fs).state.info.head? = some first ∧
    (checkout path notices fs).state.info.getLast? = some last ∧
    verdict (checkout path notices fs).state = verdictOf first last
  frozen : Throughout late (fun t => t.info = (checkout path notices fs).state.info ∧
    t.path = (checkout path notices fs).state.path) (checkout path notices fs).state later

/-- A later rename is to the path the file has. -/
def KeepsPath (path : WString) : LateCall → Prop
  | .notice (.renamedTo _ nPath) => nPath = path
  | _ => True

/-! ### Before the checkout -/

theorem record_info (t : FileAccessInfo) (x : AccessInfo) :
    (t.record x).info = offer t.info x := by
  unfold record offer
  split <;> rfl

/-- A look at the file in a state that shows what was seen before. -/
theorem notifyAccess_collapse (fs : FileSystem) {t : FileAccessInfo} {before : List AccessInfo}
    (live : t.finalized = false) (shows : t.info = collapse before) :
    (t.notifyAccess fs).state.info = collapse (before ++ observation fs t.path) := by
  unfold observation
  rcases notifyAccess_cases fs t with ⟨frozen, -⟩ | ⟨-, e, failed, h⟩ | ⟨-, x, sees, h⟩
  · rw [live] at frozen
    cases frozen
  · rw [h, failed, List.append_nil]
    exact shows
  · rw [h, sees, Library.Outcome.ok_state, record_info, shows, offer_collapse]

theorem run_notified {t : FileAccessInfo} {before : List AccessInfo} (notices : List Notice)
    (live : t.finalized = false) (shows : t.info = collapse before) :
    (run notified t notices).finalized = false ∧
    (run notified t notices).path = renamed t.path notices ∧
    (run notified t notices).info = collapse (before ++ observations t.path notices) := by
  induction notices generalizing t before with
  | nil => exact ⟨live, rfl, by rw [run_nil, observations, List.append_nil, shows]⟩
  | cons n notices ih =>
    cases n with
    | access fs =>
      have now := notifyAccess_collapse fs live shows
      have rest := ih (t := (t.notifyAccess fs).state) (by simpa using live) now
      rw [notifyAccess_path, List.append_assoc] at rest
      exact rest
    | renamedTo fs nPath =>
      have now := notifyAccess_collapse (t := { t with path := nPath }) fs live shows
      have rest := ih (t := (t.notifyRenamedTo fs nPath).state)
        (by simpa [notifyRenamedTo] using live) now
      have path : (t.notifyRenamedTo fs nPath).state.path = nPath := notifyAccess_path fs _
      rw [path, List.append_assoc] at rest
      exact rest

theorem run_new (path : WString) (notices : List Notice) :
    (run notified (.new path) notices).finalized = false ∧
    (run notified (.new path) notices).path = renamed path notices ∧
    (run notified (.new path) notices).info = collapse (observations path notices) := by
  have fresh : (FileAccessInfo.new path).info = collapse [] := rfl
  exact run_notified notices rfl fresh

/-! ### The checkout -/

theorem checkoutHistory_info (fs : FileSystem) (t : FileAccessInfo) :
    (t.checkoutHistory fs).state.info = (t.notifyAccess fs).state.info ∧
    (t.checkoutHistory fs).state.path = t.path := by
  rw [checkoutHistory]
  cases thrown : (t.notifyAccess fs).thrown with
  | none =>
    rw [Library.Outcome.andThen_of_none thrown]
    exact ⟨rfl, notifyAccess_path fs t⟩
  | some e =>
    rw [Library.Outcome.andThen_of_some thrown]
    exact ⟨rfl, notifyAccess_path fs t⟩

theorem checkout_path (path : WString) (notices : List Notice) (fs : FileSystem) :
    (checkout path notices fs).state.path = renamed path notices :=
  (checkoutHistory_info fs _).2.trans (run_new path notices).2.1

theorem checkout_info (path : WString) (notices : List Notice) (fs : FileSystem) :
    (checkout path notices fs).state.info = collapse (seen path notices fs) := by
  obtain ⟨live, named, shows⟩ := run_new path notices
  rw [checkout, (checkoutHistory_info fs _).1, notifyAccess_collapse fs live shows, named]
  rfl

/-- A checkout that returns has frozen the history, and has seen the file. -/
theorem checkout_returned {path : WString} {notices : List Notice} {fs : FileSystem}
    (returned : (checkout path notices fs).thrown = none) :
    (checkout path notices fs).state.finalized = true ∧ seen path notices fs ≠ [] := by
  obtain ⟨live, named, -⟩ := run_new path notices
  rw [checkout, checkoutHistory] at returned ⊢
  rcases notifyAccess_cases fs (run notified (.new path) notices) with
    ⟨frozen, -⟩ | ⟨-, e, -, h⟩ | ⟨-, x, sees, h⟩
  · rw [live] at frozen
    cases frozen
  · rw [h, Library.Outcome.andThen_of_some rfl] at returned
    cases returned
  · rw [h]
    refine ⟨rfl, ?_⟩
    rw [named] at sees
    simp only [seen, observation, FileAccessInfo.new, sees] at *
    simp

theorem verdict_eq {t : FileAccessInfo} {first last : AccessInfo}
    (head : t.info.head? = some first) (tail : t.info.getLast? = some last) :
    verdict t = verdictOf first last := by
  unfold verdict verdictOf bucket
  simp only [isNew, isModified, isDeleted, leftOver, head, tail, Verdict.mk.injEq, true_and]
  cases first.exists_ <;> cases last.exists_ <;> simp

theorem checkout_verdict {path : WString} {notices : List Notice} {fs : FileSystem}
    (returned : (checkout path notices fs).thrown = none) :
    ∃ first last, (seen path notices fs).head? = some first ∧
      (seen path notices fs).getLast? = some last ∧
      (checkout path notices fs).state.info.head? = some first ∧
      (checkout path notices fs).state.info.getLast? = some last ∧
      verdict (checkout path notices fs).state = verdictOf first last := by
  have some_ := (checkout_returned returned).2
  have head := List.head?_eq_some_head some_
  have tail := List.getLast?_eq_some_getLast some_
  have head' := (head?_collapse _).trans head
  have tail' := (getLast?_collapse _).trans tail
  rw [← checkout_info] at head' tail'
  exact ⟨_, _, head, tail, head', tail', verdict_eq head' tail'⟩

/-! ### After the checkout -/

theorem notifyAccess_of_finalized (fs : FileSystem) {t : FileAccessInfo}
    (frozen : t.finalized = true) : t.notifyAccess fs = .ok t := by
  rw [notifyAccess, if_pos frozen]

/-- A late call does nothing, but for the path a rename leaves. -/
theorem late_of_finalized {t : FileAccessInfo} (frozen : t.finalized = true) (c : LateCall) :
    late t c = match c with
      | .notice (.renamedTo _ nPath) => { t with path := nPath }
      | _ => t := by
  match c with
  | .notice (.access fs) => rw [late, notified, notifyAccess_of_finalized fs frozen]; rfl
  | .notice (.renamedTo fs nPath) =>
    exact congrArg Library.Outcome.state
      (notifyAccess_of_finalized (t := { t with path := nPath }) fs frozen)
  | .checkoutHistory fs =>
    rw [late, checkoutHistory, notifyAccess_of_finalized fs frozen, Library.Outcome.ok_andThen,
      Library.Outcome.ok_state, ← frozen]

/-- Later calls leave history and path alone exactly if none renames the file. -/
theorem frozen_iff {t : FileAccessInfo} (frozen : t.finalized = true) (later : List LateCall) :
    Throughout late (fun s => s.info = t.info ∧ s.path = t.path) t later ↔
      ∀ c ∈ later, KeepsPath t.path c := by
  induction later with
  | nil => simp
  | cons c later ih =>
    rw [throughout_cons, List.forall_mem_cons, late_of_finalized frozen, ← ih]
    match c with
    | .notice (.access fs) => simp [KeepsPath]
    | .checkoutHistory fs => simp [KeepsPath]
    | .notice (.renamedTo fs nPath) =>
      show _ ↔ nPath = t.path ∧ _
      constructor
      · intro holds
        have same : nPath = t.path := (holds.2 [] List.nil_prefix).2
        subst same
        exact ⟨rfl, holds.2⟩
      · intro holds
        obtain ⟨same, rest⟩ := holds
        subst same
        exact ⟨⟨rfl, rfl⟩, rest⟩

/-- A history that was checked out is faithful, and stays so exactly if no later rename gives the
object another path. -/
theorem checkedOut_faithful_iff (path : WString) (notices : List Notice) (fs : FileSystem)
    (later : List LateCall) (returned : (checkout path notices fs).thrown = none) :
    Faithful path notices fs later ↔ ∀ c ∈ later, KeepsPath (renamed path notices) c := by
  rw [← checkout_path path notices fs, ← frozen_iff (checkout_returned returned).1]
  constructor
  · intro faithful
    exact faithful.frozen
  · intro still
    exact ⟨checkout_info path notices fs, checkout_verdict returned, still⟩

/-- A disk on which every file has this hash. -/
def hashed (sha1 : String) : FileSystem :=
  { FileSystem.bare with
    fileExists := fun _ => true
    length := fun _ => .ok 1
    calculateHash := fun _ => ⟨some sha1, none⟩ }

/-- A file that is made, looked at twice, changed and renamed. -/
def changing : List Notice :=
  [.access .bare, .access (hashed "a1"), .access (hashed "a1"), .access (hashed "b2"),
    .renamedTo (hashed "b2") (wide "C:\\b")]

/-- It is gone when the report is made, and there again behind it. -/
theorem checkedOut_faithful_changed :
    (checkout (wide "C:\\a") changing .bare).state.info.length = 5 ∧
    Faithful (wide "C:\\a") changing .bare
      [.notice (.access (hashed "b2")), .notice (.renamedTo .bare (wide "C:\\b")),
        .checkoutHistory .bare] :=
  ⟨rfl, (checkedOut_faithful_iff (wide "C:\\a") changing .bare _ rfl).mpr (by
    simp [KeepsPath, renamed, changing])⟩

/-- A rename that arrives after the checkout changes the path the report reads. -/
theorem late_rename_moves : ¬ ∀ (path : WString) (notices : List Notice) (fs : FileSystem)
    (later : List LateCall), (checkout path notices fs).thrown = none →
      Faithful path notices fs later := by
  intro always_faithful
  have faithful := always_faithful (wide "C:\\a") [] .bare [.notice (.renamedTo .bare (wide "C:\\b"))] rfl
  have kept := (faithful.frozen _ (List.prefix_refl _)).2
  exact absurd kept (by decide)

end GuestAgent.Guarantees.FileHistory
