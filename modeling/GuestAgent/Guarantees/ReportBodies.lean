import GuestAgent.Source.Traversal

/-!
One body of the second loop, next to threads that change the objects.

A body throws for one of three reasons: `CheckoutHistory` cannot look at the file, `strings.exe`
cannot be run, or a record was added to the history it goes through. The flag keeps off the
servers that come later, and other bodies; so once it is up, only a server that was behind the
lock before can add one. And however its questions are answered, a body comes to its end.
-/
namespace GuestAgent.Guarantees.ReportBodies
open Library Library.Versioned Source Source.FileAccessInfo

/-- The body is through or has thrown. -/
def isOver : FileBody → Bool
  | .done _ | .failed => true
  | _ => false

/-- The body goes through the history of its object. -/
def isListing : FileBody → Bool
  | .listing _ _ _ _ => true
  | _ => false

/-- The answers let the body go on, if nobody adds to the history it goes through. -/
def BodyGoes (performStringAnalysis : Bool) (fs : FileSystem) (strings : Except Exn Unit)
    (t : FileAccessInfo) : FileBody → Prop
  | .start => t.Readable fs
  | .listed _ _ _ => t.leftOver = true → performStringAnalysis = true → strings = .ok ()
  | _ => True

/-- The body has not thrown, and its enumerator is up to date; behind `CheckoutHistory` the history
is frozen. -/
def BodySound (t : FileAccessInfo) : FileBody → Prop
  | .start | .lookedAt | .done _ => True
  | .failed => False
  | .listing _ _ e _ => t.finalized = true ∧ e.version = t.info.length
  | _ => t.finalized = true

/-- A record was added to the history the body goes through. -/
def Stale (t : FileAccessInfo) : FileBody → Prop
  | .listing _ _ e _ => e.version < t.info.length
  | _ => False

/-- No enumerator has a version its list is yet to reach. -/
def BodyNotAhead (t : FileAccessInfo) : FileBody → Prop
  | .listing _ _ e _ => e.version ≤ t.info.length
  | _ => True

variable (strAnalysis : Bool) (fs : FileSystem) (strings : Except Exn Unit)

/-! ### What a step does to the object -/

theorem notifyAccess_frozen {t : FileAccessInfo} (frozen : t.finalized = true) :
    t.notifyAccess fs = .ok t := by
  rw [notifyAccess, if_pos frozen]

/-- A frozen object stays as it is. -/
theorem next_frozen {t : FileAccessInfo} (frozen : t.finalized = true) (b : FileBody) :
    (b.next strAnalysis fs strings t).1 = t := by
  cases b with
  | start =>
    rw [FileBody.next, notifyAccess_frozen fs frozen]
    rfl
  | lookedAt =>
    obtain ⟨info, finalized, path⟩ := t
    cases frozen
    rfl
  | listing flags path e history =>
    rw [FileBody.next]
    cases t.records.moveNext e <;> rfl
  | listed flags path history =>
    cases strings <;> rw [FileBody.next] <;> split_ifs <;> rfl
  | _ => rfl

/-- Histories only grow. -/
theorem next_prefix (t : FileAccessInfo) (b : FileBody) :
    t.info <+: (b.next strAnalysis fs strings t).1.info := by
  cases b with
  | start =>
    rw [FileBody.next]
    cases (t.notifyAccess fs).thrown <;> exact notifyAccess_prefix fs t
  | listing flags path e history =>
    rw [FileBody.next]
    cases t.records.moveNext e <;> exact List.prefix_refl _
  | listed flags path history =>
    cases strings <;> rw [FileBody.next] <;> split_ifs <;> exact List.prefix_refl _
  | _ => exact List.prefix_refl _

/-! ### Bodies that go on -/

/-- What changes an object leaves a body sound if it adds nothing to a history that is listed. -/
theorem BodySound.of_kept {t t' : FileAccessInfo} {b : FileBody} (sound : BodySound t b)
    (frozen : t.finalized = true → t'.finalized = true)
    (kept : isListing b = true → t'.info.length = t.info.length) : BodySound t' b := by
  cases b with
  | listing flags path e history => exact ⟨frozen sound.1, by rw [sound.2, kept rfl]⟩
  | start | lookedAt | done => trivial
  | failed => exact sound
  | _ => exact frozen sound

theorem next_sound {t : FileAccessInfo} {b : FileBody} (sound : BodySound t b)
    (goes : BodyGoes strAnalysis fs strings t b) :
    BodySound (b.next strAnalysis fs strings t).1 (b.next strAnalysis fs strings t).2 := by
  cases b with
  | start =>
    have through : (t.notifyAccess fs).thrown = none := (notifyAccess_completes_iff fs t).mpr goes
    simp only [FileBody.next, through]
    trivial
  | lookedAt => exact rfl
  | named flags path => exact ⟨sound, rfl⟩
  | listing flags path e history =>
    have current : e.version = t.records.version := sound.2
    rw [FileBody.next]
    cases move : t.records.moveNext e with
    | current record => exact sound
    | ended => exact sound.1
    | modified =>
      rw [Versioned.moveNext, if_neg (not_not.mpr current)] at move
      cases found : t.records.content[e.index]? <;> rw [found] at move <;> cases move
  | listed flags path history =>
    cases strings with
    | ok u =>
      rw [FileBody.next]
      split_ifs <;> trivial
    | error e =>
      rw [FileBody.next]
      split_ifs with leftOver analysed
      · cases goes leftOver analysed
      all_goals trivial
  | failed => exact sound
  | done => trivial
  | _ => exact sound

/-! ### Bodies that throw -/

theorem next_of_stale {t : FileAccessInfo} {b : FileBody} (stale : Stale t b) :
    (b.next strAnalysis fs strings t).2 = .failed := by
  cases b with
  | listing flags path e history =>
    have behind : e.version < t.records.version := stale
    rw [FileBody.next, moveNext_stale (Nat.ne_of_lt behind)]
  | _ => exact absurd stale id

theorem Stale.of_grown {t t' : FileAccessInfo} {b : FileBody} (stale : Stale t b)
    (grown : t.info <+: t'.info) : Stale t' b := by
  cases b with
  | listing flags path e history =>
    have behind : e.version < t.info.length := stale
    exact Nat.lt_of_lt_of_le behind grown.length_le
  | _ => exact absurd stale id

theorem BodyNotAhead.of_grown {t t' : FileAccessInfo} {b : FileBody} (inv : BodyNotAhead t b)
    (grown : t.info <+: t'.info) : BodyNotAhead t' b := by
  cases b with
  | listing flags path e history =>
    have behind : e.version ≤ t.info.length := inv
    exact Nat.le_trans behind grown.length_le
  | _ => trivial

theorem next_notAhead {t : FileAccessInfo} {b : FileBody} (inv : BodyNotAhead t b) :
    BodyNotAhead (b.next strAnalysis fs strings t).1 (b.next strAnalysis fs strings t).2 := by
  cases b with
  | start =>
    rw [FileBody.next]
    cases (t.notifyAccess fs).thrown <;> trivial
  | named flags path => exact Nat.le_refl _
  | listing flags path e history =>
    rw [FileBody.next]
    cases t.records.moveNext e with
    | current record => exact inv
    | ended | modified => trivial
  | listed flags path history =>
    cases strings <;> rw [FileBody.next] <;> split_ifs <;> trivial
  | _ => trivial

/-- Answers that do not let a body go on make it throw. -/
theorem next_of_not_goes {t : FileAccessInfo} {b : FileBody}
    (stops : ¬ BodyGoes strAnalysis fs strings t b) :
    (b.next strAnalysis fs strings t).2 = .failed := by
  cases b with
  | start =>
    have throws : (t.notifyAccess fs).thrown ≠ none :=
      fun through => stops ((notifyAccess_completes_iff fs t).mp through)
    rw [FileBody.next]
    cases thrown : (t.notifyAccess fs).thrown with
    | none => exact absurd thrown throws
    | some e => rfl
  | listed flags path history =>
    simp only [BodyGoes, Classical.not_imp] at stops
    obtain ⟨leftOver, analysed, refused⟩ := stops
    cases strings with
    | error e => rw [FileBody.next, if_pos leftOver, if_pos analysed]
    | ok u => exact absurd rfl refused
  | _ => exact absurd trivial stops

/-! ### Every body ends -/

/-- A bound for the steps the body still makes when nobody else touches the object. -/
def work (t : FileAccessInfo) : FileBody → Nat
  | .start => t.info.length + 11
  | .lookedAt => t.info.length + 9
  | .frozen => t.info.length + 8
  | .sawNew _ => t.info.length + 7
  | .sawModified _ _ => t.info.length + 6
  | .sawDeleted _ _ _ => t.info.length + 5
  | .sawLeftOver _ => t.info.length + 4
  | .named _ _ => t.info.length + 3
  | .listing _ _ e _ => (t.info.length - e.index) + 2
  | .listed _ _ _ => 1
  | .done _ | .failed => 0

theorem notifyAccess_length (t : FileAccessInfo) :
    (t.notifyAccess fs).state.info.length ≤ t.info.length + 1 := by
  rcases notifyAccess_cases fs t with ⟨_, h⟩ | ⟨_, e, _, h⟩ | ⟨_, x, _, h⟩
  · simp [h]
  · simp [h]
  · rw [h, Outcome.ok_state, record]
    split <;> simp

theorem next_work {t : FileAccessInfo} {b : FileBody} (going : isOver b = false) :
    work (b.next strAnalysis fs strings t).1 (b.next strAnalysis fs strings t).2 < work t b := by
  cases b with
  | start =>
    have grown := notifyAccess_length fs t
    rw [FileBody.next]
    cases (t.notifyAccess fs).thrown <;> simp only [work] <;> omega
  | listing flags path e history =>
    rw [FileBody.next]
    cases move : t.records.moveNext e with
    | current record =>
      have inside : e.index < t.info.length := moveNext_current_lt move
      simp only [work]
      omega
    | ended | modified =>
      simp only [work]
      omega
  | listed flags path history =>
    cases strings <;> rw [FileBody.next] <;> split_ifs <;> simp [work]
  | done | failed => cases going
  | _ =>
    simp only [FileBody.next, work, getEnumerator]
    omega

/-! ### What a body tells of a frozen object -/

def flagsOf (t : FileAccessInfo) : FileFlags := ⟨t.isNew, t.isModified, t.isDeleted, t.leftOver⟩

def elementOf (t : FileAccessInfo) : FileElement := ⟨t.path, flagsOf t, t.info, t.bucket⟩

/-- The object is frozen, and the local variables of the body are as it has them. -/
def Tells (t : FileAccessInfo) : FileBody → Prop
  | .start | .lookedAt | .failed => True
  | .frozen => t.finalized = true
  | .sawNew newfile => t.finalized = true ∧ newfile = t.isNew
  | .sawModified newfile modifiedfile =>
    t.finalized = true ∧ newfile = t.isNew ∧ modifiedfile = t.isModified
  | .sawDeleted newfile modifiedfile deletedfile =>
    t.finalized = true ∧ newfile = t.isNew ∧ modifiedfile = t.isModified ∧
      deletedfile = t.isDeleted
  | .sawLeftOver flags => t.finalized = true ∧ flags = flagsOf t
  | .named flags path => t.finalized = true ∧ flags = flagsOf t ∧ path = t.path
  | .listing flags path e history =>
    t.finalized = true ∧ flags = flagsOf t ∧ path = t.path ∧ Reading t.records e history
  | .listed flags path history =>
    t.finalized = true ∧ flags = flagsOf t ∧ path = t.path ∧ history = t.info
  | .done element => t.finalized = true ∧ element = elementOf t

/-- What is told of an object stays true when it is only frozen or, not being frozen, looked at. -/
theorem Tells.of_kept {t t' : FileAccessInfo} {b : FileBody} (tells : Tells t b)
    (kept : t.finalized = true → t' = t) : Tells t' b := by
  cases b with
  | start | lookedAt | failed => trivial
  | frozen =>
    rw [kept tells]
    exact tells
  | _ =>
    rw [kept tells.1]
    exact tells

end GuestAgent.Guarantees.ReportBodies
