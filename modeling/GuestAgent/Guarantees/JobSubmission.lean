import GuestAgent.Library.Runs
import GuestAgent.Source.JobSubmission

/-!
Concurrent submissions. Hashes stay unique while no two calls with the same hash are between their
SELECT and their INSERT at once, and a call that throws leaves no trace unless it fails between
its two INSERTs; then the job stays without work, and its hash is refused from then on.
-/
namespace GuestAgent.Guarantees.JobSubmission
open Library Source.Host Library.Runs

section submissions

variable (collation : Collation) (args : Nat → NewJob)

/-- No two jobs have the same hash. -/
def UniqueHashes (tables : Tables) : Prop :=
  tables.jobs.rows.Pairwise fun a b => collation.equal a.cells.hash b.cells.hash = false

/-- The calls at the start: none has done anything yet. -/
def begun (tables : Tables) : Submissions := ⟨tables, fun _ => .called⟩

/-- What a run is without the call `c`. -/
def without (c : Nat) (events : List Progress) : List Progress :=
  events.filter fun e => e.call != c

/-- At every moment hashes are unique, and whichever call has thrown, the tables and the other
calls are as if it had not been made. -/
def UniqueAndAtomic (tables : Tables) (events : List Progress) : Prop :=
  ∀ done, done <+: events →
    let s := run (Submissions.step collation args) (begun tables) done
    UniqueHashes collation s.tables ∧ ∀ c e, s.call c = .threw e →
      let s' := run (Submissions.step collation args) (begun tables) (without c done)
      s'.tables = s.tables ∧ ∀ other, other ≠ c → s'.call other = s.call other

/-- A step that does not start a second submission of a hash being submitted, and in which no
INSERT into `todo` fails after its job was inserted. -/
def Orderly (s : Submissions) (e : Progress) : Prop :=
  (s.call e.call = .called → e.failure = none →
    selectJobByHash collation s.tables (args e.call).fileHash = [] →
    ∀ c, s.call c = .searched →
      collation.equal (args c).fileHash (args e.call).fileHash = false) ∧
  ∀ jId, s.call e.call = .inserted jId → e.failure = none

variable {collation args}

variable (collation) in
/-- What a step of a call does, by where the call is. -/
theorem insertNewJob_cases (filePath fileHash : Text) (failure : Option Exn) (tables : Tables)
    (sub : Submission) :
    let r := insertNewJob collation filePath fileHash failure tables sub
    (sub = .called ∧ failure = none ∧ selectJobByHash collation tables fileHash = [] ∧
      r = (tables, .searched)) ∨
    (sub = .searched ∧ failure = none ∧
      r = ((Statement.insertNewJob filePath fileHash).exec collation tables,
        .inserted tables.jobs.next)) ∨
    (∃ jId, sub = .inserted jId ∧ failure = none ∧
      r = ((Statement.insertTodo jId defaultTodoPath).exec collation tables, .returned)) ∨
    (sub ≠ .returned ∧ (∀ jId, sub = .inserted jId → failure ≠ none) ∧
      ∃ e, r = (tables, .threw e)) ∨
    (sub = .returned ∧ r = (tables, .returned)) := by
  cases sub with
  | called =>
    cases failure with
    | some e => simp [insertNewJob]
    | none =>
      cases found : selectJobByHash collation tables fileHash with
      | nil => simp [insertNewJob, found]
      | cons duplicate rest => simp [insertNewJob, found]
  | searched => cases failure <;> simp [insertNewJob]
  | inserted jId => cases failure <;> simp [insertNewJob]
  | returned => simp [insertNewJob]
  | threw e => simp [insertNewJob]

/-! ### Unique hashes -/

variable (collation args) in
/-- What the calls that are about to insert know about the table and each other. -/
structure Separate (s : Submissions) : Prop where
  unique : UniqueHashes collation s.tables
  absent : ∀ c, s.call c = .searched →
    selectJobByHash collation s.tables (args c).fileHash = []
  apart : ∀ c c', c ≠ c' → s.call c = .searched → s.call c' = .searched →
    collation.equal (args c).fileHash (args c').fileHash = false

theorem selectJobByHash_eq_nil_iff (tables : Tables) (hash : Text) :
    selectJobByHash collation tables hash = [] ↔
      ∀ row ∈ tables.jobs.rows, collation.equal row.cells.hash hash = false := by
  simp [selectJobByHash, List.filter_eq_nil_iff]

theorem separate_begun {tables : Tables} (unique : UniqueHashes collation tables) :
    Separate collation args (begun tables) :=
  ⟨unique, nofun, nofun⟩

/-- Where the tables keep their jobs and a call does not become one that searched. -/
theorem Separate.of_call {s : Submissions} (separate : Separate collation args s) (tables : Tables)
    (jobs : tables.jobs = s.tables.jobs) (c : Nat) {sub : Submission} (other : sub ≠ .searched) :
    Separate collation args ⟨tables, Function.update s.call c sub⟩ := by
  have searched : ∀ c', Function.update s.call c sub c' = .searched → s.call c' = .searched := by
    intro c' now
    rw [Function.update_apply] at now
    split at now
    · exact absurd now other
    · exact now
  refine ⟨?_, fun c' now => ?_, fun c₁ c₂ different first second => ?_⟩
  · unfold UniqueHashes
    rw [jobs]
    exact separate.unique
  · have before := separate.absent c' (searched c' now)
    unfold selectJobByHash at before ⊢
    rw [jobs]
    exact before
  · exact separate.apart c₁ c₂ different (searched c₁ first) (searched c₂ second)

/-- A call that has just searched, and found nothing. -/
theorem Separate.search {s : Submissions} (separate : Separate collation args s) {c : Nat}
    (absent : selectJobByHash collation s.tables (args c).fileHash = [])
    (alone : ∀ c', s.call c' = .searched →
      collation.equal (args c').fileHash (args c).fileHash = false) :
    Separate collation args ⟨s.tables, Function.update s.call c .searched⟩ := by
  have searched : ∀ c', c' ≠ c → Function.update s.call c .searched c' = .searched →
      s.call c' = .searched := by
    intro c' different now
    rwa [Function.update_of_ne different] at now
  have symm : ∀ c', s.call c' = .searched →
      collation.equal (args c).fileHash (args c').fileHash = false := by
    intro c' now
    rw [Bool.eq_false_iff]
    exact fun same => absurd (collation.equal_symm _ _ same) (by simp [alone c' now])
  refine ⟨separate.unique, fun c' now => ?_, fun c₁ c₂ different first second => ?_⟩
  · by_cases same : c' = c
    · rw [same]
      exact absent
    · exact separate.absent c' (searched c' same now)
  · by_cases left : c₁ = c
    · subst left
      exact symm c₂ (searched c₂ different.symm second)
    · by_cases right : c₂ = c
      · subst right
        exact alone c₁ (searched c₁ left first)
      · exact separate.apart c₁ c₂ different (searched c₁ left first) (searched c₂ right second)

/-- A call that inserts its job. -/
theorem Separate.insert {s : Submissions} (separate : Separate collation args s) {c : Nat}
    (now : s.call c = .searched) (jId : Nat) :
    Separate collation args ⟨(Statement.insertNewJob (args c).filePath (args c).fileHash).exec
      collation s.tables, Function.update s.call c (.inserted jId)⟩ := by
  have absent := (selectJobByHash_eq_nil_iff _ _).mp (separate.absent c now)
  have searched : ∀ c', Function.update s.call c (.inserted jId) c' = .searched →
      c' ≠ c ∧ s.call c' = .searched := by
    intro c' after
    rw [Function.update_apply] at after
    split at after
    · cases after
    · next different => exact ⟨different, after⟩
  refine ⟨?_, fun c' after => ?_, fun c₁ c₂ different first second => ?_⟩
  · simp only [UniqueHashes, Statement.exec, Table.insert_rows]
    rw [List.pairwise_append]
    refine ⟨separate.unique, List.pairwise_singleton _ _, ?_⟩
    intro row member new fresh
    rw [List.mem_singleton.mp fresh]
    exact absent row member
  · obtain ⟨different, before⟩ := searched c' after
    rw [selectJobByHash_eq_nil_iff]
    intro row member
    simp only [Statement.exec, Table.insert_rows, List.mem_append, List.mem_singleton] at member
    rcases member with old | new
    · exact (selectJobByHash_eq_nil_iff _ _).mp (separate.absent c' before) row old
    · rw [new]
      exact separate.apart c c' different.symm now before
  · exact separate.apart c₁ c₂ different (searched c₁ first).2 (searched c₂ second).2

theorem separate_step {s : Submissions} {e : Progress} (separate : Separate collation args s)
    (orderly : Orderly collation args s e) :
    Separate collation args (s.step collation args e) := by
  unfold Submissions.step
  rcases insertNewJob_cases collation (args e.call).filePath (args e.call).fileHash
    e.failure s.tables (s.call e.call) with
    ⟨now, none, absent, does⟩ | ⟨now, none, does⟩ | ⟨jId, now, none, does⟩ |
      ⟨_, _, thrown, does⟩ | ⟨_, does⟩ <;> simp only [does]
  · exact separate.search absent (orderly.1 now none absent)
  · exact separate.insert now _
  -- otherwise the jobs stay, and the call is not about to insert
  all_goals
    refine separate.of_call _ ?_ _ ?_
    · rfl
    · nofun

/-! ### Calls that throw -/

/-- A call that has inserted its job does not throw any more. -/
theorem not_threw_of_inserted {s : Submissions} {events : List Progress} {c : Nat}
    (each : EachStep (Submissions.step collation args) (Orderly collation args) s events)
    (now : s.call c = .returned ∨ ∃ jId, s.call c = .inserted jId) (e : Exn) :
    (run (Submissions.step collation args) s events).call c ≠ .threw e := by
  have keeps : ∀ (s : Submissions) (d : Progress),
      (s.call c = .returned ∨ ∃ jId, s.call c = .inserted jId) → Orderly collation args s d →
      (s.step collation args d).call c = .returned ∨
        ∃ jId, (s.step collation args d).call c = .inserted jId := by
    intro s d now orderly
    by_cases own : d.call = c
    · subst own
      rw [Submissions.step_call, Function.update_self]
      rcases now with returned | ⟨jId, inserted⟩
      · exact .inl (by rw [returned]; rfl)
      · exact .inl (by rw [inserted, orderly.2 jId inserted]; rfl)
    · rwa [Submissions.step_call, Function.update_of_ne (Ne.symm own)]
  have last := run_invariant keeps now each
  intro threw
  rw [threw] at last
  rcases last with returned | ⟨jId, inserted⟩
  · cases returned
  · cases inserted

/-- The other calls cannot tell a call that throws from one that was not made. -/
theorem run_without {s s' : Submissions} {events : List Progress} {c : Nat} {e : Exn}
    (each : EachStep (Submissions.step collation args) (Orderly collation args) s events)
    (tables : s'.tables = s.tables) (others : ∀ other, other ≠ c → s'.call other = s.call other)
    (threw : (run (Submissions.step collation args) s events).call c = .threw e) :
    let final := run (Submissions.step collation args) s events
    let final' := run (Submissions.step collation args) s' (without c events)
    final'.tables = final.tables ∧ ∀ other, other ≠ c → final'.call other = final.call other := by
  induction events generalizing s s' with
  | nil => exact ⟨tables, others⟩
  | cons d events ih =>
    obtain ⟨orderly, rest⟩ := (eachStep_cons _ _ s d events).mp each
    by_cases own : d.call = c
    · have erased : without c (d :: events) = without c events := by simp [without, own]
      have same : ∀ other, other ≠ c →
          s'.call other = (s.step collation args d).call other := by
        intro other different
        rw [others other different, Submissions.step_call, own, Function.update_of_ne different]
      rw [erased]
      apply ih rest ?_ same threw
      rw [tables, Submissions.step_tables]
      rcases insertNewJob_cases collation (args d.call).filePath
        (args d.call).fileHash d.failure s.tables (s.call d.call) with
        ⟨_, _, _, does⟩ | ⟨_, _, does⟩ | ⟨jId, now, _, _⟩ | ⟨_, _, _, does⟩ | ⟨_, does⟩
      · rw [does]
      · -- it inserts its job, and then it cannot end the way it does
        refine absurd threw (not_threw_of_inserted rest (.inr ⟨s.tables.jobs.next, ?_⟩) e)
        rw [← own, Submissions.step_call, does, Function.update_self]
      · exact absurd threw (not_threw_of_inserted each (.inr ⟨jId, own ▸ now⟩) e)
      · rw [does]
      · rw [does]
    · have kept : without c (d :: events) = d :: without c events := by simp [without, own]
      rw [kept]
      have alike : insertNewJob collation (args d.call).filePath (args d.call).fileHash d.failure
          s'.tables (s'.call d.call) = insertNewJob collation (args d.call).filePath
            (args d.call).fileHash d.failure s.tables (s.call d.call) := by
        rw [tables, others d.call own]
      apply ih rest ?_ ?_ threw
      · rw [Submissions.step_tables, Submissions.step_tables, alike]
      · intro other different
        rw [Submissions.step_call, Submissions.step_call, alike, Function.update_apply,
          Function.update_apply, others other different]

/-- Runs of orderly steps keep hashes unique and make submissions atomic. -/
theorem uniqueAndAtomic_of_orderly {tables : Tables} (unique : UniqueHashes collation tables)
    {events : List Progress} (each : EachStep (Submissions.step collation args)
      (Orderly collation args) (begun tables) events) :
    UniqueAndAtomic collation args tables events := by
  intro done within
  have before : EachStep (Submissions.step collation args) (Orderly collation args)
      (begun tables) done := by
    obtain ⟨later, rfl⟩ := within
    intro first e rest split
    exact each first e (rest ++ later) (by rw [split, List.append_assoc, List.cons_append])
  refine ⟨?_, fun c e threw => ?_⟩
  · have separate : Separate collation args
        (run (Submissions.step collation args) (begun tables) done) :=
      run_invariant (fun s e => separate_step) (separate_begun unique) before
    exact separate.unique
  · exact run_without before rfl (fun _ _ => rfl) threw

end submissions

/-- Every call submits the same file. -/
def sameFile : Nat → NewJob := fun _ => ⟨"setup.exe".toList, "d41d8c".toList⟩

/-- A submission whose first INSERT fails, and its repetition. -/
def repeated : List Progress :=
  [⟨0, none⟩, ⟨0, some .db⟩, ⟨1, none⟩, ⟨1, none⟩, ⟨1, none⟩]

theorem uniqueAndAtomic_of_orderly_repeated :
    UniqueAndAtomic .binary sameFile Tables.empty repeated := by
  have fresh : UniqueHashes .binary Tables.empty := List.Pairwise.nil
  refine uniqueAndAtomic_of_orderly fresh ?_
  simp only [repeated, eachStep_cons, eachStep_nil, and_true]
  -- the conditions on calls that are elsewhere hold of themselves
  refine ⟨⟨?first, by rintro _ ⟨⟩⟩, ⟨by rintro ⟨⟩, by rintro _ ⟨⟩⟩, ⟨?second, by rintro _ ⟨⟩⟩,
    ⟨by rintro ⟨⟩, by rintro _ ⟨⟩⟩, ⟨by rintro ⟨⟩, fun _ _ => rfl⟩⟩
  case first =>
    intro _ _ _ c searched
    cases searched
  case second =>
    intro _ _ _ c searched
    cases c with
    | zero => cases searched
    | succ c => cases searched

/-- Two calls that search before either inserts: the hash is in the table twice. -/
def interleaved : List Progress := [⟨0, none⟩, ⟨1, none⟩, ⟨0, none⟩, ⟨1, none⟩]

/-- A submission whose second INSERT fails: the job stays. -/
def halfMade : List Progress := [⟨0, none⟩, ⟨0, none⟩, ⟨0, some .db⟩]

theorem not_uniqueAndAtomic : ¬ UniqueAndAtomic .binary sameFile Tables.empty interleaved ∧
    ¬ UniqueAndAtomic .binary sameFile Tables.empty halfMade := by
  constructor
  · intro holds
    have unique := (holds interleaved List.prefix_rfl).1
    revert unique
    unfold UniqueHashes
    decide
  · intro holds
    have atomic := (holds halfMade List.prefix_rfl).2 0 .db rfl
    have rows := congrArg (fun tables : Tables => tables.jobs.rows.length) atomic.1
    revert rows
    decide

end GuestAgent.Guarantees.JobSubmission
