import GuestAgent.Library.Runs
import GuestAgent.Source.FileTable

/-!
What `_fileMap` owes the report: each object under its own name, and no record
lost. `NotifyFileRename` breaks the first when the old name is unknown: the new
object is stored under the old name and then takes the new one. It breaks the
second when the new name belongs to another object, whose entry it overwrites.
Both theorems say exactly which calls a run must avoid.
-/
namespace GuestAgent.Guarantees.FileIdentity
open Library Library.Runs Source Source.FileTable

/-- Every entry sits under the current name of its object, and no object under two names. -/
structure Keyed (t : FileTable) : Prop where
  path : ∀ k r, t.ref? k = some r → (t.objects r).path = k
  single : ∀ k l r, t.ref? k = some r → t.ref? l = some r → k = l

/-- An access under the current name of a tracked file reaches the object of that file. -/
def Reaches (t : FileTable) : FileCall → Prop
  | .access fs ss => ∀ k r, t.ref? k = some r → (t.objects r).path = purge ss →
      r ∈ notified fs ss t
  | .rename .. => True

/-- The calls after which names and objects still agree. -/
def KeepsNames (t : FileTable) : FileCall → Prop
  | .access fs ss => t.ref? (purge ss) = none ∨
      (ntPrefix <+: ss ∧ purge ss ≠ [] ∧ Names fs (purge ss) (purge ss))
  | .rename _ oPath nPath => oPath = [] ∨ nPath = [] ∨ purge oPath = purge nPath ∨
      ∃ r, t.ref? (purge oPath) = some r

theorem keyed_of_paths {t : FileTable} (path : ∀ k r, t.ref? k = some r → (t.objects r).path = k) :
    Keyed t := ⟨path, t.single⟩

theorem keyed_empty : Keyed FileTable.empty := keyed_of_paths (by simp [FileTable.empty])

theorem Keyed.extends {t u : FileTable} (keyed : Keyed t) (step : Extends t u) : Keyed u := by
  apply keyed_of_paths
  intro k r held
  rcases step.added k r held with old | ⟨_, new⟩
  · rw [step.same r (t.allocated k r old)]
    exact keyed.path k r old
  · rw [new]
    rfl

theorem Keyed.grows {t u : FileTable} (keyed : Keyed t) (step : Grows t u) : Keyed u := by
  apply keyed_of_paths
  intro k r held
  rw [step.path r]
  exact keyed.path k r ((step.ref? k).symm.trans held)

theorem keyed_access {t : FileTable} (keyed : Keyed t) (fs : FileSystem) (ss : WString) :
    Keyed (t.notifyFileAccess fs ss).state := by
  obtain ⟨u, extended, grown, _⟩ := notifyFileAccess_steps fs ss t
  exact (keyed.extends extended).grows grown

theorem notified_of_listed {fs : FileSystem} {ss p : WString} {files : List WString}
    {t : FileTable} (some_ : filesNamed fs ss = some files) (listed : p ∈ files)
    (named : p ≠ []) {r : Ref} (held : t.ref? p = some r) : r ∈ notified fs ss t := by
  obtain ⟨q, member, after⟩ := track_reaches t listed named
  have same : q = r :=
    Option.some.inj (after.symm.trans ((track_extends t files).kept p r held))
  simpa only [notified, some_, same] using member

theorem listed_of_notified {fs : FileSystem} {ss p : WString} {t : FileTable} {r : Ref}
    (held : t.ref? p = some r) (member : r ∈ notified fs ss t) :
    p ≠ [] ∧ ∃ files, filesNamed fs ss = some files ∧ p ∈ files := by
  unfold notified at member
  cases some_ : filesNamed fs ss with
  | none => simp [some_] at member
  | some files =>
    simp only [some_] at member
    obtain ⟨s, listed, named, after⟩ := track_only t member
    have same : s = p := (track t files).1.single s p r after ((track_extends t files).kept p r held)
    subst same
    exact ⟨named, files, rfl, listed⟩

theorem reaches_access_iff {t : FileTable} (keyed : Keyed t) (fs : FileSystem) (ss : WString) :
    Reaches t (.access fs ss) ↔ KeepsNames t (.access fs ss) := by
  constructor
  · intro reach
    cases held : t.ref? (purge ss) with
    | none => exact .inl held
    | some r =>
      have member := reach (purge ss) r held (keyed.path _ _ held)
      obtain ⟨named, listed⟩ := listed_of_notified held member
      obtain ⟨prefixed, names⟩ := (mem_filesNamed fs ss named).mp listed
      exact .inr ⟨prefixed, named, names⟩
  · rintro keeps k r held current
    have here : t.ref? (purge ss) = some r := by rw [← current, keyed.path k r held, held]
    rcases keeps with untracked | ⟨prefixed, named, names⟩
    · rw [untracked] at here
      cases here
    · obtain ⟨files, some_, listed⟩ := (mem_filesNamed fs ss named).mpr ⟨prefixed, names⟩
      exact notified_of_listed some_ listed named here

/-- Renaming a tracked file moves its entry along with its name. -/
theorem keyed_rename_known {t : FileTable} (keyed : Keyed t) (fs : FileSystem) {old new : WString}
    {r : Ref} (held : t.ref? old = some r) :
    Keyed (call (t.rekey old new) r (FileAccessInfo.notifyRenamedTo fs new)).state := by
  apply keyed_of_paths
  intro k q entry
  rw [call_ref?, ObjectTable.ref?_rekey_iff held] at entry
  rcases entry with ⟨rfl, rfl⟩ | ⟨notOld, _, before⟩
  · exact path_call_renamed fs k _ q
  · have apart : q ≠ r := by
      rintro rfl
      exact notOld (t.single k old q before held)
    rw [call_objects_ne _ _ apart, ObjectTable.objects_rekey]
    exact keyed.path k q before

/-- Renaming an unknown file leaves an entry under the old name whose object has the new one. -/
theorem keyed_rename_unknown {t : FileTable} (keyed : Keyed t) (fs : FileSystem)
    {oPath old new : WString} :
    Keyed (call (t.addNew old (.new oPath)) t.next
      (FileAccessInfo.notifyRenamedTo fs new)).state ↔ old = new := by
  constructor
  · intro after
    have stored := after.path old t.next (t.ref?_addNew_self old (.new oPath))
    exact stored.symm.trans (path_call_renamed fs new _ t.next)
  · rintro rfl
    apply keyed_of_paths
    intro k q entry
    rw [call_ref?, ObjectTable.ref?_addNew_iff] at entry
    rcases entry with ⟨rfl, rfl⟩ | ⟨_, before⟩
    · exact path_call_renamed fs k _ t.next
    · have born := t.allocated k q before
      rw [call_objects_ne _ _ (Nat.ne_of_lt born), t.objects_addNew_lt _ _ born]
      exact keyed.path k q before

theorem keyed_rename_iff {t : FileTable} (keyed : Keyed t) (fs : FileSystem)
    (oPath nPath : WString) :
    Keyed (t.notifyFileRename fs oPath nPath).state ↔ KeepsNames t (.rename fs oPath nPath) := by
  rcases notifyFileRename_cases fs oPath nPath t with
    ⟨blank, h⟩ | ⟨ho, hn, r, held, h⟩ | ⟨ho, hn, free, h⟩
  · rw [h]
    rcases blank with rfl | rfl <;> simp [KeepsNames, keyed]
  · rw [h]
    exact iff_of_true (keyed_rename_known keyed fs held) (.inr (.inr (.inr ⟨r, held⟩)))
  · rw [h, keyed_rename_unknown keyed fs]
    simp [KeepsNames, ho, hn, free]

theorem keepsNames_exact (t : FileTable) (c : FileCall) (keyed : Keyed t) :
    Keyed (t.after c) ∧ Reaches t c ↔ KeepsNames t c := by
  cases c with
  | access fs ss =>
    rw [reaches_access_iff keyed]
    exact and_iff_right (keyed_access keyed fs ss)
  | rename fs oPath nPath =>
    rw [← keyed_rename_iff keyed]
    exact and_iff_left trivial

/-- In every state of a run names and objects agree, and accesses under a current
name reach the object of the file, exactly if every call of the run keeps the names. -/
theorem names_and_objects_agree_iff (calls : List FileCall) :
    Throughout FileTable.after Keyed FileTable.empty calls ∧
      EachStep FileTable.after Reaches FileTable.empty calls ↔
    EachStep FileTable.after KeepsNames FileTable.empty calls :=
  throughout_and_eachStep_iff keepsNames_exact keyed_empty

/-- Renaming `a` to `b` before anything else was notified files `b` under `a`. -/
theorem rename_of_unknown_file_disagrees :
    ¬ ∀ calls, Throughout FileTable.after Keyed FileTable.empty calls ∧
      EachStep FileTable.after Reaches FileTable.empty calls := by
  intro always_keyed
  have after : Keyed (FileTable.empty.after (.rename FileSystem.bare (wide "C:\\a") (wide "C:\\b"))) :=
    run_of_throughout (always_keyed [.rename FileSystem.bare (wide "C:\\a") (wide "C:\\b")]).1
  exact absurd (after.path (wide "C:\\a") 0 (by decide)) (by decide)

/-- Every record of every object ever created is in the history of some entry. -/
def RecordsHeld (t : FileTable) : Prop :=
  ∀ r, r < t.next → ∀ x ∈ (t.objects r).info, ∃ k q, t.ref? k = some q ∧ x ∈ (t.objects q).info

/-- Storing `r` under `new` displaces no record: each record of the file that had that
name is also in the entry of another name, or is what `r` records on its arrival. -/
def Spared (fs : FileSystem) (t : FileTable) (r : Ref) (new : WString) : Prop :=
  ∀ q, t.ref? new = some q → ∀ x ∈ (t.objects q).info,
    (∃ k s, k ≠ new ∧ t.ref? k = some s ∧ x ∈ (t.objects s).info) ∨
    ((t.objects r).finalized = false ∧ collect fs new = .ok x)

/-- The calls that displace no record. -/
def KeepsRecords (t : FileTable) : FileCall → Prop
  | .access .. => True
  | .rename fs oPath nPath => oPath = [] ∨ nPath = [] ∨ purge oPath = purge nPath ∨
      ∀ r, t.ref? (purge oPath) = some r → Spared fs t r (purge nPath)

theorem recordsHeld_empty : RecordsHeld FileTable.empty := fun _ born => absurd born (Nat.not_lt_zero _)

theorem recordsHeld_access {t : FileTable} (kept : RecordsHeld t) (fs : FileSystem) (ss : WString) :
    RecordsHeld (t.notifyFileAccess fs ss).state := by
  obtain ⟨u, extended, grown, reached, frame⟩ := notifyFileAccess_steps fs ss t
  intro r born x member
  rw [grown.next] at born
  by_cases hit : r ∈ notified fs ss t
  · obtain ⟨k, held⟩ := reached r hit
    exact ⟨k, r, (grown.ref? k).trans held, member⟩
  · rw [frame r hit] at member
    rcases Nat.lt_or_ge r t.next with old | new
    · rw [extended.same r old] at member
      obtain ⟨k, q, held, there⟩ := kept r old x member
      refine ⟨k, q, (grown.ref? k).trans (extended.kept k q held), (grown.info q).subset ?_⟩
      rw [extended.same q (t.allocated k q held)]
      exact there
    · obtain ⟨k, held⟩ := extended.held r new born
      refine ⟨k, r, (grown.ref? k).trans held, (grown.info r).subset member⟩

theorem recordsHeld_rename_unknown {t : FileTable} (kept : RecordsHeld t) (fs : FileSystem)
    {oPath old new : WString} (free : t.ref? old = none) :
    RecordsHeld (call (t.addNew old (.new oPath)) t.next
      (FileAccessInfo.notifyRenamedTo fs new)).state := by
  intro r born x member
  by_cases hit : r = t.next
  · exact ⟨old, r, by rw [hit]; exact t.ref?_addNew_self old (.new oPath), member⟩
  · have before : r < t.next := Nat.lt_of_le_of_ne (Nat.le_of_lt_succ born) hit
    rw [call_objects_ne _ _ hit, t.objects_addNew_lt _ _ before] at member
    obtain ⟨k, q, held, there⟩ := kept r before x member
    have other : k ≠ old := by
      rintro rfl
      rw [free] at held
      cases held
    have older := t.allocated k q held
    refine ⟨k, q, (t.ref?_addNew_ne (.new oPath) other).trans held, ?_⟩
    rw [call_objects_ne _ _ (Nat.ne_of_lt older), t.objects_addNew_lt _ _ older]
    exact there

/-- Where the records are found after the object `r` moved from `old` to `new`. -/
theorem record_after_rename_iff {t : FileTable} (fs : FileSystem) {old new : WString} {r : Ref}
    (held : t.ref? old = some r) (x : AccessInfo) :
    (∃ k s, (call (t.rekey old new) r (FileAccessInfo.notifyRenamedTo fs new)).state.ref? k = some s ∧
      x ∈ ((call (t.rekey old new) r
        (FileAccessInfo.notifyRenamedTo fs new)).state.objects s).info) ↔
    (∃ k s, (k = new → s = r) ∧ t.ref? k = some s ∧ x ∈ (t.objects s).info) ∨
      ((t.objects r).finalized = false ∧ collect fs new = .ok x) := by
  have own : x ∈ ((call (t.rekey old new) r
      (FileAccessInfo.notifyRenamedTo fs new)).state.objects r).info ↔ _ :=
    mem_call_renamed fs new _ r x
  rw [ObjectTable.objects_rekey] at own
  constructor
  · intro holds
    obtain ⟨k, s, entry, there⟩ := holds
    rw [call_ref?, ObjectTable.ref?_rekey_iff held] at entry
    rcases entry with ⟨rfl, rfl⟩ | ⟨notOld, notNew, before⟩
    · exact (own.mp there).imp_left fun old_ => ⟨old, s, fun _ => rfl, held, old_⟩
    · have apart : s ≠ r := by
        rintro rfl
        exact notOld (t.single k old s before held)
      rw [call_objects_ne _ _ apart, ObjectTable.objects_rekey] at there
      exact .inl ⟨k, s, fun h => absurd h notNew, before, there⟩
  · rintro (⟨k, s, displaced, before, there⟩ | seen)
    · by_cases hit : s = r
      · subst hit
        exact ⟨new, s, ObjectTable.ref?_rekey_new held new, own.mpr (.inl there)⟩
      · have notOld : k ≠ old := by
          rintro rfl
          exact hit (Option.some.inj (before.symm.trans held))
        refine ⟨k, s, (ObjectTable.ref?_rekey_iff held).mpr
          (.inr ⟨notOld, fun h => hit (displaced h), before⟩), ?_⟩
        rw [call_objects_ne _ _ hit, ObjectTable.objects_rekey]
        exact there
    · exact ⟨new, r, ObjectTable.ref?_rekey_new held new, own.mpr (.inr seen)⟩

theorem recordsHeld_rename_known {t : FileTable} (kept : RecordsHeld t) (fs : FileSystem)
    {old new : WString} {r : Ref} (held : t.ref? old = some r) :
    RecordsHeld (call (t.rekey old new) r (FileAccessInfo.notifyRenamedTo fs new)).state ↔
      (old = new ∨ Spared fs t r new) := by
  constructor
  · intro after
    by_cases moved : old = new
    · exact .inl moved
    refine .inr fun q target x member => ?_
    have apart : q ≠ r := by
      rintro rfl
      exact moved (t.single old new q held target)
    have found := after q (by
        rw [call_next, ObjectTable.next_rekey]
        exact t.allocated new q target) x (by
        rw [call_objects_ne _ _ apart, ObjectTable.objects_rekey]
        exact member)
    apply ((record_after_rename_iff fs held x).mp found).imp_left
    intro holds
    obtain ⟨k, s, displaced, entry, there⟩ := holds
    by_cases same : s = r
    · rw [same] at there
      exact ⟨old, r, moved, held, there⟩
    · exact ⟨k, s, fun h => same (displaced h), entry, there⟩
  · intro spared q born x member
    rw [record_after_rename_iff fs held]
    rw [call_next, ObjectTable.next_rekey] at born
    by_cases hit : q = r
    · rw [hit, mem_call_renamed, ObjectTable.objects_rekey] at member
      exact member.imp_left fun own => ⟨old, r, fun _ => rfl, held, own⟩
    rw [call_objects_ne _ _ hit, ObjectTable.objects_rekey] at member
    obtain ⟨k, s, entry, there⟩ := kept q born x member
    by_cases target : k = new
    · subst target
      rcases spared with rfl | spared
      · exact .inl ⟨old, s, fun _ => Option.some.inj (entry.symm.trans held), entry, there⟩
      · refine (spared s entry x there).imp_left ?_
        intro holds
        obtain ⟨l, p, other, elsewhere, found⟩ := holds
        exact ⟨l, p, fun h => absurd h other, elsewhere, found⟩
    · exact .inl ⟨k, s, fun h => absurd h target, entry, there⟩

/-- A rename keeps the records exactly if it displaces none. -/
theorem recordsHeld_rename_iff {t : FileTable} (kept : RecordsHeld t) (fs : FileSystem)
    (oPath nPath : WString) :
    RecordsHeld (t.notifyFileRename fs oPath nPath).state ↔
      KeepsRecords t (.rename fs oPath nPath) := by
  rcases notifyFileRename_cases fs oPath nPath t with
    ⟨blank, h⟩ | ⟨ho, hn, r, held, h⟩ | ⟨ho, hn, free, h⟩
  · rw [h]
    rcases blank with rfl | rfl <;> simp [KeepsRecords, kept]
  · rw [h, recordsHeld_rename_known kept fs held]
    simp [KeepsRecords, ho, hn, held]
  · rw [h]
    exact iff_of_true (recordsHeld_rename_unknown kept fs free) (by simp [KeepsRecords, free])

theorem keepsRecords_exact (t : FileTable) (c : FileCall) (kept : RecordsHeld t) :
    RecordsHeld (t.after c) ∧ True ↔ KeepsRecords t c := by
  rw [and_true]
  cases c with
  | access fs ss => exact iff_of_true (recordsHeld_access kept fs ss) trivial
  | rename fs oPath nPath => exact recordsHeld_rename_iff kept fs oPath nPath

/-- The state after a call has every object of the state before it, with its records. -/
theorem records_grow (t : FileTable) (c : FileCall) {r : Ref} (born : r < t.next) :
    r < (t.after c).next ∧ (t.objects r).info <+: ((t.after c).objects r).info := by
  cases c with
  | access fs ss =>
    obtain ⟨u, extended, grown, _⟩ := notifyFileAccess_steps fs ss t
    refine ⟨?_, ?_⟩
    · exact Nat.lt_of_lt_of_le born (Nat.le_trans extended.grown (Nat.le_of_eq grown.next.symm))
    · have later := grown.info r
      rwa [extended.same r born] at later
  | rename fs oPath nPath =>
    show r < (t.notifyFileRename fs oPath nPath).state.next ∧
      _ <+: ((t.notifyFileRename fs oPath nPath).state.objects r).info
    rcases notifyFileRename_cases fs oPath nPath t with
      ⟨_, h⟩ | ⟨_, _, q, held, h⟩ | ⟨_, _, free, h⟩
    · rw [h]
      exact ⟨born, List.prefix_refl _⟩
    · rw [h, call_next, ObjectTable.next_rekey]
      refine ⟨born, ?_⟩
      have own := call_grows (t.rekey (purge oPath) (purge nPath)) q
        (FileAccessInfo.notifyRenamedTo_prefix fs (purge nPath)) r
      rwa [ObjectTable.objects_rekey] at own
    · rw [h, call_next]
      refine ⟨Nat.lt_succ_of_lt born, ?_⟩
      have own := call_grows (t.addNew (purge oPath) (.new oPath)) t.next
        (FileAccessInfo.notifyRenamedTo_prefix fs (purge nPath)) r
      rwa [t.objects_addNew_lt _ _ born] at own

/-- Whatever was recorded up to some moment of a run is still returned at any later one. -/
def NothingLost (calls : List FileCall) : Prop :=
  ∀ earlier later, earlier <+: later → later <+: calls → ∀ r,
    r < (run FileTable.after FileTable.empty earlier).next →
    ∀ x ∈ ((run FileTable.after FileTable.empty earlier).objects r).info,
      ∃ t ∈ fileAccessLog (run FileTable.after FileTable.empty later), x ∈ t.info

theorem records_grow_run (t : FileTable) (calls : List FileCall) {r : Ref} (born : r < t.next) :
    r < (run FileTable.after t calls).next ∧
      (t.objects r).info <+: ((run FileTable.after t calls).objects r).info := by
  induction calls generalizing t with
  | nil => exact ⟨born, List.prefix_refl _⟩
  | cons c calls ih =>
    obtain ⟨alive, grown⟩ := records_grow t c born
    obtain ⟨still, further⟩ := ih (t.after c) alive
    exact ⟨still, grown.trans further⟩

theorem exists_log_iff (t : FileTable) (x : AccessInfo) :
    (∃ a ∈ fileAccessLog t, x ∈ a.info) ↔ ∃ k q, t.ref? k = some q ∧ x ∈ (t.objects q).info := by
  constructor
  · intro holds
    obtain ⟨a, listed, member⟩ := holds
    obtain ⟨k, q, held, rfl⟩ := ObjectTable.mem_values.mp listed
    exact ⟨k, q, held, member⟩
  · intro holds
    obtain ⟨k, q, held, member⟩ := holds
    exact ⟨_, ObjectTable.mem_values.mpr ⟨k, q, held, rfl⟩, member⟩

theorem nothingLost_iff_throughout (calls : List FileCall) :
    NothingLost calls ↔ Throughout FileTable.after RecordsHeld FileTable.empty calls := by
  constructor
  · intro kept done inside r born x member
    exact (exists_log_iff _ x).mp (kept done done (List.prefix_refl _) inside r born x member)
  · rintro kept earlier later ⟨rest, rfl⟩ inside r born x member
    rw [exists_log_iff]
    obtain ⟨alive, grown⟩ := records_grow_run _ rest born
    rw [← run_append] at alive grown
    exact kept _ inside r alive x (grown.subset member)

/-- A run loses no record exactly if none of its renames displaces one. -/
theorem no_record_lost_iff (calls : List FileCall) :
    NothingLost calls ↔ EachStep FileTable.after KeepsRecords FileTable.empty calls := by
  rw [nothingLost_iff_throughout,
    ← throughout_and_eachStep_iff keepsRecords_exact recordsHeld_empty]
  exact (and_iff_left fun _ _ _ _ => trivial).symm

/-- A disk on which every file exists and has the same length. -/
def fullDisk (size : Int) : FileSystem :=
  { FileSystem.bare with fileExists := fun _ => true, length := fun _ => .ok size }

/-- `b` was seen with two bytes; after `a` was moved over it only the one byte of `a` is reported. -/
theorem rename_over_tracked_file_loses : ¬ ∀ calls, NothingLost calls := by
  intro never_lost
  let seen := [FileCall.access (fullDisk 1) (wide "\\??\\C:\\a"),
    .access (fullDisk 2) (wide "\\??\\C:\\b")]
  let moved := seen ++ [.rename (fullDisk 1) (wide "C:\\a") (wide "C:\\b")]
  have lost : ¬ ∃ t ∈ fileAccessLog (run FileTable.after FileTable.empty moved),
      ⟨true, 2, ⟨none, none⟩, none, wide "C:\\b"⟩ ∈ t.info := by decide
  exact lost (never_lost moved seen moved (List.prefix_append ..) (List.prefix_refl _) 1
    (by decide) _ (by decide))

end GuestAgent.Guarantees.FileIdentity
