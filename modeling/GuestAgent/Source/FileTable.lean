import GuestAgent.Library.ObjectTable
import GuestAgent.Library.Runs
import GuestAgent.Source.FileHistory

/-!
`_fileMap` and the two calls that write it: ProgramStatus.cs, `NotifyFileAccess`
and `NotifyFileRename`. Each call edits the map under `_filesLock` first and then
lets the objects look at their files; an exception there leaves the map edited.
-/
namespace GuestAgent.Source
open Library

/-- `_fileMap` together with every `FileAccessInfo` object ever created. -/
abbrev FileTable := ObjectTable WString FileAccessInfo

/-- The part of `NotifyFileAccess` before the lock: without the prefix the path stays empty. -/
def wildPath (ss : WString) : WString := if ntPrefix.isPrefixOf ss then ss.drop 4 else []

/-- The body of the `try` that expands a wildcard; `none` is the `files` left null. -/
def expandWildcard (fs : FileSystem) (wild : WString) : Except Exn (Option (List WString)) := do
  let dir ← fs.getDirectoryName wild
  let fname ← fs.getFileName wild
  match dir with
  | none => .ok none
  | some dir => if fs.directoryExists dir then some <$> fs.getFiles dir fname else .ok none

/-- The array `files` of `NotifyFileAccess`. -/
def filesNamed (fs : FileSystem) (ss : WString) : Option (List WString) :=
  if asterisk ∈ wildPath ss then
    match expandWildcard fs (wildPath ss) with
    | .ok files => files
    | .error _ => some [wildPath ss]
  else some [wildPath ss]

namespace FileTable

def empty : FileTable := ObjectTable.empty (.new [])

/-- Call a method of the object behind `r`. -/
def call (t : FileTable) (r : Ref) (f : FileAccessInfo → Outcome FileAccessInfo Exn) :
    Outcome FileTable Exn :=
  ⟨t.update r (fun a => (f a).state), (f (t.objects r)).thrown⟩

theorem call_objects_ne (t : FileTable) {r q : Ref}
    (f : FileAccessInfo → Outcome FileAccessInfo Exn) (other : q ≠ r) :
    (call t r f).state.objects q = t.objects q :=
  t.objects_update_ne (fun a => (f a).state) other

/-- The `foreach` under the lock: the objects to notify, created where missing. -/
def track (t : FileTable) : List WString → FileTable × List Ref
  | [] => (t, [])
  | s :: files =>
    if s = [] then track t files
    else match t.ref? s with
      | some r => ((track t files).1, r :: (track t files).2)
      | none =>
        let added := t.addNew s (.new s)
        ((track added files).1, t.next :: (track added files).2)

/-- The `foreach` after the lock; an exception ends it. -/
def notifyEach (fs : FileSystem) : List Ref → FileTable → Outcome FileTable Exn
  | [], t => .ok t
  | r :: refs, t => (call t r (FileAccessInfo.notifyAccess fs)).andThen (notifyEach fs refs)

/-- The objects an access reaches, `toNotify` in the source. -/
def notified (fs : FileSystem) (ss : WString) (t : FileTable) : List Ref :=
  match filesNamed fs ss with
  | none => []
  | some files => (track t files).2

def notifyFileAccess (fs : FileSystem) (ss : WString) (t : FileTable) : Outcome FileTable Exn :=
  match filesNamed fs ss with
  | none => .ok t
  | some files => notifyEach fs (track t files).2 (track t files).1

/-- `rekey` is the source's `Remove(oldPath)` followed by the store under `newPath`,
which is `[newPath] = t` or `Add(newPath, t)` according to `ContainsKey(newPath)`.
A file not known yet is stored under `oldPath` and then renamed. -/
def notifyFileRename (fs : FileSystem) (oPath nPath : WString) (t : FileTable) :
    Outcome FileTable Exn :=
  if oPath = [] then .ok t
  else if nPath = [] then .ok t
  else match t.ref? (purge oPath) with
    | some r =>
      call (t.rekey (purge oPath) (purge nPath)) r (FileAccessInfo.notifyRenamedTo fs (purge nPath))
    | none =>
      call (t.addNew (purge oPath) (.new oPath)) t.next
        (FileAccessInfo.notifyRenamedTo fs (purge nPath))

/-- `FileAccessLog`. -/
def fileAccessLog (t : FileTable) : List FileAccessInfo := t.values

end FileTable

/-- A notification together with the disk the guest sees while handling it. -/
inductive FileCall where
  | access (fs : FileSystem) (ss : WString)
  | rename (fs : FileSystem) (oPath nPath : WString)

/-- The table after a call, whether or not the call threw. -/
def FileTable.after (t : FileTable) : FileCall → FileTable
  | .access fs ss => (t.notifyFileAccess fs ss).state
  | .rename fs oPath nPath => (t.notifyFileRename fs oPath nPath).state

namespace FileTable

/-- `t'` is `t` with untracked names added, each with a new object of its own name. -/
structure Extends (t t' : FileTable) : Prop where
  kept : ∀ k r, t.ref? k = some r → t'.ref? k = some r
  added : ∀ k r, t'.ref? k = some r →
    t.ref? k = some r ∨ (t.next ≤ r ∧ t'.objects r = .new k)
  same : ∀ r, r < t.next → t'.objects r = t.objects r
  grown : t.next ≤ t'.next
  held : ∀ r, t.next ≤ r → r < t'.next → ∃ k, t'.ref? k = some r

theorem Extends.refl (t : FileTable) : Extends t t where
  kept := fun _ _ h => h
  added := fun _ _ h => .inl h
  same := fun _ _ => rfl
  grown := Nat.le_refl _
  held := fun _ low high => absurd (Nat.lt_of_le_of_lt low high) (Nat.lt_irrefl _)

theorem Extends.trans {t u v : FileTable} (first : Extends t u) (second : Extends u v) :
    Extends t v where
  kept := fun k r h => second.kept k r (first.kept k r h)
  added := by
    intro k r h
    rcases second.added k r h with old | ⟨low, new⟩
    · rcases first.added k r old with older | ⟨low, new⟩
      · exact .inl older
      · exact .inr ⟨low, (second.same r (u.allocated k r old)).trans new⟩
    · exact .inr ⟨Nat.le_trans first.grown low, new⟩
  same := fun r h => (second.same r (Nat.lt_of_lt_of_le h first.grown)).trans (first.same r h)
  grown := Nat.le_trans first.grown second.grown
  held := by
    intro r low high
    rcases Nat.lt_or_ge r u.next with early | late
    · obtain ⟨k, hk⟩ := first.held r low early
      exact ⟨k, second.kept k r hk⟩
    · exact second.held r late high

theorem extends_addNew {t : FileTable} {k : WString} (free : t.ref? k = none) :
    Extends t (t.addNew k (.new k)) where
  kept := by
    intro l r h
    rw [t.ref?_addNew_ne _ (by rintro rfl; rw [free] at h; cases h)]
    exact h
  added := by
    intro l r h
    by_cases same : l = k
    · subst same
      rw [t.ref?_addNew_self, Option.some.injEq] at h
      subst h
      exact .inr ⟨Nat.le_refl _, t.objects_addNew_next ..⟩
    · rw [t.ref?_addNew_ne _ same] at h
      exact .inl h
  same := fun r born => t.objects_addNew_lt _ _ born
  grown := Nat.le_succ _
  held := by
    intro r low high
    have only : r = t.next := Nat.le_antisymm (Nat.le_of_lt_succ high) low
    exact ⟨k, by rw [only, t.ref?_addNew_self]⟩

theorem track_extends (t : FileTable) (files : List WString) : Extends t (track t files).1 := by
  induction files generalizing t with
  | nil => exact Extends.refl t
  | cons s files ih =>
    unfold track
    split
    · exact ih t
    · split
      · exact ih t
      next free => exact (extends_addNew free).trans (ih _)

/-- Every nonempty file of the list is tracked afterwards and its object is notified. -/
theorem track_reaches (t : FileTable) {files : List WString} {s : WString} (listed : s ∈ files)
    (named : s ≠ []) : ∃ r ∈ (track t files).2, (track t files).1.ref? s = some r := by
  induction files generalizing t with
  | nil => cases listed
  | cons first files ih =>
    unfold track
    rcases List.mem_cons.mp listed with rfl | later
    · rw [if_neg named]
      split
      next r known => exact ⟨r, by simp, (track_extends t files).kept s r known⟩
      next => exact ⟨t.next, by simp, (track_extends _ files).kept s _ (t.ref?_addNew_self s _)⟩
    · split
      · exact ih t later
      · split <;> obtain ⟨r, member, held⟩ := ih _ later <;>
          exact ⟨r, List.mem_cons_of_mem _ member, held⟩

/-- Only the files of the list are reached. -/
theorem track_only (t : FileTable) {files : List WString} {r : Ref}
    (member : r ∈ (track t files).2) :
    ∃ s ∈ files, s ≠ [] ∧ (track t files).1.ref? s = some r := by
  induction files generalizing t with
  | nil => cases member
  | cons first files ih =>
    unfold track at member ⊢
    split at member
    · rename_i blank
      obtain ⟨s, listed, named, held⟩ := ih t member
      rw [if_pos blank]
      exact ⟨s, List.mem_cons_of_mem _ listed, named, held⟩
    · rename_i named
      rw [if_neg named]
      split at member
      · rename_i q known
        rcases List.mem_cons.mp member with rfl | later
        · exact ⟨first, by simp, named, (track_extends t files).kept first _ known⟩
        · obtain ⟨s, listed, named, held⟩ := ih t later
          exact ⟨s, List.mem_cons_of_mem _ listed, named, held⟩
      · rename_i free
        rcases List.mem_cons.mp member with rfl | later
        · exact ⟨first, by simp, named,
            (track_extends _ files).kept first _ (t.ref?_addNew_self first _)⟩
        · obtain ⟨s, listed, named, held⟩ := ih _ later
          exact ⟨s, List.mem_cons_of_mem _ listed, named, held⟩

/-- Which names are tracked after the `foreach` under the lock. -/
theorem track_tracked_iff (t : FileTable) (files : List WString) (k : WString) :
    (∃ r, (track t files).1.ref? k = some r) ↔ (∃ r, t.ref? k = some r) ∨ (k ≠ [] ∧ k ∈ files) := by
  constructor
  · intro holds
    obtain ⟨r, held⟩ := holds
    induction files generalizing t with
    | nil => exact .inl ⟨r, held⟩
    | cons first files ih =>
      unfold track at held
      split at held
      · exact (ih t held).imp_right (And.imp_right (List.mem_cons_of_mem _))
      next named =>
        split at held
        · exact (ih t held).imp_right (And.imp_right (List.mem_cons_of_mem _))
        · rcases ih _ held with ⟨q, added⟩ | ⟨named, listed⟩
          · rcases (t.ref?_addNew_iff _).mp added with ⟨rfl, _⟩ | ⟨_, before⟩
            · exact .inr ⟨named, by simp⟩
            · exact .inl ⟨q, before⟩
          · exact .inr ⟨named, List.mem_cons_of_mem _ listed⟩
  · rintro (⟨r, held⟩ | ⟨named, listed⟩)
    · exact ⟨r, (track_extends t files).kept k r held⟩
    · obtain ⟨r, _, held⟩ := track_reaches t listed named
      exact ⟨r, held⟩

/-- The files a name without the prefix stands for: itself, or with a wildcard what the
directory lists, or itself again when the directory cannot be read. -/
def Names (fs : FileSystem) (wild p : WString) : Prop :=
  if asterisk ∈ wild then
    match expandWildcard fs wild with
    | .ok files => ∃ listed, files = some listed ∧ p ∈ listed
    | .error _ => p = wild
  else p = wild

theorem names_self {fs : FileSystem} {p : WString} (plain : asterisk ∉ p) : Names fs p p := by
  rw [Names, if_neg plain]

theorem mem_filesNamed (fs : FileSystem) (ss : WString) {p : WString} (named : p ≠ []) :
    (∃ files, filesNamed fs ss = some files ∧ p ∈ files) ↔
      ntPrefix <+: ss ∧ Names fs (purge ss) p := by
  by_cases prefixed : ntPrefix <+: ss
  · have wild : wildPath ss = purge ss := by
      rw [wildPath, purge, List.isPrefixOf_iff_prefix.mpr prefixed]
      rfl
    unfold filesNamed Names
    rw [wild]
    by_cases star : asterisk ∈ purge ss
    · rw [if_pos star, if_pos star]
      cases expandWildcard fs (purge ss) <;> simp [prefixed]
    · rw [if_neg star, if_neg star]
      simp [prefixed]
  · have blank : wildPath ss = [] := by
      rw [wildPath, if_neg (by simpa using prefixed)]
    unfold filesNamed
    rw [blank]
    simp [prefixed, named]

/-- `t'` has the map of `t`, and its objects have only gained records. -/
structure Grows (t t' : FileTable) : Prop where
  map : t'.map = t.map
  next : t'.next = t.next
  path : ∀ r, (t'.objects r).path = (t.objects r).path
  finalized : ∀ r, (t'.objects r).finalized = (t.objects r).finalized
  info : ∀ r, (t.objects r).info <+: (t'.objects r).info

theorem Grows.refl (t : FileTable) : Grows t t :=
  ⟨rfl, rfl, fun _ => rfl, fun _ => rfl, fun _ => List.prefix_refl _⟩

theorem Grows.trans {t u v : FileTable} (first : Grows t u) (second : Grows u v) : Grows t v where
  map := second.map.trans first.map
  next := second.next.trans first.next
  path := fun r => (second.path r).trans (first.path r)
  finalized := fun r => (second.finalized r).trans (first.finalized r)
  info := fun r => (first.info r).trans (second.info r)

theorem Grows.ref? {t t' : FileTable} (h : Grows t t') (k : WString) : t'.ref? k = t.ref? k := by
  rw [ObjectTable.ref?, h.map, ObjectTable.ref?]

theorem call_notifyAccess_grows (fs : FileSystem) (t : FileTable) (r : Ref) :
    Grows t (call t r (FileAccessInfo.notifyAccess fs)).state where
  map := rfl
  next := rfl
  path := by
    intro q
    by_cases same : q = r
    · subst same
      simp [call]
    · rw [call_objects_ne t _ same]
  finalized := by
    intro q
    by_cases same : q = r
    · subst same
      simp [call]
    · rw [call_objects_ne t _ same]
  info := by
    intro q
    by_cases same : q = r
    · subst same
      simpa [call] using FileAccessInfo.notifyAccess_prefix fs (t.objects q)
    · rw [call_objects_ne t _ same]

theorem notifyEach_cons (fs : FileSystem) (r : Ref) (refs : List Ref) (t : FileTable) :
    (notifyEach fs (r :: refs) t).state = (call t r (FileAccessInfo.notifyAccess fs)).state ∨
    (notifyEach fs (r :: refs) t).state =
      (notifyEach fs refs (call t r (FileAccessInfo.notifyAccess fs)).state).state := by
  rw [notifyEach]
  cases h : (call t r (FileAccessInfo.notifyAccess fs)).thrown with
  | none => exact .inr (by rw [Outcome.andThen_of_none h])
  | some e => exact .inl (by rw [Outcome.andThen_of_some h, Outcome.fail_state])

theorem notifyEach_grows (fs : FileSystem) (refs : List Ref) (t : FileTable) :
    Grows t (notifyEach fs refs t).state := by
  induction refs generalizing t with
  | nil => exact Grows.refl t
  | cons r refs ih =>
    rcases notifyEach_cons fs r refs t with h | h <;> rw [h]
    · exact call_notifyAccess_grows fs t r
    · exact (call_notifyAccess_grows fs t r).trans (ih _)

/-- Objects outside the list are not touched. -/
theorem notifyEach_frame (fs : FileSystem) (refs : List Ref) (t : FileTable) {q : Ref}
    (outside : q ∉ refs) : (notifyEach fs refs t).state.objects q = t.objects q := by
  induction refs generalizing t with
  | nil => rfl
  | cons r refs ih =>
    rw [List.mem_cons, not_or] at outside
    obtain ⟨other, outside⟩ := outside
    rcases notifyEach_cons fs r refs t with h | h <;> rw [h]
    · exact call_objects_ne t _ other
    · rw [ih _ outside, call_objects_ne t _ other]

/-- The object behind `r` has nothing new to record. -/
def Settled (fs : FileSystem) (t : FileTable) (r : Ref) : Prop :=
  ((t.objects r).notifyAccess fs).state = t.objects r

theorem call_of_settled {fs : FileSystem} {t : FileTable} {r : Ref} (settled : Settled fs t r) :
    call t r (FileAccessInfo.notifyAccess fs) = ⟨t, ((t.objects r).notifyAccess fs).thrown⟩ := by
  have fixed : t.update r (fun a => (a.notifyAccess fs).state) = t :=
    ObjectTable.update_of_fixed settled
  rw [call, fixed]

theorem settled_call (fs : FileSystem) (t : FileTable) (r : Ref) :
    Settled fs (call t r (FileAccessInfo.notifyAccess fs)).state r := by
  simp only [Settled, call, ObjectTable.objects_update_self, FileAccessInfo.notifyAccess_again]

theorem Settled.notifyEach {fs : FileSystem} {t : FileTable} {r : Ref} (settled : Settled fs t r)
    (refs : List Ref) : Settled fs (notifyEach fs refs t).state r := by
  have step : ∀ (t : FileTable) (q : Ref), Settled fs t r →
      Settled fs (call t q (FileAccessInfo.notifyAccess fs)).state r := by
    intro t q settled
    by_cases hit : r = q
    · rw [hit]
      exact settled_call fs t q
    · rw [Settled, call_objects_ne t _ hit]
      exact settled
  induction refs generalizing t with
  | nil => exact settled
  | cons q refs ih =>
    rcases notifyEach_cons fs q refs t with h | h <;> rw [h]
    · exact step t q settled
    · exact ih (step t q settled)

/-- Whether a look throws depends on the file and on the flag alone. -/
theorem thrown_congr {fs : FileSystem} {a b : FileAccessInfo} (path : b.path = a.path)
    (finalized : b.finalized = a.finalized) :
    (b.notifyAccess fs).thrown = (a.notifyAccess fs).thrown := by
  unfold FileAccessInfo.notifyAccess
  rw [path, finalized]
  split
  · rfl
  · split <;> rfl

/-- All looks go through exactly if each does, from the table they start with. -/
theorem notifyEach_completes_iff (fs : FileSystem) (refs : List Ref) (t : FileTable) :
    (notifyEach fs refs t).thrown = none ↔ ∀ r ∈ refs, (t.objects r).Readable fs := by
  induction refs generalizing t with
  | nil => simp [notifyEach]
  | cons r refs ih =>
    have own := FileAccessInfo.notifyAccess_completes_iff fs (t.objects r)
    have grown := call_notifyAccess_grows fs t r
    have rest : ∀ q, ((call t r (FileAccessInfo.notifyAccess fs)).state.objects q).Readable fs ↔
        (t.objects q).Readable fs := by
      intro q
      rw [← FileAccessInfo.notifyAccess_completes_iff, ← FileAccessInfo.notifyAccess_completes_iff,
        thrown_congr (grown.path q) (grown.finalized q)]
    rw [notifyEach, List.forall_mem_cons]
    cases throws : (call t r (FileAccessInfo.notifyAccess fs)).thrown with
    | none =>
      rw [Outcome.andThen_of_none throws, ih, and_iff_right (own.mp throws)]
      exact forall_congr' fun q => imp_congr_right fun _ => rest q
    | some e =>
      have fails : ¬ (t.objects r).Readable fs := by
        rw [← own]
        intro none_
        exact absurd (throws.symm.trans none_) (by simp)
      simp [Outcome.andThen_of_some throws, fails]

/-- The object an access to the name `s` reaches, before it looks at the file. -/
def entryOrNew (t : FileTable) (s : WString) : FileAccessInfo := (t.entry? s).getD (.new s)

theorem track_objects (t : FileTable) {files : List WString} {s : WString} {r : Ref}
    (held : (track t files).1.ref? s = some r) : (track t files).1.objects r = entryOrNew t s := by
  have grown := track_extends t files
  unfold entryOrNew ObjectTable.entry?
  cases before : t.ref? s with
  | some q =>
    have same : q = r := Option.some.inj ((grown.kept s q before).symm.trans held)
    subst same
    exact grown.same q (t.allocated s q before)
  | none =>
    rcases grown.added s r held with old | ⟨_, new⟩
    · rw [before] at old
      cases old
    · exact new

theorem notifyFileAccess_completes_iff (fs : FileSystem) (ss : WString) (t : FileTable) :
    (t.notifyFileAccess fs ss).thrown = none ↔
      ∀ files, filesNamed fs ss = some files → ∀ s ∈ files, s ≠ [] → (entryOrNew t s).Readable fs := by
  unfold notifyFileAccess
  cases filesNamed fs ss with
  | none => simp
  | some files =>
    simp only [notifyEach_completes_iff, Option.some.injEq, forall_eq']
    constructor
    · intro each s listed named
      obtain ⟨r, member, held⟩ := track_reaches t listed named
      rw [← track_objects t held]
      exact each r member
    · intro each r member
      obtain ⟨s, listed, named, held⟩ := track_only t member
      rw [track_objects t held]
      exact each s listed named

/-- Looking at the same files once more changes nothing and ends the same way. -/
theorem notifyEach_again (fs : FileSystem) (refs : List Ref) (t : FileTable) :
    notifyEach fs refs (notifyEach fs refs t).state = notifyEach fs refs t := by
  induction refs generalizing t with
  | nil => rfl
  | cons r refs ih =>
    have settled := settled_call fs t r
    have first := call_notifyAccess_grows fs t r
    cases throws : (call t r (FileAccessInfo.notifyAccess fs)).thrown with
    | some e =>
      have stops : notifyEach fs (r :: refs) t =
          .fail (call t r (FileAccessInfo.notifyAccess fs)).state e := by
        rw [notifyEach, Outcome.andThen_of_some throws]
      have again : (call (call t r (FileAccessInfo.notifyAccess fs)).state r
          (FileAccessInfo.notifyAccess fs)).thrown = some e := by
        rw [← throws]
        exact thrown_congr (first.path r) (first.finalized r)
      rw [stops, Outcome.fail_state, notifyEach, Outcome.andThen_of_some again,
        call_of_settled settled]
    | none =>
      have goes : notifyEach fs (r :: refs) t =
          notifyEach fs refs (call t r (FileAccessInfo.notifyAccess fs)).state := by
        rw [notifyEach, Outcome.andThen_of_none throws]
      rw [goes]
      have grown := first.trans (notifyEach_grows fs refs _)
      have stays := settled.notifyEach refs
      have again : (call (notifyEach fs refs (call t r
          (FileAccessInfo.notifyAccess fs)).state).state r
          (FileAccessInfo.notifyAccess fs)).thrown = none := by
        rw [← throws]
        exact thrown_congr (grown.path r) (grown.finalized r)
      rw [notifyEach, Outcome.andThen_of_none again, call_of_settled stays]
      exact ih _

/-- Files tracked once are found again under the same objects. -/
theorem track_again {t u : FileTable} (files : List WString)
    (kept : ∀ k r, (track t files).1.ref? k = some r → u.ref? k = some r) :
    track u files = (u, (track t files).2) := by
  induction files generalizing t with
  | nil => rfl
  | cons s files ih =>
    unfold track at kept ⊢
    split at kept
    next blank => rw [if_pos blank, if_pos blank, ih kept]
    next named =>
      rw [if_neg named, if_neg named]
      split at kept
      next r known =>
        have held : u.ref? s = some r := kept s r ((track_extends t files).kept s r known)
        simp only [held, ih kept]
      next free =>
        have held : u.ref? s = some t.next :=
          kept s _ ((track_extends _ files).kept s _ (t.ref?_addNew_self s _))
        simp only [held, ih kept]

/-- An access notified twice over an unchanged disk is one access. -/
theorem notifyFileAccess_again (fs : FileSystem) (ss : WString) (t : FileTable) :
    notifyFileAccess fs ss (t.notifyFileAccess fs ss).state = t.notifyFileAccess fs ss := by
  unfold notifyFileAccess
  cases filesNamed fs ss with
  | none => rfl
  | some files =>
    simp only
    have kept : ∀ k r, (track t files).1.ref? k = some r →
        (notifyEach fs (track t files).2 (track t files).1).state.ref? k = some r :=
      fun k r held => ((notifyEach_grows fs _ _).ref? k).trans held
    rw [track_again files kept]
    exact notifyEach_again fs _ _

/-- An access is an extension of the table followed by a look at the reached files. -/
theorem notifyFileAccess_steps (fs : FileSystem) (ss : WString) (t : FileTable) :
    ∃ u, Extends t u ∧ Grows u (t.notifyFileAccess fs ss).state ∧
      (∀ r ∈ notified fs ss t, ∃ k, u.ref? k = some r) ∧
      ∀ q, q ∉ notified fs ss t → (t.notifyFileAccess fs ss).state.objects q = u.objects q := by
  unfold notifyFileAccess notified
  cases filesNamed fs ss with
  | none => exact ⟨t, Extends.refl t, Grows.refl t, by simp, fun _ _ => rfl⟩
  | some files =>
    refine ⟨(track t files).1, track_extends t files, notifyEach_grows fs _ _, ?_, ?_⟩
    · intro r member
      obtain ⟨s, _, _, held⟩ := track_only t member
      exact ⟨s, held⟩
    · intro q outside
      exact notifyEach_frame fs _ _ outside

/-- Which names are tracked after an access. -/
theorem notifyFileAccess_tracked_iff (fs : FileSystem) (ss : WString) (t : FileTable)
    {k : WString} (named : k ≠ []) :
    (∃ r, (t.notifyFileAccess fs ss).state.ref? k = some r) ↔
      (∃ r, t.ref? k = some r) ∨ (ntPrefix <+: ss ∧ Names fs (purge ss) k) := by
  rw [← mem_filesNamed fs ss named]
  unfold notifyFileAccess
  cases filesNamed fs ss with
  | none => simp
  | some files =>
    simp only [(notifyEach_grows fs _ _).ref?, track_tracked_iff]
    simp [named]

/-- All that a rename can do to the table. -/
theorem notifyFileRename_cases (fs : FileSystem) (oPath nPath : WString) (t : FileTable) :
    ((oPath = [] ∨ nPath = []) ∧ t.notifyFileRename fs oPath nPath = .ok t) ∨
    (oPath ≠ [] ∧ nPath ≠ [] ∧ ∃ r, t.ref? (purge oPath) = some r ∧
      t.notifyFileRename fs oPath nPath = call (t.rekey (purge oPath) (purge nPath)) r
        (FileAccessInfo.notifyRenamedTo fs (purge nPath))) ∨
    (oPath ≠ [] ∧ nPath ≠ [] ∧ t.ref? (purge oPath) = none ∧
      t.notifyFileRename fs oPath nPath = call (t.addNew (purge oPath) (.new oPath)) t.next
        (FileAccessInfo.notifyRenamedTo fs (purge nPath))) := by
  unfold notifyFileRename
  by_cases ho : oPath = []
  · exact .inl ⟨.inl ho, by rw [if_pos ho]⟩
  by_cases hn : nPath = []
  · exact .inl ⟨.inr hn, by rw [if_neg ho, if_pos hn]⟩
  rw [if_neg ho, if_neg hn]
  cases known : t.ref? (purge oPath) with
  | some r => exact .inr (.inl ⟨ho, hn, r, rfl, rfl⟩)
  | none => exact .inr (.inr ⟨ho, hn, rfl, rfl⟩)

theorem notifyFileRename_completes_iff (fs : FileSystem) (oPath nPath : WString) (t : FileTable) :
    (t.notifyFileRename fs oPath nPath).thrown = none ↔ oPath = [] ∨ nPath = [] ∨
      ({ entryOrNew t (purge oPath) with path := purge nPath } : FileAccessInfo).Readable fs := by
  rcases notifyFileRename_cases fs oPath nPath t with
    ⟨blank, h⟩ | ⟨ho, hn, r, held, h⟩ | ⟨ho, hn, free, h⟩
  · rw [h]
    rcases blank with rfl | rfl <;> simp
  · simp [h, call, FileAccessInfo.notifyRenamedTo, FileAccessInfo.notifyAccess_completes_iff,
      entryOrNew, ObjectTable.entry?, held, ho, hn]
  · simp [h, call, FileAccessInfo.notifyRenamedTo, FileAccessInfo.notifyAccess_completes_iff,
      entryOrNew, ObjectTable.entry?, free, ho, hn, FileAccessInfo.new]

theorem call_next (t : FileTable) (r : Ref) (f : FileAccessInfo → Outcome FileAccessInfo Exn) :
    (call t r f).state.next = t.next := rfl

theorem call_ref? (t : FileTable) (r : Ref) (f : FileAccessInfo → Outcome FileAccessInfo Exn)
    (k : WString) : (call t r f).state.ref? k = t.ref? k := rfl

/-- A method that only adds records leaves every history at least as long. -/
theorem call_grows (t : FileTable) (q : Ref) {f : FileAccessInfo → Outcome FileAccessInfo Exn}
    (adds : ∀ a, a.info <+: (f a).state.info) (r : Ref) :
    (t.objects r).info <+: ((call t q f).state.objects r).info := by
  by_cases hit : r = q
  · subst hit
    simpa [call] using adds (t.objects r)
  · rw [call_objects_ne t f hit]

/-- After `NotifyRenamedTo` an object carries the new name. -/
theorem path_call_renamed (fs : FileSystem) (nPath : WString) (t : FileTable) (r : Ref) :
    ((call t r (FileAccessInfo.notifyRenamedTo fs nPath)).state.objects r).path = nPath := by
  simp only [call, ObjectTable.objects_update_self, FileAccessInfo.notifyRenamedTo,
    FileAccessInfo.notifyAccess_path]

/-- It has its records and the observation of the file under the new name. -/
theorem mem_call_renamed (fs : FileSystem) (nPath : WString) (t : FileTable) (r : Ref)
    (x : AccessInfo) :
    x ∈ ((call t r (FileAccessInfo.notifyRenamedTo fs nPath)).state.objects r).info ↔
      x ∈ (t.objects r).info ∨
        ((t.objects r).finalized = false ∧ collect fs nPath = .ok x) := by
  simp only [call, ObjectTable.objects_update_self, FileAccessInfo.notifyRenamedTo,
    FileAccessInfo.mem_notifyAccess_info]

end FileTable

end GuestAgent.Source
