import GuestAgent.Guarantees.FileHistory
import GuestAgent.Source.FileTable

/-!
`_fileMap` is a journal: a value for each path, without references.

The map holds objects, one pass creates the missing ones and a second pass, outside the
lock, calls them by reference; a rename moves an object from key to key. Seen from outside
none of this shows: each call is a change of the values under the paths it names.
-/
namespace GuestAgent.Guarantees.FileJournal
open Library Library.Runs Library.Collapse Source Source.FileTable
open Source.FileAccessInfo (new notifyAccess notifyRenamedTo)

/-- What is known of each path. -/
abbrev Journal := WString → Option FileAccessInfo

namespace Journal

def empty : Journal := fun _ => none

/-- The entry of a path, a fresh one if there is none. -/
def at' (j : Journal) (path : WString) : FileAccessInfo := (j path).getD (.new path)

/-- Every path named has an entry. -/
def name (j : Journal) (paths : List WString) : Journal := fun path =>
  if path ≠ [] ∧ paths.contains path then some (j.at' path) else j path

/-- Look at the files one after the other; an exception ends it. -/
def lookEach (fs : FileSystem) : List WString → Journal → Outcome Journal Exn
  | [], j => .ok j
  | path :: paths, j =>
    (((j.at' path).notifyAccess fs).within (Function.update j path <| some ·)).andThen
      (lookEach fs paths)

def access (fs : FileSystem) (ss : WString) (j : Journal) : Outcome Journal Exn :=
  match filesNamed fs ss with
  | none => .ok j
  | some paths => lookEach fs (paths.filter (· ≠ [])) (j.name paths)

/-- The entry moves to the new path and looks there; an unknown file gets its entry under
the old path all the same. -/
def rename (fs : FileSystem) (oPath nPath : WString) (j : Journal) : Outcome Journal Exn :=
  if oPath = [] ∨ nPath = [] then .ok j
  else match j (purge oPath) with
    | some a =>
      (a.notifyRenamedTo fs (purge nPath)).within
        (Function.update (Function.update j (purge oPath) none) (purge nPath) <| some ·)
    | none =>
      ((new oPath).notifyRenamedTo fs (purge nPath)).within
        (Function.update j (purge oPath) <| some ·)

def after (j : Journal) : FileCall → Outcome Journal Exn
  | .access fs ss => j.access fs ss
  | .rename fs oPath nPath => j.rename fs oPath nPath

end Journal

/-- A call on the table, with the exception it may end in. -/
def answer (t : FileTable) : FileCall → Outcome FileTable Exn
  | .access fs ss => t.notifyFileAccess fs ss
  | .rename fs oPath nPath => t.notifyFileRename fs oPath nPath

/-- The table does what the journal does: same entries, same exception. -/
def Refines (o : Outcome FileTable Exn) (o' : Outcome Journal Exn) : Prop :=
  o.within ObjectTable.entry? = o'

theorem refines_andThen {o : Outcome FileTable Exn} {o' : Outcome Journal Exn}
    {next : FileTable → Outcome FileTable Exn} {next' : Journal → Outcome Journal Exn}
    (first : Refines o o') (rest : Refines (next o.state) (next' o.state.entry?)) :
    Refines (o.andThen next) (o'.andThen next') := by
  subst first
  cases failed : o.thrown with
  | none =>
    rw [Outcome.andThen_of_none failed, Outcome.andThen_of_none (by exact failed)]
    exact rest
  | some e =>
    rw [Outcome.andThen_of_some failed, Outcome.andThen_of_some (e := e) (by exact failed)]
    rfl

/-- A method called through a reference changes the value under its key. -/
theorem refines_call {t : FileTable} {path : WString} {r : Ref} (held : t.ref? path = some r)
    (f : FileAccessInfo → Outcome FileAccessInfo Exn) :
    Refines (call t r f) ((f (t.objects r)).within (Function.update t.entry? path <| some ·)) := by
  rw [Refines, call, Outcome.within, ObjectTable.entry?_update held]
  rfl

/-- The second pass, when the references are those of the paths. -/
theorem refines_notifyEach (fs : FileSystem) {paths : List WString} {refs : List Ref}
    {t : FileTable} (held : List.Forall₂ (fun path r => t.ref? path = some r) paths refs) :
    Refines (notifyEach fs refs t) (Journal.lookEach fs paths t.entry?) := by
  induction refs generalizing t paths with
  | nil =>
    cases held
    rfl
  | cons r refs ih =>
    obtain ⟨path, paths, now, later, rfl⟩ := List.forall₂_cons_right_iff.mp held
    have known : Journal.at' t.entry? path = t.objects r := by
      rw [Journal.at', ObjectTable.entry?_of_ref? now, Option.getD_some]
    rw [notifyEach, Journal.lookEach, known]
    refine refines_andThen (refines_call now _) (ih ?_)
    exact later.imp fun _ _ h => h

/-- The first pass: which references it collects, and what it adds. -/
theorem track_forall₂ (t : FileTable) (paths : List WString) :
    List.Forall₂ (fun path r => (track t paths).1.ref? path = some r)
      (paths.filter (· ≠ [])) (track t paths).2 := by
  induction paths generalizing t with
  | nil => exact .nil
  | cons path paths ih =>
    unfold track
    by_cases blank : path = []
    · rw [if_pos blank, List.filter_cons_of_neg (by simpa using blank)]
      exact ih t
    rw [if_neg blank, List.filter_cons_of_pos (by simpa using blank)]
    split
    next r known => exact .cons ((track_extends t paths).kept path r known) (ih t)
    next =>
      exact .cons ((track_extends _ paths).kept path _ (t.ref?_addNew_self path _)) (ih _)

theorem entry?_track (t : FileTable) (paths : List WString) :
    ObjectTable.entry? (track t paths).1 = Journal.name t.entry? paths := by
  funext path
  simp only [Journal.name, List.contains_iff_mem]
  cases held : (track t paths).1.ref? path with
  | some r =>
    rw [ObjectTable.entry?_of_ref? held, track_objects t held]
    rcases (track_tracked_iff t paths path).mp ⟨r, held⟩ with ⟨q, before⟩ | named
    · have known : entryOrNew t path = t.objects q := by
        rw [entryOrNew, ObjectTable.entry?_of_ref? before, Option.getD_some]
      rw [Journal.at', ObjectTable.entry?_of_ref? before, known, Option.getD_some, ite_self]
    · rw [if_pos named]
      rfl
  | none =>
    have unknown : ¬ ((∃ r, t.ref? path = some r) ∨ (path ≠ [] ∧ path ∈ paths)) := by
      rw [← track_tracked_iff, held]
      simp
    obtain ⟨before, unnamed⟩ := not_or.mp unknown
    rw [if_neg unnamed, ObjectTable.entry?, ObjectTable.entry?, held,
      Option.eq_none_iff_forall_not_mem.mpr (fun r h => before ⟨r, h⟩)]
    rfl

theorem refines_access (fs : FileSystem) (ss : WString) (t : FileTable) :
    Refines (t.notifyFileAccess fs ss) (Journal.access fs ss t.entry?) := by
  unfold notifyFileAccess Journal.access
  cases filesNamed fs ss with
  | none => rfl
  | some paths =>
    have looked := refines_notifyEach fs (track_forall₂ t paths)
    rw [entry?_track] at looked
    exact looked

theorem refines_rename (fs : FileSystem) (oPath nPath : WString) (t : FileTable) :
    Refines (t.notifyFileRename fs oPath nPath) (Journal.rename fs oPath nPath t.entry?) := by
  unfold Journal.rename
  rcases notifyFileRename_cases fs oPath nPath t with
    ⟨blank, h⟩ | ⟨ho, hn, r, held, h⟩ | ⟨ho, hn, free, h⟩
  · rw [h, if_pos blank]
    rfl
  · rw [h, if_neg (by simp [ho, hn]), ObjectTable.entry?_of_ref? held]
    have moved := refines_call (ObjectTable.ref?_rekey_new held (purge nPath))
      (notifyRenamedTo fs (purge nPath))
    rw [ObjectTable.entry?_rekey held, ObjectTable.objects_rekey] at moved
    simpa [Function.update_idem] using moved
  · have unknown : t.entry? (purge oPath) = none := by
      rw [ ObjectTable.entry?, free]
      rfl
    rw [h, if_neg (by simp [ho, hn]), unknown]
    have added := refines_call (t.ref?_addNew_self (purge oPath) (new oPath))
      (notifyRenamedTo fs (purge nPath))
    rw [ObjectTable.entry?_addNew, ObjectTable.objects_addNew_next] at added
    simpa [Function.update_idem] using added

theorem refines_answer (t : FileTable) (c : FileCall) :
    Refines (answer t c) (Journal.after t.entry? c) := by
  cases c with
  | access fs ss => exact refines_access fs ss t
  | rename fs oPath nPath => exact refines_rename fs oPath nPath t

theorem after_eq_answer (t : FileTable) (c : FileCall) : t.after c = (answer t c).state := by
  cases c <;> rfl

/-- After any calls, whether or not they threw, the map is the journal of these calls; the
next call throws exactly if it throws on the journal, and the log lists the journal's entries. -/
theorem table_refines_journal (calls : List FileCall) :
    let t := run FileTable.after FileTable.empty calls
    let j := run (fun j c => (Journal.after j c).state) Journal.empty calls
    t.entry? = j ∧ (∀ c, (answer t c).thrown = (j.after c).thrown) ∧
      ∀ a, a ∈ t.fileAccessLog ↔ ∃ path, j path = some a := by
  intro t j
  have same : t.entry? = j := by
    apply view_run
    intro t c
    rw [after_eq_answer, ← refines_answer t c]
    rfl
  refine ⟨same, fun c => ?_, fun a => ?_⟩
  · rw [← same, ← refines_answer t c]
    rfl
  · rw [← same]
    simp only [fileAccessLog, ObjectTable.mem_values, ObjectTable.entry?_eq_some]

/-! ### A path that is not renamed -/

/-- What a call sees of the path. -/
def looks (path : WString) : FileCall → List AccessInfo
  | .access fs ss =>
    match filesNamed fs ss with
    | some paths => if paths.contains path then FileHistory.observation fs path else []
    | none => []
  | .rename .. => []

/-- The call throws nothing and does not rename the file, or another one to its name. -/
def Spares (path : WString) (t : FileTable) (c : FileCall) : Prop :=
  (answer t c).thrown = none ∧
    match c with
    | .access .. => True
    | .rename _ oPath nPath => oPath = [] ∨ nPath = [] ∨ (purge oPath ≠ path ∧ purge nPath ≠ path)

/-- The entry of a path of which `seen` has been observed. -/
def entryFor (path : WString) (seen : List AccessInfo) : Option FileAccessInfo :=
  if seen = [] then none else some ⟨collapse seen, false, path⟩

/-- Looks that all go through: the files named are looked at, however often they are named. -/
theorem lookEach_completed (fs : FileSystem) {paths : List WString} {j : Journal}
    (completed : (Journal.lookEach fs paths j).thrown = none) (path : WString) :
    if path ∈ paths then ((j.at' path).notifyAccess fs).thrown = none ∧
      (Journal.lookEach fs paths j).state path = some ((j.at' path).notifyAccess fs).state
    else (Journal.lookEach fs paths j).state path = j path := by
  induction paths generalizing j with
  | nil => rfl
  | cons first paths ih =>
    rw [Journal.lookEach] at completed ⊢
    cases failed : ((j.at' first).notifyAccess fs).thrown with
    | some e =>
      rw [Outcome.andThen_of_some (e := e) (by exact failed)] at completed
      cases completed
    | none =>
      rw [Outcome.andThen_of_none (by exact failed)] at completed ⊢
      have rest := ih completed
      simp only [Outcome.within_state] at rest ⊢
      by_cases same : path = first
      · subst same
        -- a second look at the same disk finds nothing new
        have again : (Journal.at' (Function.update j path
            (some ((j.at' path).notifyAccess fs).state)) path).notifyAccess fs =
            (j.at' path).notifyAccess fs := by
          rw [Journal.at', Function.update_self, Option.getD_some,
            FileAccessInfo.notifyAccess_again]
        rw [again, Function.update_self, failed] at rest
        rw [if_pos (List.mem_cons_self ..), failed]
        refine ⟨rfl, ?_⟩
        split at rest
        · exact rest.2
        · exact rest
      · have kept : Journal.at' (Function.update j first
            (some ((j.at' first).notifyAccess fs).state)) path = j.at' path := by
          rw [Journal.at', Function.update_of_ne same, Journal.at']
        rw [kept, Function.update_of_ne same] at rest
        simpa [same] using rest

/-- One more look at a file whose entry shows what was seen. -/
theorem notifyAccess_entryFor {fs : FileSystem} {path : WString} {seen : List AccessInfo}
    (completed : (((entryFor path seen).getD (new path)).notifyAccess fs).thrown = none) :
    some (((entryFor path seen).getD (new path)).notifyAccess fs).state =
      entryFor path (seen ++ FileHistory.observation fs path) := by
  have shown : (entryFor path seen).getD (new path) = ⟨collapse seen, false, path⟩ := by
    unfold entryFor
    split
    next none_ => rw [none_]; rfl
    · rfl
  rw [shown] at completed ⊢
  have info := FileHistory.notifyAccess_collapse fs (t := ⟨collapse seen, false, path⟩) rfl rfl
  rcases FileAccessInfo.notifyAccess_cases fs ⟨collapse seen, false, path⟩ with
    ⟨frozen, _⟩ | ⟨_, e, _, failed⟩ | ⟨_, x, sees, h⟩
  · cases frozen
  · rw [failed] at completed
    cases completed
  · have saw : FileHistory.observation fs path = [x] := by
      unfold FileHistory.observation
      rw [show collect fs path = .ok x from sees]
    rw [saw] at info ⊢
    rw [entryFor, if_neg (by simp), ← info, h, Outcome.ok_state]
    have whole : ∀ a : FileAccessInfo, a.finalized = false → a.path = path →
        a = ⟨a.info, false, path⟩ := by
      rintro ⟨info, finalized, named⟩ rfl rfl
      rfl
    exact congrArg some (whole _ (FileAccessInfo.record_finalized ..)
      (FileAccessInfo.record_path ..))

theorem spared_step {path : WString} (named : path ≠ []) {t : FileTable} {c : FileCall}
    {seen : List AccessInfo} (shows : t.entry? path = entryFor path seen)
    (spares : Spares path t c) :
    ObjectTable.entry? (t.after c) path = entryFor path (seen ++ looks path c) := by
  have journal : ObjectTable.entry? (t.after c) = (Journal.after t.entry? c).state := by
    rw [after_eq_answer, ← refines_answer t c]
    rfl
  have completed : (Journal.after t.entry? c).thrown = none := by
    rw [← refines_answer t c]
    exact spares.1
  rw [journal]
  cases c with
  | access fs ss =>
    simp only [Journal.after, Journal.access] at completed ⊢
    simp only [looks, List.contains_iff_mem]
    cases listed : filesNamed fs ss with
    | none => simpa using shows
    | some paths =>
      simp only [listed] at completed ⊢
      have spec := lookEach_completed fs completed path
      have entry : (Journal.name t.entry? paths).at' path =
          (entryFor path seen).getD (new path) := by
        unfold Journal.at' Journal.name
        split <;> simp [Journal.at', shows]
      by_cases member : path ∈ paths
      · rw [if_pos (by simp [member, named]), entry] at spec
        rw [if_pos member, spec.2, notifyAccess_entryFor spec.1]
      · rw [if_neg (by simp [member])] at spec
        rw [if_neg member, spec, List.append_nil, ← shows]
        simp [Journal.name, member]
  | rename fs oPath nPath =>
    have apart := spares.2
    simp only [looks, List.append_nil, Journal.after, Journal.rename]
    by_cases blank : oPath = [] ∨ nPath = []
    · rw [if_pos blank]
      exact shows
    · rw [if_neg blank]
      obtain ⟨old, target⟩ : purge oPath ≠ path ∧ purge nPath ≠ path := by
        simpa [not_or.mp blank] using apart
      split
      · rw [Outcome.within_state, Function.update_of_ne target.symm,
          Function.update_of_ne old.symm]
        exact shows
      · rw [Outcome.within_state, Function.update_of_ne old.symm]
        exact shows

theorem spared_run {path : WString} (named : path ≠ []) {t : FileTable} {calls : List FileCall}
    {seen : List AccessInfo} (shows : t.entry? path = entryFor path seen)
    (spares : EachStep FileTable.after (Spares path) t calls) :
    ObjectTable.entry? (run FileTable.after t calls) path =
      entryFor path (seen ++ calls.flatMap (looks path)) := by
  induction calls generalizing t seen with
  | nil => simpa using shows
  | cons c calls ih =>
    obtain ⟨now, later⟩ := (eachStep_cons FileTable.after _ t c calls).mp spares
    rw [List.flatMap_cons, ← List.append_assoc]
    exact ih (spared_step named shows now) later

/-- The history of a file that was not renamed is what the accesses that name it saw, in
their order, with repetitions left out; a file nobody named has no entry. -/
theorem history_of_spared_path (path : WString) (named : path ≠ []) (calls : List FileCall)
    (spares : EachStep FileTable.after (Spares path) FileTable.empty calls) :
    ObjectTable.entry? (run FileTable.after FileTable.empty calls) path =
      entryFor path (calls.flatMap (looks path)) :=
  spared_run (t := FileTable.empty) named
    (show FileTable.empty.entry? path = entryFor path [] from rfl) spares

/-- A disk that holds the one file `C:\a`, of three bytes. -/
def oneFileDisk : FileSystem :=
  { FileSystem.bare with
    fileExists := fun path => path = wide "C:\\a"
    length := fun _ => .ok 3 }

/-- `C:\a` is seen missing twice, another file is renamed, and then `C:\a` is there. -/
def threeCalls : List FileCall :=
  [.access .bare (ntPrefix ++ wide "C:\\a"), .access .bare (ntPrefix ++ wide "C:\\a"),
    .rename .bare (wide "C:\\b") (wide "C:\\c"),
    .access oneFileDisk (ntPrefix ++ wide "C:\\a")]

theorem history_of_spared_path_created :
    (ObjectTable.entry? (run FileTable.after FileTable.empty threeCalls) (wide "C:\\a")).map
      (fun t => t.info.map AccessInfo.size) = some [0, 3] := by
  rw [history_of_spared_path (wide "C:\\a") (by decide) threeCalls
    (by simp only [threeCalls, eachStep_cons, eachStep_nil, Spares]; decide)]
  decide

end GuestAgent.Guarantees.FileJournal
