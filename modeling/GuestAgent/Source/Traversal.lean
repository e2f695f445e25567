import GuestAgent.Library.LiveView
import GuestAgent.Source.EventServer
import GuestAgent.Source.RegistryReport

/-!
The traversal of the two logs by the report, next to threads that still serve events:
ProgramStatus.cs, `RegAccessLog`, `FileAccessLog` and `CheckoutHistory`, and LogicThread.cs, the
two loops of `PrepareReport` with their bodies.

The getters hold their lock while they return the `Values` of the dictionary, which is a view and
not a copy, and `NamedPipeServer.Stop` clears a flag the threads read between two events. So the
traversal runs without a lock: it may make a step between any two modifications of a dictionary,
also between the `Remove` and the `Add` of one rename. `CheckoutHistory` returns the list of the
records itself, and raises the flag that freezes it outside the lock of the object.

A label is a step of the report, of one of its bodies or of a server thread; what the disk, the
registry and `strings.exe` answer comes with it. The document is built as if by one thread, and
the strings are left out of it.
-/
namespace GuestAgent.Source
open Library

/-- The dictionary after one modification of it. -/
inductive DictionaryEdit where
  | registry (m : RegMap)
  | files (map : AList (fun _ : WString => Ref))

namespace FileTable

/-- The `Add` calls of the `foreach` in `NotifyFileAccess`. -/
def trackEdits (t : FileTable) : List WString → List DictionaryEdit
  | [] => []
  | s :: files =>
    if s = [] then trackEdits t files
    else match t.ref? s with
      | some _ => trackEdits t files
      | none =>
        let added := t.addNew s (.new s)
        .files added.map :: trackEdits added files

def accessEdits (fs : FileSystem) (ss : WString) (t : FileTable) : List DictionaryEdit :=
  match filesNamed fs ss with
  | none => []
  | some files => trackEdits t files

/-- A known file is taken out and stored again. -/
def renameEdits (oPath nPath : WString) (t : FileTable) : List DictionaryEdit :=
  if oPath = [] then []
  else if nPath = [] then []
  else match t.ref? (purge oPath) with
    | some r =>
      [.files (t.map.erase (purge oPath)),
        .files ((t.map.erase (purge oPath)).insert (purge nPath) r)]
    | none => [.files (t.map.insert (purge oPath) t.next)]

end FileTable

def RegMap.edits (c : Casing) (reg : Registry) (regPath : WString) (m : RegMap) :
    List DictionaryEdit :=
  if c.toLower regPath ∈ m then []
  else if c.toLower regPath ∈ (m.notifyRegistryAccess c reg regPath).state then
    [.registry (m.notifyRegistryAccess c reg regPath).state]
  else []

/-- The modifications a call makes, in order. -/
def Handler.edits (m : Machine) (s : GuestState) : Handler → List DictionaryEdit
  | .notifyFileAccess path => s.files.accessEdits m.fileSystem path
  | .notifyFileRename oldPath newPath => s.files.renameEdits oldPath newPath
  | .notifyRegistryAccess path => s.registry.edits m.casing m.registry path
  | _ => []

/-! ### The bodies of the second loop -/

structure FileFlags where
  newfile : Bool
  modifiedfile : Bool
  deletedfile : Bool
  leftOver : Bool
  deriving DecidableEq, Repr

/-- The `File` element, and the element it is appended to. -/
structure FileElement where
  path : WString
  flags : FileFlags
  history : List AccessInfo
  bucket : ReportBucket
  deriving DecidableEq, Repr

/-- How far the body came for a file, with its local variables. -/
inductive FileBody where
  | start
  | lookedAt
  | frozen
  | sawNew (newfile : Bool)
  | sawModified (newfile modifiedfile : Bool)
  | sawDeleted (newfile modifiedfile deletedfile : Bool)
  | sawLeftOver (flags : FileFlags)
  | named (flags : FileFlags) (path : WString)
  | listing (flags : FileFlags) (path : WString) (e : Enumerator) (history : List AccessInfo)
  | listed (flags : FileFlags) (path : WString) (history : List AccessInfo)
  | done (element : FileElement)
  | failed
  deriving DecidableEq, Repr

/-- The records as a list that counts its modifications: they are only ever added to. -/
def FileAccessInfo.records (t : FileAccessInfo) : Versioned AccessInfo := ⟨t.info, t.info.length⟩

/-- The next step of a body. `strings` is what running `strings.exe` comes to. -/
def FileBody.next (performStringAnalysis : Bool) (fs : FileSystem) (strings : Except Exn Unit)
    (t : FileAccessInfo) : FileBody → FileAccessInfo × FileBody
  -- `CheckoutHistory`, whose flag is raised behind the lock
  | .start =>
    match (t.notifyAccess fs).thrown with
    | none => ((t.notifyAccess fs).state, .lookedAt)
    | some _ => ((t.notifyAccess fs).state, .failed)
  | .lookedAt => ({ t with finalized := true }, .frozen)
  | .frozen => (t, .sawNew t.isNew)
  | .sawNew newfile => (t, .sawModified newfile t.isModified)
  | .sawModified newfile modifiedfile => (t, .sawDeleted newfile modifiedfile t.isDeleted)
  | .sawDeleted newfile modifiedfile deletedfile =>
    (t, .sawLeftOver ⟨newfile, modifiedfile, deletedfile, t.leftOver⟩)
  | .sawLeftOver flags => (t, .named flags t.path)
  | .named flags path => (t, .listing flags path t.records.getEnumerator [])
  | .listing flags path e history =>
    match t.records.moveNext e with
    | .current record =>
      (t, .listing flags path ⟨e.version, e.index + 1⟩ (history ++ [record]))
    | .ended => (t, .listed flags path history)
    | .modified => (t, .failed)
  | .listed flags path history =>
    if t.leftOver then
      if performStringAnalysis then
        match strings with
        | .error _ => (t, .failed)
        | .ok () => (t, .done ⟨path, flags, history, .newFiles⟩)
      else (t, .done ⟨path, flags, history, .newFiles⟩)
    else if flags.deletedfile then (t, .done ⟨path, flags, history, .deletedFiles⟩)
    else if flags.modifiedfile then (t, .done ⟨path, flags, history, .modifiedFiles⟩)
    else (t, .done ⟨path, flags, history, .otherAccessFiles⟩)
  | .done element => (t, .done element)
  | .failed => (t, .failed)

/-! ### The report -/

/-- Where `PrepareReport` is. `Parallel.ForEach` starts no body after one has thrown, but waits for
those it has started; its one enumerator is gone once it ended. -/
inductive ReportPhase where
  | waiting
  | inRegistry (e : Enumerator) (keys : List (RegAccessInfo × Option XmlNode))
  | inKey (e : Enumerator) (keys : List (RegAccessInfo × Option XmlNode)) (k : RegAccessInfo)
  | registryDone (keys : List (RegAccessInfo × Option XmlNode))
  | counted (keys : List (RegAccessInfo × Option XmlNode)) (count : Nat)
  | inFiles (keys : List (RegAccessInfo × Option XmlNode)) (count : Nat) (e : Option Enumerator)
      (bodies : List (Ref × FileBody))
  | stopping (bodies : List (Ref × FileBody))
  | finished (keys : List (RegAccessInfo × Option XmlNode)) (count : Nat)
      (files : List (Ref × FileElement))
  | threw

/-- The dictionaries, the objects of the files, whether a server is behind the `lock` of one and
going to look at the file, and the report. -/
structure ReportWorld where
  registry : Versioned RegAccessInfo
  files : Versioned Ref
  objects : Ref → FileAccessInfo
  inside : Ref → Bool
  phase : ReportPhase

inductive ReportLabel where
  | report
  | key (looks : KeyLooks)
  | body (i : Nat) (fs : FileSystem) (strings : Except Exn Unit)
  -- steps of server threads
  | edit (edit : DictionaryEdit)
  | assign (r : Ref) (path : WString)
  | enter (r : Ref)
  | record (r : Ref) (fs : FileSystem)

/-- The settings the report is made with. -/
structure ReportSettings where
  casing : Casing
  performStringAnalysis : Bool

/-- What a body that is through has made. -/
def FileBody.element? : FileBody → Option FileElement
  | .done element => some element
  | _ => none

/-- A body that threw, that is through or that was not started. -/
def FileBody.rests : FileBody → Bool
  | .start | .done _ | .failed => true
  | _ => false

/-- The elements of the bodies, if all of them are through. -/
def elements? (bodies : List (Ref × FileBody)) : Option (List (Ref × FileElement)) :=
  bodies.mapM fun (r, body) => body.element?.map fun element => (r, element)

namespace ReportWorld

/-- The dictionaries of a guest, before the report looks at them and with no server at work. -/
def ofState (s : GuestState) : ReportWorld where
  registry := ⟨s.registry.entries.map (·.2), 0⟩
  files := ⟨s.files.map.entries.map (·.2), 0⟩
  objects := s.files.objects
  inside := fun _ => false
  phase := .waiting

def setObject (w : ReportWorld) (r : Ref) (t : FileAccessInfo) : ReportWorld :=
  { w with objects := Function.update w.objects r t }

def serve (w : ReportWorld) : DictionaryEdit → ReportWorld
  | .registry m => { w with registry := w.registry.modify (m.entries.map (·.2)) }
  | .files map => { w with files := w.files.modify (map.entries.map (·.2)) }

/-- A `foreach` makes its enumerator and moves it until it ended; `Parallel.ForEach` moves its one
enumerator under a lock of its own. `Count` of a `ValueCollection` is the count of the
dictionary. -/
def report (w : ReportWorld) : ReportPhase :=
  match w.phase with
  | .waiting => .inRegistry w.registry.getEnumerator []
  | .inRegistry e keys =>
    match w.registry.moveNext e with
    | .current k => .inKey ⟨e.version, e.index + 1⟩ keys k
    | .ended => .registryDone keys
    | .modified => .threw
  | .registryDone keys => .counted keys w.files.content.length
  | .counted keys count => .inFiles keys count (some w.files.getEnumerator) []
  | .inFiles keys count (some e) bodies =>
    match w.files.moveNext e with
    | .current file =>
      .inFiles keys count (some ⟨e.version, e.index + 1⟩) (bodies ++ [(file, .start)])
    | .ended => .inFiles keys count none bodies
    | .modified => .stopping bodies
  | .inFiles keys count none bodies =>
    match elements? bodies with
    | some files => .finished keys count files
    | none => .inFiles keys count none bodies
  | .stopping bodies => if bodies.all (·.2.rests) then .threw else .stopping bodies
  | phase => phase

/-- The body of the first loop. -/
def key (s : ReportSettings) (w : ReportWorld) (looks : KeyLooks) : ReportPhase :=
  match w.phase with
  | .inKey e keys k =>
    match keyTurn s.casing k looks with
    | .ok element => .inRegistry e (keys ++ [(k, element)])
    | .error _ => .threw
  | phase => phase

/-- The phase with a body that came further. -/
def advance (i : Nat) (r : Ref) (body : FileBody) : ReportPhase → ReportPhase
  | .inFiles keys count e bodies =>
    if body = .failed then .stopping (bodies.set i (r, body))
    else .inFiles keys count e (bodies.set i (r, body))
  | .stopping bodies => .stopping (bodies.set i (r, body))
  | phase => phase

def bodies : ReportPhase → List (Ref × FileBody)
  | .inFiles _ _ _ bodies => bodies
  | .stopping bodies => bodies
  | _ => []

/-- A step of the `i`-th body; `NotifyAccess` waits for the lock. -/
def body (s : ReportSettings) (w : ReportWorld) (i : Nat) (fs : FileSystem)
    (strings : Except Exn Unit) : ReportWorld :=
  match (bodies w.phase)[i]? with
  | none => w
  | some (r, b) =>
    if b = .start ∧ w.inside r = true then w
    else
      let next := b.next s.performStringAnalysis fs strings (w.objects r)
      { w.setObject r next.1 with phase := advance i r next.2 w.phase }

def step (s : ReportSettings) (w : ReportWorld) : ReportLabel → ReportWorld
  | .report => { w with phase := w.report }
  | .key looks => { w with phase := w.key s looks }
  | .body i fs strings => w.body s i fs strings
  | .edit edit => w.serve edit
  -- `Path`, also of an object that is not in the dictionary yet
  | .assign r path => w.setObject r { w.objects r with path := path }
  -- the `lock` of `NotifyAccess` and the look at the flag behind it
  | .enter r =>
    if w.inside r = true ∨ (w.objects r).finalized = true then w
    else { w with inside := Function.update w.inside r true }
  -- the rest of it, up to the end of the `lock`
  | .record r fs =>
    if w.inside r = true then
      match collect fs (w.objects r).path with
      | .ok x =>
        { w.setObject r ((w.objects r).record x) with inside := Function.update w.inside r false }
      | .error _ => { w with inside := Function.update w.inside r false }
    else w

end ReportWorld

/-! ### The modifications of a call -/

/-- The dictionaries after some modifications. -/
def applyEdits (d : RegMap × AList (fun _ : WString => Ref)) (edits : List DictionaryEdit) :
    RegMap × AList (fun _ : WString => Ref) :=
  edits.foldl (fun d edit => match edit with
    | .registry m => (m, d.2)
    | .files map => (d.1, map)) d

theorem applyEdits_track (m : RegMap) (t : FileTable) (files : List WString) :
    applyEdits (m, t.map) (t.trackEdits files) = (m, (t.track files).1.map) := by
  induction files generalizing t with
  | nil => rfl
  | cons s files ih =>
    rw [FileTable.trackEdits, FileTable.track]
    by_cases blank : s = []
    · rw [if_pos blank, if_pos blank]
      exact ih t
    · rw [if_neg blank, if_neg blank]
      cases t.ref? s with
      | some r => exact ih t
      | none => exact ih (t.addNew s (.new s))

/-- The modifications of a call leave the dictionaries the call leaves. -/
theorem applyEdits_call (m : Machine) (s : GuestState) (h : Handler) :
    applyEdits (s.registry, s.files.map) (h.edits m s) =
      ((s.call m h).state.registry, (s.call m h).state.files.map) := by
  cases h with
  | addPid | removePid | ignore => rfl
  | notifyFileAccess path =>
    simp only [Handler.edits, FileTable.accessEdits, GuestState.call, Outcome.within_state,
      FileTable.notifyFileAccess]
    cases filesNamed m.fileSystem path with
    | none => rfl
    | some files =>
      rw [applyEdits_track, (FileTable.notifyEach_grows m.fileSystem _ _).map]
  | notifyFileRename oldPath newPath =>
    simp only [Handler.edits, FileTable.renameEdits, GuestState.call, Outcome.within_state,
      FileTable.notifyFileRename]
    split_ifs
    · rfl
    · rfl
    · cases known : s.files.ref? (purge oldPath) with
      | some r => simp [applyEdits, FileTable.call, ObjectTable.update, ObjectTable.map_rekey known]
      | none => rfl
  | notifyRegistryAccess path =>
    simp only [Handler.edits, RegMap.edits, GuestState.call, Outcome.within_state]
    rcases RegMap.notifyRegistryAccess_cases m.casing m.registry path s.registry with
      ⟨_, h⟩ | ⟨_, _, ⟨_, _, h⟩ | ⟨_, _, ⟨_, h⟩ | ⟨_, ⟨_, _, h⟩ | ⟨_, _, h⟩⟩⟩⟩ <;>
      rw [h] <;> split_ifs <;> simp_all [applyEdits]

end GuestAgent.Source
