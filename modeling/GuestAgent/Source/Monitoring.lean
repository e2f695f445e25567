import GuestAgent.Source.EventServer
import GuestAgent.Source.EventText
import GuestAgent.Source.Hooks

/-!
Monitored programs and event-server threads at work together: dllmain.cpp,
`sendToEventPipe` and the file hooks; NamedPipeServer.cs, `EventSrv` and
`ProcessEvent`; ProgramStatus.cs, `NotifyFileAccess`, `NotifyFileRename` and
`FileAccessInfo.NotifyAccess`.

Any number of hooked threads `T` and server threads `S` take turns. A hook sends its
events one after the other and goes on to the next, or to the real call, only after
the server's answer arrived; an answer lost on the way, or a handler that throws,
makes it send the event again. What a server makes of the bytes of an event is a
parameter of the step. A server thread edits the map under `_filesLock` in one step;
behind it a renamed object gets its new path, and each file is looked at under the lock
of its object, one call of the file system at a time.
-/
namespace GuestAgent.Source
open Library

/-- What the calls of `NotifyAccess` find out about an existing file. -/
structure Content where
  size : Int
  hashes : Hashes
  fuzzyHash : Option String
  deriving DecidableEq, Repr

abbrev Disk := WString → Option Content

/-- The record of a file that does not change while it is looked at. -/
def describe (path : WString) : Option Content → AccessInfo
  | none => ⟨false, 0, ⟨none, none⟩, none, path⟩
  | some c => ⟨true, c.size, c.hashes, c.fuzzyHash, path⟩

/-- The file system of one moment. The hash functions answer for a missing file as well;
directories are listed by `bare`, since wildcards are given their own view. -/
def Disk.view (d : Disk) : FileSystem :=
  { FileSystem.bare with
    fileExists := fun path => (d path).isSome
    length := fun path => match d path with
      | some c => .ok c.size
      | none => .error .fileNotFound
    calculateHash := fun path => match d path with
      | some c => c.hashes
      | none => ⟨none, none⟩
    calculateFuzzyHash := fun path => match d path with
      | some c => c.fuzzyHash
      | none => some "INVALID" }

theorem collect_view (d : Disk) (path : WString) :
    collect d.view path = .ok (describe path (d path)) := by
  cases h : d path <;> simp [collect, Disk.view, describe, h, bind, Except.bind]

/-- How far `NotifyAccess` got in filling the struct; the field `path` comes first. -/
inductive Reading where
  | start
  | named (path : WString)
  | present (path : WString)
  | sized (path : WString) (size : Int)
  | hashed (path : WString) (size : Int) (hashes : Hashes)
  | done (x : AccessInfo)

/-- The next step; each one reads the property `Path` anew. -/
def Reading.next (fs : FileSystem) (current : WString) : Reading → Except Exn Reading
  | .start => .ok (.named current)
  | .named path =>
    .ok (if fs.fileExists current then .present path
      else .done ⟨false, 0, ⟨none, none⟩, none, path⟩)
  | .present path => do .ok (.sized path (← fs.length current))
  | .sized path size => .ok (.hashed path size (fs.calculateHash current))
  | .hashed path size hashes =>
    .ok (.done ⟨true, size, hashes, fs.calculateFuzzyHash current, path⟩)
  | .done x => .ok (.done x)

/-- On a disk that stands still the steps together are `collect`. -/
theorem reading_collect (fs : FileSystem) (path : WString) :
    Reading.next fs path .start >>= Reading.next fs path >>= Reading.next fs path >>=
      Reading.next fs path >>= Reading.next fs path = Reading.done <$> collect fs path := by
  simp only [Reading.next, collect, bind, Except.bind]
  cases fs.fileExists path with
  | false => rfl
  | true => cases fs.length path <;> rfl

/-- A call of a monitored program, with the names of the files the kernel acts on; a file may have
many names. The rename of a file is a call of `NtSetInformationFile`; other calls of it write through
a handle. -/
inductive NtCall where
  | openFile (mode : FileMode) (p : Process) (mask : AccessMask) (oa : ObjectAttributes)
      (targets : List WString)
  | deleteFile (p : Process) (oa : ObjectAttributes) (targets : List WString)
  | renameFile (p : Process) (handle : Handle) (info : RenameInformation) (handles : HandleMap)
      (targets : List WString)

namespace NtCall

def targets : NtCall → List WString
  | .openFile _ _ _ _ targets => targets
  | .deleteFile _ _ targets => targets
  | .renameFile _ _ _ _ targets => targets

def before : NtCall → List Event
  | .openFile mode p mask oa _ => openEvents mode p mask oa
  | .deleteFile .. | .renameFile .. => []

def after (succeeded : Bool) : NtCall → List Event
  | .openFile .. => []
  | .deleteFile p oa _ => deleteEvents p oa
  | .renameFile p handle info handles _ =>
    if succeeded then (myNtSetInformationFile p handle fileRenameInformation info 0 handles).after
    else []

/-- These are the events of the hooks. -/
theorem before_after_openFile (mode : FileMode) (p : Process) (mask : AccessMask)
    (oa : ObjectAttributes) (targets : List WString) (succeeded : Bool) (answer : OpenAnswer)
    (handles : HandleMap) :
    before (.openFile mode p mask oa targets) = (openHook mode p mask oa answer handles).before ∧
    after succeeded (.openFile mode p mask oa targets) =
      (openHook mode p mask oa answer handles).after :=
  ⟨rfl, rfl⟩

theorem before_after_deleteFile (p : Process) (oa : ObjectAttributes) (targets : List WString)
    (succeeded : Bool) (handles : HandleMap) :
    before (.deleteFile p oa targets) = (myNtDeleteFile p oa handles).before ∧
    after succeeded (.deleteFile p oa targets) = (myNtDeleteFile p oa handles).after :=
  ⟨rfl, rfl⟩

theorem before_after_renameFile (p : Process) (handle : Handle) (info : RenameInformation)
    (handles : HandleMap) (targets : List WString) (status : NtStatus) :
    before (.renameFile p handle info handles targets) =
      (myNtSetInformationFile p handle fileRenameInformation info status handles).before ∧
    after (decide (status = 0)) (.renameFile p handle info handles targets) =
      (myNtSetInformationFile p handle fileRenameInformation info status handles).after := by
  refine ⟨rfl, ?_⟩
  by_cases succeeded : status = 0
  · simp [after, succeeded]
  · simp [after, succeeded, myNtSetInformationFile]

end NtCall

/-- A hooked thread: `called` tells whether the real call was made, `events` are still to
be acknowledged, and `waiting` means a server has the first of them. -/
inductive Client where
  | idle
  | sending (call : NtCall) (called : Bool) (events : List Event) (waiting : Bool)

/-- The client once its server is done: an answer that arrives ends the retry loop. -/
def Client.answered (delivered : Bool) : Client → Client
  | .sending call called (e :: events) true =>
    .sending call called (if delivered then events else e :: events) false
  | c => c

/-- What a handler still has to do once `_filesLock` is released. -/
inductive Todo where
  | look (refs : List Ref)
  | rename (r : Ref) (nPath : WString)

def Todo.refs : Todo → List Ref
  | .look refs => refs
  | .rename r _ => [r]

/-- The part of the file handlers under `_filesLock`. -/
def trackHandler (fs : FileSystem) (files : FileTable) : Handler → FileTable × Todo
  | .notifyFileAccess ss =>
    match filesNamed fs ss with
    | some listed =>
      let tracked := FileTable.track files listed
      (tracked.1, .look tracked.2)
    | none => (files, .look [])
  | .notifyFileRename oPath nPath =>
    if oPath = [] then (files, .look [])
    else if nPath = [] then (files, .look [])
    else match files.ref? (purge oPath) with
      | some r => (files.rekey (purge oPath) (purge nPath), .rename r (purge nPath))
      | none => (files.addNew (purge oPath) (.new oPath), .rename files.next (purge nPath))
  | _ => (files, .look [])

/-- The rest of them. -/
def Todo.finish (fs : FileSystem) (files : FileTable) : Todo → Outcome FileTable Exn
  | .look refs => FileTable.notifyEach fs refs files
  | .rename r nPath => FileTable.call files r (FileAccessInfo.notifyRenamedTo fs nPath)

/-- The two parts together are the handlers. -/
theorem finish_notifyFileAccess (fs : FileSystem) (files : FileTable) (ss : WString) :
    (trackHandler fs files (.notifyFileAccess ss)).2.finish fs
      (trackHandler fs files (.notifyFileAccess ss)).1 = files.notifyFileAccess fs ss := by
  simp only [trackHandler, FileTable.notifyFileAccess]
  cases filesNamed fs ss <;> rfl

theorem finish_notifyFileRename (fs : FileSystem) (files : FileTable) (oPath nPath : WString) :
    (trackHandler fs files (.notifyFileRename oPath nPath)).2.finish fs
      (trackHandler fs files (.notifyFileRename oPath nPath)).1 =
        files.notifyFileRename fs oPath nPath := by
  simp only [trackHandler, FileTable.notifyFileRename]
  split_ifs
  · rfl
  · rfl
  · cases files.ref? (purge oPath) <;> rfl

inductive Server (T : Type) where
  | free
  | received (t : T) (e : Event)
  | notifying (t : T) (e : Event) (todo : Todo)
  | reading (t : T) (e : Event) (r : Ref) (refs : List Ref) (got : Reading)

namespace Server

variable {T : Type}

def serves : Server T → Option (T × Event)
  | .free => none
  | .received t e => some (t, e)
  | .notifying t e _ => some (t, e)
  | .reading t e _ _ _ => some (t, e)

/-- The objects still to be looked at. -/
def pending : Server T → List Ref
  | .notifying _ _ todo => todo.refs
  | .reading _ _ r refs _ => r :: refs
  | _ => []

end Server

/-- `touched` marks the paths on which a monitored call has taken effect. -/
structure System (T S : Type) where
  disk : Disk
  touched : WString → Bool
  files : FileTable
  owner : Ref → Option S
  clients : T → Client
  servers : S → Server T

/-- A step; `changes` is what a call that succeeded did to the disk. -/
inductive Label (T S : Type) where
  | enter (t : T) (call : NtCall)
  | send (t : T) (sv : S)
  | real (t : T) (changes : Option (List (WString × Option Content)))
  | leave (t : T)
  | modify (path : WString) (content : Option Content)
  | track (sv : S) (fs : FileSystem)
  | move (sv : S)
  | lock (sv : S)
  | read (sv : S)
  | record (sv : S)
  | fail (sv : S)
  | answer (sv : S) (delivered : Bool)

/-- What a server makes of the bytes a hook sends for an event. -/
def delivered (load : WString → Except Exn XmlElement) (e : Event) : Except Exn Handler :=
  receivedHandler load .default (messageBytes (nodeOutput e.element))

namespace System

variable {T S : Type} [DecidableEq T] [DecidableEq S]

def initial (disk : Disk) : System T S :=
  ⟨disk, fun _ => false, FileTable.empty, fun _ => none, fun _ => .idle, fun _ => .free⟩

def setClient (s : System T S) (t : T) (c : Client) : System T S :=
  { s with clients := Function.update s.clients t c }

def setServer (s : System T S) (sv : S) (v : Server T) : System T S :=
  { s with servers := Function.update s.servers sv v }

def setOwner (s : System T S) (r : Ref) (o : Option S) : System T S :=
  { s with owner := Function.update s.owner r o }

/-- The server leaves its client, with or without an answer. -/
def release (s : System T S) (sv : S) (t : T) (delivered : Bool) : System T S :=
  (s.setServer sv .free).setClient t ((s.clients t).answered delivered)

/-- A call on `path` took effect: the file is now as `content` says. -/
def touch (s : System T S) (path : WString) (content : Option Content) : System T S :=
  { s with
    disk := Function.update s.disk path content
    touched := Function.update s.touched path true }

def touchAll (s : System T S) (changes : List (WString × Option Content)) : System T S :=
  changes.foldl (fun s c => s.touch c.1 c.2) s

/-- `none` when the step is not possible in this state. `receive` is what loading the bytes of an
event and the switch behind it come to. -/
def step (receive : Event → Except Exn Handler) (s : System T S) : Label T S → Option (System T S)
  | .enter t call =>
    match s.clients t with
    | .idle => some (s.setClient t (.sending call false call.before false))
    | _ => none
  | .send t sv =>
    match s.clients t, s.servers sv with
    | .sending call called (e :: events) false, .free =>
      some ((s.setClient t (.sending call called (e :: events) true)).setServer sv (.received t e))
    | _, _ => none
  -- the kernel does with the files of the call what it likes, unless it fails
  | .real t changes =>
    match s.clients t with
    | .sending call false [] false =>
      match changes with
      | none => some (s.setClient t (.sending call true (call.after false) false))
      | some changes =>
        if changes.all fun c => call.targets.contains c.1 then
          some ((s.setClient t (.sending call true (call.after true) false)).touchAll changes)
        else none
    | _ => none
  | .leave t =>
    match s.clients t with
    | .sending _ true [] false => some (s.setClient t .idle)
    | _ => none
  -- writing through a handle of a call that took effect
  | .modify path content =>
    if s.touched path then some (s.touch path content) else none
  | .track sv fs =>
    match s.servers sv with
    | .received t e =>
      match receive e with
      | .error _ => none
      | .ok handler =>
        let tracked := trackHandler fs s.files handler
        some { s.setServer sv (.notifying t e tracked.2) with files := tracked.1 }
    | _ => none
  -- `Path = nPath`, in front of the lock
  | .move sv =>
    match s.servers sv with
    | .notifying t e (.rename r nPath) =>
      some { s.setServer sv (.notifying t e (.look [r])) with
        files := s.files.update r fun a => { a with path := nPath } }
    | _ => none
  | .lock sv =>
    match s.servers sv with
    | .notifying t e (.look (r :: refs)) =>
      match s.owner r with
      | some _ => none
      | none =>
        if (s.files.objects r).finalized then some (s.setServer sv (.notifying t e (.look refs)))
        else some ((s.setServer sv (.reading t e r refs .start)).setOwner r (some sv))
    | _ => none
  | .read sv =>
    match s.servers sv with
    | .reading t e r refs got =>
      match got.next s.disk.view (s.files.objects r).path with
      | .ok further => some (s.setServer sv (.reading t e r refs further))
      | .error _ => some ((s.release sv t false).setOwner r none)
    | _ => none
  | .record sv =>
    match s.servers sv with
    | .reading t e r refs (.done x) =>
      let s' := (s.setServer sv (.notifying t e (.look refs))).setOwner r none
      some { s' with files := s.files.update r (·.record x) }
    | _ => none
  -- any other exception of the handler, or a text that cannot be loaded
  | .fail sv =>
    match s.servers sv with
    | .received t _ => some (s.release sv t false)
    | .notifying t _ _ => some (s.release sv t false)
    | .reading t _ r _ _ => some ((s.release sv t false).setOwner r none)
    | .free => none
  | .answer sv delivered =>
    match s.servers sv with
    | .notifying t _ (.look []) => some (s.release sv t delivered)
    | _ => none

end System

end GuestAgent.Source
