import GuestAgent.Source.Events
import GuestAgent.Source.FileTable
import GuestAgent.Source.Registry

/-!
The guest's side of an event: NamedPipeServer.cs, `ProcessEvent`, from the parsed
document to the handlers of `ProgramStatus`. An exception of a handler leaves the
state as the handler left it, and the client without an answer.
-/
namespace GuestAgent.Source
open Library

/-- The application settings the switch reads. -/
structure Settings where
  logFs : Bool
  logReg : Bool
  deriving DecidableEq, Repr

/-- Settings.settings. -/
def Settings.default : Settings := ⟨true, true⟩

/-- What the guest sees of the machine while it handles one event. -/
structure Machine where
  casing : Casing
  fileSystem : FileSystem
  registry : Registry
  processes : ProcessTable
  onNext : Option Exn

/-- The case mapping of the invariant culture on the ASCII range. -/
def Casing.ascii : Casing where
  lower := fun c => if 65 ≤ c.toNat ∧ c.toNat ≤ 90 then c + 32 else c
  upper := fun c => if 97 ≤ c.toNat ∧ c.toNat ≤ 122 then c - 32 else c

/-- A machine without files, keys and processes, on which no observer throws. -/
def Machine.bare : Machine where
  casing := .ascii
  fileSystem := .bare
  registry := ⟨fun _ _ => .ok none⟩
  processes := ⟨fun _ => .error .argument, fun _ => .error .argument⟩
  onNext := none

/-- The part of `ProgramStatus` the events write. -/
structure GuestState where
  files : FileTable
  registry : RegMap
  pids : PidStatus

def GuestState.empty : GuestState := ⟨FileTable.empty, ∅, .empty⟩

/-- `xml.Attributes[name].InnerText`; a missing attribute is a null reference. -/
def XmlElement.innerText (xml : XmlElement) (name : WString) : Except Exn WString :=
  match xml.attributes.lookup name with
  | some text => .ok text
  | none => .error .nullReference

/-- The call the switch of `ProcessEvent` decides on; `ignore` is a case without one. -/
inductive Handler where
  | addPid (parentPid pid : Pid)
  | removePid (pid : Pid)
  | notifyFileAccess (path : WString)
  | notifyFileRename (oldPath newPath : WString)
  | notifyRegistryAccess (path : WString)
  | ignore
  deriving DecidableEq, Repr

def processHandler (xml : XmlElement) : Except Exn Handler := do
  let type ← xml.innerText wkProcessEventType
  if type = wkProcessEventTypeSpawned then
    let parentPid ← uintParse (← xml.innerText wkProcessEventParentPid)
    let pid ← uintParse (← xml.innerText wkProcessEventPid)
    .ok (.addPid parentPid pid)
  else if type = wkProcessEventTypeDead then
    let pid ← uintParse (← xml.innerText wkProcessEventPid)
    .ok (.removePid pid)
  else .ok .ignore

def fileHandler (xml : XmlElement) : Except Exn Handler := do
  let mode ← xml.innerText wkFileEventMode
  if mode = FileMode.created.text ∨ mode = FileMode.opened.text ∨ mode = FileMode.deleted.text then
    .ok (.notifyFileAccess (← xml.innerText wkFileEventPath))
  else if mode = wkFileRenamed then
    let oldPath ← xml.innerText wkFileEventOldPath
    let newPath ← xml.innerText wkFileEventNewPath
    .ok (.notifyFileRename oldPath newPath)
  else .ok .ignore

def registryHandler (xml : XmlElement) : Except Exn Handler := do
  let mode ← xml.innerText wkRegistryEventMode
  if mode = KeyMode.opened.text ∨ mode = KeyMode.created.text then
    .ok (.notifyRegistryAccess (← xml.innerText wkRegistryEventPath))
  else .ok .ignore

/-- `switch (xml.Name)`. -/
def selectHandler (settings : Settings) (xml : XmlElement) : Except Exn Handler :=
  if xml.name = wkProcessEvent then processHandler xml
  else if xml.name = wkFileEvent then
    if settings.logFs then fileHandler xml else .ok .ignore
  else if xml.name = wkRegistryEvent then
    if settings.logReg then registryHandler xml else .ok .ignore
  else .ok .ignore

namespace GuestState

def call (m : Machine) (s : GuestState) : Handler → Outcome GuestState Exn
  | .addPid parentPid pid =>
    (s.pids.addPid m.processes m.onNext parentPid pid).within (fun p => { s with pids := p })
  | .removePid pid => (s.pids.removePid m.onNext pid).within (fun p => { s with pids := p })
  | .notifyFileAccess path =>
    (s.files.notifyFileAccess m.fileSystem path).within (fun f => { s with files := f })
  | .notifyFileRename oldPath newPath =>
    (s.files.notifyFileRename m.fileSystem oldPath newPath).within
      (fun f => { s with files := f })
  | .notifyRegistryAccess path =>
    (s.registry.notifyRegistryAccess m.casing m.registry path).within
      (fun r => { s with registry := r })
  | .ignore => .ok s

/-- `ProcessEvent` up to the point where the ACK is written: it is, unless this throws.
`document` is what loading the received text gives. -/
def processEvent (settings : Settings) (m : Machine) (document : Except Exn XmlElement)
    (s : GuestState) : Outcome GuestState Exn :=
  match document with
  | .error e => .fail s e
  | .ok xml =>
    match selectHandler settings xml with
    | .error e => .fail s e
    | .ok handler => call m s handler

end GuestState

/-- The handler a hook's event is meant for. -/
def Event.handler (settings : Settings) : Event → Handler
  | .newPid parentPid childPid => .addPid parentPid childPid
  | .removedPid pid => .removePid pid
  | .fileAccess fullPath _ => if settings.logFs then .notifyFileAccess fullPath else .ignore
  | .fileRename oldPath newPath =>
    if settings.logFs then .notifyFileRename oldPath newPath else .ignore
  | .registryAccess fullPath _ =>
    if settings.logReg then .notifyRegistryAccess fullPath else .ignore

theorem processHandler_newPid (parentPid childPid : Pid) :
    processHandler (Event.newPid parentPid childPid).element = .ok (.addPid parentPid childPid) := by
  have type : (Event.newPid parentPid childPid).element.innerText wkProcessEventType =
      .ok wkProcessEventTypeSpawned := rfl
  have parent : (Event.newPid parentPid childPid).element.innerText wkProcessEventParentPid =
      .ok (toWstring parentPid.toNat) := rfl
  have child : (Event.newPid parentPid childPid).element.innerText wkProcessEventPid =
      .ok (toWstring childPid.toNat) := rfl
  simp [processHandler, type, parent, child, uintParse_toWstring, bind, Except.bind]

theorem processHandler_removedPid (pid : Pid) :
    processHandler (Event.removedPid pid).element = .ok (.removePid pid) := by
  have type : (Event.removedPid pid).element.innerText wkProcessEventType =
      .ok wkProcessEventTypeDead := rfl
  have text : (Event.removedPid pid).element.innerText wkProcessEventPid =
      .ok (toWstring pid.toNat) := rfl
  have other : wkProcessEventTypeDead ≠ wkProcessEventTypeSpawned := by decide
  simp [processHandler, type, text, other, uintParse_toWstring, bind, Except.bind]

theorem fileHandler_access (fullPath : WString) (mode : FileMode) :
    fileHandler (Event.fileAccess fullPath mode).element = .ok (.notifyFileAccess fullPath) := by
  have text : (Event.fileAccess fullPath mode).element.innerText wkFileEventMode = .ok mode.text := rfl
  have path : (Event.fileAccess fullPath mode).element.innerText wkFileEventPath = .ok fullPath := rfl
  have known : mode.text = FileMode.created.text ∨ mode.text = FileMode.opened.text ∨
      mode.text = FileMode.deleted.text := by cases mode <;> simp
  simp only [fileHandler, text, path, bind, Except.bind, if_pos known]

theorem fileHandler_rename (oldPath newPath : WString) :
    fileHandler (Event.fileRename oldPath newPath).element =
      .ok (.notifyFileRename oldPath newPath) := by
  have mode : (Event.fileRename oldPath newPath).element.innerText wkFileEventMode =
      .ok wkFileRenamed := rfl
  have old : (Event.fileRename oldPath newPath).element.innerText wkFileEventOldPath =
      .ok oldPath := rfl
  have new : (Event.fileRename oldPath newPath).element.innerText wkFileEventNewPath =
      .ok newPath := rfl
  have other : ¬ (wkFileRenamed = FileMode.created.text ∨ wkFileRenamed = FileMode.opened.text ∨
      wkFileRenamed = FileMode.deleted.text) := by decide
  simp only [fileHandler, mode, old, new, bind, Except.bind, if_neg other, if_true]

theorem registryHandler_access (fullPath : WString) (mode : KeyMode) :
    registryHandler (Event.registryAccess fullPath mode).element =
      .ok (.notifyRegistryAccess fullPath) := by
  have text : (Event.registryAccess fullPath mode).element.innerText wkRegistryEventMode =
      .ok mode.text := rfl
  have path : (Event.registryAccess fullPath mode).element.innerText wkRegistryEventPath =
      .ok fullPath := rfl
  have known : mode.text = KeyMode.opened.text ∨ mode.text = KeyMode.created.text := by
    cases mode <;> simp
  simp only [registryHandler, text, path, bind, Except.bind, if_pos known]

/-- Hook and guest agree on every event: each one sent reaches its handler. -/
theorem selectHandler_element (settings : Settings) (e : Event) :
    selectHandler settings e.element = .ok (e.handler settings) := by
  have file : wkFileEvent ≠ wkProcessEvent := by decide
  have reg : wkRegistryEvent ≠ wkProcessEvent ∧ wkRegistryEvent ≠ wkFileEvent := by decide
  cases e with
  | newPid parentPid childPid =>
    have name : (Event.newPid parentPid childPid).element.name = wkProcessEvent := rfl
    rw [selectHandler, if_pos name, processHandler_newPid]
    rfl
  | removedPid pid =>
    have name : (Event.removedPid pid).element.name = wkProcessEvent := rfl
    rw [selectHandler, if_pos name, processHandler_removedPid]
    rfl
  | fileAccess fullPath mode =>
    have name : (Event.fileAccess fullPath mode).element.name = wkFileEvent := rfl
    rw [selectHandler, name, if_neg file, if_pos rfl, fileHandler_access, Event.handler]
    split <;> rfl
  | fileRename oldPath newPath =>
    have name : (Event.fileRename oldPath newPath).element.name = wkFileEvent := rfl
    rw [selectHandler, name, if_neg file, if_pos rfl, fileHandler_rename, Event.handler]
    split <;> rfl
  | registryAccess fullPath mode =>
    have name : (Event.registryAccess fullPath mode).element.name = wkRegistryEvent := rfl
    rw [selectHandler, name, if_neg reg.1, if_neg reg.2, if_pos rfl, registryHandler_access,
      Event.handler]
    split <;> rfl

/-- Handling the event of a hook is one call of its handler. -/
theorem processEvent_element (settings : Settings) (m : Machine) (e : Event) (s : GuestState) :
    s.processEvent settings m (.ok e.element) = s.call m (e.handler settings) := by
  simp only [GuestState.processEvent, selectHandler_element]

/-- The guest after it has handled the events of a hook in turn, whether or not it answered. -/
def GuestState.deliver (settings : Settings) (m : Machine) (s : GuestState) (events : List Event) :
    GuestState :=
  events.foldl (fun s e => (s.processEvent settings m (.ok e.element)).state) s

end GuestAgent.Source
