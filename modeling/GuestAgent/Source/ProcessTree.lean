import GuestAgent.Library.ParentMap
import GuestAgent.Source.Report

/-!
The process tree of the report: ProcessHierarchy.cs, `GetHierarchy`, `ProcessNode` and the
`ToXml` methods.

`GetHierarchy` goes through `_processes`, makes a node for each pid it meets and hangs the
child under its parent. There is one node for a pid, so nodes refer to one another by pid. A
process that is not in `_pinfo` is looked up in the live system (`ProcessTable`), and the
version resource of a module is read from its file, which may be gone by then (`VersionInfo`).
-/
namespace GuestAgent.Source
open Library Library.ParentMap Library.Watched

/-- `FileVersionInfo.GetVersionInfo`, with what `DummySerialize` makes of its result. -/
abbrev VersionInfo := WString → Except Exn (List XmlNode)

def ModuleInfo.toXml (versionInfo : VersionInfo) (m : ModuleInfo) : Except Exn XmlNode := do
  let details ← versionInfo m.path
  pure (.element (wide "Module") []
    ([.leaf (wide "Sha1") (wide (m.sha1.getD "")), .leaf (wide "Md5") (wide (m.md5.getD "")),
      .leaf (wide "Name") m.name, .leaf (wide "Path") m.path] ++ details))

/-- Without a main module an empty element stands for it. -/
def ProcessInfo.toXml (versionInfo : VersionInfo) (info : ProcessInfo) : Except Exn XmlNode := do
  let mainModule ← match info.mainModule with
    | none => pure (.element (wide "Module") [] [])
    | some m => m.toXml versionInfo
  let modules ← info.modules.mapM (ModuleInfo.toXml versionInfo)
  pure (.element (wide "ProcessInfo") []
    [.leaf (wide "WindowTitle") (info.mainWindowTitle.getD []), mainModule,
      .element (wide "LoadedModules") [] modules])

inductive HierarchyError where
  /-- `Circular loop detected!`. -/
  | circularLoop
  | other (e : Exn)
  deriving DecidableEq, Repr

structure ProcessNode where
  pid : Pid
  info : ProcessInfo
  parent : Option Pid
  children : List Pid
  deriving DecidableEq, Repr

/-- `flatList`, in the order of insertion. -/
abbrev FlatList := List ProcessNode

namespace FlatList

def pids (flat : FlatList) : List Pid := flat.map ProcessNode.pid

def node? (flat : FlatList) (pid : Pid) : Option ProcessNode := flat.find? (fun n => n.pid = pid)

/-- The parents as the nodes say, `null` where there is no node. -/
def parentOf (flat : FlatList) (pid : Pid) : Option Pid := (flat.node? pid).bind ProcessNode.parent

/-- An assignment to fields of the node of `pid`. -/
def modify (flat : FlatList) (pid : Pid) (f : ProcessNode → ProcessNode) : FlatList :=
  flat.map fun n => if n.pid = pid then f n else n

/-- `TryGetValue`; where it fails, a new node is added. -/
def getOrAdd (infoOf : Pid → Except Exn ProcessInfo) (pid : Pid) (flat : FlatList) :
    Except HierarchyError FlatList :=
  if pid ∈ flat.pids then .ok flat
  else match infoOf pid with
    | .error e => .error (.other e)
    | .ok info => .ok (flat ++ [⟨pid, info, none, []⟩])

/-- Behind the search for loops in `SetParent`. -/
def bindParent (child parent : Pid) (flat : FlatList) : FlatList :=
  if flat.any (fun n => n.pid = parent ∧ child ∈ n.children) then flat
  else (flat.modify parent fun n => { n with children := n.children ++ [child] }).modify child
    fun n => { n with parent := some parent }

/-- `SetParent`, its loop watched for `bound` rounds. -/
def setParent (bound : Nat) (child parent : Pid) (flat : FlatList) :
    Watched HierarchyError FlatList := do
  let found ← climb flat.parentOf child bound (some parent)
  done (if found then .error .circularLoop else .ok (flat.bindParent child parent))

/-- The body of the first loop of `GetHierarchy`; the entry maps a child to its parent. -/
def link (bound : Nat) (infoOf : Pid → Except Exn ProcessInfo) (flat : FlatList)
    (e : Sigma fun _ : Pid => Pid) : Watched HierarchyError FlatList := do
  let flat ← done (flat.getOrAdd infoOf e.1)
  let flat ← done (flat.getOrAdd infoOf e.2)
  flat.setParent bound e.1 e.2

end FlatList

/-- A `Process` element. -/
inductive ProcessElement where
  | process (pid : Pid) (ppid : Option Pid) (info : XmlNode) (children : List ProcessElement)

namespace ProcessElement

def pid : ProcessElement → Pid
  | process pid _ _ _ => pid

mutual

/-- The pids of an element and the elements in it. -/
def pids : ProcessElement → List Pid
  | process pid _ _ children => pid :: pidsOf children

def pidsOf : List ProcessElement → List Pid
  | [] => []
  | e :: es => e.pids ++ pidsOf es

end

mutual

/-- The pids of a parent element and a child element of it. -/
def edges : ProcessElement → List (Pid × Pid)
  | process pid _ _ children => children.map (fun c => (pid, c.pid)) ++ edgesOf children

def edgesOf : List ProcessElement → List (Pid × Pid)
  | [] => []
  | e :: es => e.edges ++ edgesOf es

end

mutual

def xml : ProcessElement → XmlNode
  | process pid ppid info children =>
    .element (wide "Process")
      ((wide "pid", toWstring pid.toNat) ::
        ppid.toList.map fun parent => (wide "ppid", toWstring parent.toNat))
      [info, .element (wide "Children") [] (xmlOf children)]

def xmlOf : List ProcessElement → List XmlNode
  | [] => []
  | e :: es => e.xml :: xmlOf es

end

end ProcessElement

/-- `ProcessNode.ToXml`, to a depth of `bound`. -/
def FlatList.toXml (versionInfo : VersionInfo) (flat : FlatList) :
    Nat → ProcessNode → Watched HierarchyError ProcessElement
  | 0, _ => running
  | bound + 1, n => do
    let info ← done ((n.info.toXml versionInfo).mapError .other)
    let children ← (n.children.filterMap flat.node?).mapM (toXml versionInfo flat bound)
    done (.ok (.process n.pid n.parent info children))

namespace ProcessHierarchy

/-- The stored information, or that of the process now running under the pid. -/
def infoOf (h : ProcessHierarchy) (procs : ProcessTable) (pid : Pid) : Except Exn ProcessInfo :=
  match h.pinfo.lookup pid with
  | some info => .ok info
  | none => procs.fromPid pid

/-- `GetHierarchy`: the elements under `ProcessHistory`. -/
def getHierarchy (h : ProcessHierarchy) (procs : ProcessTable) (versionInfo : VersionInfo)
    (bound : Nat) : Watched HierarchyError (List ProcessElement) := do
  let flat ← h.processes.entries.foldlM (FlatList.link bound (h.infoOf procs)) []
  (flat.filter fun n => n.parent = none).mapM (FlatList.toXml versionInfo flat bound)

/-- The element `GetHierarchy` returns. -/
def historyElement (roots : List ProcessElement) : XmlNode :=
  .element (wide "ProcessHistory") [] (ProcessElement.xmlOf roots)

end ProcessHierarchy

end GuestAgent.Source
