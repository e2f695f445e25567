import Mathlib.Data.List.ModifyLast
import GuestAgent.Source.Events
import GuestAgent.Source.FileTable
import GuestAgent.Source.JobExecution

/-!
The report of a job: LogicThread.cs, `PrepareReport`, `ReportWork` and the loop in `work` that
repeats them until they go through; ProgramLogger.cs as far as the report reads the log.

`PrepareReport` writes into one document, the installer log, that outlives a failed attempt. An
attempt is the list of its effects on what attempts share. An exception between two effects
leaves those before it done, so a failed attempt is such a list cut off somewhere. What the
report is made from and no attempt changes is the `ReportData`; the serialised system objects,
the process tree and the registry differences are parts of it.
-/
namespace GuestAgent.Source
open Library

inductive XmlNode where
  | element (name : WString) (attributes : List (WString × WString)) (children : List XmlNode)
  | text (value : WString)

namespace XmlNode

def name : XmlNode → WString
  | element name _ _ => name
  | text _ => []

def appendChild : (node child : XmlNode) → XmlNode
  | element name attributes children, child => element name attributes (children ++ [child])
  | text value, _ => text value

/-- An element with its `InnerText` set. -/
def leaf (name value : WString) : XmlNode := element name [] [text value]

@[simp] theorem leaf_name (name value : WString) : (leaf name value).name = name := rfl

@[simp] theorem appendChild_name (node child : XmlNode) :
    (node.appendChild child).name = node.name := by
  cases node <;> rfl

end XmlNode

/-- `bool.ToString`. -/
def boolText (b : Bool) : WString := if b then wide "True" else wide "False"

/-- `long.ToString`. -/
def intText (n : Int) : WString :=
  if n < 0 then wide "-" ++ toWstring n.natAbs else toWstring n.natAbs

/-- `Enum.GetName(typeof(InteractionResult), result)`. -/
def InteractionResult.text : InteractionResult → WString
  | .unknown => wide "Unknown"
  | .finished => wide "Finished"
  | .uiStuck => wide "UI_Stuck"
  | .unknownError => wide "UnknownError"
  | .partiallyFinished => wide "PartiallyFinished"
  | .timeOut => wide "TimeOut"

/-- `(int)result`. -/
def InteractionResult.value : InteractionResult → Nat
  | .unknown => 0
  | .finished => 1
  | .uiStuck => 2
  | .unknownError => 3
  | .partiallyFinished => 4
  | .timeOut => 5

/-- What was logged by the payload of a successful MITM attack. -/
structure MitmInfo where
  succeeded : Bool
  processId : Option WString
  elevated : Option WString
  imagePath : Option WString
  imageSha1 : Option WString
  log : Option (List XmlNode)

/-- What the report is made from and no attempt changes. -/
structure ReportData where
  proc : ProcessContainer
  fileVersionInfo : List XmlNode
  startedOn : WString
  endedOn : WString
  duration : WString
  executeJobTimeout : WString
  hostControllerAddr : WString
  hostControllerPort : WString
  /-- The unicast addresses, with the mask of those of the family `InterNetwork`. -/
  unicastAddresses : List (WString × Option WString)
  ipProperties : List XmlNode
  exitCode : WString
  mitm : MitmInfo
  processHistory : XmlNode
  registryWriteAccess : XmlNode
  fileSystem : FileSystem
  /-- The `Strings` element of a file, when string analysis is on. -/
  stringAnalysis : WString → Option XmlNode
  newPrograms : List WString
  /-- The zipped screenshots, in base 64. -/
  screens : WString

/-! ### The elements -/

def experimentName : WString := wide "Experiment"
def guestConfigurationName : WString := wide "GuestConfiguration"
def resultName : WString := wide "Result"
def appLogName : WString := wide "AppLog"
def screenshotsName : WString := wide "InteractionScreenshots"

namespace ReportData

variable (d : ReportData)

def experiment : XmlNode :=
  .element experimentName []
    [.leaf (wide "InstallerName") d.proc.job.localFullPath,
      .element (wide "InstallerDetails") [] d.fileVersionInfo,
      .leaf (wide "StartedOn") d.startedOn, .leaf (wide "EndedOn") d.endedOn,
      .leaf (wide "Duration") d.duration]

/-- The element `Mac` is created too, but appended nowhere. -/
def guestConfiguration : XmlNode :=
  .element guestConfigurationName []
    [.leaf (wide "JobTimeout") d.executeJobTimeout,
      .leaf (wide "HostControllerIp") d.hostControllerAddr,
      .leaf (wide "HostControllerPort") d.hostControllerPort,
      .element (wide "GuestIPs") [] (d.unicastAddresses.map fun (address, mask) =>
        .element (wide "IP") (mask.toList.map fun m => (wide "netmask", m)) [.text address]),
      .element (wide "NetworkInfo") [] d.ipProperties]

def injector (output errors : WString) : XmlNode :=
  .element (wide "Injector") []
    [.leaf (wide "StdOut") output, .leaf (wide "StdErr") errors, .leaf (wide "RetCode") d.exitCode]

def mitmAttack : XmlNode :=
  .element (wide "MitmAttack") []
    ([.leaf (wide "Success") (boolText d.mitm.succeeded),
      .leaf (wide "ProcessId") (d.mitm.processId.getD []),
      .leaf (wide "ProcessElevated") (d.mitm.elevated.getD []),
      .leaf (wide "ProcessPath") (d.mitm.imagePath.getD []),
      .leaf (wide "ProcessImageSha1") (d.mitm.imageSha1.getD [])] ++
      d.mitm.log.toList.map (.element (wide "NetworkInfo") []))

def uiBot : XmlNode :=
  .element (wide "UiBot") []
    [.leaf (wide "Value") (toWstring d.proc.result.value),
      .leaf (wide "Description") d.proc.result.text]

/-- One line of a file's history; a hash that is null gives an empty text. -/
def fileStatus (sequence : Nat) (x : AccessInfo) : XmlNode :=
  .element (wide "FileStatus") [(wide "Sequence", toWstring sequence)]
    [.leaf (wide "Path") x.path, .leaf (wide "Sha1Hash") (wide (x.hashes.sha1.getD "")),
      .leaf (wide "Md5Hash") (wide (x.hashes.md5.getD "")),
      .leaf (wide "FuzzyHash") (wide (x.fuzzyHash.getD "")),
      .leaf (wide "Size") (intText x.size), .leaf (wide "Exists") (boolText x.exists_)]

def fileElement (t : FileAccessInfo) : XmlNode :=
  .element (wide "File")
    [(wide "Path", t.path), (wide "Deleted", boolText t.isDeleted),
      (wide "Modified", boolText t.isModified), (wide "New", boolText t.isNew),
      (wide "LeftOver", boolText t.leftOver)]
    (.element (wide "AccessHistory") [] (t.info.mapIdx fileStatus) ::
      if t.leftOver then (d.stringAnalysis t.path).toList else [])

/-- The files in enumeration order, the order of a `Parallel.ForEach` being open. -/
def fileAccess (files : FileTable) : XmlNode :=
  let group (name : WString) (bucket : ReportBucket) : XmlNode :=
    .element name [] ((files.fileAccessLog.filter (fun t => t.bucket = bucket)).map d.fileElement)
  .element (wide "FileAccess") [(wide "count", toWstring files.fileAccessLog.length)]
    [group (wide "NewFiles") .newFiles, group (wide "ModifiedFiles") .modifiedFiles,
      group (wide "DeletedFiles") .deletedFiles,
      group (wide "OtherAccessFiles") .otherAccessFiles]

def newApplications : XmlNode :=
  .element (wide "NewApplications") [(wide "count", toWstring d.newPrograms.length)]
    (d.newPrograms.map (.leaf (wide "Application")))

@[simp] theorem experiment_name : d.experiment.name = experimentName := rfl

@[simp] theorem guestConfiguration_name : d.guestConfiguration.name = guestConfigurationName := rfl

end ReportData

/-! ### The attempts -/

/-- What the attempts share: the children of the log root, what the redirected streams of the
injector still hold, the monitored files, the application log, the report file and what the
host was sent last. `errors` and `output` are the locals of the attempt that is being made. -/
structure ReportState where
  root : List XmlNode
  standardError : WString
  standardOutput : WString
  errors : WString
  output : WString
  files : FileTable
  appLog : WString
  logOpen : Bool
  outfile : List XmlNode
  sent : List XmlNode

inductive ReportStep where
  | writeLine (line : WString)
  | prependExperiment
  | appendGuestConfiguration
  | appendResult
  | readStandardError
  | readStandardOutput
  | appendInjector
  | appendMitmAttack
  | appendUiBot
  | appendProcessHistory
  | appendRegistryWriteAccess
  | checkoutHistory (file : Ref)
  | appendFileAccess
  | appendNewApplications
  | closeLogger
  | appendAppLog
  | appendScreenshots
  | writeOutfile
  | sendFile
  | acknowledged
  deriving DecidableEq, Repr

namespace ReportState

/-- `Console.WriteLine`, which ends in the log file as long as the logger is open. -/
def writeLine (line : WString) (s : ReportState) : ReportState :=
  if s.logOpen then { s with appLog := s.appLog ++ line ++ wide "\r\n" } else s

section writeLine

variable (line : WString) (s : ReportState)

@[simp] theorem writeLine_root : (s.writeLine line).root = s.root := by
  unfold writeLine; split_ifs <;> rfl

@[simp] theorem writeLine_standardError :
    (s.writeLine line).standardError = s.standardError := by
  unfold writeLine; split_ifs <;> rfl

@[simp] theorem writeLine_standardOutput :
    (s.writeLine line).standardOutput = s.standardOutput := by
  unfold writeLine; split_ifs <;> rfl

@[simp] theorem writeLine_files : (s.writeLine line).files = s.files := by
  unfold writeLine; split_ifs <;> rfl

@[simp] theorem writeLine_outfile : (s.writeLine line).outfile = s.outfile := by
  unfold writeLine; split_ifs <;> rfl

theorem writeLine_appLog (opened : s.logOpen = true) :
    (s.writeLine line).appLog = s.appLog ++ line ++ wide "\r\n" := by
  rw [writeLine, if_pos opened]

end writeLine

/-- `log.AppendChild`. -/
def appendChild (child : XmlNode) (s : ReportState) : ReportState :=
  { s with root := s.root ++ [child] }

/-- `result.AppendChild`; while it is being filled, `result` is the last child of the root. -/
def appendToResult (child : XmlNode) (s : ReportState) : ReportState :=
  { s with root := s.root.modifyLast (fun result => result.appendChild child) }

def step (d : ReportData) (s : ReportState) : ReportStep → ReportState
  | .writeLine line => s.writeLine line
  | .prependExperiment => { s with root := d.experiment :: s.root }
  | .appendGuestConfiguration => s.appendChild d.guestConfiguration
  | .appendResult => s.appendChild (.element resultName [] [])
  | .readStandardError => { s with errors := s.standardError, standardError := [] }
  | .readStandardOutput => { s with output := s.standardOutput, standardOutput := [] }
  | .appendInjector => s.appendToResult (d.injector s.output s.errors)
  | .appendMitmAttack => s.appendToResult d.mitmAttack
  | .appendUiBot => s.appendToResult d.uiBot
  | .appendProcessHistory => s.appendToResult d.processHistory
  | .appendRegistryWriteAccess => s.appendToResult d.registryWriteAccess
  | .checkoutHistory file =>
    { s with files := (s.files.call file (FileAccessInfo.checkoutHistory d.fileSystem)).state }
  | .appendFileAccess => s.appendToResult (d.fileAccess s.files)
  | .appendNewApplications => s.appendToResult d.newApplications
  | .closeLogger => { s with logOpen := false }
  | .appendAppLog => s.appendChild (.leaf appLogName s.appLog)
  | .appendScreenshots => s.appendChild (.leaf screenshotsName d.screens)
  | .writeOutfile => { s with outfile := s.root }
  | .sendFile => { s with sent := s.outfile }
  | .acknowledged => s

/-- The references of the monitored files, in enumeration order. -/
def fileRefs (s : ReportState) : List Ref := s.files.map.entries.map (·.2)

/-- `PrepareReport` up to the files, behind the first line of the loop. -/
def untilFiles : List ReportStep :=
  [.writeLine (wide "Collecting report..."), .prependExperiment, .appendGuestConfiguration,
    .appendResult, .readStandardError, .readStandardOutput, .appendInjector, .appendMitmAttack,
    .appendUiBot, .appendProcessHistory, .appendRegistryWriteAccess]

/-- The rest of `PrepareReport`, and `ReportWork`. -/
def behindFiles : List ReportStep :=
  [.appendFileAccess, .appendNewApplications, .closeLogger, .appendAppLog, .appendScreenshots,
    .writeOutfile, .writeLine (wide "Sending report to HostController..."), .sendFile,
    .acknowledged]

/-- The body of the reporting loop: `PrepareReport`, then `ReportWork`. -/
def attempt (s : ReportState) : List ReportStep :=
  untilFiles ++ s.fileRefs.map .checkoutHistory ++ behindFiles

def steps (d : ReportData) (s : ReportState) (made : List ReportStep) : ReportState :=
  made.foldl (step d) s

end ReportState

/-- A failed attempt: how many of its steps were made, and the text of the exception. -/
structure FailedAttempt where
  made : Nat
  message : WString
  deriving DecidableEq, Repr

namespace ReportState

/-- The line the handler of the loop writes. -/
def failureLine (a : FailedAttempt) : WString :=
  wide "Cannot report work back to host controller. I will retry in a moment. Error: " ++ a.message

/-- An attempt that fails, with the line its handler writes. -/
def fail (d : ReportData) (s : ReportState) (a : FailedAttempt) : ReportState :=
  (s.steps d (s.attempt.take a.made)).writeLine (failureLine a)

/-- The reporting loop: some failed attempts, then one that goes through. -/
def reportingLoop (d : ReportData) (s : ReportState) (failed : List FailedAttempt) : ReportState :=
  let s := failed.foldl (fail d) s
  s.steps d s.attempt

end ReportState

end GuestAgent.Source
