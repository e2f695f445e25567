import GuestAgent.Source.Report

/-!
What failed attempts leave in the report.

The document outlives an attempt, so an attempt that came as far as `Experiment` leaves an
element there that the next one adds again, and it may have emptied the streams of the injector.
The report is sound exactly if every failed attempt ended before that. Even then it is not the
report of a first attempt that went through: the log file holds the failure.
-/
namespace GuestAgent.Guarantees.ReportRetry
open Library Source Source.ReportState

/-- The elements every report has once under the log root. -/
def reportedNames : List WString :=
  [experimentName, guestConfigurationName, resultName, appLogName, screenshotsName]

def childrenNamed (name : WString) (root : List XmlNode) : List XmlNode :=
  root.filter (fun child => child.name == name)

def OnceEach (root : List XmlNode) : Prop :=
  ∀ name ∈ reportedNames, (childrenNamed name root).length = 1

def SameContent (names : List WString) (root root' : List XmlNode) : Prop :=
  ∀ name ∈ names, childrenNamed name root = childrenNamed name root'

/-- The log document has none of the elements yet. -/
def Fresh (s : ReportState) : Prop := ∀ child ∈ s.root, child.name ∉ reportedNames

/-- The attempt failed before the `Experiment` element was put into the document. -/
def BeforeExperiment (s : ReportState) (a : FailedAttempt) : Prop :=
  .prependExperiment ∉ s.attempt.take a.made

/-! ### The experiments of failed attempts -/

theorem map_name_modifyLast (child : XmlNode) (root : List XmlNode) :
    (root.modifyLast (fun result => result.appendChild child)).map XmlNode.name =
      root.map XmlNode.name := by
  induction root using List.reverseRecOn with
  | nil => rfl
  | append_singleton root last _ => simp [List.modifyLast_concat]

/-- The number of experiments under the log root. -/
def experiments (root : List XmlNode) : Nat := (root.map XmlNode.name).count experimentName

theorem childrenNamed_experiment (root : List XmlNode) :
    (childrenNamed experimentName root).length = experiments root := by
  rw [childrenNamed, experiments, List.count, List.countP_map, List.countP_eq_length_filter]
  rfl

theorem experiments_append (root : List XmlNode) {child : XmlNode}
    (other : child.name ≠ experimentName) : experiments (root ++ [child]) = experiments root := by
  simp [experiments, other]

/-- Only one step adds an experiment to the document. -/
theorem step_experiments (d : ReportData) (s : ReportState) (st : ReportStep) :
    experiments (s.step d st).root =
      experiments s.root + if st = .prependExperiment then 1 else 0 := by
  cases st with
  | prependExperiment =>
    simp [step, experiments, ReportData.experiment, XmlNode.name]
  | writeLine line => simp [step]
  | appendGuestConfiguration =>
    exact experiments_append s.root (by rw [ReportData.guestConfiguration_name]; decide)
  | appendResult => exact experiments_append s.root (by decide)
  | appendAppLog => exact experiments_append s.root (by rw [XmlNode.leaf_name]; decide)
  | appendScreenshots => exact experiments_append s.root (by rw [XmlNode.leaf_name]; decide)
  | appendInjector | appendMitmAttack | appendUiBot | appendProcessHistory
  | appendRegistryWriteAccess | appendFileAccess | appendNewApplications =>
    simp [step, appendToResult, experiments, map_name_modifyLast]
  | readStandardError | readStandardOutput | checkoutHistory | closeLogger | writeOutfile
  | sendFile | acknowledged => simp [step]

theorem steps_experiments (d : ReportData) (s : ReportState) (made : List ReportStep) :
    experiments (s.steps d made).root = experiments s.root + made.count .prependExperiment := by
  induction made generalizing s with
  | nil => simp [steps]
  | cons st made ih =>
    have later := ih (s.step d st)
    rw [step_experiments] at later
    rw [List.count_cons]
    simp only [steps, List.foldl_cons, beq_iff_eq] at later ⊢
    omega

/-- An attempt comes to the experiment with its second step, and never again. -/
theorem count_take_attempt (s : ReportState) (n : Nat) :
    (s.attempt.take n).count .prependExperiment = if 2 ≤ n then 1 else 0 := by
  match n with
  | 0 => rfl
  | 1 => rfl
  | n + 2 =>
    obtain ⟨line, rest, parts, absent⟩ : ∃ line rest,
        s.attempt = .writeLine line :: .prependExperiment :: rest ∧
          ReportStep.prependExperiment ∉ rest := by
      refine ⟨_, _, rfl, ?_⟩
      simp [behindFiles]
    have noOther : (rest.take n).count .prependExperiment = 0 :=
      List.count_eq_zero.mpr (fun taken => absent (List.mem_of_mem_take taken))
    rw [parts, if_pos (by omega), List.take_succ_cons, List.take_succ_cons, List.count_cons,
      List.count_cons, noOther]
    rfl

theorem beforeExperiment_iff (s : ReportState) (a : FailedAttempt) :
    BeforeExperiment s a ↔ a.made ≤ 1 := by
  rw [BeforeExperiment, ← List.count_eq_zero, count_take_attempt]
  by_cases came : 2 ≤ a.made
  · rw [if_pos came]
    omega
  · rw [if_neg came]
    omega

theorem fail_experiments (d : ReportData) (s : ReportState) (a : FailedAttempt) :
    experiments (s.fail d a).root = experiments s.root + if 2 ≤ a.made then 1 else 0 := by
  rw [fail, writeLine_root, steps_experiments, count_take_attempt]

/-- Every attempt that came to the experiment leaves one. -/
theorem failed_experiments (d : ReportData) (s : ReportState) (failed : List FailedAttempt) :
    experiments (failed.foldl (fail d) s).root =
      experiments s.root + failed.countP (fun a => decide (2 ≤ a.made)) := by
  induction failed generalizing s with
  | nil => simp
  | cons a failed ih =>
    rw [List.foldl_cons, ih, fail_experiments, List.countP_cons]
    simp only [decide_eq_true_eq]
    omega

/-! ### The report of an attempt that goes through -/

/-- The files after the attempt looked at each of them for the last time. -/
def checkedOut (d : ReportData) (files : FileTable) (refs : List Ref) : FileTable :=
  refs.foldl (fun files file =>
    (files.call file (FileAccessInfo.checkoutHistory d.fileSystem)).state) files

/-- What an attempt that goes through appends to the log root. -/
def appended (d : ReportData) (s : ReportState) : List XmlNode :=
  [d.guestConfiguration,
    .element resultName []
      [d.injector s.standardOutput s.standardError, d.mitmAttack, d.uiBot, d.processHistory,
        d.registryWriteAccess, d.fileAccess (checkedOut d s.files s.fileRefs), d.newApplications],
    .leaf appLogName (s.writeLine (wide "Collecting report...")).appLog,
    .leaf screenshotsName d.screens]

/-- What an attempt that goes through sends, from the state it starts in. -/
def document (d : ReportData) (s : ReportState) : List XmlNode :=
  d.experiment :: (s.root ++ appended d s)

theorem steps_checkouts (d : ReportData) (s : ReportState) (refs : List Ref) :
    s.steps d (refs.map .checkoutHistory) = { s with files := checkedOut d s.files refs } := by
  induction refs generalizing s with
  | nil => rfl
  | cons file refs ih =>
    have later := ih (s.step d (.checkoutHistory file))
    simpa [steps, step, checkedOut] using later

theorem untilFiles_root (d : ReportData) (s : ReportState) :
    (s.steps d untilFiles).root = (d.experiment :: s.root ++ [d.guestConfiguration]) ++
      [.element resultName []
        [d.injector s.standardOutput s.standardError, d.mitmAttack, d.uiBot, d.processHistory,
          d.registryWriteAccess]] := by
  simp only [steps, untilFiles, List.foldl_cons, List.foldl_nil, step, appendChild, appendToResult,
    writeLine_root, writeLine_standardError, writeLine_standardOutput]
  generalize d.experiment :: s.root ++ [d.guestConfiguration] = before
  simp [List.modifyLast_concat, XmlNode.appendChild]

theorem behindFiles_sent (d : ReportData) (s : ReportState) {before children : List XmlNode}
    (filled : s.root = before ++ [.element resultName [] children]) :
    (s.steps d behindFiles).sent = before ++
      [.element resultName [] (children ++ [d.fileAccess s.files, d.newApplications]),
        .leaf appLogName s.appLog, .leaf screenshotsName d.screens] := by
  simp [steps, behindFiles, step, appendChild, appendToResult, filled, List.modifyLast_concat,
    XmlNode.appendChild]

theorem sent_of_attempt (d : ReportData) (s : ReportState) :
    (s.steps d s.attempt).sent = document d s := by
  let before := s.steps d untilFiles
  have files : before.files = s.files := by
    simp [before, steps, untilFiles, step, appendChild, appendToResult]
  have log : before.appLog = (s.writeLine (wide "Collecting report...")).appLog := by
    simp [before, steps, untilFiles, step, appendChild, appendToResult]
  have visited := steps_checkouts d before s.fileRefs
  have whole : s.steps d s.attempt =
      (before.steps d (s.fileRefs.map .checkoutHistory)).steps d behindFiles := by
    simp [before, steps, attempt]
  have filled : ({ before with files := checkedOut d before.files s.fileRefs } : ReportState).root =
      _ := untilFiles_root d s
  rw [whole, visited, behindFiles_sent d _ filled, files, log]
  simp [document, appended]

theorem sent_of_reportingLoop (d : ReportData) (s : ReportState) (failed : List FailedAttempt) :
    (s.reportingLoop d failed).sent = document d (failed.foldl (fail d) s) :=
  sent_of_attempt d _

theorem childrenNamed_document {d : ReportData} {s : ReportState} (fresh : Fresh s)
    {name : WString} (reported : name ∈ reportedNames) :
    childrenNamed name (document d s) = childrenNamed name (d.experiment :: appended d s) := by
  have absent : s.root.filter (fun child => child.name == name) = [] := by
    apply List.filter_eq_nil_iff.mpr
    intro child inside same
    obtain rfl : child.name = name := by simpa using same
    exact fresh child inside reported
  simp only [childrenNamed, document, List.filter_cons, List.filter_append, absent,
    List.nil_append]

theorem onceEach_document (d : ReportData) {s : ReportState} (fresh : Fresh s) :
    OnceEach (document d s) := by
  intro name reported
  rw [childrenNamed_document fresh reported]
  simp only [reportedNames, List.mem_cons, List.not_mem_nil, or_false] at reported
  rcases reported with rfl | rfl | rfl | rfl | rfl <;> rfl

theorem experiments_document (d : ReportData) (s : ReportState) :
    experiments (document d s) = experiments s.root + 1 := by
  have others : experiments (appended d s) = 0 := rfl
  simp only [experiments] at others
  simp [experiments, document, others]

theorem appLog_document (d : ReportData) {s : ReportState} (fresh : Fresh s)
    (opened : s.logOpen = true) :
    childrenNamed appLogName (document d s) =
      [.leaf appLogName (s.appLog ++ wide "Collecting report..." ++ wide "\r\n")] := by
  rw [childrenNamed_document fresh (by simp [reportedNames]), ← writeLine_appLog _ s opened]
  rfl

/-! ### Attempts that failed early -/

/-- The state with more text in its log. -/
def withLog (s : ReportState) (lines : WString) : ReportState :=
  { s with appLog := s.appLog ++ lines }

theorem withLog_withLog (s : ReportState) (first more : WString) :
    withLog (withLog s first) more = withLog s (first ++ more) := by
  simp [withLog]

theorem writeLine_open {s : ReportState} (opened : s.logOpen = true) (line : WString) :
    s.writeLine line = withLog s (line ++ wide "\r\n") := by
  rw [writeLine, if_pos opened, withLog, List.append_assoc]

/-- An attempt that did not come to the experiment leaves its lines in the log. -/
theorem fail_early (d : ReportData) {s : ReportState} (opened : s.logOpen = true)
    {a : FailedAttempt} (early : a.made ≤ 1) :
    ∃ lines ≠ [], s.fail d a = withLog s lines := by
  have nonempty : failureLine a ++ wide "\r\n" ≠ [] := by simp [wide]
  obtain zero | one : a.made = 0 ∨ a.made = 1 := by omega
  · have line : s.fail d a = withLog s (failureLine a ++ wide "\r\n") := by
      rw [fail, zero]
      exact writeLine_open opened _
    exact ⟨_, nonempty, line⟩
  · let collecting := wide "Collecting report..." ++ wide "\r\n"
    have first : s.steps d (s.attempt.take 1) = withLog s collecting := writeLine_open opened _
    have stillOpen : (withLog s collecting).logOpen = true := opened
    have lines : s.fail d a = withLog s (collecting ++ (failureLine a ++ wide "\r\n")) := by
      rw [fail, one, first, writeLine_open stillOpen, withLog_withLog]
    exact ⟨_, by simp [nonempty], lines⟩

theorem failed_early (d : ReportData) (s : ReportState) (opened : s.logOpen = true)
    {failed : List FailedAttempt} (early : ∀ a ∈ failed, a.made ≤ 1) :
    ∃ lines, failed.foldl (fail d) s = withLog s lines ∧ (lines = [] ↔ failed = []) := by
  induction failed generalizing s with
  | nil => exact ⟨[], by simp [withLog], by simp⟩
  | cons a failed ih =>
    obtain ⟨first, nonempty, failedOnce⟩ := fail_early d opened (early a List.mem_cons_self)
    obtain ⟨more, later, _⟩ := ih (withLog s first) opened
      (fun b inside => early b (List.mem_cons_of_mem a inside))
    refine ⟨first ++ more, ?_, by simp [nonempty]⟩
    rw [List.foldl_cons, failedOnce, later, withLog_withLog]

/-- Text in the log shows in `AppLog` and nowhere else. -/
theorem childrenNamed_withLog (d : ReportData) (s : ReportState) (lines : WString)
    {name : WString} (other : name ≠ appLogName) :
    childrenNamed name (d.experiment :: appended d (withLog s lines)) =
      childrenNamed name (d.experiment :: appended d s) := by
  have dropped : (appLogName == name) = false := by simpa using other.symm
  simp only [childrenNamed, appended, List.filter_cons, XmlNode.leaf_name, dropped]
  rfl

/-! ### The main result -/

/-- The elements that come from anything but the log. -/
def namesButLog : List WString :=
  [experimentName, guestConfigurationName, resultName, screenshotsName]

theorem namesButLog_subset : namesButLog ⊆ reportedNames := by decide

section afterFailures

variable {d : ReportData} {s : ReportState} {failed : List FailedAttempt}

theorem early_of_onceEach (once : OnceEach (document d (failed.foldl (fail d) s))) :
    ∀ a ∈ failed, a.made ≤ 1 := by
  intro a inside
  have one := once experimentName (by simp [reportedNames])
  rw [childrenNamed_experiment, experiments_document, failed_experiments] at one
  have none : failed.countP (fun a => decide (2 ≤ a.made)) = 0 := by omega
  have early := List.countP_eq_zero.mp none a inside
  simp only [decide_eq_true_eq] at early
  omega

variable (fresh : Fresh s) (opened : s.logOpen = true) (early : ∀ a ∈ failed, a.made ≤ 1)
include fresh opened early

theorem onceEach_of_early : OnceEach (document d (failed.foldl (fail d) s)) := by
  obtain ⟨lines, same, _⟩ := failed_early d s opened early
  have stillFresh : Fresh (withLog s lines) := fresh
  rw [same]
  exact onceEach_document d stillFresh

theorem sameContent_of_early :
    SameContent namesButLog (document d (failed.foldl (fail d) s)) (document d s) := by
  intro name listed
  obtain ⟨lines, same, _⟩ := failed_early d s opened early
  have stillFresh : Fresh (withLog s lines) := fresh
  have reported : name ∈ reportedNames := namesButLog_subset listed
  have other : name ≠ appLogName := by
    rintro rfl
    exact absurd listed (by decide)
  rw [same, childrenNamed_document stillFresh reported, childrenNamed_document fresh reported,
    childrenNamed_withLog d s lines other]

/-- The log of a failed attempt is longer than that of none. -/
theorem nil_of_sameContent
    (content : SameContent reportedNames (document d (failed.foldl (fail d) s)) (document d s)) :
    failed = [] := by
  obtain ⟨lines, same, empty⟩ := failed_early d s opened early
  have stillFresh : Fresh (withLog s lines) := fresh
  have log := content appLogName (by simp [reportedNames])
  rw [same, appLog_document d stillFresh opened, appLog_document d fresh opened] at log
  have text : (withLog s lines).appLog ++ wide "Collecting report..." ++ wide "\r\n" =
      s.appLog ++ wide "Collecting report..." ++ wide "\r\n" := by
    simpa [XmlNode.leaf] using log
  have size := congrArg List.length text
  simp only [withLog, List.length_append] at size
  exact empty.mp (List.eq_nil_of_length_eq_zero (by omega))

end afterFailures

/-- With failed attempts before it, the report that is sent has each element once, exactly if
every one of them failed before the experiment was put into the document; then all but `AppLog`
are those of a first attempt that goes through. It is the same report only without failed
attempts. -/
theorem report_same_iff (d : ReportData) (s : ReportState) (failed : List FailedAttempt)
    (fresh : Fresh s) (opened : s.logOpen = true) :
    (OnceEach (s.reportingLoop d failed).sent ↔ ∀ a ∈ failed, BeforeExperiment s a) ∧
    (OnceEach (s.reportingLoop d failed).sent ∧
      SameContent namesButLog (s.reportingLoop d failed).sent (s.reportingLoop d []).sent ↔
        ∀ a ∈ failed, BeforeExperiment s a) ∧
    (OnceEach (s.reportingLoop d failed).sent ∧
      SameContent reportedNames (s.reportingLoop d failed).sent (s.reportingLoop d []).sent ↔
        failed = []) := by
  simp only [sent_of_reportingLoop, List.foldl_nil, beforeExperiment_iff]
  refine ⟨⟨early_of_onceEach, onceEach_of_early fresh opened⟩, ⟨?_, ?_⟩, ?_, ?_⟩
  · intro holds
    obtain ⟨once, _⟩ := holds
    exact early_of_onceEach once
  · intro early
    exact ⟨onceEach_of_early fresh opened early, sameContent_of_early fresh opened early⟩
  · intro holds
    obtain ⟨once, content⟩ := holds
    exact nil_of_sameContent fresh opened (early_of_onceEach once) content
  · rintro rfl
    exact ⟨onceEach_document d fresh, fun _ _ => rfl⟩

/-- A report about nothing: no times, no addresses, no files. -/
def blankData : ReportData where
  proc := ⟨⟨1, wide "C:\\a.exe"⟩, .finished⟩
  fileVersionInfo := []
  startedOn := []
  endedOn := []
  duration := []
  executeJobTimeout := []
  hostControllerAddr := []
  hostControllerPort := []
  unicastAddresses := []
  ipProperties := []
  exitCode := []
  mitm := ⟨false, none, none, none, none, none⟩
  processHistory := .element (wide "ProcessHistory") [] []
  registryWriteAccess := .element (wide "RegistryWriteAccess") [] []
  fileSystem := .bare
  stringAnalysis := fun _ => none
  newPrograms := []
  screens := []

/-- Before the first attempt: a log root with the recorded system calls only. -/
def blankState : ReportState where
  root := [.element (wide "SyscallInvocations") [] []]
  standardError := []
  standardOutput := wide "injected"
  errors := []
  output := []
  files := .empty
  appLog := []
  logOpen := true
  outfile := []
  sent := []

/-- A first attempt that fails before it does anything changes nothing but the log. -/
theorem report_same_iff_early :
    OnceEach (blankState.reportingLoop blankData [⟨0, []⟩]).sent ↔
      ∀ a ∈ [(⟨0, []⟩ : FailedAttempt)], BeforeExperiment blankState a :=
  (report_same_iff blankData blankState [⟨0, []⟩] (by unfold Fresh; decide) rfl).1

/-- An attempt that fails when the report is sent leaves all its elements behind. -/
theorem unsent_report_is_repeated :
    ¬ ∀ (d : ReportData) (s : ReportState) (failed : List FailedAttempt),
      Fresh s → s.logOpen = true →
        OnceEach (s.reportingLoop d failed).sent ∧
        SameContent reportedNames (s.reportingLoop d failed).sent (s.reportingLoop d []).sent := by
  intro sent_once
  have once := (sent_once blankData blankState [⟨18, wide "host"⟩] (by unfold Fresh; decide) rfl).1
  have one := once experimentName (by simp [reportedNames])
  rw [sent_of_reportingLoop, childrenNamed_experiment, experiments_document,
    failed_experiments] at one
  exact absurd one (by decide)

end GuestAgent.Guarantees.ReportRetry
