import GuestAgent.Guarantees.ProcessForest

/-!
When the process tree can be reported.

`AddProcess` keeps the first parent of a child, and its information if the child was running at
that call. A parent that was never a child, and a child that was dead already, are looked up
when the report is made, and the version resources of the modules are read then too. So the
report of the tree depends on who is still running, and on the first parents being acyclic.
-/
namespace GuestAgent.Guarantees.ProcessesReported
open Library Library.ParentMap Library.Watched Source Source.ProcessElement ProcessForest

/-- A call of `AddProcess`, with the processes running at that moment. -/
structure AddCall where
  procs : ProcessTable
  parentPid : Pid
  pid : Pid

def register (h : ProcessHierarchy) (c : AddCall) : ProcessHierarchy :=
  h.addProcess c.procs c.parentPid c.pid

/-- The hierarchy after the calls. -/
def registered (calls : List AddCall) : ProcessHierarchy := Runs.run register ⟨∅, ∅⟩ calls

/-- The call that registered the pid. -/
def firstCall (calls : List AddCall) (p : Pid) : Option AddCall := calls.find? fun c => c.pid = p

def firstParent (calls : List AddCall) (p : Pid) : Option Pid :=
  (firstCall calls p).map AddCall.parentPid

/-- What `FromPid` answered in the call that registered the pid. -/
def firstInfo (calls : List AddCall) (p : Pid) : Option ProcessInfo :=
  (firstCall calls p).bind fun c => (c.procs.fromPid p).toOption

/-- The information of the report: that of the first call, or else that of the process running
when the report is made. -/
def reportInfo (calls : List AddCall) (now : ProcessTable) (p : Pid) : Except Exn ProcessInfo :=
  match firstInfo calls p with
  | some info => .ok info
  | none => now.fromPid p

/-- `GetHierarchy` returns a tree with every pid that was registered as a child. -/
def Reported (calls : List AddCall) (now : ProcessTable) (versionInfo : VersionInfo) : Prop :=
  ∃ roots, Returns ((registered calls).getHierarchy now versionInfo) (.ok roots) ∧
    ∀ c ∈ calls, c.pid ∈ pidsOf roots

/-- No pid is above itself, and every child and every parent was recorded when it was registered
or is running now, with the version resources of its modules at hand. -/
def Reportable (calls : List AddCall) (now : ProcessTable) (versionInfo : VersionInfo) : Prop :=
  ¬ Cyclic (firstParent calls) ∧
    ∀ p q, firstParent calls p = some q →
      Obtainable (reportInfo calls now) versionInfo p ∧
        Obtainable (reportInfo calls now) versionInfo q

/-! ### What the calls leave -/

section addProcess

variable (procs : ProcessTable) (parentPid pid : Pid) (h : ProcessHierarchy)

theorem addProcess_known (known : pid ∈ h.processes) : h.addProcess procs parentPid pid = h := by
  rw [ProcessHierarchy.addProcess, if_pos known]

theorem addProcess_new (new : pid ∉ h.processes) (unrecorded : pid ∉ h.pinfo) :
    (h.addProcess procs parentPid pid).processes = h.processes.insert pid parentPid ∧
      ∀ p, (h.addProcess procs parentPid pid).pinfo.lookup p =
        if p = pid then (procs.fromPid pid).toOption else h.pinfo.lookup p := by
  cases info : procs.fromPid pid with
  | error e =>
    have value : h.addProcess procs parentPid pid =
        { h with processes := h.processes.insert pid parentPid } := by
      simp only [ProcessHierarchy.addProcess, if_neg new, info]
    rw [value]
    refine ⟨rfl, fun p => ?_⟩
    by_cases same : p = pid
    · rw [if_pos same, same]
      exact AList.lookup_eq_none.mpr unrecorded
    · rw [if_neg same]
  | ok i =>
    have value : h.addProcess procs parentPid pid =
        ⟨h.processes.insert pid parentPid, h.pinfo.insert pid i⟩ := by
      simp only [ProcessHierarchy.addProcess, if_neg new, info, if_neg unrecorded]
    rw [value]
    refine ⟨rfl, fun p => ?_⟩
    by_cases same : p = pid
    · rw [if_pos same, same, AList.lookup_insert]
      rfl
    · rw [if_neg same, AList.lookup_insert_ne same]

end addProcess

theorem firstCall_append (first second : List AddCall) (p : Pid) :
    firstCall (first ++ second) p = (firstCall first p).or (firstCall second p) :=
  List.find?_append

theorem firstCall_one (c : AddCall) (p : Pid) :
    firstCall [c] p = if c.pid = p then some c else none := by
  by_cases here : c.pid = p <;> simp [firstCall, here]

/-- What the calls so far leave behind. -/
structure Left (calls : List AddCall) (h : ProcessHierarchy) : Prop where
  parents : ∀ p, h.processes.lookup p = firstParent calls p
  infos : ∀ p, h.pinfo.lookup p = firstInfo calls p

theorem firstCall_append_known {calls : List AddCall} {c : AddCall}
    (known : (firstCall calls c.pid).isSome) (p : Pid) :
    firstCall (calls ++ [c]) p = firstCall calls p := by
  rw [firstCall_append, firstCall_one]
  by_cases same : c.pid = p
  · subst same
    obtain ⟨first, found⟩ := Option.isSome_iff_exists.mp known
    rw [found]
    rfl
  · rw [if_neg same, Option.or_none]

theorem firstCall_append_new {calls : List AddCall} {c : AddCall}
    (new : firstCall calls c.pid = none) (p : Pid) :
    firstCall (calls ++ [c]) p = if p = c.pid then some c else firstCall calls p := by
  rw [firstCall_append, firstCall_one]
  by_cases same : p = c.pid
  · rw [if_pos same, same, new, if_pos rfl]
    rfl
  · rw [if_neg same, if_neg (Ne.symm same), Option.or_none]

theorem register_left {calls : List AddCall} {h : ProcessHierarchy} (left : Left calls h)
    (c : AddCall) : Left (calls ++ [c]) (register h c) := by
  have known : ∀ p, p ∈ h.processes ↔ (firstCall calls p).isSome := by
    intro p
    rw [← AList.lookup_isSome, left.parents, firstParent, Option.isSome_map]
  by_cases again : c.pid ∈ h.processes
  · have unchanged := firstCall_append_known ((known c.pid).mp again)
    rw [register, addProcess_known _ _ _ _ again]
    constructor
    · intro p
      rw [left.parents, firstParent, firstParent, unchanged]
    · intro p
      rw [left.infos, firstInfo, firstInfo, unchanged]
  · have none : firstCall calls c.pid = none := by
      rw [known, Bool.not_eq_true, Option.isSome_eq_false_iff, Option.isNone_iff_eq_none] at again
      exact again
    have unrecorded : c.pid ∉ h.pinfo := by
      rw [← AList.lookup_eq_none, left.infos, firstInfo, none]
      rfl
    have now := firstCall_append_new none
    obtain ⟨processes, pinfo⟩ := addProcess_new c.procs c.parentPid c.pid h again unrecorded
    constructor
    · intro p
      rw [register, processes, firstParent, now]
      by_cases same : p = c.pid
      · rw [if_pos same, same, AList.lookup_insert]
        rfl
      · rw [if_neg same, AList.lookup_insert_ne same, left.parents]
        rfl
    · intro p
      rw [register, pinfo, firstInfo, now]
      by_cases same : p = c.pid
      · rw [if_pos same, if_pos same, same]
        rfl
      · rw [if_neg same, if_neg same, left.infos]
        rfl

theorem registered_left (calls : List AddCall) : Left calls (registered calls) := by
  induction calls using List.reverseRecOn with
  | nil => exact ⟨fun _ => rfl, fun _ => rfl⟩
  | append_singleton calls c ih =>
    rw [registered, Runs.run_append]
    exact register_left ih c

/-! ### The report of the tree -/

theorem infoOf_registered (calls : List AddCall) (now : ProcessTable) :
    (registered calls).infoOf now = reportInfo calls now := by
  funext p
  have stored := (registered_left calls).infos p
  cases first : firstInfo calls p with
  | none => simp only [ProcessHierarchy.infoOf, reportInfo, stored, first]
  | some info => simp only [ProcessHierarchy.infoOf, reportInfo, stored, first]

theorem mentions_registered (calls : List AddCall) (x : Pid) :
    Mentions (registered calls).processes.entries x ↔
      ∃ p q, firstParent calls p = some q ∧ (x = p ∨ x = q) := by
  simp only [← (registered_left calls).parents, Mentions, Sigma.exists, ← AList.mem_lookup_iff,
    Option.mem_def]

theorem reportable_iff (calls : List AddCall) (now : ProcessTable) (versionInfo : VersionInfo) :
    Reportable calls now versionInfo ↔ ¬ Cyclic (registered calls).processes.lookup ∧
      ∀ x, Mentions (registered calls).processes.entries x →
        Obtainable ((registered calls).infoOf now) versionInfo x := by
  have parents : (fun p => (registered calls).processes.lookup p) = firstParent calls :=
    funext (registered_left calls).parents
  rw [Reportable, infoOf_registered, parents]
  refine and_congr_right fun _ => ?_
  simp only [mentions_registered]
  constructor
  · intro both x holds
    obtain ⟨p, q, up, which⟩ := holds
    cases which with
    | inl same => exact same ▸ (both p q up).1
    | inr same => exact same ▸ (both p q up).2
  · intro each p q up
    exact ⟨each p ⟨p, q, up, .inl rfl⟩, each q ⟨p, q, up, .inr rfl⟩⟩

theorem reportable_of_reported {calls : List AddCall} {now : ProcessTable}
    {versionInfo : VersionInfo} (reported : Reported calls now versionInfo) :
    Reportable calls now versionInfo := by
  obtain ⟨roots, returns, -⟩ := reported
  obtain ⟨r, returns', ends⟩ := getHierarchy_returns (registered calls) now versionInfo
  obtain rfl := returns.unique returns'
  cases ends with
  | forest acyclic obtained _ =>
    exact (reportable_iff calls now versionInfo).mpr ⟨acyclic, obtained⟩

theorem reported_of_reportable {calls : List AddCall} {now : ProcessTable}
    {versionInfo : VersionInfo} (reportable : Reportable calls now versionInfo) :
    Reported calls now versionInfo := by
  obtain ⟨acyclic, obtainable⟩ := (reportable_iff calls now versionInfo).mp reportable
  obtain ⟨r, returns, ends⟩ := getHierarchy_returns (registered calls) now versionInfo
  cases ends with
  | circular cyclic => exact absurd cyclic acyclic
  | missing mentioned error =>
    have looked := obtainable _ mentioned
    rw [Obtainable, error] at looked
    exact absurd looked (not_completes_error _)
  | unrendered _ mentioned missing => exact absurd (obtainable _ mentioned) missing
  | @forest roots _ _ forest =>
    refine ⟨roots, returns, fun c member => ?_⟩
    rw [forest.pids, mentions_registered]
    obtain ⟨first, found⟩ : ∃ first, firstCall calls c.pid = some first := by
      rw [← Option.isSome_iff_exists, firstCall, List.find?_isSome]
      exact ⟨c, member, by simp⟩
    exact ⟨c.pid, first.parentPid, by rw [firstParent, found]; rfl, .inl rfl⟩

/-- Some attempt of the loop in `work` gets past `GetHierarchy`; `system k` is what the attempt
after `k` failed ones finds. -/
def LoopGetsPast (calls : List AddCall) (system : Nat → ProcessTable × VersionInfo) : Prop :=
  ∃ k, Reported calls (system k).1 (system k).2

/-- The tree is reported exactly if it is reportable when the report is made, and the reporting
loop gets past it exactly if it becomes reportable. -/
theorem tree_reported_iff (calls : List AddCall) :
    (∀ now versionInfo, Reported calls now versionInfo ↔ Reportable calls now versionInfo) ∧
      ∀ system, LoopGetsPast calls system ↔
        ∃ k, Reportable calls (system k).1 (system k).2 := by
  have each : ∀ now versionInfo,
      Reported calls now versionInfo ↔ Reportable calls now versionInfo := fun _ _ =>
    ⟨reportable_of_reported, reported_of_reportable⟩
  refine ⟨each, fun system => ?_⟩
  simp only [LoopGetsPast, each]

/-- Only the listed pids are running. -/
def onlyAlive (pids : List Pid) : ProcessTable :=
  ⟨fun p => if p ∈ pids then .ok 1 else .error .argument,
    fun p => if p ∈ pids then .ok ⟨none, [], none⟩ else .error .argument⟩

/-- A parent that ended keeps the tree of its children from being reported, in every attempt. -/
theorem ended_parent_not_reported :
    ¬ LoopGetsPast [⟨onlyAlive [100, 200], 100, 200⟩]
      fun _ => (onlyAlive [200], fun _ => .ok []) := by
  intro passes
  obtain ⟨k, reported⟩ := passes
  obtain ⟨-, obtainable⟩ := reportable_of_reported reported
  exact not_completes_error _ (obtainable 200 100 rfl).2

end GuestAgent.Guarantees.ProcessesReported
