import GuestAgent.Library.Runs
import GuestAgent.Source.Hooks

/-!
What `handleMap` knows about the files a process has open through the hooks.

The kernel side of a run is a table of open handles and the current path of every
file; it answers each call as it likes within `Possible`. The hooks add an entry
when an open returns status 0 and change the map nowhere else, so the map is right
exactly as long as no open succeeds with another status, no rename moves a file
that is open through the hooks, and no such handle is closed.
-/
namespace GuestAgent.Guarantees.HandlePaths
open Library.Runs Source

abbrev File := Nat

/-- An open handle; `hooked` tells the handles the hooks handed out from all others. -/
structure OpenHandle where
  file : File
  hooked : Bool

structure State where
  handles : Handle → Option OpenHandle
  path : File → WString
  handleMap : HandleMap

/-- A call of the process with the answer of the kernel. `untracked` is a handle the
process obtains from a call that is not hooked. -/
inductive FileCall where
  | openFile (mode : FileMode) (mask : AccessMask) (oa : ObjectAttributes) (answer : OpenAnswer)
      (file : File)
  | setInformation (handle : Handle) (informationClass : UInt32) (info : RenameInformation)
      (status : NtStatus) (paths : File → WString)
  | close (handle : Handle) (status : NtStatus)
  | untracked (handle : Handle) (file : File)

variable (p : Process)

/-- The hook that runs, or nothing for a call that is not hooked. -/
def hook (s : State) : FileCall → HookRun
  | .openFile mode mask oa answer _ => openHook mode p mask oa answer s.handleMap
  | .setInformation handle informationClass info status _ =>
    myNtSetInformationFile p handle informationClass info status s.handleMap
  | .close .. => myNtClose s.handleMap
  | .untracked .. => ⟨[], [], s.handleMap⟩

def isRename (informationClass : UInt32) (status : NtStatus) : Prop :=
  informationClass = fileRenameInformation ∧ ntSuccess status = true

instance (informationClass : UInt32) (status : NtStatus) :
    Decidable (isRename informationClass status) := inferInstanceAs (Decidable (_ ∧ _))

def after (s : State) (c : FileCall) : State :=
  { handles := match c with
      | .openFile _ _ _ answer file =>
        if ntSuccess answer.status then
          Function.update s.handles answer.handle (some ⟨file, true⟩)
        else s.handles
      | .setInformation .. => s.handles
      | .close handle status =>
        if ntSuccess status then Function.update s.handles handle none else s.handles
      | .untracked handle file => Function.update s.handles handle (some ⟨file, false⟩)
    path := match c with
      | .setInformation _ informationClass _ status paths =>
        if isRename informationClass status then paths else s.path
      | _ => s.path
    handleMap := (hook p s c).handles }

/-- What the kernel may answer. A handle it returns was not in use, and the path a hook
builds for an open is the path of the file that is opened. -/
def Possible (s : State) : FileCall → Prop
  | .openFile _ _ oa answer file => ntSuccess answer.status = true →
      s.handles answer.handle = none ∧ getFullPathByObjectAttributes p oa = s.path file
  | .setInformation handle informationClass _ status _ => isRename informationClass status →
      (s.handles handle).isSome = true
  | .close handle status => ntSuccess status = true → (s.handles handle).isSome = true
  | .untracked handle _ => s.handles handle = none

/-- The current path of the file behind a handle that is open through the hooks. -/
def hookedPath (s : State) (h : Handle) : Option WString :=
  match s.handles h with
  | some o => if o.hooked then some (s.path o.file) else none
  | none => none

/-- `Lookup` succeeds for the handles open through the hooks and yields their current path. -/
def Tracked (s : State) : Prop := ∀ h, s.handleMap.lookup h = hookedPath s h

/-- A rename event carries the path the renamed file has before the call. -/
def RightOldPath (s : State) (c : FileCall) : Prop :=
  ∀ oldPath newPath, Event.fileRename oldPath newPath ∈ (hook p s c).before ++ (hook p s c).after →
    ∃ handle informationClass info status paths,
      c = .setInformation handle informationClass info status paths ∧
      (s.handles handle).map (fun o => s.path o.file) = some oldPath

/-- The calls after which the map is still right. -/
def KeepsTrack (s : State) : FileCall → Prop
  | .openFile _ _ _ answer _ => ntSuccess answer.status = true → answer.status = 0
  | .setInformation _ informationClass _ status paths => isRename informationClass status →
      ∀ h o, s.handles h = some o → o.hooked = true → paths o.file = s.path o.file
  | .close handle status => ntSuccess status = true → hookedPath s handle = none
  | .untracked .. => True

variable {p}

theorem hookedPath_congr {s s' : State} {h : Handle} (handles : s'.handles h = s.handles h)
    (path : ∀ o, s.handles h = some o → s'.path o.file = s.path o.file) :
    hookedPath s h = hookedPath s' h := by
  unfold hookedPath
  rw [handles]
  cases entry : s.handles h with
  | none => rfl
  | some o => simp only [path o entry]

theorem tracked_open_iff {s : State} (tracked : Tracked s) (mode : FileMode) (mask : AccessMask)
    (oa : ObjectAttributes) (answer : OpenAnswer) (file : File)
    (possible : Possible p s (.openFile mode mask oa answer file)) :
    Tracked (after p s (.openFile mode mask oa answer file)) ↔
      KeepsTrack s (.openFile mode mask oa answer file) := by
  by_cases success : ntSuccess answer.status = true
  · obtain ⟨fresh, built⟩ := possible success
    have opened : hookedPath (after p s (.openFile mode mask oa answer file)) answer.handle =
        some (s.path file) := by
      simp [hookedPath, after, success]
    by_cases zero : answer.status = 0
    · refine iff_of_true (fun h => ?_) fun _ => zero
      by_cases same : h = answer.handle
      · subst same
        rw [opened]
        simp [after, hook, openHook, zero, built]
      · have entry : (after p s (.openFile mode mask oa answer file)).handleMap.lookup h =
            s.handleMap.lookup h := by
          simp [after, hook, openHook, zero, AList.lookup_insert_ne same]
        rw [entry, tracked h]
        exact hookedPath_congr (by simp [after, success, same]) (fun _ _ => rfl)
    · refine iff_of_false (fun now => ?_) fun keeps => zero (keeps success)
      have missing : (after p s (.openFile mode mask oa answer file)).handleMap.lookup
          answer.handle = none := by
        simp [after, hook, openHook, zero, tracked answer.handle, hookedPath, fresh]
      have found := now answer.handle
      rw [opened, missing] at found
      cases found
  · have failed : answer.status ≠ 0 := by
      rintro zero
      exact success (by rw [zero]; rfl)
    refine iff_of_true (fun h => ?_) fun yes => absurd yes success
    have entry : (after p s (.openFile mode mask oa answer file)).handleMap.lookup h =
        s.handleMap.lookup h := by
      simp [after, hook, openHook, failed]
    rw [entry, tracked h]
    exact hookedPath_congr (by simp [after, success]) (fun _ _ => rfl)

theorem tracked_setInformation_iff {s : State} (tracked : Tracked s) (handle : Handle)
    (informationClass : UInt32) (info : RenameInformation) (status : NtStatus)
    (paths : File → WString) :
    Tracked (after p s (.setInformation handle informationClass info status paths)) ↔
      KeepsTrack s (.setInformation handle informationClass info status paths) := by
  by_cases rename : isRename informationClass status
  · constructor
    · intro now _ h o entry hooked
      have known := (tracked h).symm.trans (now h)
      simpa [hookedPath, after, entry, hooked, rename, eq_comm] using known
    · intro keeps h
      have moved : hookedPath (after p s (.setInformation handle informationClass info status paths)) h =
          hookedPath s h := by
        unfold hookedPath
        cases entry : s.handles h with
        | none => simp [after, entry]
        | some o =>
          cases hooked : o.hooked with
          | false => simp [after, entry, hooked]
          | true => simp [after, entry, hooked, rename, keeps rename h o entry hooked]
      exact (tracked h).trans moved.symm
  · refine iff_of_true (fun h => ?_) fun yes => absurd yes rename
    exact (tracked h).trans
      (hookedPath_congr rfl (fun _ _ => by simp only [after, if_neg rename]))

theorem tracked_close_iff {s : State} (tracked : Tracked s) (handle : Handle) (status : NtStatus) :
    Tracked (after p s (.close handle status)) ↔ KeepsTrack s (.close handle status) := by
  by_cases success : ntSuccess status = true
  · constructor
    · intro now _
      rw [← tracked handle]
      exact (now handle).trans (by simp [hookedPath, after, success])
    · intro keeps h
      by_cases same : h = handle
      · subst same
        refine (tracked h).trans ((keeps success).trans ?_)
        simp [hookedPath, after, success]
      · exact (tracked h).trans
          (hookedPath_congr (by simp [after, success, same]) (fun _ _ => rfl))
  · refine iff_of_true (fun h => ?_) fun yes => absurd yes success
    exact (tracked h).trans (hookedPath_congr (by simp [after, success]) (fun _ _ => rfl))

theorem tracked_untracked {s : State} (tracked : Tracked s) (handle : Handle) (file : File)
    (fresh : s.handles handle = none) : Tracked (after p s (.untracked handle file)) := by
  intro h
  by_cases same : h = handle
  · subst same
    apply (tracked h).trans
    simp [hookedPath, after, fresh]
  · exact (tracked h).trans (hookedPath_congr (by simp [after, same]) (fun _ _ => rfl))

/-- A rename event is sent for a handle of the map only, hence with its current path. -/
theorem rightOldPath_of_tracked {s : State} (tracked : Tracked s) (c : FileCall) :
    RightOldPath p s c := by
  intro oldPath newPath sent
  cases c with
  | openFile mode mask oa answer file =>
    simp only [hook, openHook, openEvents, List.append_nil] at sent
    split at sent <;> simp at sent
  | setInformation handle informationClass info status paths =>
    refine ⟨handle, informationClass, info, status, paths, rfl, ?_⟩
    simp only [hook, myNtSetInformationFile, List.nil_append] at sent
    split at sent
    · cases known : s.handleMap.lookup handle with
      | none => simp [known] at sent
      | some path =>
        simp only [known, List.mem_singleton, Event.fileRename.injEq] at sent
        have current := (tracked handle).symm.trans known
        rw [sent.1]
        unfold hookedPath at current
        cases entry : s.handles handle with
        | none => simp [entry] at current
        | some o =>
          simp only [entry] at current
          split at current
          · exact current
          · cases current
    · simp at sent
  | close handle status => simp [hook, myNtClose] at sent
  | untracked handle file => simp [hook] at sent

theorem keepsTrack_exact (s : State) (c : FileCall) (tracked : Tracked s)
    (possible : Possible p s c) : Tracked (after p s c) ∧ RightOldPath p s c ↔ KeepsTrack s c := by
  rw [and_iff_left (rightOldPath_of_tracked tracked c)]
  cases c with
  | openFile mode mask oa answer file => exact tracked_open_iff tracked _ _ _ _ _ possible
  | setInformation handle informationClass info status paths =>
    exact tracked_setInformation_iff tracked _ _ _ _ _
  | close handle status => exact tracked_close_iff tracked _ _
  | untracked handle file => exact iff_of_true (tracked_untracked tracked _ _ possible) trivial

/-- The process before its first call: no handle open, nothing recorded. -/
def start (path : File → WString) : State := ⟨fun _ => none, path, ∅⟩

theorem tracked_start (path : File → WString) : Tracked (start path) := fun _ => rfl

/-- In every state of a run the map holds the current path of exactly the handles open
through the hooks, and every rename event the path before the rename, exactly if every
call of the run keeps track. -/
theorem handle_map_right_iff (path : File → WString) (calls : List FileCall)
    (possible : EachStep (after p) (Possible p) (start path) calls) :
    Throughout (after p) Tracked (start path) calls ∧
      EachStep (after p) (RightOldPath p) (start path) calls ↔
    EachStep (after p) KeepsTrack (start path) calls :=
  throughout_and_eachStep_iff_of_possible keepsTrack_exact (tracked_start path) possible

/-- A process whose handles have no name and whose table of rights is followed by ones. -/
def plainProcess : Process := ⟨fun _ => [], fun _ => [], fun _ => 0xFFFFFFFF⟩

/-- Every file of the example below is the one that starts as `a`. -/
def named (name : String) : File → WString := fun _ => ntPrefix ++ wide name

def openA : FileCall :=
  .openFile .opened 0x2 ⟨none, .ofText (ntPrefix ++ wide "C:\\a")⟩ ⟨0, 4⟩ 0

def renameTo (name : String) : FileCall :=
  .setInformation 4 fileRenameInformation ⟨none, ntPrefix ++ wide name⟩ 0 (named name)

/-- A file next to it, open past the hooks, is renamed and its handle closed. -/
def harmless : List FileCall :=
  [openA, .untracked 8 1,
    .setInformation 8 fileRenameInformation ⟨none, ntPrefix ++ wide "C:\\c"⟩ 0
      (fun file => if file = 1 then ntPrefix ++ wide "C:\\c" else ntPrefix ++ wide "C:\\a"),
    .close 8 0]

theorem harmless_possible :
    EachStep (after plainProcess) (Possible plainProcess) (start (named "C:\\a")) harmless := by
  refine (eachStep_cons ..).mpr ⟨fun _ => ⟨rfl, by decide⟩, ?_⟩
  refine (eachStep_cons ..).mpr ⟨rfl, ?_⟩
  refine (eachStep_cons ..).mpr ⟨fun _ => rfl, ?_⟩
  exact (eachStep_cons ..).mpr ⟨fun _ => rfl, eachStep_nil _ _ _⟩

theorem harmless_keepsTrack :
    EachStep (after plainProcess) KeepsTrack (start (named "C:\\a")) harmless := by
  refine (eachStep_cons ..).mpr ⟨fun _ => rfl, ?_⟩
  refine (eachStep_cons ..).mpr ⟨trivial, ?_⟩
  refine (eachStep_cons ..).mpr ⟨fun _ h o entry hooked => ?_, ?_⟩
  · -- the one file open through the hooks is not renamed
    have file : o = ⟨0, true⟩ := by
      by_cases other : h = 8
      · subst other
        cases entry
        cases hooked
      · by_cases opened : h = 4
        · subst opened
          cases entry
          rfl
        · simp [after, openA, start, ntSuccess, other, opened] at entry
    rw [file]
    rfl
  · exact (eachStep_cons ..).mpr ⟨fun _ => rfl, eachStep_nil _ _ _⟩

theorem handle_map_right_after_close :
    Throughout (after plainProcess) Tracked (start (named "C:\\a")) harmless ∧
      EachStep (after plainProcess) (RightOldPath plainProcess) (start (named "C:\\a")) harmless :=
  (handle_map_right_iff (named "C:\\a") harmless harmless_possible).mpr harmless_keepsTrack

/-- Two renames through one handle: the second event still names the file `a`. -/
theorem second_rename_reports_first_name :
    ¬ ∀ (p : Process) (path : File → WString) (calls : List FileCall),
      EachStep (after p) (Possible p) (start path) calls →
      Throughout (after p) Tracked (start path) calls ∧
        EachStep (after p) (RightOldPath p) (start path) calls := by
  intro always_right
  let calls := [openA, renameTo "C:\\b", renameTo "C:\\c"]
  have possible : EachStep (after plainProcess) (Possible plainProcess)
      (start (named "C:\\a")) calls := by
    refine (eachStep_cons ..).mpr ⟨fun _ => ⟨rfl, by decide⟩, ?_⟩
    refine (eachStep_cons ..).mpr ⟨fun _ => rfl, ?_⟩
    exact (eachStep_cons ..).mpr ⟨fun _ => rfl, eachStep_nil _ _ _⟩
  have right := (always_right plainProcess (named "C:\\a") calls possible).2
    [openA, renameTo "C:\\b"] (renameTo "C:\\c") [] rfl
  obtain ⟨handle, _, _, _, _, same, old⟩ := right (ntPrefix ++ wide "C:\\a")
    (ntPrefix ++ wide "C:\\c") (by decide)
  cases same
  exact absurd old (by decide)

end GuestAgent.Guarantees.HandlePaths
