import GuestAgent.Source.EventServer

/-!
Handling an event a second time, the machine unchanged in between.

Every handler but one remembers what it has seen: accesses add a record only when
it differs, registry keys and pids are entered once. `NotifyFileRename` forgets the
old name it has just moved away, so the second delivery of a rename finds it unknown
and takes the other branch.
-/
namespace GuestAgent.Guarantees.Redelivery
open Library Source Source.FileTable

/-- The two states agree in everything the report is made from. -/
structure Same (s s' : GuestState) : Prop where
  files : ∀ path, s.files.entry? path = s'.files.entry? path
  registry : ∀ path, s.registry.lookup path = s'.registry.lookup path
  monitored : s.pids.monitoredPids = s'.pids.monitoredPids
  services : s.pids.servicePids = s'.pids.servicePids
  processes : ∀ pid, s.pids.hierarchy.processes.lookup pid = s'.pids.hierarchy.processes.lookup pid
  infos : ∀ pid, s.pids.hierarchy.pinfo.lookup pid = s'.pids.hierarchy.pinfo.lookup pid

/-- Every event but a rename between two different names that the settings let through. -/
def Repeatable (settings : Settings) : Event → Prop
  | .fileRename oldPath newPath =>
    settings.logFs = false ∨ oldPath = [] ∨ newPath = [] ∨ purge oldPath = purge newPath
  | _ => True

theorem Same.refl (s : GuestState) : Same s s :=
  ⟨fun _ => rfl, fun _ => rfl, rfl, rfl, fun _ => rfl, fun _ => rfl⟩

theorem same_files_iff (s : GuestState) (f f' : FileTable) :
    Same { s with files := f } { s with files := f' } ↔ ∀ path, f.entry? path = f'.entry? path :=
  ⟨Same.files, fun h => ⟨h, fun _ => rfl, rfl, rfl, fun _ => rfl, fun _ => rfl⟩⟩

theorem entry?_eq_none {t : FileTable} {k : WString} : t.entry? k = none ↔ t.ref? k = none :=
  Option.map_eq_none_iff

/-- After a rename to another name the old name is tracked exactly if it was not before. -/
theorem old_name_after_rename (fs : FileSystem) {oPath nPath : WString} (t : FileTable)
    (ho : oPath ≠ []) (hn : nPath ≠ []) (moved : purge oPath ≠ purge nPath) :
    (t.notifyFileRename fs oPath nPath).state.entry? (purge oPath) = none ↔
      t.entry? (purge oPath) ≠ none := by
  rw [entry?_eq_none, ne_eq, entry?_eq_none]
  rcases notifyFileRename_cases fs oPath nPath t with
    ⟨blank, _⟩ | ⟨_, _, r, held, h⟩ | ⟨_, _, free, h⟩
  · exact absurd blank (not_or.mpr ⟨ho, hn⟩)
  · rw [h, call_ref?, ObjectTable.ref?_rekey_old held moved, held]
    simp
  · rw [h, call_ref?, t.ref?_addNew_self, free]
    simp

/-- A rename onto the same name leaves the object there, with nothing more to record. -/
theorem rename_in_place (fs : FileSystem) {oPath nPath : WString} (t : FileTable) (ho : oPath ≠ [])
    (hn : nPath ≠ []) (same : purge oPath = purge nPath) :
    ∃ r, (t.notifyFileRename fs oPath nPath).state.ref? (purge nPath) = some r ∧
      (((t.notifyFileRename fs oPath nPath).state.objects r).notifyRenamedTo fs
        (purge nPath)).state = (t.notifyFileRename fs oPath nPath).state.objects r := by
  rcases notifyFileRename_cases fs oPath nPath t with
    ⟨blank, _⟩ | ⟨_, _, r, held, h⟩ | ⟨_, _, _, h⟩
  · exact absurd blank (not_or.mpr ⟨ho, hn⟩)
  · refine ⟨r, ?_, ?_⟩
    · rw [h, call_ref?, ObjectTable.ref?_rekey_new held]
    · simp only [h, call, ObjectTable.objects_update_self, FileAccessInfo.notifyRenamedTo_again]
  · refine ⟨t.next, ?_, ?_⟩
    · rw [h, call_ref?, same, t.ref?_addNew_self]
    · simp only [h, call, ObjectTable.objects_update_self, FileAccessInfo.notifyRenamedTo_again]

theorem rename_in_place_again (fs : FileSystem) {oPath nPath : WString} (t : FileTable)
    (ho : oPath ≠ []) (hn : nPath ≠ []) (same : purge oPath = purge nPath) (k : WString) :
    (notifyFileRename fs oPath nPath (t.notifyFileRename fs oPath nPath).state).state.entry? k =
      (t.notifyFileRename fs oPath nPath).state.entry? k := by
  obtain ⟨r, held, fixed⟩ := rename_in_place fs t ho hn same
  generalize (t.notifyFileRename fs oPath nPath).state = u at held fixed ⊢
  rw [notifyFileRename, if_neg ho, if_neg hn, same, held]
  have entries : ∀ q, (u.rekey (purge nPath) (purge nPath)).ref? k = some q ↔ u.ref? k = some q := by
    intro q
    rw [ObjectTable.ref?_rekey_iff held]
    by_cases target : k = purge nPath
    · simp [target, held, eq_comm]
    · simp [target]
  have refs : (u.rekey (purge nPath) (purge nPath)).ref? k = u.ref? k := Option.ext entries
  simp only [ObjectTable.entry?, call_ref?, refs]
  refine congrArg (fun f => Option.map f (u.ref? k)) ?_
  funext q
  by_cases hit : q = r
  · subst hit
    simp only [call, ObjectTable.objects_update_self, ObjectTable.objects_rekey, fixed]
  · rw [call_objects_ne _ _ hit, ObjectTable.objects_rekey]

theorem rename_again_iff (fs : FileSystem) (oPath nPath : WString) (t : FileTable) :
    (∀ k, (notifyFileRename fs oPath nPath (t.notifyFileRename fs oPath nPath).state).state.entry? k =
      (t.notifyFileRename fs oPath nPath).state.entry? k) ↔
    oPath = [] ∨ nPath = [] ∨ purge oPath = purge nPath := by
  by_cases ho : oPath = []
  · simp [notifyFileRename, ho]
  by_cases hn : nPath = []
  · simp [notifyFileRename, ho, hn]
  by_cases same : purge oPath = purge nPath
  · exact iff_of_true (rename_in_place_again fs t ho hn same) (.inr (.inr same))
  · refine iff_of_false (fun twice => ?_) (by simp [ho, hn, same])
    have first := old_name_after_rename fs t ho hn same
    have second := old_name_after_rename fs (t.notifyFileRename fs oPath nPath).state ho hn same
    rw [twice] at second
    exact iff_not_self second

/-- Handling the event of a hook twice in a row is the same as handling it once exactly
if it is repeatable, in every state of the guest. -/
theorem redelivery_harmless_iff (settings : Settings) (m : Machine) (e : Event) (s : GuestState) :
    Same (s.deliver settings m [e, e]) (s.deliver settings m [e]) ↔ Repeatable settings e := by
  simp only [GuestState.deliver, List.foldl_cons, List.foldl_nil, processEvent_element]
  cases e with
  | newPid parentPid childPid =>
    refine iff_of_true ?_ trivial
    simp only [Event.handler, GuestState.call, Outcome.within_state, PidStatus.addPid_again]
    exact Same.refl _
  | removedPid pid =>
    refine iff_of_true ?_ trivial
    simp only [Event.handler, GuestState.call, Outcome.within_state, PidStatus.removePid_again]
    exact Same.refl _
  | fileAccess fullPath mode =>
    refine iff_of_true ?_ trivial
    cases on : settings.logFs with
    | false =>
      simp only [Event.handler, on, Bool.false_eq_true, if_false]
      exact Same.refl s
    | true =>
      simp only [Event.handler, on, if_true, GuestState.call, Outcome.within_state,
        notifyFileAccess_again]
      exact Same.refl _
  | fileRename oldPath newPath =>
    cases on : settings.logFs with
    | false =>
      refine iff_of_true ?_ (.inl on)
      simp only [Event.handler, on, Bool.false_eq_true, if_false]
      exact Same.refl s
    | true =>
      simp only [Event.handler, on, if_true, GuestState.call, Outcome.within_state]
      rw [same_files_iff, rename_again_iff]
      simp [Repeatable, on]
  | registryAccess fullPath mode =>
    refine iff_of_true ?_ trivial
    cases on : settings.logReg with
    | false =>
      simp only [Event.handler, on, Bool.false_eq_true, if_false]
      exact Same.refl s
    | true =>
      simp only [Event.handler, on, if_true, GuestState.call, Outcome.within_state,
        RegMap.notifyRegistryAccess_again]
      exact Same.refl _

/-- The first rename leaves nothing under `a` but an entry with the path `b`; the second
moves it, and a third would start over. -/
theorem second_rename_moves_entry :
    ¬ ∀ (m : Machine) (e : Event),
      Same (GuestState.empty.deliver .default m [e, e]) (GuestState.empty.deliver .default m [e]) := by
  intro harmless
  have same := (harmless .bare (.fileRename (wide "C:\\a") (wide "C:\\b"))).files (wide "C:\\a")
  exact absurd same (by decide)

end GuestAgent.Guarantees.Redelivery
