import GuestAgent.Library.Runs
import GuestAgent.Guarantees.RegistryChanges
import GuestAgent.Guarantees.ReportEnds

/-!
What the traversal of the logs sees of them.

The report throws exactly if a dictionary is modified while its loop goes through it, a record is
added to a history that is listed, or something a loop body asks is refused. Otherwise it shows
one instant if there is one between the two loops such that the registry dictionary was not
modified since its loop ended and the file dictionary is not modified before its loop begins; the
number of files is taken behind that instant.
-/
namespace GuestAgent.Guarantees.ReportSnapshot
open Library Library.Runs Library.Versioned Source Source.ReportWorld
open RegistryChanges (KeyGoes completes_keyTurn_iff)
open ReportBodies (BodyGoes BodySound BodyNotAhead Stale isListing)
open ReportEnds (isOver body_moves body_cases Ends Unfailed unfailed_step report_ends)

variable (s : ReportSettings)

/-- The report finished; it went past what the logs held at one instant of the run, made an element
of every file, and the count it wrote is that of the files it went past. -/
def ShowsOneInstant (w : ReportWorld) (labels : List ReportLabel) : Prop :=
  ∃ keys count files, (run (step s) w labels).phase = .finished keys count files ∧
    count = files.length ∧ ∃ moment, moment <+: labels ∧
      (run (step s) w moment).registry.content = keys.map (·.1) ∧
      (run (step s) w moment).files.content = files.map (·.1)

/-- No dictionary is modified while a loop goes through it, no record is added to a history a body
goes through, and what the bodies ask is answered. -/
def Spares (w : ReportWorld) : ReportLabel → Prop
  | .edit (.registry _) => match w.phase with
    | .inRegistry _ _ | .inKey _ _ _ => False
    | _ => True
  | .edit (.files _) => match w.phase with
    | .inFiles _ _ (some _) _ => False
    | _ => True
  | .key looks => match w.phase with
    | .inKey _ _ k => KeyGoes s.casing k looks
    | _ => True
  | .body i fs strings => ∀ keys count e bodies r b, w.phase = .inFiles keys count e bodies →
    bodies[i]? = some (r, b) → ¬ (b = .start ∧ w.inside r = true) →
    BodyGoes s.performStringAnalysis fs strings (w.objects r) b
  | .record r fs => ∀ keys count e bodies b x, w.phase = .inFiles keys count e bodies →
    (r, b) ∈ bodies → isListing b = true → w.inside r = true →
    collect fs (w.objects r).path = .ok x → (w.objects r).info.getLast? = some x
  | _ => True

/-- Behind the first loop, up to the instant. -/
def SparesRegistry (w : ReportWorld) : ReportLabel → Prop
  | .edit (.registry _) => match w.phase with
    | .registryDone _ => False
    | _ => True
  | _ => True

/-- From the instant on, in front of the second loop. -/
def SparesFiles (w : ReportWorld) : ReportLabel → Prop
  | .edit (.files _) => match w.phase with
    | .registryDone _ | .counted _ _ => False
    | _ => True
  | _ => True

/-- Nothing comes in the way of the loops and their bodies, and there is an instant between the
loops as the report needs it. -/
def Undisturbed (w : ReportWorld) (labels : List ReportLabel) : Prop :=
  EachStep (step s) (Spares s) w labels ∧
    ∃ before after, labels = before ++ after ∧
      (∃ keys, (run (step s) w before).phase = .registryDone keys) ∧
      EachStep (step s) SparesRegistry w before ∧
      EachStep (step s) SparesFiles (run (step s) w before) after

/-! ### Nothing throws -/

/-- No loop has met a modification, and no body has thrown. -/
def SoundInv (w : ReportWorld) : Prop :=
  match w.phase with
  | .inRegistry e keys => Reading w.registry e (keys.map (·.1))
  | .inKey e keys k => Reading w.registry e (keys.map (·.1) ++ [k])
  | .inFiles _ _ e bodies =>
    (∀ e', e = some e' → Reading w.files e' (bodies.map (·.1))) ∧
      ∀ p ∈ bodies, BodySound (w.objects p.1) p.2
  | .stopping _ | .threw => False
  | _ => True

/-- What happens to an object spares the bodies. -/
def ObjectKept (w : ReportWorld) (r : Ref) (t : FileAccessInfo) : Prop :=
  ((w.objects r).finalized = true → t.finalized = true) ∧
    ∀ b, (r, b) ∈ bodies w.phase → isListing b = true → t.info.length = (w.objects r).info.length

theorem soundInv_setObject {w : ReportWorld} {r : Ref} {t : FileAccessInfo} (inv : SoundInv w)
    (kept : ObjectKept w r t) : SoundInv (w.setObject r t) := by
  obtain ⟨registry, files, objects, inside, phase⟩ := w
  cases phase with
  | inFiles keys count e bs =>
    refine ⟨inv.1, fun p member => ?_⟩
    by_cases same : p.1 = r
    · obtain ⟨q, b⟩ := p
      obtain rfl : q = r := same
      refine (inv.2 _ member).of_kept ?_ ?_
      · simpa [setObject] using kept.1
      · simpa [setObject] using kept.2 b member
    · simpa [setObject, same] using inv.2 p member
  | _ => exact inv

/-- A step of a body spares the others: a frozen object stays as it is. -/
theorem objectKept_next {w : ReportWorld} (inv : SoundInv w) (r : Ref) (b : FileBody)
    (fs : FileSystem) (strings : Except Exn Unit) :
    ObjectKept w r (b.next s.performStringAnalysis fs strings (w.objects r)).1 := by
  refine ⟨fun frozen => ?_, fun b' member lists => ?_⟩
  · rw [ReportBodies.next_frozen _ _ _ frozen]
    exact frozen
  · have frozen : (w.objects r).finalized = true := by
      obtain ⟨registry, files, objects, inside, phase⟩ := w
      cases phase with
      | inFiles keys count e bs =>
        have sound := inv.2 _ member
        cases b' with
        | listing => exact sound.1
        | _ => cases lists
      | stopping bs => exact absurd inv id
      | _ => cases member
    rw [ReportBodies.next_frozen _ _ _ frozen]

/-- The same for a record that is not new, or that nobody goes past. -/
theorem objectKept_record {w : ReportWorld} {r : Ref} {fs : FileSystem} {x : AccessInfo}
    (inv : SoundInv w) (within : w.inside r = true) (collected : collect fs (w.objects r).path = .ok x)
    (spares : Spares s w (.record r fs)) : ObjectKept w r ((w.objects r).record x) := by
  refine ⟨fun frozen => by rw [FileAccessInfo.record_finalized, frozen], fun b member lists => ?_⟩
  obtain ⟨registry, files, objects, inside, phase⟩ := w
  cases phase with
  | inFiles keys count e bs =>
    have known := spares keys count e bs b x rfl member lists within collected
    rw [FileAccessInfo.record, if_pos known]
  | stopping bs => exact absurd inv id
  | _ => cases member

theorem map_fst_set {α β : Type} {l : List (α × β)} {i : Nat} {a : α} {b : β}
    (found : l[i]? = some (a, b)) (b' : β) : (l.set i (a, b')).map (·.1) = l.map (·.1) := by
  obtain ⟨bound, same⟩ := List.getElem?_eq_some_iff.mp found
  have here : (l.map (·.1)).get ⟨i, by simpa using bound⟩ = a := by simp [same]
  rw [List.map_set, ← here]
  exact List.set_getElem_self _

theorem soundInv_step (w : ReportWorld) (l : ReportLabel) (inv : SoundInv w)
    (spares : Spares s w l) : SoundInv (step s w l) := by
  obtain ⟨registry, files, objects, inside, phase⟩ := w
  cases l with
  | report =>
    cases phase with
    | waiting => exact reading_getEnumerator registry
    | counted keys count =>
      exact ⟨fun e' same => by cases same; exact reading_getEnumerator files, by simp⟩
    | inRegistry e keys =>
      cases Reading.moveNext inv with
      | inl goes =>
        obtain ⟨k, move, -, next⟩ := goes
        simp only [SoundInv, step, report, move]
        exact next
      | inr ends => simp only [SoundInv, step, report, ends.1]
    | inFiles keys count e bs =>
      cases e with
      | some e =>
        cases Reading.moveNext (inv.1 e rfl) with
        | inl goes =>
          obtain ⟨file, move, -, next⟩ := goes
          simp only [SoundInv, step, report, move]
          refine ⟨fun e' same => ?_, fun p member => ?_⟩
          · cases same
            simpa using next
          · rcases List.mem_append.mp member with old | new
            · exact inv.2 p old
            · rw [List.mem_singleton.mp new]
              trivial
        | inr ends =>
          simp only [SoundInv, step, report, ends.1]
          exact ⟨by simp, inv.2⟩
      | none =>
        simp only [SoundInv, step, report]
        cases elements? bs with
        | some files => trivial
        | none => exact inv
    | stopping | threw => exact absurd inv id
    | _ => exact inv
  | key looks =>
    cases phase with
    | inKey e keys k =>
      obtain ⟨element, made⟩ := (completes_keyTurn_iff s.casing k looks).mpr spares
      simp only [SoundInv, step, key, made, List.map_append, List.map_singleton]
      exact inv
    | _ => exact inv
  | body i fs strings =>
    rcases body_cases s ⟨registry, files, objects, inside, phase⟩ i fs strings with
      stays | ⟨r, b, found, free, moves⟩
    · rw [step, stays]
      exact inv
    · rw [step, moves]
      have object := soundInv_setObject inv (objectKept_next s inv r b fs strings)
      cases phase with
      | inFiles keys count e bs =>
        have here : (r, b) ∈ bs := List.mem_of_getElem? found
        have same : (bs.set i (r, (b.next s.performStringAnalysis fs strings (objects r)).2)).map
            (·.1) = bs.map (·.1) := map_fst_set found _
        have sound := ReportBodies.next_sound _ _ _ (inv.2 _ here)
          (spares keys count e bs r b rfl found free)
        have through : (b.next s.performStringAnalysis fs strings (objects r)).2 ≠ .failed := by
          intro failed
          rw [failed] at sound
          exact sound
        simp only [SoundInv, advance, if_neg through]
        refine ⟨fun e' there => ?_, fun p member => ?_⟩
        · rw [same]
          exact inv.1 e' there
        · rcases List.mem_or_eq_of_mem_set member with old | rfl
          · exact object.2 p old
          · simpa [setObject] using sound
      | stopping bs => exact absurd inv id
      | _ => cases found
  | edit edit =>
    cases edit with
    | registry m =>
      cases phase with
      | inRegistry | inKey => exact absurd spares id
      | _ => exact inv
    | files map =>
      cases phase with
      | inFiles keys count e bs =>
        cases e with
        | some e => exact absurd spares id
        | none => exact ⟨by simp, inv.2⟩
      | _ => exact inv
  | assign r path => exact soundInv_setObject inv ⟨id, fun _ _ _ => rfl⟩
  | enter r =>
    simp only [step]
    split
    · exact inv
    · exact inv
  | record r fs =>
    simp only [step]
    split
    · next within =>
      cases collected : collect fs (objects r).path with
      | ok x => exact soundInv_setObject inv (objectKept_record s inv within collected spares)
      | error e => exact inv
    · exact inv

/-! ### The instant -/

/-- Up to the instant, the first loop has shown what the dictionary holds. -/
def RegistryInv (w : ReportWorld) : Prop :=
  match w.phase with
  | .registryDone keys => keys.map (·.1) = w.registry.content
  | _ => True

theorem registryInv_step (w : ReportWorld) (l : ReportLabel) (sound : SoundInv w)
    (inv : RegistryInv w) (spares : SparesRegistry w l) : RegistryInv (step s w l) := by
  obtain ⟨registry, files, objects, inside, phase⟩ := w
  cases l with
  | report =>
    cases phase with
    | inRegistry e keys =>
      cases Reading.moveNext sound with
      | inl goes =>
        obtain ⟨k, move, -⟩ := goes
        simp only [RegistryInv, step, report, move]
      | inr ends =>
        simp only [RegistryInv, step, report, ends.1]
        exact ends.2
    | inFiles keys count e bs =>
      cases e with
      | some e =>
        simp only [RegistryInv, step, report]
        cases files.moveNext e <;> trivial
      | none =>
        simp only [RegistryInv, step, report]
        cases elements? bs <;> trivial
    | stopping bs =>
      simp only [RegistryInv, step, report]
      split <;> trivial
    | _ => trivial
  | key looks =>
    cases phase with
    | inKey e keys k =>
      simp only [RegistryInv, step, key]
      cases keyTurn s.casing k looks <;> trivial
    | _ => exact inv
  | body i fs strings =>
    rcases body_cases s ⟨registry, files, objects, inside, phase⟩ i fs strings with
      stays | ⟨r, b, found, -, moves⟩
    · rw [step, stays]
      exact inv
    · rw [step, moves]
      cases phase with
      | inFiles keys count e bs =>
        by_cases failed : (b.next s.performStringAnalysis fs strings (objects r)).2 = .failed
        · simp only [RegistryInv, advance, if_pos failed]
        · simp only [RegistryInv, advance, if_neg failed]
      | stopping bs => trivial
      | _ => cases found
  | edit edit =>
    cases edit with
    | registry m =>
      cases phase with
      | registryDone keys => exact absurd spares id
      | _ => exact inv
    | files map => exact inv
  | assign r path => exact inv
  | enter r =>
    simp only [step]
    split <;> exact inv
  | record r fs =>
    simp only [step]
    split
    · cases collect fs (objects r).path <;> exact inv
    · exact inv

/-- From the instant on, at which the dictionaries held `registry` and `files`. -/
def FilesInv (registry : List RegAccessInfo) (files : List Ref) (w : ReportWorld) : Prop :=
  match w.phase with
  | .registryDone keys => keys.map (·.1) = registry ∧ w.files.content = files
  | .counted keys count =>
    keys.map (·.1) = registry ∧ w.files.content = files ∧ count = files.length
  | .inFiles keys count (some _) _ =>
    keys.map (·.1) = registry ∧ w.files.content = files ∧ count = files.length
  | .inFiles keys count none bodies =>
    keys.map (·.1) = registry ∧ bodies.map (·.1) = files ∧ count = files.length
  | .finished keys count elements =>
    keys.map (·.1) = registry ∧ elements.map (·.1) = files ∧ count = files.length
  | _ => False

theorem elements?_map {bodies : List (Ref × FileBody)} {files : List (Ref × FileElement)}
    (made : elements? bodies = some files) : files.map (·.1) = bodies.map (·.1) := by
  induction bodies generalizing files with
  | nil =>
    cases made
    rfl
  | cons p bodies ih =>
    obtain ⟨r, b⟩ := p
    rw [elements?, List.mapM_cons] at made
    obtain ⟨first, done, rest⟩ := Option.bind_eq_some_iff.mp made
    obtain ⟨others, made', same⟩ := Option.bind_eq_some_iff.mp rest
    obtain ⟨element, -, rfl⟩ := Option.map_eq_some_iff.mp done
    cases same
    rw [List.map_cons, List.map_cons, ih made']

theorem filesInv_step (registry : List RegAccessInfo) (files : List Ref) (w : ReportWorld)
    (l : ReportLabel) (sound : SoundInv w) (inv : FilesInv registry files w)
    (spares : Spares s w l) (sparesFiles : SparesFiles w l) :
    FilesInv registry files (step s w l) := by
  have next := soundInv_step s w l sound spares
  obtain ⟨registry', files', objects, inside, phase⟩ := w
  cases l with
  | report =>
    cases phase with
    | registryDone keys => exact ⟨inv.1, inv.2, congrArg List.length inv.2⟩
    | counted keys count => exact inv
    | inFiles keys count e bs =>
      cases e with
      | some e =>
        cases Reading.moveNext (sound.1 e rfl) with
        | inl goes =>
          obtain ⟨file, move, -⟩ := goes
          simp only [FilesInv, step, report, move]
          exact inv
        | inr ends =>
          simp only [FilesInv, step, report, ends.1]
          exact ⟨inv.1, ends.2.trans inv.2.1, inv.2.2⟩
      | none =>
        simp only [FilesInv, step, report]
        cases made : elements? bs with
        | some elements => exact ⟨inv.1, (elements?_map made).trans inv.2.1, inv.2.2⟩
        | none => exact inv
    | finished keys count elements => exact inv
    | _ => exact absurd inv id
  | key looks =>
    cases phase with
    | inKey e keys k => exact absurd inv id
    | _ => exact inv
  | body i fs strings =>
    rcases body_cases s ⟨registry', files', objects, inside, phase⟩ i fs strings with
      stays | ⟨r, b, found, -, moves⟩
    · rw [step, stays]
      exact inv
    · rw [step, moves] at next ⊢
      cases phase with
      | inFiles keys count e bs =>
        have same : (bs.set i (r, (b.next s.performStringAnalysis fs strings (objects r)).2)).map
            (·.1) = bs.map (·.1) := map_fst_set found _
        by_cases failed : (b.next s.performStringAnalysis fs strings (objects r)).2 = .failed
        · simp only [SoundInv, advance, if_pos failed] at next
        · simp only [FilesInv, advance, if_neg failed]
          cases e with
          | some e => exact inv
          | none => exact ⟨inv.1, same.trans inv.2.1, inv.2.2⟩
      | stopping bs => exact absurd inv id
      | _ => cases found
  | edit edit =>
    cases edit with
    | registry m =>
      cases phase with
      | inFiles keys count e bs => cases e <;> exact inv
      | _ => exact inv
    | files map =>
      cases phase with
      | registryDone | counted => exact absurd sparesFiles id
      | inFiles keys count e bs =>
        cases e with
        | some e => exact absurd spares id
        | none => exact inv
      | _ => exact inv
  | assign r path =>
    cases phase with
    | inFiles keys count e bs => cases e <;> exact inv
    | _ => exact inv
  | enter r =>
    simp only [step]
    split <;> exact inv
  | record r fs =>
    simp only [step]
    split
    · cases collect fs (objects r).path with
      | ok x =>
        cases phase with
        | inFiles keys count e bs => cases e <;> exact inv
        | _ => exact inv
      | error e => exact inv
    · exact inv

theorem showsOneInstant_of_undisturbed {w : ReportWorld} {labels : List ReportLabel}
    (idle : w.phase = .waiting) (ended : isOver (run (step s) w labels).phase = true)
    (undisturbed : Undisturbed s w labels) : ShowsOneInstant s w labels := by
  obtain ⟨spares, before, after, rfl, ⟨keys, between⟩, first, second⟩ := undisturbed
  obtain ⟨sparesBefore, sparesAfter⟩ := (eachStep_append (step s) (Spares s) w _ _).mp spares
  have start : SoundInv w ∧ RegistryInv w := by simp [SoundInv, RegistryInv, idle]
  have keepsRegistry (w : ReportWorld) (l : ReportLabel) (inv : SoundInv w ∧ RegistryInv w)
      (meets : Spares s w l ∧ SparesRegistry w l) :
      SoundInv (step s w l) ∧ RegistryInv (step s w l) :=
    ⟨soundInv_step s w l inv.1 meets.1, registryInv_step s w l inv.1 inv.2 meets.2⟩
  have seen := run_invariant keepsRegistry start fun done l rest split =>
    ⟨sparesBefore done l rest split, first done l rest split⟩
  have content : keys.map (·.1) = (run (step s) w before).registry.content := by
    simpa only [RegistryInv, between] using seen.2
  have instant : FilesInv (keys.map (·.1)) (run (step s) w before).files.content
      (run (step s) w before) := by
    simp only [FilesInv, between, and_self]
  have keepsFiles (w' : ReportWorld) (l : ReportLabel)
      (inv : SoundInv w' ∧ FilesInv (keys.map (·.1)) (run (step s) w before).files.content w')
      (meets : Spares s w' l ∧ SparesFiles w' l) : SoundInv (step s w' l) ∧
        FilesInv (keys.map (·.1)) (run (step s) w before).files.content (step s w' l) :=
    ⟨soundInv_step s w' l inv.1 meets.1, filesInv_step s _ _ w' l inv.1 inv.2 meets.1 meets.2⟩
  have last := run_invariant keepsFiles ⟨seen.1, instant⟩ fun done l rest split =>
    ⟨sparesAfter done l rest split, second done l rest split⟩
  rw [← run_append] at last
  cases reached : (run (step s) w (before ++ after)).phase with
  | finished keys' count files =>
    simp only [FilesInv, reached] at last
    obtain ⟨-, shown, elements, number⟩ := last
    refine ⟨keys', count, files, reached, ?_, before, List.prefix_append before after, ?_, ?_⟩
    · rw [number, ← elements, List.length_map]
    · rw [shown, content]
    · exact elements.symm
  | threw => simp only [SoundInv, reached, false_and] at last
  | _ =>
    rw [reached] at ended
    cases ended

/-! ### What makes it throw -/

/-- No enumerator has a version its collection is yet to reach. -/
def NotAhead (w : ReportWorld) : Prop :=
  match w.phase with
  | .inRegistry e _ | .inKey e _ _ => e.version ≤ w.registry.version
  | .inFiles _ _ e bodies =>
    (∀ e', e = some e' → e'.version ≤ w.files.version) ∧
      ∀ p ∈ bodies, BodyNotAhead (w.objects p.1) p.2
  | _ => True

/-- A loop or a body has met a modification, or will at its next move. -/
def Doomed (w : ReportWorld) : Prop :=
  match w.phase with
  | .inRegistry e _ | .inKey e _ _ => e.version < w.registry.version
  | .inFiles _ _ e bodies =>
    (∃ e', e = some e' ∧ e'.version < w.files.version) ∨ ∃ p ∈ bodies, Stale (w.objects p.1) p.2
  | .stopping _ | .threw => True
  | _ => False

theorem notAhead_setObject {w : ReportWorld} {r : Ref} {t : FileAccessInfo} (inv : NotAhead w)
    (grown : (w.objects r).info <+: t.info) : NotAhead (w.setObject r t) := by
  obtain ⟨registry, files, objects, inside, phase⟩ := w
  cases phase with
  | inFiles keys count e bs =>
    refine ⟨inv.1, fun p member => ?_⟩
    by_cases same : p.1 = r
    · obtain ⟨q, b⟩ := p
      obtain rfl : q = r := same
      simpa [setObject] using (inv.2 _ member).of_grown grown
    · simpa [setObject, same] using inv.2 p member
  | _ => exact inv

theorem stale_setObject {w : ReportWorld} {r q : Ref} {t : FileAccessInfo} {b : FileBody}
    (stale : Stale (w.objects q) b) (grown : (w.objects r).info <+: t.info) :
    Stale ((w.setObject r t).objects q) b := by
  by_cases same : q = r
  · subst same
    simpa [setObject] using stale.of_grown grown
  · simpa [setObject, same] using stale

theorem doomed_setObject {w : ReportWorld} {r : Ref} {t : FileAccessInfo} (doomed : Doomed w)
    (grown : (w.objects r).info <+: t.info) : Doomed (w.setObject r t) := by
  obtain ⟨registry, files, objects, inside, phase⟩ := w
  cases phase with
  | inFiles keys count e bs =>
    refine doomed.imp_right fun stale => ?_
    obtain ⟨p, member, stale⟩ := stale
    exact ⟨p, member, stale_setObject stale grown⟩
  | _ => exact doomed

theorem notAhead_step (w : ReportWorld) (l : ReportLabel) (inv : NotAhead w) :
    NotAhead (step s w l) := by
  obtain ⟨registry, files, objects, inside, phase⟩ := w
  cases l with
  | report =>
    cases phase with
    | waiting => exact Nat.le_refl _
    | counted keys count => exact ⟨fun e' same => by cases same; exact Nat.le_refl _, by simp⟩
    | inRegistry e keys =>
      simp only [NotAhead, step, report]
      cases registry.moveNext e with
      | current k => exact inv
      | ended | modified => trivial
    | inFiles keys count e bs =>
      cases e with
      | some e =>
        simp only [NotAhead, step, report]
        cases files.moveNext e with
        | current file =>
          refine ⟨fun e' same => by cases same; exact inv.1 e rfl, fun p member => ?_⟩
          rcases List.mem_append.mp member with old | new
          · exact inv.2 p old
          · rw [List.mem_singleton.mp new]
            trivial
        | ended => exact ⟨by simp, inv.2⟩
        | modified => trivial
      | none =>
        simp only [NotAhead, step, report]
        cases elements? bs with
        | some elements => trivial
        | none => exact inv
    | stopping bs =>
      simp only [NotAhead, step, report]
      cases bs.all (·.2.rests) <;> trivial
    | _ => trivial
  | key looks =>
    cases phase with
    | inKey e keys k =>
      simp only [NotAhead, step, key]
      cases keyTurn s.casing k looks with
      | ok element => exact inv
      | error e => trivial
    | _ => exact inv
  | body i fs strings =>
    rcases body_cases s ⟨registry, files, objects, inside, phase⟩ i fs strings with
      stays | ⟨r, b, found, -, moves⟩
    · rw [step, stays]
      exact inv
    · rw [step, moves]
      have object := notAhead_setObject inv
        (ReportBodies.next_prefix s.performStringAnalysis fs strings (objects r) b)
      cases phase with
      | inFiles keys count e bs =>
        have here : (r, b) ∈ bs := List.mem_of_getElem? found
        by_cases failed : (b.next s.performStringAnalysis fs strings (objects r)).2 = .failed
        · simp only [NotAhead, advance, if_pos failed]
        · simp only [NotAhead, advance, if_neg failed]
          refine ⟨inv.1, fun p member => ?_⟩
          rcases List.mem_or_eq_of_mem_set member with old | rfl
          · exact object.2 p old
          · simpa [setObject] using ReportBodies.next_notAhead _ fs strings (inv.2 _ here)
      | stopping bs => trivial
      | _ => cases found
  | edit edit =>
    cases edit with
    | registry m =>
      cases phase with
      | inRegistry | inKey => exact Nat.le_succ_of_le inv
      | _ => exact inv
    | files map =>
      cases phase with
      | inFiles keys count e bs => exact ⟨fun e' same => Nat.le_succ_of_le (inv.1 e' same), inv.2⟩
      | _ => exact inv
  | assign r path => exact notAhead_setObject inv (List.prefix_refl _)
  | enter r =>
    simp only [step]
    split <;> exact inv
  | record r fs =>
    simp only [step]
    split
    · cases collect fs (objects r).path with
      | ok x => exact notAhead_setObject inv (FileAccessInfo.record_prefix _ x)
      | error e => exact inv
    · exact inv

theorem done_of_elements? {bodies : List (Ref × FileBody)} {files : List (Ref × FileElement)}
    (made : elements? bodies = some files) {p : Ref × FileBody} (member : p ∈ bodies) :
    ∃ element, p.2 = .done element := by
  induction bodies generalizing files with
  | nil => cases member
  | cons q bodies ih =>
    rw [elements?, List.mapM_cons] at made
    obtain ⟨first, done, rest⟩ := Option.bind_eq_some_iff.mp made
    obtain ⟨others, made', -⟩ := Option.bind_eq_some_iff.mp rest
    rcases List.mem_cons.mp member with rfl | later
    · obtain ⟨element, is_done, -⟩ := Option.map_eq_some_iff.mp done
      refine ⟨element, ?_⟩
      cases body : p.2 with
      | done element' =>
        rw [body] at is_done
        cases is_done
        rfl
      | _ =>
        rw [body] at is_done
        cases is_done
    · exact ih made' later

/-- A stale body stays in the list, or the step was its own and it throws. -/
theorem doomed_body {w : ReportWorld} (i : Nat) (fs : FileSystem) (strings : Except Exn Unit)
    (doomed : Doomed w) : Doomed (w.body s i fs strings) := by
  rcases body_cases s w i fs strings with stays | ⟨r, b, found, -, moves⟩
  · rw [stays]
    exact doomed
  · rw [moves]
    obtain ⟨registry, files, objects, inside, phase⟩ := w
    cases phase with
    | inFiles keys count e bs =>
      by_cases failed : (b.next s.performStringAnalysis fs strings (objects r)).2 = .failed
      · simp only [Doomed, advance, if_pos failed]
      · simp only [Doomed, advance, if_neg failed]
        refine doomed.imp_right fun stale => ?_
        obtain ⟨p, member, stale⟩ := stale
        obtain ⟨j, at_j⟩ := List.mem_iff_getElem?.mp member
        have other : i ≠ j := by
          rintro rfl
          have same : some p = some (r, b) := at_j.symm.trans found
          cases same
          exact failed (ReportBodies.next_of_stale _ fs strings stale)
        refine ⟨p, List.mem_of_getElem? ((List.getElem?_set_ne other).trans at_j), ?_⟩
        exact stale_setObject stale (ReportBodies.next_prefix _ fs strings (objects r) b)
    | stopping bs => trivial
    | _ => cases found

theorem doomed_step (w : ReportWorld) (l : ReportLabel) (doomed : Doomed w) :
    Doomed (step s w l) := by
  cases l with
  | body i fs strings => exact doomed_body s i fs strings doomed
  | assign r path => exact doomed_setObject doomed (List.prefix_refl _)
  | enter r =>
    simp only [step]
    split <;> exact doomed
  | record r fs =>
    simp only [step]
    split
    · cases collect fs (w.objects r).path with
      | ok x => exact doomed_setObject doomed (FileAccessInfo.record_prefix _ x)
      | error e => exact doomed
    · exact doomed
  | report =>
    obtain ⟨registry, files, objects, inside, phase⟩ := w
    cases phase with
    | inRegistry e keys =>
      have behind : e.version < registry.version := doomed
      simp only [Doomed, step, report, moveNext_stale (Nat.ne_of_lt behind)]
    | inFiles keys count e bs =>
      cases e with
      | some e =>
        simp only [Doomed, step, report]
        rcases doomed with ⟨e', same, behind⟩ | ⟨p, member, stale⟩
        · cases same
          rw [moveNext_stale (Nat.ne_of_lt behind)]
          trivial
        · cases files.moveNext e with
          | current file => exact .inr ⟨p, List.mem_append_left _ member, stale⟩
          | ended => exact .inr ⟨p, member, stale⟩
          | modified => trivial
      | none =>
        rcases doomed with ⟨e', same, -⟩ | ⟨p, member, stale⟩
        · cases same
        · simp only [Doomed, step, report]
          cases made : elements? bs with
          | none => exact .inr ⟨p, member, stale⟩
          | some elements =>
            obtain ⟨element, done⟩ := done_of_elements? made member
            rw [done] at stale
            exact absurd stale id
    | stopping bs =>
      simp only [Doomed, step, report]
      cases bs.all (·.2.rests) <;> trivial
    | waiting | counted => exact absurd doomed id
    | _ => exact doomed
  | key looks =>
    obtain ⟨registry, files, objects, inside, phase⟩ := w
    cases phase with
    | inKey e keys k =>
      simp only [Doomed, step, key]
      cases keyTurn s.casing k looks with
      | ok element => exact doomed
      | error e => trivial
    | _ => exact doomed
  | edit edit =>
    obtain ⟨registry, files, objects, inside, phase⟩ := w
    cases edit with
    | registry m =>
      cases phase with
      | inRegistry | inKey => exact Nat.lt_succ_of_lt doomed
      | _ => exact doomed
    | files map =>
      cases phase with
      | inFiles keys count e bs =>
        refine doomed.imp_left fun enumerator => ?_
        obtain ⟨e', same, behind⟩ := enumerator
        exact ⟨e', same, Nat.lt_succ_of_lt behind⟩
      | _ => exact doomed

theorem doomed_of_not_spares {w : ReportWorld} {l : ReportLabel} (inv : NotAhead w)
    (disturbs : ¬ Spares s w l) : Doomed (step s w l) := by
  cases l with
  | report | assign | enter => exact absurd trivial disturbs
  | edit edit =>
    obtain ⟨registry, files, objects, inside, phase⟩ := w
    cases edit with
    | registry m =>
      cases phase with
      | inRegistry | inKey => exact Nat.lt_succ_of_le inv
      | _ => exact absurd trivial disturbs
    | files map =>
      cases phase with
      | inFiles keys count e bs =>
        cases e with
        | some e => exact .inl ⟨e, rfl, Nat.lt_succ_of_le (inv.1 e rfl)⟩
        | none => exact absurd trivial disturbs
      | _ => exact absurd trivial disturbs
  | key looks =>
    obtain ⟨registry, files, objects, inside, phase⟩ := w
    cases phase with
    | inKey e keys k =>
      simp only [Doomed, step, key]
      cases turn : keyTurn s.casing k looks with
      | error e => trivial
      | ok element =>
        exact absurd ((completes_keyTurn_iff s.casing k looks).mp ⟨element, turn⟩) disturbs
    | _ => exact absurd trivial disturbs
  | body i fs strings =>
    simp only [Spares, not_forall] at disturbs
    obtain ⟨keys, count, e, bs, r, b, phase, found, free, stops⟩ := disturbs
    have failed := ReportBodies.next_of_not_goes _ fs strings stops
    have here : (bodies w.phase)[i]? = some (r, b) := by rw [phase]; exact found
    rw [step, body_moves s here free, failed]
    simp only [Doomed, phase, advance, if_pos]
  | record r fs =>
    simp only [Spares, not_forall] at disturbs
    obtain ⟨keys, count, e, bs, b, x, phase, member, lists, within, collected, new⟩ := disturbs
    have grown : ((w.objects r).record x).info.length = (w.objects r).info.length + 1 := by
      rw [FileAccessInfo.record, if_neg new]
      simp
    simp only [step, if_pos within, collected, Doomed, setObject, phase]
    refine .inr ⟨(r, b), member, ?_⟩
    simp only [NotAhead, phase] at inv
    cases b with
    | listing flags path e' history =>
      have upTo : e'.version ≤ (w.objects r).info.length := inv.2 _ member
      simp only [Stale, Function.update_self, grown]
      omega
    | _ => cases lists

theorem threw_iff {w : ReportWorld} {labels : List ReportLabel} (idle : w.phase = .waiting)
    (ended : isOver (run (step s) w labels).phase = true) :
    (run (step s) w labels).phase = .threw ↔ ¬ EachStep (step s) (Spares s) w labels := by
  constructor
  · intro threw each
    have start : SoundInv w := by simp only [SoundInv, idle]
    have sound := run_invariant (soundInv_step s) start each
    simp only [SoundInv, threw] at sound
  · intro disturbed
    simp only [EachStep, not_forall] at disturbed
    obtain ⟨done, l, rest, rfl, disturbs⟩ := disturbed
    have start : NotAhead w := by simp only [NotAhead, idle]
    have inv := run_invariant (fun w l inv _ => notAhead_step s w l inv) start
      (eachStep_true (step s) w done)
    have doomed := run_invariant (fun w l inv _ => doomed_step s w l inv)
      (doomed_of_not_spares s inv disturbs)
      (eachStep_true (step s) (step s (run (step s) w done) l) rest)
    have same : run (step s) w (done ++ l :: rest) =
        run (step s) (step s (run (step s) w done) l) rest := by
      rw [run_append]
      rfl
    rw [← same] at doomed
    cases reached : (run (step s) w (done ++ l :: rest)).phase with
    | threw => rfl
    | inRegistry | inKey | inFiles | stopping =>
      rw [reached] at ended
      cases ended
    | _ => simp only [Doomed, reached] at doomed


/-- A report whose traversal came to its end shows one instant if nothing comes in its way and
there is an instant that both loops spare; it threw exactly if something came in its way. And once
no server is behind the lock of an object, it comes to its end whatever its questions are
answered. -/
theorem traversal_sees_one_instant (w : ReportWorld) (labels : List ReportLabel)
    (idle : w.phase = .waiting) :
    (isOver (run (step s) w labels).phase = true →
      (Undisturbed s w labels → ShowsOneInstant s w labels) ∧
        ((run (step s) w labels).phase = .threw ↔
          ¬ EachStep (step s) (Spares s) w labels)) ∧
      ((∀ r, (run (step s) w labels).inside r = false) → ∀ looks fs strings,
        Ends s looks fs strings (run (step s) w labels)) := by
  refine ⟨fun ended => ⟨showsOneInstant_of_undisturbed s idle ended, threw_iff s idle ended⟩, ?_⟩
  intro free looks fs strings
  have start : Unfailed w := by simp only [Unfailed, idle]
  have unfailed := run_invariant (fun w l inv _ => unfailed_step s w l inv) start
    (eachStep_true (step s) w labels)
  exact report_ends s ⟨free, unfailed⟩

/-- Without the analysis of strings. -/
def quiet : ReportSettings := ⟨Machine.bare.casing, false⟩

/-- A guest that has seen one registry key. -/
def oneKey : GuestState :=
  (GuestState.empty.call Machine.bare (.notifyRegistryAccess (wide "\\registry\\machine\\a"))).state

/-- And a file. -/
def keyAndFile : GuestState :=
  (oneKey.call Machine.bare (.notifyFileAccess (wide "\\??\\C:\\f"))).state

/-- What a server does to the dictionaries. -/
def editsOf (g : GuestState) (h : Handler) : List ReportLabel := (h.edits Machine.bare g).map .edit

/-- No key is there, now or later. -/
def noKeys : KeyLooks :=
  ⟨Machine.bare.registry, .ok false, Machine.bare.registry, .ok false, .ok false,
    Machine.bare.registry, .ok false⟩

/-- Up to the instant a server sees a second file for the first time. -/
def upToInstant : List ReportLabel :=
  [.report, .report, .key noKeys, .report, .assign 1 (wide "C:\\g")] ++
    editsOf keyAndFile (.notifyFileAccess (wide "\\??\\C:\\g"))

/-- Then a second key is seen, and the second file is looked at. -/
def behindInstant : List ReportLabel :=
  editsOf keyAndFile (.notifyRegistryAccess (wide "\\registry\\machine\\b")) ++
    [.enter 1, .record 1 .bare, .report, .report, .report, .report, .report]

def bodiesRun : List ReportLabel :=
  List.replicate 12 (.body 0 .bare (.ok ())) ++ List.replicate 12 (.body 1 .bare (.ok ())) ++ [.report]

/-- Bodies that find no file have nothing to throw about. -/
theorem spares_body (w : ReportWorld) (i : Nat) : Spares quiet w (.body i .bare (.ok ())) := by
  intro keys count e bodies r b _ _ _
  cases b with
  | start => exact .inr (.inl rfl)
  | listed => exact fun _ _ => rfl
  | _ => trivial

/-- A record is added in front of the second loop. -/
theorem spares_record {w : ReportWorld} (none : bodies w.phase = []) (r : Ref) (fs : FileSystem) :
    Spares quiet w (.record r fs) := by
  intro keys count e bs b x phase member
  have empty : bs = [] := by rw [phase] at none; exact none
  rw [empty] at member
  cases member

theorem undisturbed_served :
    Undisturbed quiet (ofState keyAndFile) (upToInstant ++ behindInstant ++ bodiesRun) := by
  have goes : KeyGoes quiet.casing
      ⟨wide "hkey_local_machine\\a", wide "HKEY_LOCAL_MACHINE", [], [], false⟩ noKeys :=
    (completes_keyTurn_iff _ _ _).mp ⟨none, rfl⟩
  have spares : ∀ w, EachStep (step quiet) (Spares quiet) w bodiesRun := by
    refine eachStep_of_all _ fun l member w => ?_
    simp only [bodiesRun, List.mem_append, List.mem_replicate, List.mem_singleton] at member
    rcases member with (⟨-, rfl⟩ | ⟨-, rfl⟩) | rfl
    · exact spares_body w 0
    · exact spares_body w 1
    · trivial
  have sparesFiles : ∀ w, EachStep (step quiet) SparesFiles w bodiesRun := by
    refine eachStep_of_all _ fun l member w => ?_
    simp only [bodiesRun, List.mem_append, List.mem_replicate, List.mem_singleton] at member
    rcases member with (⟨-, rfl⟩ | ⟨-, rfl⟩) | rfl <;> trivial
  obtain ⟨map, secondFile⟩ : ∃ map,
      editsOf keyAndFile (.notifyFileAccess (wide "\\??\\C:\\g")) = [.edit (.files map)] := ⟨_, rfl⟩
  obtain ⟨m, secondKey⟩ : ∃ m, editsOf keyAndFile
      (.notifyRegistryAccess (wide "\\registry\\machine\\b")) = [.edit (.registry m)] := ⟨_, rfl⟩
  refine ⟨?_, upToInstant, behindInstant ++ bodiesRun, List.append_assoc _ _ _, ⟨_, rfl⟩, ?_, ?_⟩
  · rw [eachStep_append, eachStep_append]
    refine ⟨⟨?_, ?_⟩, spares _⟩
    · simp only [upToInstant, secondFile, List.cons_append, List.nil_append, eachStep_cons,
        eachStep_nil, and_true]
      exact ⟨trivial, trivial, goes, trivial, trivial, trivial⟩
    · simp only [behindInstant, secondKey, List.cons_append, List.nil_append, eachStep_cons,
        eachStep_nil, and_true]
      exact ⟨trivial, trivial, spares_record rfl 1 .bare, trivial, trivial, trivial, trivial, trivial⟩
  · simp only [upToInstant, secondFile, List.cons_append, List.nil_append, eachStep_cons,
      eachStep_nil, and_true]
    exact ⟨trivial, trivial, trivial, trivial, trivial, trivial⟩
  · rw [eachStep_append]
    refine ⟨?_, sparesFiles _⟩
    simp only [behindInstant, secondKey, List.cons_append, List.nil_append, eachStep_cons,
      eachStep_nil, and_true]
    exact ⟨trivial, trivial, trivial, trivial, trivial, trivial, trivial, trivial⟩

/-- Servers add a file in front of the instant and a key behind it, and look at the file. -/
theorem traversal_sees_one_instant_served :
    ShowsOneInstant quiet (ofState keyAndFile) (upToInstant ++ behindInstant ++ bodiesRun) :=
  ((traversal_sees_one_instant quiet (ofState keyAndFile)
    (upToInstant ++ behindInstant ++ bodiesRun) rfl).1 (by decide)).1 undisturbed_served

/-- The report is past its first move when the hook reports a second key. -/
def keyDuringLoop : List ReportLabel :=
  [.report, .report] ++ editsOf oneKey (.notifyRegistryAccess (wide "\\registry\\machine\\b")) ++
    [.key noKeys, .report]

/-- A key seen for the first time while the report goes through the keys ends the report. -/
theorem new_key_during_loop_throws :
    (run (step quiet) (ofState oneKey) keyDuringLoop).phase = .threw ∧
      ¬ ShowsOneInstant quiet (ofState oneKey) keyDuringLoop := by
  have threw : (run (step quiet) (ofState oneKey) keyDuringLoop).phase = .threw := rfl
  refine ⟨threw, fun shows => ?_⟩
  obtain ⟨keys, count, files, finished, -⟩ := shows
  rw [threw] at finished
  cases finished

end GuestAgent.Guarantees.ReportSnapshot
