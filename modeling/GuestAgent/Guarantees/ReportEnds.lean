import GuestAgent.Library.Runs
import GuestAgent.Guarantees.ReportBodies

/-!
The report comes to its end, whatever its questions are answered, once no server is behind the
lock of an object: the two loops end because nothing is modified any more, and the bodies are
brought to their end one after the other.
-/
namespace GuestAgent.Guarantees.ReportEnds
open Library Library.Runs Library.Versioned Source Source.ReportWorld
open ReportBodies (work)

def isOver : ReportPhase → Bool
  | .finished _ _ _ | .threw => true
  | _ => false

variable (s : ReportSettings)

/-- A step of a body that does not wait. -/
theorem body_moves {w : ReportWorld} {i : Nat} {r : Ref} {b : FileBody}
    (found : (bodies w.phase)[i]? = some (r, b)) (free : ¬ (b = .start ∧ w.inside r = true))
    (fs : FileSystem) (strings : Except Exn Unit) : w.body s i fs strings =
      { w.setObject r (b.next s.performStringAnalysis fs strings (w.objects r)).1 with
        phase := advance i r (b.next s.performStringAnalysis fs strings (w.objects r)).2
          w.phase } := by
  simp only [ReportWorld.body, found, if_neg free]

/-- All that a step of a body can do. -/
theorem body_cases (w : ReportWorld) (i : Nat) (fs : FileSystem) (strings : Except Exn Unit) :
    w.body s i fs strings = w ∨ ∃ r b, (bodies w.phase)[i]? = some (r, b) ∧
      ¬ (b = .start ∧ w.inside r = true) ∧ w.body s i fs strings =
        { w.setObject r (b.next s.performStringAnalysis fs strings (w.objects r)).1 with
          phase := advance i r (b.next s.performStringAnalysis fs strings (w.objects r)).2
            w.phase } := by
  cases found : (bodies w.phase)[i]? with
  | none => exact .inl (by simp only [ReportWorld.body, found])
  | some p =>
    obtain ⟨r, b⟩ := p
    by_cases waits : b = .start ∧ w.inside r = true
    · exact .inl (by simp only [ReportWorld.body, found, if_pos waits])
    · exact .inr ⟨r, b, rfl, waits, body_moves s found waits fs strings⟩

/-- The report and its bodies go on, and everything they ask is answered in the same way. -/
def OwnStep (looks : KeyLooks) (fs : FileSystem) (strings : Except Exn Unit) (l : ReportLabel) :
    Prop :=
  l = .report ∨ l = .key looks ∨ ∃ i, l = .body i fs strings

/-- Steps of its own bring the report to its end. -/
def Ends (looks : KeyLooks) (fs : FileSystem) (strings : Except Exn Unit) (w : ReportWorld) :
    Prop :=
  ∃ more, (∀ l ∈ more, OwnStep looks fs strings l) ∧ isOver (run (step s) w more).phase = true

/-- No body that threw is among those of a loop that goes on. -/
def Unfailed (w : ReportWorld) : Prop :=
  match w.phase with
  | .inFiles _ _ _ bodies => ∀ p ∈ bodies, p.2 ≠ .failed
  | _ => True

theorem unfailed_step (w : ReportWorld) (l : ReportLabel) (inv : Unfailed w) :
    Unfailed (step s w l) := by
  obtain ⟨registry, files, objects, inside, phase⟩ := w
  cases l with
  | report =>
    cases phase with
    | inFiles keys count e bs =>
      cases e with
      | some e =>
        simp only [Unfailed, step, report]
        cases files.moveNext e with
        | current file =>
          intro p member
          rcases List.mem_append.mp member with old | new
          · exact inv p old
          · rw [List.mem_singleton.mp new]
            simp
        | ended => exact inv
        | modified => trivial
      | none =>
        simp only [Unfailed, step, report]
        cases elements? bs with
        | some elements => trivial
        | none => exact inv
    | inRegistry e keys =>
      simp only [Unfailed, step, report]
      cases registry.moveNext e <;> trivial
    | counted keys count => simp [Unfailed, step, report]
    | stopping bs =>
      simp only [Unfailed, step, report]
      cases bs.all (·.2.rests) <;> trivial
    | _ => trivial
  | key looks =>
    cases phase with
    | inKey e keys k =>
      simp only [Unfailed, step, key]
      cases keyTurn s.casing k looks <;> trivial
    | _ => exact inv
  | body i fs strings =>
    rcases body_cases s ⟨registry, files, objects, inside, phase⟩ i fs strings with
      stays | ⟨r, b, found, -, moves⟩
    · rw [step, stays]
      exact inv
    · rw [step, moves]
      cases phase with
      | inFiles keys count e bs =>
        by_cases failed : (b.next s.performStringAnalysis fs strings (objects r)).2 = .failed
        · simp only [Unfailed, advance, if_pos failed]
        · simp only [Unfailed, advance, if_neg failed]
          intro p member
          rcases List.mem_or_eq_of_mem_set member with old | rfl
          · exact inv p old
          · exact failed
      | stopping bs => trivial
      | _ => cases found
  | edit edit => cases edit <;> exact inv
  | assign r path => exact inv
  | enter r =>
    simp only [step]
    split <;> exact inv
  | record r fs =>
    simp only [step]
    split
    · cases collect fs (objects r).path <;> exact inv
    · exact inv

/-- The report is not kept waiting: no server is behind the lock of an object. -/
structure Unlocked (w : ReportWorld) : Prop where
  free : ∀ r, w.inside r = false
  unfailed : Unfailed w

/-- The bodies are all that is still to be waited for. -/
def InBodies (w : ReportWorld) (bodies : List (Ref × FileBody)) : Prop :=
  (∃ keys count, w.phase = .inFiles keys count none bodies) ∨ w.phase = .stopping bodies

def unfinished (bodies : List (Ref × FileBody)) : Nat :=
  bodies.countP fun p => !ReportBodies.isOver p.2

theorem elements?_of_done {bodies : List (Ref × FileBody)}
    (done : ∀ p ∈ bodies, ∃ element, p.2 = .done element) : ∃ files, elements? bodies = some files := by
  induction bodies with
  | nil => exact ⟨[], rfl⟩
  | cons p bodies ih =>
    obtain ⟨⟨element, here⟩, later⟩ := List.forall_mem_cons.mp done
    obtain ⟨files, made⟩ := ih later
    obtain ⟨r, b⟩ := p
    obtain rfl : b = .done element := here
    refine ⟨(r, element) :: files, ?_⟩
    rw [elements?] at made ⊢
    rw [List.mapM_cons, made]
    rfl

section Ends

variable {looks : KeyLooks} {fs : FileSystem} {strings : Except Exn Unit} {w : ReportWorld}

theorem ends_of_over (ended : isOver w.phase = true) : Ends s looks fs strings w :=
  ⟨[], by simp, ended⟩

theorem ends_of_step {l : ReportLabel} (own : OwnStep looks fs strings l)
    (later : Ends s looks fs strings (step s w l)) : Ends s looks fs strings w := by
  obtain ⟨more, all, ended⟩ := later
  exact ⟨l :: more, by simpa [own] using all, ended⟩

theorem unlocked_step {l : ReportLabel} (own : OwnStep looks fs strings l) (inv : Unlocked w) :
    Unlocked (step s w l) := by
  refine ⟨?_, unfailed_step s w l inv.unfailed⟩
  rcases own with rfl | rfl | ⟨i, rfl⟩
  · exact inv.free
  · exact inv.free
  · rcases body_cases s w i fs strings with stays | ⟨r, b, -, -, moves⟩
    · rw [step, stays]
      exact inv.free
    · rw [step, moves]
      exact inv.free

/-- With no body left the report is over at its next step. -/
theorem ends_of_finished {bs : List (Ref × FileBody)} (inv : Unlocked w) (inBodies : InBodies w bs)
    (none : unfinished bs = 0) : Ends s looks fs strings w := by
  have through : ∀ p ∈ bs, ReportBodies.isOver p.2 = true := by
    simpa [unfinished, List.countP_eq_zero] using none
  refine ends_of_step s (.inl rfl) (ends_of_over s ?_)
  rcases inBodies with ⟨keys, count, phase⟩ | phase
  · have unfailed := inv.unfailed
    simp only [Unfailed, phase] at unfailed
    have done : ∀ p ∈ bs, ∃ element, p.2 = .done element := by
      intro p member
      have ended := through p member
      have unbroken := unfailed p member
      cases body : p.2 with
      | done element => exact ⟨element, rfl⟩
      | failed => exact absurd body unbroken
      | _ =>
        rw [body] at ended
        cases ended
    obtain ⟨files, made⟩ := elements?_of_done done
    simp only [step, report, phase, made, isOver]
  · have rests : bs.all (·.2.rests) = true := by
      rw [List.all_eq_true]
      intro p member
      have ended := through p member
      cases body : p.2 with
      | done | failed => rfl
      | _ =>
        rw [body] at ended
        cases ended
    simp only [step, report, phase, rests, if_true, isOver]

theorem bodies_of_inBodies {bs : List (Ref × FileBody)} (inBodies : InBodies w bs) :
    bodies w.phase = bs := by
  rcases inBodies with ⟨keys, count, phase⟩ | phase <;> rw [phase] <;> rfl

theorem inBodies_advance {bs : List (Ref × FileBody)} (inBodies : InBodies w bs) (i : Nat) (r : Ref)
    (t : FileAccessInfo) (b : FileBody) :
    InBodies { w.setObject r t with phase := advance i r b w.phase } (bs.set i (r, b)) := by
  rcases inBodies with ⟨keys, count, phase⟩ | phase
  · by_cases failed : b = .failed
    · exact .inr (by simp only [phase, advance, if_pos failed])
    · exact .inl ⟨keys, count, by simp only [phase, advance, if_neg failed]⟩
  · exact .inr (by simp only [phase, advance])

theorem unfinished_set {bs : List (Ref × FileBody)} {i : Nat} {r : Ref} {b : FileBody}
    (found : bs[i]? = some (r, b)) (going : ReportBodies.isOver b = false) (b' : FileBody) :
    unfinished (bs.set i (r, b')) + (if ReportBodies.isOver b' then 1 else 0) = unfinished bs := by
  obtain ⟨bound, here⟩ := List.getElem?_eq_some_iff.mp found
  have some : 0 < unfinished bs :=
    List.countP_pos_iff.mpr ⟨(r, b), List.mem_of_getElem? found, by simp [going]⟩
  unfold unfinished at some ⊢
  rw [List.countP_set bound, here]
  cases ReportBodies.isOver b' <;> simp [going] <;> omega

/-- One body is brought to its end, when the report ends with one body less. -/
theorem ends_of_body {n : Nat} (fewer : ∀ {w : ReportWorld} {bs : List (Ref × FileBody)},
      Unlocked w → InBodies w bs → unfinished bs ≤ n → Ends s looks fs strings w)
    {bs : List (Ref × FileBody)} {i : Nat} {r : Ref} {b : FileBody} (inv : Unlocked w)
    (inBodies : InBodies w bs) (left : unfinished bs ≤ n + 1) (found : bs[i]? = some (r, b))
    (going : ReportBodies.isOver b = false) : Ends s looks fs strings w := by
  induction bound : work (w.objects r) b using Nat.strongRecOn generalizing w bs b with
  | _ k ih =>
    have own : OwnStep looks fs strings (.body i fs strings) := .inr (.inr ⟨i, rfl⟩)
    have next := unlocked_step s own inv
    have less := ReportBodies.next_work s.performStringAnalysis fs strings
      (t := w.objects r) going
    have here : (bodies w.phase)[i]? = some (r, b) := by
      rw [bodies_of_inBodies inBodies]
      exact found
    have moves := body_moves s here (by simp [inv.free r]) fs strings
    refine ends_of_step s own ?_
    rw [step, moves] at next ⊢
    generalize b.next s.performStringAnalysis fs strings (w.objects r) = n' at next less ⊢
    obtain ⟨t, b'⟩ := n'
    have rest := unfinished_set found going b'
    have inBodies' := inBodies_advance inBodies i r t b'
    cases through : ReportBodies.isOver b' with
    | true =>
      rw [through, if_pos rfl] at rest
      exact fewer next inBodies' (by omega)
    | false =>
      rw [through, if_neg Bool.false_ne_true] at rest
      have found' : (bs.set i (r, b'))[i]? = some (r, b') :=
        List.getElem?_set_self (List.getElem?_eq_some_iff.mp found).1
      exact ih _ (by rw [← bound]; simpa [setObject] using less) next inBodies' (by omega) found'
        through rfl

theorem ends_of_unfinished (n : Nat) {bs : List (Ref × FileBody)} (inv : Unlocked w)
    (inBodies : InBodies w bs) (left : unfinished bs ≤ n) : Ends s looks fs strings w := by
  induction n generalizing w bs with
  | zero => exact ends_of_finished s inv inBodies (Nat.le_zero.mp left)
  | succ n ih =>
    rcases Nat.eq_zero_or_pos (unfinished bs) with none | some
    · exact ends_of_finished s inv inBodies none
    · obtain ⟨⟨r, b⟩, member, going⟩ := List.countP_pos_iff.mp some
      obtain ⟨i, found⟩ := List.mem_iff_getElem?.mp member
      exact ends_of_body s ih inv inBodies left found (by simpa using going)

theorem ends_of_bodies {bs : List (Ref × FileBody)} (inv : Unlocked w) (inBodies : InBodies w bs) :
    Ends s looks fs strings w :=
  ends_of_unfinished s (unfinished bs) inv inBodies (Nat.le_refl _)

/-- The second loop. -/
theorem ends_of_files {keys : List (RegAccessInfo × Option XmlNode)} {count : Nat} {e : Enumerator}
    {bs : List (Ref × FileBody)} (inv : Unlocked w)
    (phase : w.phase = .inFiles keys count (some e) bs) : Ends s looks fs strings w := by
  induction left : w.files.content.length - e.index using Nat.strongRecOn
    generalizing w e bs with
  | _ k ih =>
    have own : OwnStep looks fs strings .report := .inl rfl
    have next := unlocked_step s own inv
    refine ends_of_step s own ?_
    cases move : w.files.moveNext e with
    | current file =>
      have inside := moveNext_current_lt move
      have phase' : (step s w .report).phase =
          .inFiles keys count (some ⟨e.version, e.index + 1⟩) (bs ++ [(file, .start)]) := by
        simp only [step, report, phase, move]
      refine ih _ ?_ next phase' rfl
      simp only [step]
      omega
    | ended =>
      have phase' : (step s w .report).phase = .inFiles keys count none bs := by
        simp only [step, report, phase, move]
      exact ends_of_bodies s next (.inl ⟨keys, count, phase'⟩)
    | modified =>
      have phase' : (step s w .report).phase = .stopping bs := by
        simp only [step, report, phase, move]
      exact ends_of_bodies s next (.inr phase')

theorem ends_of_registryDone {keys : List (RegAccessInfo × Option XmlNode)} (inv : Unlocked w)
    (phase : w.phase = .registryDone keys) : Ends s looks fs strings w := by
  have own : OwnStep looks fs strings .report := .inl rfl
  have counted : (step s w .report).phase = .counted keys w.files.content.length := by
    simp only [step, report, phase]
  have looping : (step s (step s w .report) .report).phase =
      .inFiles keys w.files.content.length (some w.files.getEnumerator) [] := by
    rw [step, report, counted]
    rfl
  have next := unlocked_step s own (unlocked_step s own inv)
  exact ends_of_step s own (ends_of_step s own (ends_of_files s next looping))

/-- The first loop. -/
theorem ends_of_registry {e : Enumerator} {keys : List (RegAccessInfo × Option XmlNode)}
    (inv : Unlocked w) (phase : w.phase = .inRegistry e keys) : Ends s looks fs strings w := by
  induction left : w.registry.content.length - e.index using Nat.strongRecOn
    generalizing w e keys with
  | _ n ih =>
    have own : OwnStep looks fs strings .report := .inl rfl
    have next := unlocked_step s own inv
    refine ends_of_step s own ?_
    cases move : w.registry.moveNext e with
    | current k =>
      have inside := moveNext_current_lt move
      have inKey : (step s w .report).phase = .inKey ⟨e.version, e.index + 1⟩ keys k := by
        simp only [step, report, phase, move]
      have ownKey : OwnStep looks fs strings (.key looks) := .inr (.inl rfl)
      have next' := unlocked_step s ownKey next
      refine ends_of_step s ownKey ?_
      cases turn : keyTurn s.casing k looks with
      | ok element =>
        have phase' : (step s (step s w .report) (.key looks)).phase =
            .inRegistry ⟨e.version, e.index + 1⟩ (keys ++ [(k, element)]) := by
          change key s (step s w .report) looks = _
          simp only [key, inKey, turn]
        refine ih _ ?_ next' phase' rfl
        simp only [step]
        omega
      | error thrown =>
        refine ends_of_over s ?_
        change isOver (key s (step s w .report) looks) = true
        simp only [key, inKey, turn, isOver]
    | ended =>
      have phase' : (step s w .report).phase = .registryDone keys := by
        simp only [step, report, phase, move]
      exact ends_of_registryDone s next phase'
    | modified =>
      refine ends_of_over s ?_
      simp only [step, report, phase, move, isOver]

theorem report_ends (inv : Unlocked w) : Ends s looks fs strings w := by
  have own : OwnStep looks fs strings .report := .inl rfl
  cases phase : w.phase with
  | waiting =>
    have phase' : (step s w .report).phase = .inRegistry w.registry.getEnumerator [] := by
      simp only [step, report, phase]
    exact ends_of_step s own (ends_of_registry s (unlocked_step s own inv) phase')
  | inRegistry e keys => exact ends_of_registry s inv phase
  | inKey e keys k =>
    have ownKey : OwnStep looks fs strings (.key looks) := .inr (.inl rfl)
    refine ends_of_step s ownKey ?_
    cases turn : keyTurn s.casing k looks with
    | ok element =>
      have phase' : (step s w (.key looks)).phase = .inRegistry e (keys ++ [(k, element)]) := by
        simp only [step, key, phase, turn]
      exact ends_of_registry s (unlocked_step s ownKey inv) phase'
    | error thrown => exact ends_of_over s (by simp only [step, key, phase, turn, isOver])
  | registryDone keys => exact ends_of_registryDone s inv phase
  | counted keys count =>
    have phase' : (step s w .report).phase =
        .inFiles keys count (some w.files.getEnumerator) [] := by
      simp only [step, report, phase]
    exact ends_of_step s own (ends_of_files s (unlocked_step s own inv) phase')
  | inFiles keys count e bs =>
    cases e with
    | some e => exact ends_of_files s inv phase
    | none => exact ends_of_bodies s inv (.inl ⟨keys, count, phase⟩)
  | stopping bs => exact ends_of_bodies s inv (.inr phase)
  | finished | threw => exact ends_of_over s (by rw [phase]; rfl)

end Ends

end GuestAgent.Guarantees.ReportEnds
