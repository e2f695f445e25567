import GuestAgent.Guarantees.EventArrival
import GuestAgent.Source.EventPipe

/-!
When a hook gets past its event.

An exception of a handler reaches the client only as a pipe that was closed without
an answer, the same as a lost answer, and the client sends the event again. A key
the guest may not open or a path with too long a component throws every time, so the
thread never returns. What is handled is the event that arrives, with the texts the
transport makes of those that were sent.
-/
namespace GuestAgent.Guarantees.HookReturn
open Library Library.Retry Source Source.FileTable Source.FileAccessInfo EventArrival

/-- The handler goes through on this machine and guest: nothing it asks is refused. -/
def Completes (m : Machine) (s : GuestState) : Handler → Prop
  | .addPid .. => m.onNext = none
  | .removePid .. => m.onNext = none
  | .notifyFileAccess path => ∀ files, filesNamed m.fileSystem path = some files →
      ∀ name ∈ files, name ≠ [] → (entryOrNew s.files name).Readable m.fileSystem
  | .notifyFileRename oldPath newPath => oldPath = [] ∨ newPath = [] ∨
      ({ entryOrNew s.files (purge oldPath) with path := purge newPath } :
        FileAccessInfo).Readable m.fileSystem
  | .notifyRegistryAccess path =>
      ∀ fullname, RegAccessInfo.convertToFullName m.casing path = some fullname →
        ∃ existed, RegAccessInfo.keyExists m.registry fullname = .ok existed ∧
          (m.casing.toLower path ∈ s.registry ∨
            ∃ t, RegMap.firstEntry m.casing m.registry fullname existed = .ok t)
  | .ignore => True

theorem call_completes_iff (m : Machine) (s : GuestState) (h : Handler) :
    (s.call m h).thrown = none ↔ Completes m s h := by
  cases h with
  | addPid parentPid pid => exact Iff.rfl
  | removePid pid => exact Iff.rfl
  | notifyFileAccess path => exact notifyFileAccess_completes_iff m.fileSystem path s.files
  | notifyFileRename oldPath newPath =>
    exact notifyFileRename_completes_iff m.fileSystem oldPath newPath s.files
  | notifyRegistryAccess path =>
    exact RegMap.notifyRegistryAccess_completes_iff m.casing m.registry path s.registry
  | ignore => exact iff_of_true rfl trivial

/-- A round in which the event is delivered and loaded, the event that arrives is handled, and the
answer is read. -/
def Answered (settings : Settings) (e : Event) (a : Attempt) : Prop :=
  a.written = true ∧ a.loadError = none ∧
    Completes a.machine a.state ((arrived e).handler settings) ∧ a.ackRead = true

section load

variable {load : WString → Except Exn XmlElement} (reads : ReadsTags load)
include reads

theorem handled_completes_iff (settings : Settings) (e : Event) (a : Attempt) :
    (a.handled load settings e).thrown = none ↔
      a.loadError = none ∧ Completes a.machine a.state ((arrived e).handler settings) := by
  cases failed : a.loadError with
  | none =>
    have loaded : a.loaded load e = .ok (arrived e).element := by
      simp only [Attempt.loaded, failed]
      exact load_received reads e
    rw [Attempt.handled, loaded, processEvent_element, call_completes_iff]
    exact (and_iff_right rfl).symm
  | some x => simp [Attempt.handled, Attempt.loaded, failed, GuestState.processEvent]

theorem sendMessageToPipe_iff (settings : Settings) (e : Event) (a : Attempt) :
    sendMessageToPipe load settings e a = true ↔ Answered settings e a := by
  have handled := handled_completes_iff reads settings e a
  unfold sendMessageToPipe Answered
  cases a.written with
  | false => simp
  | true =>
    simp only [Bool.not_true, Bool.false_eq_true, if_false, Bool.and_eq_true, true_and,
      Option.isNone_iff_eq_none, handled, and_assoc]

theorem sendRound_ends_iff (settings : Settings) (e : Event) {attempts : Nat → Attempt}
    (accepting : ∀ k, (attempts k).connected = true) (k : Nat) :
    (sendRound load settings e attempts k ()).isRight = true ↔
      Answered settings e (attempts k) := by
  rw [sendRound, if_pos (accepting k), ← sendMessageToPipe_iff reads]
  cases sendMessageToPipe load settings e (attempts k) <;> simp

end load

/-- The loop of a hook ends. -/
def Returns (load : WString → Except Exn XmlElement) (settings : Settings) (e : Event)
    (attempts : Nat → Attempt) : Prop :=
  ∃ fuel done, sendToEventPipe load settings e attempts fuel = some done

/-- While the server keeps accepting connections, the loop ends exactly if some round is
answered. -/
theorem hook_returns_iff (load : WString → Except Exn XmlElement) (reads : ReadsTags load)
    (settings : Settings) (e : Event) (attempts : Nat → Attempt)
    (accepting : ∀ k, (attempts k).connected = true) :
    Returns load settings e attempts ↔ ∃ k, Answered settings e (attempts k) := by
  apply (leaves_iff (sendRound load settings e attempts) 0).trans
  simp only [Nat.zero_le, true_and, sendRound_ends_iff reads settings e accepting]

/-- Round after round on the same machine. -/
def steady (m : Machine) : Nat → Attempt := fun _ => ⟨true, true, none, m, .empty, true⟩

/-- A registry in which no key may be opened. -/
def closedRegistry : Machine := { Machine.bare with registry := ⟨fun _ _ => .error .security⟩ }

theorem hook_returns_bare : Returns loadTag .default (.newPid 0 7) (steady .bare) :=
  (hook_returns_iff loadTag readsTags_loadTag .default (.newPid 0 7) (steady .bare)
    (fun _ => rfl)).mpr ⟨0, rfl, rfl, rfl, rfl⟩

/-- Opening `\REGISTRY\MACHINE\SAM\SAM`, which the guest may not open itself, blocks the thread. -/
theorem refused_key_blocks_hook :
    ¬ ∀ (load : WString → Except Exn XmlElement) (e : Event) (attempts : Nat → Attempt),
      ReadsTags load → (∀ k, (attempts k).connected = true) →
        Returns load .default e attempts := by
  intro allReturn
  let event := Event.registryAccess (wide "\\REGISTRY\\MACHINE\\SAM\\SAM") .opened
  have returns := allReturn loadTag event (steady closedRegistry) readsTags_loadTag (fun _ => rfl)
  obtain ⟨k, _, ends⟩ :=
    (leaves_iff (sendRound loadTag .default event (steady closedRegistry)) 0).mp returns
  obtain ⟨_, _, completes, _⟩ :=
    (sendRound_ends_iff readsTags_loadTag .default event (fun _ => rfl) k).mp ends
  have unchanged : arrived event = event := by
    rw [arrived, (arrivedText_eq_self_iff _).mpr (by decide)]
  rw [unchanged] at completes
  have named : RegAccessInfo.convertToFullName .ascii (wide "\\REGISTRY\\MACHINE\\SAM\\SAM") =
      some (wide "hkey_local_machine\\sam\\sam") := by decide
  obtain ⟨existed, known, _⟩ := completes _ named
  have refused : RegAccessInfo.keyExists closedRegistry.registry
      (wide "hkey_local_machine\\sam\\sam") = .error .security := rfl
  exact absurd (known.symm.trans refused) (by simp)

end GuestAgent.Guarantees.HookReturn
