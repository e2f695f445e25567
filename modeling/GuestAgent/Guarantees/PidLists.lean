import Mathlib.Data.List.Induction
import GuestAgent.Library.Runs
import GuestAgent.Source.Processes

/-!
The two lists of pids over a whole run of notifications.

`AddPid` asks `IsService` anew at every call and looks only at the list it is about to add to.
A pid that is announced again while it stands in one list, as when it was reused before its
removal was noticed, is entered into the other one too if the answer has changed.
-/
namespace GuestAgent.Guarantees.PidLists
open Library Source

/-- A notification about a pid, with the processes `IsService` finds at that moment. -/
inductive PidCall where
  | addPid (procs : ProcessTable) (onNext : Option Exn) (ppid pid : Pid)
  | removePid (onNext : Option Exn) (pid : Pid)

namespace PidCall

def pid : PidCall → Pid
  | addPid _ _ _ pid => pid
  | removePid _ pid => pid

/-- What `IsService` answers in the call; `RemovePid` does not ask. -/
def answer : PidCall → Option Bool
  | addPid procs _ _ pid => some (PidStatus.isService procs pid)
  | removePid _ _ => none

end PidCall

def apply (s : PidStatus) : PidCall → PidStatus
  | .addPid procs onNext ppid pid => (s.addPid procs onNext ppid pid).state
  | .removePid onNext pid => (s.removePid onNext pid).state

/-- The state after the calls; `_pidsLock` puts concurrent ones in an order. -/
def after (calls : List PidCall) : PidStatus := Runs.run apply PidStatus.empty calls

/-- The list an answer of `IsService` chooses. -/
def listFor (s : PidStatus) (isService : Bool) : PidList :=
  if isService then s.servicePids else s.monitoredPids

def lastAbout (calls : List PidCall) (pid : Pid) : Option PidCall :=
  calls.reverse.find? fun c => c.pid = pid

/-- The answer the pid was added with, if the last call about it added it. -/
def addedWith (calls : List PidCall) (pid : Pid) : Option Bool :=
  (lastAbout calls pid).bind PidCall.answer

/-- What the two lists owe the calls that were made. -/
structure ListsRight (calls : List PidCall) (s : PidStatus) : Prop where
  monitored_nodup : s.monitoredPids.pids.Nodup
  service_nodup : s.servicePids.pids.Nodup
  disjoint : s.monitoredPids.pids.Disjoint s.servicePids.pids
  added : ∀ pid procs onNext ppid p, lastAbout calls pid = some (.addPid procs onNext ppid p) →
    ∀ b, pid ∈ (listFor s b).pids ↔ PidStatus.isService procs pid = b
  removed : ∀ pid onNext p, lastAbout calls pid = some (.removePid onNext p) →
    ∀ b, pid ∉ (listFor s b).pids

/-- While a pid stands added, `IsService` answers for it as it did then. -/
def SteadyAnswers (calls : List PidCall) : Prop :=
  ∀ done c rest, calls = done ++ c :: rest →
    ∀ before now, addedWith done c.pid = some before → c.answer = some now → now = before

/-! ### One call -/

theorem mem_listFor_apply (s : PidStatus) (c : PidCall) (b : Bool) (q : Pid) :
    q ∈ (listFor (apply s c) b).pids ↔
      (q = c.pid ∧ c.answer = some b) ∨
        (q ∈ (listFor s b).pids ∧ ¬(q = c.pid ∧ c.answer = none)) := by
  cases c with
  | addPid procs onNext ppid pid =>
    cases service : PidStatus.isService procs pid <;> cases b <;>
      simp [apply, listFor, PidStatus.addPid, PidCall.answer, PidCall.pid, service,
        PidList.mem_add, or_comm]
  | removePid onNext pid =>
    cases b <;> simp [apply, listFor, PidStatus.removePid, PidCall.answer, PidCall.pid,
      PidList.mem_remove, and_comm]

theorem lastAbout_append (calls : List PidCall) (c : PidCall) (pid : Pid) :
    lastAbout (calls ++ [c]) pid = if c.pid = pid then some c else lastAbout calls pid := by
  by_cases about : c.pid = pid <;> simp [lastAbout, about]

theorem lastAbout_pid {calls : List PidCall} {pid : Pid} {c : PidCall}
    (last : lastAbout calls pid = some c) : c.pid = pid := by
  have found := List.find?_some last
  exact of_decide_eq_true found

theorem addedWith_append (calls : List PidCall) (c : PidCall) (pid : Pid) :
    addedWith (calls ++ [c]) pid = if c.pid = pid then c.answer else addedWith calls pid := by
  rw [addedWith, lastAbout_append]
  by_cases about : c.pid = pid
  · rw [if_pos about, if_pos about]
    rfl
  · rw [if_neg about, if_neg about]
    rfl

theorem after_append (calls : List PidCall) (c : PidCall) :
    after (calls ++ [c]) = apply (after calls) c := by
  rw [after, Runs.run_append]
  rfl

/-! ### Whole runs -/

/-- Every pid is in the list it was added to and in no other. -/
def Placed (calls : List PidCall) (s : PidStatus) : Prop :=
  ∀ b q, q ∈ (listFor s b).pids ↔ addedWith calls q = some b

theorem placed_append {calls : List PidCall} {s : PidStatus} (placed : Placed calls s) (c : PidCall)
    (steady : ∀ before now, addedWith calls c.pid = some before → c.answer = some now →
      now = before) : Placed (calls ++ [c]) (apply s c) := by
  intro b q
  rw [mem_listFor_apply, addedWith_append, placed b q]
  by_cases about : q = c.pid
  · subst about
    rw [if_pos rfl]
    cases now : c.answer with
    | none => simp
    | some answer =>
      have same : addedWith calls c.pid = some b → answer = b :=
        fun before => steady b answer before now
      simpa using same
  · rw [if_neg (Ne.symm about)]
    simp [about]

theorem SteadyAnswers.of_append {calls : List PidCall} {c : PidCall}
    (steady : SteadyAnswers (calls ++ [c])) :
    SteadyAnswers calls ∧ ∀ before now, addedWith calls c.pid = some before →
      c.answer = some now → now = before := by
  constructor
  · intro done d rest split
    exact steady done d (rest ++ [c]) (by rw [split]; simp)
  · exact steady calls c [] rfl

theorem placed_after {calls : List PidCall} (steady : SteadyAnswers calls) :
    Placed calls (after calls) := by
  induction calls using List.reverseRecOn with
  | nil =>
    intro b q
    cases b <;> simp [after, listFor, PidStatus.empty, PidList.empty, addedWith, lastAbout]
  | append_singleton calls c ih =>
    obtain ⟨earlier, last⟩ := steady.of_append
    rw [after_append]
    exact placed_append (ih earlier) c last

theorem ListsRight.of_placed {calls : List PidCall} {s : PidStatus} (placed : Placed calls s) :
    ListsRight calls s := by
  refine ⟨s.monitoredPids.nodup, s.servicePids.nodup, fun q user service => ?_, ?_, ?_⟩
  · have no : addedWith calls q = some false := (placed false q).mp user
    have yes : addedWith calls q = some true := (placed true q).mp service
    rw [no] at yes
    cases yes
  · intro pid procs onNext ppid p last b
    have same : p = pid := lastAbout_pid last
    rw [placed b pid, addedWith, last, same]
    exact Option.some_inj
  · intro pid onNext p last b member
    rw [placed b pid, addedWith, last] at member
    cases member

/-- A right state with the next one right too had a steady answer in between. -/
theorem steady_of_right {calls : List PidCall} {s : PidStatus} {c : PidCall}
    (right : ListsRight calls s) (next : ListsRight (calls ++ [c]) (apply s c))
    {before now : Bool} (added : addedWith calls c.pid = some before)
    (answers : c.answer = some now) : now = before := by
  have stays : c.pid ∈ (listFor (apply s c) before).pids := by
    obtain ⟨d, last, answered⟩ := Option.bind_eq_some_iff.mp added
    cases d with
    | removePid onNext p => cases answered
    | addPid procs onNext ppid p =>
      have same : p = c.pid := lastAbout_pid last
      subst same
      have listed := (right.added _ procs onNext ppid _ last before).mpr (Option.some.inj answered)
      rw [mem_listFor_apply]
      exact .inr ⟨listed, by simp [answers]⟩
  have enters : c.pid ∈ (listFor (apply s c) now).pids :=
    (mem_listFor_apply s c now c.pid).mpr (.inl ⟨rfl, answers⟩)
  cases before <;> cases now
  · rfl
  · exact (next.disjoint stays enters).elim
  · exact (next.disjoint enters stays).elim
  · rfl

/-- The lists are free of duplicates, disjoint and as the last call about each pid left it, after
every call of the run, exactly if no pid that stands added is announced again with another
answer. -/
theorem lists_right_iff (calls : List PidCall) :
    (∀ done, done <+: calls → ListsRight done (after done)) ↔ SteadyAnswers calls := by
  constructor
  · intro right done c rest split before now added answers
    have first : done <+: calls := ⟨c :: rest, split.symm⟩
    have second : done ++ [c] <+: calls := ⟨rest, by rw [split]; simp⟩
    have next := right _ second
    rw [after_append] at next
    exact steady_of_right (right done first) next added answers
  · intro steady done within
    obtain ⟨rest, rfl⟩ := within
    refine ListsRight.of_placed (placed_after fun front c back split => ?_)
    exact steady front c (back ++ rest) (by rw [split]; simp)

/-- A pid of session 1 is taken over by a service, and `AddPid` is called for it again. -/
def reusedPid : List PidCall :=
  [.addPid ⟨fun _ => .ok 1, fun _ => .error .argument⟩ none 4 7,
    .addPid ⟨fun _ => .ok 0, fun _ => .error .argument⟩ none 4 7]

/-- The pid is in both lists then. -/
theorem reusedPid_in_both :
    ¬ ∀ calls done, done <+: calls → ListsRight done (after done) := by
  intro right
  have disjoint := (right reusedPid reusedPid List.prefix_rfl).disjoint
  have user : 7 ∈ (after reusedPid).monitoredPids.pids := by decide
  have service : 7 ∈ (after reusedPid).servicePids.pids := by decide
  exact disjoint user service

end GuestAgent.Guarantees.PidLists
