import Mathlib.Data.List.Nodup
import GuestAgent.Library.Runs
import GuestAgent.Source.VMManager

/-!
A job never meets what an earlier one left on its machine.

`RevertVm` and `StartVm` restore a machine and start it under two separate locks, so threads that
take care of one machine can get between each other's two calls. What holds while a thread is about
to start a machine is that the machine runs already or its disk is restored. A guest that switches
itself off in that time, or a `Revert` that is given up halfway, would break this.
-/
namespace GuestAgent.Guarantees.VirtualMachines
open Library Library.Runs Source Source.Host VMPool

/-- The machine a thread is about to start. -/
def starting : PoolThread → Option Nat
  | .calling vm [.start] => some vm
  | .calling vm [.add, .start] => some vm
  | .inside vm .startVm _ => some vm
  | _ => none

/-- The machine a thread has begun to revert. -/
def reverting : PoolThread → Option Nat
  | .inside vm .powerOff _ => some vm
  | .inside vm .restoreCurrent _ => some vm
  | _ => none

/-- The object whose lock a thread has. -/
def holds : PoolThread → Option Nat
  | .inside vm _ _ => some vm
  | _ => none

variable {T : Type}

/-- No machine goes off, and no `Revert` is given up, while a thread is about to start it. -/
def Undisturbed (baseName : Text) (s : VMPool T) : PoolLabel T → Prop
  | .crash t => ∀ vm, reverting (s.threads t) = some vm → ∀ u, starting (s.threads u) ≠ some vm
  | .shutdown name => ∀ vm, vmName baseName vm = name →
      (∀ u, starting (s.threads u) ≠ some vm) ∨ ∃ u, reverting (s.threads u) = some vm
  | _ => True

/-- Where a thread can be: only the main thread makes machines, and it makes the next one. -/
def Well (main : T) (count : Nat) (t : T) : PoolThread → Prop
  | .idle => True
  | .searching name _ => name = none → t = main
  | .calling vm todo =>
    (vm < count ∧ (todo = [.revert, .start] ∨ todo = [.start] ∨ todo = [])) ∨
    (t = main ∧ vm = count ∧ (todo = [.initiateByCloning, .add, .start] ∨ todo = [.add, .start]))
  | .inside vm stage todo =>
    (vm < count ∧ ((todo = [.start] ∧ (stage = .powerOff ∨ stage = .restoreCurrent)) ∨
      (todo = [] ∧ (stage = .startVm ∨ stage = .setVmName ∨ stage = .linkOff ∨ stage = .linkOn)))) ∨
    (t = main ∧ vm = count ∧ todo = [.add, .start] ∧ (stage = .folderExists ∨
      stage = .showVmInfo ∨ stage = .cloneVm ∨ stage = .powerOff ∨ stage = .restoreCurrent))

/-- A machine that is about to be started and not being reverted runs or is restored. -/
def Clean (baseName : Text) (threads : T → PoolThread) (machines : Text → Option BoxMachine) :
    Prop :=
  ∀ vm t, starting (threads t) = some vm → (∀ u, reverting (threads u) ≠ some vm) →
    ∀ m, machines (vmName baseName vm) = some m → m.on = false → m.used = false

/-- Every lock is held by the thread that is inside a method of its object. -/
def Locked (owner : Nat → Option T) (threads : T → PoolThread) : Prop :=
  ∀ vm t, owner vm = some t ↔ holds (threads t) = some vm

structure Inv (baseName : Text) (main : T) (s : VMPool T) : Prop where
  names : s.vms.content = (List.range s.vms.content.length).map (vmName baseName)
  locked : Locked s.owner s.threads
  well : ∀ t, Well main s.vms.content.length t (s.threads t)
  listed : ∀ vm < s.vms.content.length, s.status vm ≠ .uninitialized
  made : ∀ vm t, s.threads t = .calling vm [.add, .start] → s.status vm ≠ .uninitialized
  clean : Clean baseName s.threads s.machines
  boots : ∀ b ∈ s.boots, b.2 = false
  failures : PoolFailure.mustFirstInitialize ∉ s.failures

theorem vmName_injective (baseName : Text) : Function.Injective (vmName baseName) := by
  intro i j same
  have digits : Nat.toDigits 10 i = Nat.toDigits 10 j := List.append_cancel_left same
  rw [← Nat.ofDigitChars_ten_toDigits (n := i), digits, Nat.ofDigitChars_ten_toDigits]

section Frames

variable [DecidableEq T] {baseName : Text} {main : T} {threads : T → PoolThread}
  {machines : Text → Option BoxMachine}

/-- A thread that moves on: it does not come to start a machine, and it stops to revert one only
while nobody is about to start it. -/
theorem Clean.setThread (clean : Clean baseName threads machines) {t : T} {p : PoolThread}
    (starts : ∀ vm, starting p = some vm → starting (threads t) = some vm)
    (reverts : ∀ vm, reverting (threads t) = some vm →
      reverting p = some vm ∨ ∀ u, starting (threads u) ≠ some vm) :
    Clean baseName (Function.update threads t p) machines := by
  intro vm u about still
  have before : ∃ w, starting (threads w) = some vm := by
    by_cases same : u = t
    · subst same
      rw [Function.update_self] at about
      exact ⟨u, starts vm about⟩
    · rw [Function.update_of_ne same] at about
      exact ⟨u, about⟩
  obtain ⟨v, early⟩ := before
  refine clean vm v early fun w reverted => ?_
  have others := still w
  by_cases same : w = t
  · subst same
    rw [Function.update_self] at others
    rcases reverts vm reverted with now | nobody
    · exact others now
    · exact nobody v early
  · rw [Function.update_of_ne same] at others
    exact others reverted

/-- A machine is changed by the thread that has it in hand. -/
theorem Clean.setMachine (clean : Clean baseName threads machines) {t : T} {p : PoolThread}
    {vm : Nat} {m : BoxMachine} (good : reverting p = some vm ∨ (m.on = false → m.used = false))
    (starts : ∀ other, other ≠ vm → starting p = some other → starting (threads t) = some other)
    (reverts : ∀ other, other ≠ vm → reverting (threads t) = some other →
      reverting p = some other) :
    Clean baseName (Function.update threads t p)
      (Function.update machines (vmName baseName vm) (some m)) := by
  intro other u about still m' there off
  by_cases same : other = vm
  · subst same
    rw [Function.update_self, Option.some.injEq] at there
    subst there
    rcases good with reverted | fresh
    · exact absurd (by rw [Function.update_self]; exact reverted) (still t)
    · exact fresh off
  · have apart : vmName baseName other ≠ vmName baseName vm :=
      fun names => same (vmName_injective baseName names)
    rw [Function.update_of_ne apart] at there
    refine clean other u ?_ (fun w => ?_) m' there off
    · by_cases self : u = t
      · subst self
        rw [Function.update_self] at about
        exact starts other same about
      · rwa [Function.update_of_ne self] at about
    · have others := still w
      by_cases self : w = t
      · subst self
        rw [Function.update_self] at others
        exact fun reverted => others (reverts other same reverted)
      · rwa [Function.update_of_ne self] at others

end Frames

theorem holds_of_reverting {p : PoolThread} {vm : Nat} (h : reverting p = some vm) :
    holds p = some vm := by
  cases p with
  | inside i stage todo => cases stage <;> simp_all [reverting, holds]
  | idle | searching | calling => simp [reverting] at h

section Locks

variable [DecidableEq T] {owner : Nat → Option T} {threads : T → PoolThread}

theorem Locked.keep (locked : Locked owner threads) {t : T} {p : PoolThread}
    (same : holds p = holds (threads t)) : Locked owner (Function.update threads t p) := by
  intro vm u
  by_cases self : u = t
  · subst self
    rw [Function.update_self, same]
    exact locked vm u
  · rw [Function.update_of_ne self]
    exact locked vm u

theorem Locked.acquire (locked : Locked owner threads) {t : T} {p : PoolThread} {vm : Nat}
    (free : owner vm = none) (none_ : holds (threads t) = none) (now : holds p = some vm) :
    Locked (Function.update owner vm (some t)) (Function.update threads t p) := by
  intro other u
  by_cases self : u = t
  · subst self
    rw [Function.update_self, now]
    by_cases same : other = vm
    · subst same
      simp
    · rw [Function.update_of_ne same, locked, none_]
      simp [Ne.symm same]
  · rw [Function.update_of_ne self]
    by_cases same : other = vm
    · subst same
      rw [Function.update_self, ← locked, free]
      simp [Ne.symm self]
    · rw [Function.update_of_ne same]
      exact locked other u

theorem Locked.release (locked : Locked owner threads) {t : T} {p : PoolThread} {vm : Nat}
    (mine : holds (threads t) = some vm) (now : holds p = none) :
    Locked (Function.update owner vm none) (Function.update threads t p) := by
  have held := (locked vm t).mpr mine
  intro other u
  by_cases self : u = t
  · subst self
    rw [Function.update_self, now]
    by_cases same : other = vm
    · subst same
      simp
    · rw [Function.update_of_ne same, locked, mine]
      simp [Ne.symm same]
  · rw [Function.update_of_ne self]
    by_cases same : other = vm
    · subst same
      rw [Function.update_self, ← locked, held]
      simp [Ne.symm self]
    · rw [Function.update_of_ne same]
      exact locked other u

end Locks

section Steps

variable {baseName : Text} {main : T} {s s' : VMPool T}

/-- The lock of an object keeps other threads out. -/
theorem Inv.alone (inv : Inv baseName main s) {t u : T} {vm : Nat}
    (mine : holds (s.threads t) = some vm) (theirs : holds (s.threads u) = some vm) : u = t := by
  have first := (inv.locked vm t).mpr mine
  have second := (inv.locked vm u).mpr theirs
  rw [first] at second
  exact (Option.some.inj second).symm

/-- Places in the list stay good while it grows. -/
theorem Well.grow {count : Nat} {t : T} {p : PoolThread} (well : Well main count t p)
    (other : t ≠ main) : Well main (count + 1) t p := by
  cases p with
  | idle => trivial
  | searching name e => exact well
  | calling vm todo =>
    rcases well with ⟨below, rest⟩ | ⟨self, _⟩
    · exact .inl ⟨by omega, rest⟩
    · exact absurd self other
  | inside vm stage todo =>
    rcases well with ⟨below, rest⟩ | ⟨self, _⟩
    · exact .inl ⟨by omega, rest⟩
    · exact absurd self other

theorem Well.making {count : Nat} {t : T} {vm : Nat} {stage : VmStage} {todo : List VmCall}
    (well : Well main count t (.inside vm stage todo))
    (early : stage = .folderExists ∨ stage = .showVmInfo ∨ stage = .cloneVm) :
    t = main ∧ vm = count ∧ todo = [.add, .start] := by
  rcases well with ⟨_, ⟨_, at_⟩ | ⟨_, at_⟩⟩ | ⟨self, last, rest, _⟩
  · rcases early with rfl | rfl | rfl <;> simp at at_
  · rcases early with rfl | rfl | rfl <;> simp at at_
  · exact ⟨self, last, rest⟩

theorem Well.late {count : Nat} {t : T} {vm : Nat} {stage : VmStage} {todo : List VmCall}
    (well : Well main count t (.inside vm stage todo)) (late : stage = .startVm ∨
      stage = .setVmName ∨ stage = .linkOff ∨ stage = .linkOn) : vm < count ∧ todo = [] := by
  rcases well with ⟨below, ⟨_, at_⟩ | ⟨rest, _⟩⟩ | ⟨_, _, _, at_⟩
  · rcases late with rfl | rfl | rfl | rfl <;> simp at at_
  · exact ⟨below, rest⟩
  · rcases late with rfl | rfl | rfl | rfl <;> simp at at_

/-- What a thread that reverts a machine goes on with: the other stage, or the calls left. -/
theorem Well.reverted {count : Nat} {t : T} {vm : Nat} {stage : VmStage} {todo : List VmCall}
    (well : Well main count t (.inside vm stage todo))
    (half : stage = .powerOff ∨ stage = .restoreCurrent) :
    Well main count t (.inside vm .powerOff todo) ∧
    Well main count t (.inside vm .restoreCurrent todo) ∧ Well main count t (.calling vm todo) := by
  rcases well with ⟨below, ⟨rest, _⟩ | ⟨_, at_⟩⟩ | ⟨self, last, rest, _⟩
  · exact ⟨.inl ⟨below, .inl ⟨rest, .inl rfl⟩⟩, .inl ⟨below, .inl ⟨rest, .inr rfl⟩⟩,
      .inl ⟨below, .inr (.inl rest)⟩⟩
  · rcases half with rfl | rfl <;> simp at at_
  · exact ⟨.inr ⟨self, last, rest, by simp⟩, .inr ⟨self, last, rest, by simp⟩,
      .inr ⟨self, last, .inr rest⟩⟩

/-- A machine that is being started is switched on with a restored disk. -/
theorem Inv.restored (inv : Inv baseName main s) {t : T} {vm : Nat} {todo : List VmCall}
    (here : s.threads t = .inside vm .startVm todo) {m : BoxMachine}
    (there : s.machines (vmName baseName vm) = some m) (off : m.on = false) : m.used = false := by
  have mine : holds (s.threads t) = some vm := by rw [here]; rfl
  refine inv.clean vm t (by rw [here]; rfl) (fun u reverted => ?_) m there off
  obtain rfl := inv.alone mine (holds_of_reverting reverted)
  rw [here] at reverted
  cases reverted

/-- An exception that is not that of a machine without a state. -/
theorem Inv.note (inv : Inv baseName main s) {e : PoolFailure} (other : e ≠ .mustFirstInitialize) :
    Inv baseName main { s with failures := s.failures ++ [e] } :=
  { inv with failures := by simp [inv.failures, other.symm] }

/-- An object gets a state. -/
theorem Inv.initialized (inv : Inv baseName main s) {vm : Nat} {status : VMStatus}
    (some_ : status ≠ .uninitialized) : Inv baseName main (s.setStatus vm status) := by
  have kept : ∀ other, s.status other ≠ .uninitialized →
      (s.setStatus vm status).status other ≠ .uninitialized := by
    intro other before
    by_cases same : other = vm
    · subst same
      simpa [setStatus] using some_
    · simpa [setStatus, Function.update_of_ne same] using before
  exact { inv with
    listed := fun other below => kept other (inv.listed other below)
    made := fun other u making => kept other (inv.made other u making) }

variable [DecidableEq T] {t : T} {p : PoolThread}

/-- A step of one thread that adds nothing to `_vms`. -/
theorem Inv.change (inv : Inv baseName main s) (vms : s'.vms = s.vms)
    (threads : s'.threads = Function.update s.threads t p)
    (locked : Locked s'.owner (Function.update s.threads t p))
    (well : Well main s.vms.content.length t p)
    (status : ∀ vm, s.status vm ≠ .uninitialized → s'.status vm ≠ .uninitialized)
    (made : ∀ vm, p = .calling vm [.add, .start] → s'.status vm ≠ .uninitialized)
    (clean : Clean baseName (Function.update s.threads t p) s'.machines)
    (boots : ∀ b ∈ s'.boots, b.2 = false)
    (failures : PoolFailure.mustFirstInitialize ∉ s'.failures) : Inv baseName main s' where
  names := vms ▸ inv.names
  locked := threads ▸ locked
  well := by
    rw [vms, threads]
    intro u
    by_cases self : u = t
    · subst self
      rwa [Function.update_self]
    · rw [Function.update_of_ne self]
      exact inv.well u
  listed := by
    rw [vms]
    exact fun vm below => status vm (inv.listed vm below)
  made := by
    rw [threads]
    intro vm u making
    by_cases self : u = t
    · subst self
      rw [Function.update_self] at making
      exact made vm making
    · rw [Function.update_of_ne self] at making
      exact status vm (inv.made vm u making)
  clean := threads ▸ clean
  boots := boots
  failures := failures

/-- A thread without a lock goes on without one. -/
theorem Inv.go (inv : Inv baseName main s) (free : holds (s.threads t) = none)
    (frees : holds p = none) (well : Well main s.vms.content.length t p)
    (starts : ∀ vm, starting p = some vm → starting (s.threads t) = some vm)
    (made : ∀ vm, p = .calling vm [.add, .start] → s.status vm ≠ .uninitialized) :
    Inv baseName main (s.setThread t p) := by
  refine inv.change rfl rfl (inv.locked.keep (frees.trans free.symm)) well (fun _ h => h) made
    (inv.clean.setThread starts fun vm reverted => ?_) inv.boots inv.failures
  have none_ := holds_of_reverting reverted
  rw [free] at none_
  cases none_

theorem Inv.throw (inv : Inv baseName main s) (free : holds (s.threads t) = none) {e : PoolFailure}
    (other : e ≠ .mustFirstInitialize) : Inv baseName main (s.throw t e) :=
  (inv.go (p := .idle) free rfl trivial (by simp [starting]) (by simp)).note other

theorem inv_revertVm (inv : Inv baseName main s) {name : Text}
    (h : s.step baseName main (.revertVm t name) = some s') : Inv baseName main s' := by
  simp only [step] at h
  split at h
  next idle =>
    cases h
    exact inv.go (by simp [idle, holds]) rfl (fun same => by cases same) (by simp [starting])
      (by simp)
  · cases h

theorem inv_startVm (inv : Inv baseName main s)
    (h : s.step baseName main (.startVm t) = some s') : Inv baseName main s' := by
  simp only [step] at h
  split at h
  next idle =>
    split at h
    next self =>
      cases h
      exact inv.go (by simp [idle, holds]) rfl (fun _ => self) (by simp [starting]) (by simp)
    · cases h
  · cases h

/-- The main thread makes the object of the next machine. -/
theorem inv_create (inv : Inv baseName main s) {e : Enumerator}
    (search : s.threads t = .searching none e) :
    Inv baseName main ((s.setStatus s.vms.content.length .uninitialized).setThread t
      (.calling s.vms.content.length [.initiateByCloning, .add, .start])) := by
  have self : t = main := by
    have place := inv.well t
    rw [search] at place
    exact place rfl
  have moved := inv.go (t := t)
    (p := .calling s.vms.content.length [.initiateByCloning, .add, .start])
    (by simp [search, holds]) rfl (.inr ⟨self, rfl, .inl rfl⟩) (by simp [starting]) (by simp)
  refine { moved with listed := fun vm below => ?_, made := fun vm u making => ?_ }
  · have other : vm ≠ s.vms.content.length := Nat.ne_of_lt below
    simpa [setThread, setStatus, Function.update_of_ne other] using inv.listed vm below
  · -- nobody else has an object that is not in the list
    by_cases same : u = t
    · subst same
      simp [setThread] at making
    · simp only [setThread, setStatus, Function.update_of_ne same] at making
      have place := inv.well u
      rw [making] at place
      rcases place with ⟨_, wrong | wrong | wrong⟩ | ⟨also, _⟩
      · cases wrong
      · cases wrong
      · cases wrong
      · exact absurd (also.trans self.symm) same

theorem inv_look (inv : Inv baseName main s)
    (h : s.step baseName main (.look t) = some s') : Inv baseName main s' := by
  simp only [step] at h
  split at h
  next name e search =>
    cases h
    have free : holds (s.threads t) = none := by rw [search]; rfl
    have place := inv.well t
    rw [search] at place
    have onward : Inv baseName main (s.setThread t (.searching name ⟨e.version, e.index + 1⟩)) :=
      inv.go free rfl place (by simp [starting]) (by simp)
    have found (below : e.index < s.vms.content.length) :
        Inv baseName main (s.setThread t (.calling e.index [.revert, .start])) :=
      inv.go free rfl (.inl ⟨below, .inl rfl⟩) (by simp [starting]) (by simp)
    have inside : ∀ b, s.vms.moveNext e = .current b → e.index < s.vms.content.length := by
      intro b current
      unfold Versioned.moveNext at current
      split at current
      · cases current
      · split at current
        next held => exact (List.getElem?_eq_some_iff.mp held).1
        · cases current
    unfold look
    cases moved : s.vms.moveNext e with
    | modified => exact inv.throw free (by simp)
    | ended =>
      cases name with
      | some name => exact inv.throw free (by simp)
      | none => exact inv_create inv search
    | current b =>
      cases name with
      | some name =>
        simp only
        split
        · exact found (inside b moved)
        · exact onward
      | none =>
        simp only
        split
        · exact found (inside b moved)
        · exact onward
  · cases h

/-- `_vms.Add`. -/
theorem inv_add (inv : Inv baseName main s) {vm : Nat} {todo : List VmCall}
    (here : s.threads t = .calling vm (.add :: todo)) :
    Inv baseName main ({ s with
      vms := s.vms.modify (s.vms.content ++ [vmName baseName vm]) }.setThread t
        (.calling vm todo)) := by
  have place := inv.well t
  rw [here] at place
  rcases place with ⟨_, wrong | wrong | wrong⟩ | ⟨self, last, wrong | rest⟩
  · cases wrong
  · cases wrong
  · cases wrong
  · cases wrong
  obtain rfl : todo = [.start] := (List.cons.inj rest).2
  have count : (s.vms.content ++ [vmName baseName vm]).length = s.vms.content.length + 1 := by simp
  exact {
    names := by
      show s.vms.content ++ [vmName baseName vm] =
        (List.range (s.vms.content ++ [vmName baseName vm]).length).map (vmName baseName)
      rw [count, List.range_succ, List.map_append, ← inv.names, last]
      rfl
    locked := inv.locked.keep (by rw [here]; rfl)
    well := by
      intro u
      show Well main (s.vms.content ++ [vmName baseName vm]).length u _
      rw [count]
      by_cases same : u = t
      · subst same
        simp only [setThread, Function.update_self]
        exact .inl ⟨by omega, .inr (.inl rfl)⟩
      · simp only [setThread, Function.update_of_ne same]
        exact (inv.well u).grow fun also => same (also.trans self.symm)
    listed := by
      intro other below
      have bound : other < s.vms.content.length + 1 := count ▸ below
      rcases Nat.lt_succ_iff_lt_or_eq.mp bound with before | now
      · exact inv.listed other before
      · rw [now, ← last]
        exact inv.made vm t here
    made := by
      intro other u making
      by_cases same : u = t
      · subst same
        simp [setThread] at making
      · simp only [setThread, Function.update_of_ne same] at making
        exact inv.made other u making
    clean := inv.clean.setThread (by simp [here, starting]) (by simp [here, reverting])
    boots := inv.boots
    failures := inv.failures }

/-- A lock is taken. -/
theorem Inv.enter (inv : Inv baseName main s) {vm : Nat} (free : s.owner vm = none)
    (outside : holds (s.threads t) = none) (inside : holds p = some vm)
    (well : Well main s.vms.content.length t p)
    (starts : ∀ other, starting p = some other → starting (s.threads t) = some other) :
    Inv baseName main ((s.acquire t vm).setThread t p) := by
  refine inv.change rfl rfl (inv.locked.acquire free outside inside) well (fun _ h => h) ?_
    (inv.clean.setThread starts fun other reverted => ?_) inv.boots inv.failures
  · rintro other rfl
    cases inside
  · have none_ := holds_of_reverting reverted
    rw [outside] at none_
    cases none_

theorem inv_enter (inv : Inv baseName main s)
    (h : s.step baseName main (.enter t) = some s') : Inv baseName main s' := by
  simp only [step] at h
  split at h
  next vm here =>
    cases h
    exact inv.go (by rw [here]; rfl) rfl trivial (by simp [starting]) (by simp)
  next vm todo here =>
    cases h
    exact inv_add inv here
  next vm c todo plain here =>
    split at h
    next free =>
      cases h
      have outside : holds (s.threads t) = none := by rw [here]; rfl
      have place := inv.well t
      rw [here] at place
      cases c with
      | add => exact absurd rfl plain
      | initiateByCloning =>
        rcases place with ⟨_, wrong | wrong | wrong⟩ | ⟨self, last, rest | wrong⟩
        · cases wrong
        · cases wrong
        · cases wrong
        · exact inv.enter free outside rfl
            (.inr ⟨self, last, (List.cons.inj rest).2, .inl rfl⟩) (by simp [starting])
        · cases wrong
      | revert =>
        rcases place with ⟨below, rest | wrong | wrong⟩ | ⟨_, _, wrong | wrong⟩
        · exact inv.enter free outside rfl
            (.inl ⟨below, .inl ⟨(List.cons.inj rest).2, .inl rfl⟩⟩) (by simp [starting])
        all_goals cases wrong
      | start =>
        rcases place with ⟨below, wrong | rest | wrong⟩ | ⟨_, _, wrong | wrong⟩
        · cases wrong
        · have ready := inv.listed vm below
          obtain rfl : todo = [] := (List.cons.inj rest).2
          rw [begin, if_neg ready]
          exact inv.enter free outside rfl (.inl ⟨below, .inr ⟨rfl, .inl rfl⟩⟩)
            (by simp [starting, here])
        all_goals cases wrong
    · cases h
  · cases h

/-- A method goes on under its lock. -/
theorem Inv.on (inv : Inv baseName main s) {vm : Nat} (mine : holds (s.threads t) = some vm)
    (inside : holds p = some vm) (well : Well main s.vms.content.length t p)
    (clean : Clean baseName (Function.update s.threads t p) s.machines) :
    Inv baseName main (s.setThread t p) := by
  refine inv.change rfl rfl (inv.locked.keep (inside.trans mine.symm)) well (fun _ h => h) ?_ clean
    inv.boots inv.failures
  rintro other rfl
  cases inside

/-- A method ends. -/
theorem Inv.off (inv : Inv baseName main s) {vm : Nat} (mine : holds (s.threads t) = some vm)
    (outside : holds p = none) (well : Well main s.vms.content.length t p)
    (made : ∀ other, p = .calling other [.add, .start] → s.status other ≠ .uninitialized)
    (clean : Clean baseName (Function.update s.threads t p) s.machines) :
    Inv baseName main ((s.release vm).setThread t p) :=
  inv.change rfl rfl (inv.locked.release mine outside) well (fun _ h => h) made clean inv.boots
    inv.failures

/-- A method ends in an exception that is not about the state. -/
theorem Inv.fail (inv : Inv baseName main s) {vm : Nat} (mine : holds (s.threads t) = some vm)
    {e : PoolFailure} (other : e ≠ .mustFirstInitialize)
    (harmless : reverting (s.threads t) = none ∨ ∀ u, starting (s.threads u) ≠ some vm) :
    Inv baseName main (s.fail t vm e) := by
  refine (inv.off (p := .idle) mine rfl trivial (by simp) ?_).note other
  refine inv.clean.setThread (by simp [starting]) fun i reverted => .inr ?_
  have held := holds_of_reverting reverted
  rw [mine, Option.some.injEq] at held
  subst held
  rcases harmless with quiet | nobody
  · rw [quiet] at reverted
    cases reverted
  · exact nobody

/-- `VBoxManage` fails. -/
theorem inv_failed (inv : Inv baseName main s) {vm : Nat} {stage : VmStage} {todo : List VmCall}
    (here : s.threads t = .inside vm stage todo) (commanded : stage ≠ .folderExists) (name : Text) :
    Inv baseName main (s.next t vm name todo false stage) := by
  have mine : holds (s.threads t) = some vm := by rw [here]; rfl
  have place := inv.well t
  rw [here] at place
  cases stage with
  | folderExists => exact absurd rfl commanded
  | showVmInfo =>
    obtain ⟨self, last, rest⟩ := place.making (by simp)
    have moved := inv.on (p := .inside vm .cloneVm todo) mine rfl
      (.inr ⟨self, last, rest, by simp⟩)
      (inv.clean.setThread (by simp [starting]) (by simp [here, reverting]))
    exact { moved with }
  | cloneVm => exact inv.fail mine (by simp) (.inl (by simp [here, reverting]))
  | powerOff =>
    exact inv.on mine rfl (place.reverted (by simp)).2.1
      (inv.clean.setThread (by simp [starting]) (by simp [here, reverting]))
  | restoreCurrent =>
    exact inv.on mine rfl (place.reverted (by simp)).1
      (inv.clean.setThread (by simp [starting]) (by simp [here, reverting]))
  | startVm =>
    obtain ⟨below, rest⟩ := place.late (by simp)
    exact inv.on mine rfl (.inl ⟨below, .inr ⟨rest, by simp⟩⟩)
      (inv.clean.setThread (by simp [starting]) (by simp [here, reverting]))
  | setVmName => exact inv.fail mine (by simp) (.inl (by simp [here, reverting]))
  | linkOff => exact inv.fail mine (by simp) (.inl (by simp [here, reverting]))
  | linkOn => exact inv.fail mine (by simp) (.inl (by simp [here, reverting]))

/-- `VBoxManage` succeeds. -/
theorem inv_succeeded (inv : Inv baseName main s) {vm : Nat} {stage : VmStage}
    {todo : List VmCall} (here : s.threads t = .inside vm stage todo) {after : VMPool T}
    (commanded : s.command (vmName baseName vm) stage true = some after) :
    Inv baseName main (after.next t vm (vmName baseName vm) todo true stage) := by
  have mine : holds (s.threads t) = some vm := by rw [here]; rfl
  have place := inv.well t
  rw [here] at place
  have ready : ∀ (z : VMPool T) i, z.status i ≠ .uninitialized →
      (z.setStatus vm .ready).status i ≠ .uninitialized := by
    intro z i before
    by_cases same : i = vm
    · subst same
      simp [setStatus]
    · simpa [setStatus, Function.update_of_ne same] using before
  have readied : ∀ (z : VMPool T), (z.setStatus vm .ready).status vm ≠ .uninitialized := by
    simp [setStatus]
  cases found : s.machines (vmName baseName vm) with
  | none =>
    cases stage with
    | cloneVm =>
      simp only [command, Bool.true_eq_false, if_false, found, Option.some.injEq] at commanded
      subst commanded
      obtain ⟨self, last, rest⟩ := place.making (by simp)
      refine inv.change (p := .calling vm todo) rfl rfl (inv.locked.release mine rfl)
        (.inr ⟨self, last, .inr rest⟩) (ready s) ?_ ?_ inv.boots inv.failures
      · rintro i at_
        cases at_
        exact readied s
      · refine inv.clean.setMachine (.inr fun _ => rfl) (fun i other at_ => ?_)
          (by simp [here, reverting])
        rw [rest] at at_
        exact absurd (Option.some.inj at_).symm other
    | folderExists | showVmInfo | powerOff | restoreCurrent | startVm | setVmName | linkOff
    | linkOn => simp [command, found] at commanded
  | some m =>
    cases stage with
    | folderExists => simp [command] at commanded
    | cloneVm => simp [command, found] at commanded
    | showVmInfo =>
      simp only [command, Bool.true_eq_false, if_false, found, Option.some.injEq] at commanded
      subst commanded
      obtain ⟨self, last, rest⟩ := place.making (by simp)
      exact (inv.initialized (by simp)).on (p := .inside vm .powerOff todo) mine rfl
        (.inr ⟨self, last, rest, by simp⟩)
        (inv.clean.setThread (by simp [starting]) (by simp [here, reverting]))
    | powerOff =>
      simp only [command, Bool.true_eq_false, if_false, found] at commanded
      split at commanded
      · cases commanded
        exact inv.change (p := .inside vm .restoreCurrent todo) rfl rfl (inv.locked.keep mine.symm)
          (place.reverted (by simp)).2.1 (fun _ h => h) (by simp)
          (inv.clean.setMachine (.inl rfl) (by simp [starting]) (by simp [here, reverting]))
          inv.boots inv.failures
      · cases commanded
    | restoreCurrent =>
      simp only [command, Bool.true_eq_false, if_false, found] at commanded
      split at commanded
      · cases commanded
      · cases commanded
        refine inv.change (p := .calling vm todo) rfl rfl (inv.locked.release mine rfl)
          (place.reverted (by simp)).2.2 (ready s) ?_ ?_ inv.boots inv.failures
        · rintro i at_
          cases at_
          exact readied s
        · refine inv.clean.setMachine (.inr fun _ => rfl) (fun i other at_ => ?_) ?_
          · have only : ∀ j, starting (.calling vm todo) = some j → j = vm := by
              unfold starting
              intro j h
              split at h <;> simp_all
            exact absurd (only i at_) other
          · intro i other reverted
            rw [here] at reverted
            exact absurd (Option.some.inj reverted).symm other
    | startVm =>
      obtain ⟨below, rest⟩ := place.late (by simp)
      simp only [command, Bool.true_eq_false, if_false, found] at commanded
      split at commanded
      · cases commanded
      next off =>
        cases commanded
        have fresh := inv.restored here found (by simpa using off)
        refine inv.change (p := .inside vm .setVmName todo) rfl rfl (inv.locked.keep mine.symm)
          (.inl ⟨below, .inr ⟨rest, by simp⟩⟩) (fun _ h => h) (by simp)
          (inv.clean.setMachine (.inr (by simp)) (by simp [starting]) (by simp [here, reverting]))
          ?_ inv.failures
        intro b member
        rcases List.mem_append.mp member with before | now
        · exact inv.boots b before
        · rw [List.mem_singleton.mp now]
          exact fresh
    | setVmName =>
      obtain ⟨below, rest⟩ := place.late (by simp)
      simp only [command, Bool.true_eq_false, if_false, found, Option.some.injEq] at commanded
      subst commanded
      exact inv.on mine rfl (.inl ⟨below, .inr ⟨rest, by simp⟩⟩)
        (inv.clean.setThread (by simp [starting]) (by simp [here, reverting]))
    | linkOff =>
      obtain ⟨below, rest⟩ := place.late (by simp)
      simp only [command, Bool.true_eq_false, if_false, found, Option.some.injEq] at commanded
      subst commanded
      exact inv.on mine rfl (.inl ⟨below, .inr ⟨rest, by simp⟩⟩)
        (inv.clean.setThread (by simp [starting]) (by simp [here, reverting]))
    | linkOn =>
      obtain ⟨below, rest⟩ := place.late (by simp)
      simp only [command, Bool.true_eq_false, if_false, found, Option.some.injEq] at commanded
      subst commanded
      exact (inv.initialized (by simp)).off mine rfl (.inl ⟨below, .inr (.inr rest)⟩)
        (by simp [rest])
        (inv.clean.setThread (by simp [starting, rest]) (by simp [here, reverting]))

theorem inv_run (inv : Inv baseName main s) {success : Bool}
    (h : s.step baseName main (.run t success) = some s') : Inv baseName main s' := by
  simp only [step] at h
  split at h
  next vm stage todo here =>
    split at h
    next first =>
      cases h
      subst first
      have mine : holds (s.threads t) = some vm := by rw [here]; rfl
      have place := inv.well t
      rw [here] at place
      obtain ⟨self, last, rest⟩ := place.making (by simp)
      refine inv.on mine rfl (.inr ⟨self, last, rest, ?_⟩)
        (inv.clean.setThread ?_ (by simp [here, reverting]))
      · split <;> simp
      · intro i at_
        split at at_ <;> simp [starting] at at_
    next commanded =>
      cases success with
      | false =>
        simp only [command, if_true, Option.map_some, Option.some.injEq] at h
        subst h
        exact inv_failed inv here commanded _
      | true =>
        obtain ⟨after, ran, rfl⟩ := Option.map_eq_some_iff.mp h
        exact inv_succeeded inv here ran
  · cases h

theorem inv_crash (inv : Inv baseName main s) (undisturbed : Undisturbed baseName s (.crash t))
    (h : s.step baseName main (.crash t) = some s') : Inv baseName main s' := by
  simp only [step] at h
  split at h
  next vm stage todo here =>
    cases h
    have mine : holds (s.threads t) = some vm := by rw [here]; rfl
    refine inv.fail mine (by simp) ?_
    cases half : reverting (s.threads t) with
    | none => exact .inl rfl
    | some i =>
      have held := holds_of_reverting half
      rw [mine, Option.some.injEq] at held
      subst held
      exact .inr (undisturbed vm half)
  · cases h

theorem inv_shutdown (inv : Inv baseName main s) {name : Text}
    (undisturbed : Undisturbed baseName s (.shutdown name))
    (h : s.step baseName main (.shutdown name) = some s') : Inv baseName main s' := by
  simp only [step] at h
  split at h
  next m there =>
    split at h
    next on =>
      cases h
      refine { inv with clean := ?_ }
      intro vm u about still m' at_ off
      by_cases same : vmName baseName vm = name
      · rcases undisturbed vm same with nobody | ⟨w, reverted⟩
        · exact absurd about (nobody u)
        · exact absurd reverted (still w)
      · simp only [setMachine, Function.update_of_ne same] at at_
        exact inv.clean vm u about still m' at_ off
    · cases h
  · cases h

theorem inv_step (s : VMPool T) (l : PoolLabel T) (s' : VMPool T) (inv : Inv baseName main s)
    (undisturbed : Undisturbed baseName s l) (h : s.step baseName main l = some s') :
    Inv baseName main s' := by
  cases l with
  | revertVm => exact inv_revertVm inv h
  | startVm => exact inv_startVm inv h
  | look => exact inv_look inv h
  | enter => exact inv_enter inv h
  | run => exact inv_run inv h
  | crash => exact inv_crash inv undisturbed h
  | shutdown => exact inv_shutdown inv undisturbed h

end Steps

theorem inv_initial (baseName : Text) (main : T) (machines : Text → Option BoxMachine)
    (folders : Text → Bool) : Inv baseName main (initial machines folders) where
  names := rfl
  locked := by simp [Locked, initial, holds]
  well := fun _ => trivial
  listed := by simp [initial]
  made := by simp [initial]
  clean := by simp [Clean, initial, starting]
  boots := by simp [initial]
  failures := by simp [initial]

/-- Whatever the threads do and whatever `VBoxManage` answers, every machine that was switched on
had a restored or new disk, no two machines of the pool share a name, and no machine was started
without a state. -/
theorem only_restored_machines_start [DecidableEq T] (baseName : Text) (main : T)
    (machines : Text → Option BoxMachine) (folders : Text → Bool) (s : VMPool T)
    (reached : Reached (step baseName main) (Undisturbed baseName) (initial machines folders) s) :
    (∀ b ∈ s.boots, b.2 = false) ∧ s.vms.content.Nodup ∧
      PoolFailure.mustFirstInitialize ∉ s.failures := by
  have inv : Inv baseName main s :=
    reached.invariant (Inv baseName main) (inv_initial baseName main machines folders) inv_step
  refine ⟨inv.boots, ?_, inv.failures⟩
  rw [inv.names]
  exact List.Nodup.map (vmName_injective baseName) List.nodup_range

/-- The main thread makes the first machine, and a worker reverts it. -/
def firstMachine : List (PoolLabel Bool) :=
  [.startVm true, .look true, .enter true, .run true true, .run true true, .enter true,
    .enter true, .run true true, .run true true, .run true true, .run true true,
    .revertVm false "VM0".toList, .look false, .enter false, .run false true, .run false true,
    .enter false, .run false true]

theorem only_restored_machines_start_first : ∃ s : VMPool Bool,
    s.boots = [("VM0".toList, false), ("VM0".toList, false)] ∧ s.vms.content.Nodup := by
  have reached : Reached (step "VM".toList true) (Undisturbed "VM".toList)
      (initial (fun _ => none) fun _ => false)
      ((firstMachine.foldlM (step "VM".toList true)
        (initial (fun _ => none) fun _ => false : VMPool Bool)).get (by decide)) :=
    Reached.of_steps (by simp [firstMachine, Undisturbed]) (Option.some_get _).symm
  exact ⟨_, by decide, (only_restored_machines_start _ _ _ _ _ reached).2.1⟩

/-- Two workers revert the machine before either starts it; the guest of the first start switches
the machine off, and the second start finds it as that guest left it. -/
def twoWorkers : List (PoolLabel (Fin 3)) :=
  [.startVm 0, .look 0, .enter 0, .run 0 true, .run 0 true, .enter 0,
    .revertVm 1 "VM0".toList, .look 1, .enter 1, .run 1 false, .run 1 true,
    .revertVm 2 "VM0".toList, .look 2, .enter 2, .run 2 false, .run 2 true,
    .enter 1, .run 1 true, .run 1 true, .run 1 true, .run 1 true,
    .shutdown "VM0".toList, .enter 2, .run 2 true]

theorem used_machine_starts : ∃ s : VMPool (Fin 3),
    Reached (step "VM".toList 0) (fun _ _ => True) (initial (fun _ => none) fun _ => false) s ∧
      s.boots = [("VM0".toList, false), ("VM0".toList, true)] :=
  ⟨(twoWorkers.foldlM (step "VM".toList 0)
      (initial (fun _ => none) fun _ => false : VMPool (Fin 3))).get (by decide),
    Reached.of_steps (fun _ _ _ => trivial) (Option.some_get _).symm, by decide⟩

end GuestAgent.Guarantees.VirtualMachines
