import GuestAgent.Source.PopTodoJob

/-!
Which workers get which rows. A row is returned at most once as long as no SELECT gives a row that
another worker has selected and not marked yet. Workers that share one lock keep to that; the
workers of the program each have their own, and two of them get the same row.
-/
namespace GuestAgent.Guarantees.PopTodoJob
open Library Source.Host Library.Runs

section workers

variable (collation : Collation) (lockOf : Nat → Nat)

/-- No row has been returned twice. -/
def ReturnedOnce (s : Popper) : Prop := (s.returned.map Prod.snd).Nodup

/-- A step that does not select a row that another worker is about to mark. -/
def NotBeingPopped (s : Popper) : PopEvent → Prop
  | .select w id => ∀ other, other ≠ w → s.popping other ≠ .selected id
  | _ => True

/-- A row of the table, and marked unless it was deleted. -/
def Marked (tables : Tables) (id : Nat) : Prop :=
  id < tables.todo.next ∧ ∀ row ∈ tables.todo.rows, row.id = id → row.cells.inProgress = true

/-- What was returned is marked, and the rows about to be returned are other rows. -/
structure Popped (s : Popper) : Prop where
  once : ReturnedOnce s
  marked : ∀ id ∈ s.returned.map Prod.snd, Marked s.tables id
  selected : ∀ w id, s.popping w = .selected id →
    id < s.tables.todo.next ∧ id ∉ s.returned.map Prod.snd
  apart : ∀ w w' id, s.popping w = .selected id → s.popping w' = .selected id → w = w'

/-- A worker that is not outside holds its lock. -/
def Holding (s : Popper) : Prop := ∀ w, s.popping w ≠ .outside → s.holder (lockOf w) = some w

variable {collation lockOf}

theorem marked_exec {tables : Tables} {id : Nat} (marked : Marked tables id)
    (statement : Statement) : Marked (statement.exec collation tables) id := by
  obtain ⟨known, mark⟩ := marked
  refine ⟨Nat.lt_of_lt_of_le known exec_todo_next, fun row member same => ?_⟩
  obtain ⟨before, present, sameId, _, _, kept⟩ := exec_todo_old member (same ▸ known)
  exact kept (mark before present (sameId.trans same))

theorem marked_setInProgress (collation : Collation) {tables : Tables} {id : Nat}
    (known : id < tables.todo.next) :
    Marked ((Statement.setInProgressTodoById id).exec collation tables) id := by
  refine ⟨known, fun row member same => ?_⟩
  obtain ⟨before, _, rfl⟩ := List.mem_map.mp member
  rw [Table.updateRow_id] at same
  simp [Table.updateRow, same]

theorem popped_start (tables : Tables) : Popped (Popper.start tables) :=
  ⟨.nil, nofun, nofun, nofun⟩

/-- Where nothing new is selected or returned. -/
theorem Popped.of_leaving {s s' : Popper} (popped : Popped s) (returned : s'.returned = s.returned)
    (marked : ∀ id, Marked s.tables id → Marked s'.tables id)
    (next : s.tables.todo.next ≤ s'.tables.todo.next)
    (popping : ∀ w id, s'.popping w = .selected id → s.popping w = .selected id) : Popped s' := by
  refine ⟨?_, fun id member => ?_, fun w id selected => ?_, fun w w' id first second => ?_⟩
  · unfold ReturnedOnce
    rw [returned]
    exact popped.once
  · rw [returned] at member
    exact marked id (popped.marked id member)
  · rw [returned]
    obtain ⟨known, fresh⟩ := popped.selected w id (popping w id selected)
    exact ⟨Nat.lt_of_lt_of_le known next, fresh⟩
  · exact popped.apart w w' id (popping w id first) (popping w' id second)

/-- A worker whose place is not a selected row any more. -/
theorem selected_of_update {popping : Nat → Popping} {w : Nat} {place : Popping}
    (other : ∀ id, place ≠ .selected id) (w' id : Nat)
    (selected : Function.update popping w place w' = .selected id) : popping w' = .selected id := by
  rw [Function.update_apply] at selected
  split at selected
  · exact absurd selected (other id)
  · exact selected

/-- A SELECT that keeps off the rows of other workers. -/
theorem Popped.select {s : Popper} {w id : Nat} (popped : Popped s)
    (found : ∃ r ∈ selectJobUnfinished s.tables, r.2.id = id)
    (free : ∀ other, other ≠ w → s.popping other ≠ .selected id) :
    Popped { s with popping := Function.update s.popping w (.selected id) } := by
  obtain ⟨r, chosen, rfl⟩ := found
  obtain ⟨member, _, unmarked⟩ := mem_selectJobUnfinished chosen
  have known : r.2.id < s.tables.todo.next := s.tables.todo.below r.2 member
  have fresh : r.2.id ∉ s.returned.map Prod.snd := fun before => by
    have mark := (popped.marked r.2.id before).2 r.2 member rfl
    rw [unmarked] at mark
    cases mark
  have place : ∀ w' id', Function.update s.popping w (.selected r.2.id) w' = .selected id' →
      (w' = w ∧ id' = r.2.id) ∨ (w' ≠ w ∧ s.popping w' = .selected id') := by
    intro w' id' selected
    rw [Function.update_apply] at selected
    split at selected
    · next same => exact .inl ⟨same, (Popping.selected.inj selected).symm⟩
    · next different => exact .inr ⟨different, selected⟩
  refine ⟨popped.once, popped.marked, fun w' id' selected => ?_, fun w₁ w₂ id' first second => ?_⟩
  · rcases place w' id' selected with ⟨_, rfl⟩ | ⟨_, before⟩
    · exact ⟨known, fresh⟩
    · exact popped.selected w' id' before
  · rcases place w₁ id' first with ⟨rfl, rfl⟩ | ⟨left, before⟩
    · rcases place w₂ _ second with ⟨rfl, _⟩ | ⟨right, after⟩
      · rfl
      · exact absurd after (free w₂ right)
    · rcases place w₂ id' second with ⟨rfl, rfl⟩ | ⟨_, after⟩
      · exact absurd before (free w₁ left)
      · exact popped.apart w₁ w₂ id' before after

/-- The UPDATE of a worker that gets its row. -/
theorem Popped.update {s : Popper} {w id : Nat} (popped : Popped s)
    (now : s.popping w = .selected id) :
    Popped { ({ s with tables := (Statement.setInProgressTodoById id).exec collation s.tables } :
      Popper).leave lockOf w with returned := s.returned ++ [(w, id)] } := by
  obtain ⟨known, fresh⟩ := popped.selected w id now
  have before : ∀ w' id', Function.update s.popping w .outside w' = .selected id' →
      w' ≠ w ∧ s.popping w' = .selected id' := by
    intro w' id' selected
    rw [Function.update_apply] at selected
    split at selected
    · cases selected
    · next different => exact ⟨different, selected⟩
  refine ⟨?_, fun id' member => ?_, fun w' id' selected => ?_, fun w₁ w₂ id' first second => ?_⟩
  · simp only [ReturnedOnce, List.map_append, List.map_cons, List.map_nil, List.nodup_append]
    refine ⟨popped.once, List.nodup_singleton id, fun a old b new => ?_⟩
    rw [List.mem_singleton.mp new]
    exact fun same => fresh (same ▸ old)
  · simp only [List.map_append, List.map_cons, List.map_nil, List.mem_append,
      List.mem_singleton] at member
    rcases member with old | new
    · exact marked_exec (popped.marked id' old) _
    · rw [new]
      exact marked_setInProgress collation known
  · obtain ⟨different, selected⟩ := before w' id' selected
    obtain ⟨bound, unreturned⟩ := popped.selected w' id' selected
    refine ⟨bound, ?_⟩
    simp only [List.map_append, List.map_cons, List.map_nil, List.mem_append, List.mem_singleton]
    rintro (old | new)
    · exact unreturned old
    · exact different (popped.apart w' w id' selected (new ▸ now))
  · exact popped.apart w₁ w₂ id' (before w₁ id' first).2 (before w₂ id' second).2

theorem popped_step {s s' : Popper} {e : PopEvent} (popped : Popped s) (free : NotBeingPopped s e)
    (enabled : s.step collation lockOf e = some s') : Popped s' := by
  unfold Popper.step at enabled
  cases e with
  | enter w =>
    obtain ⟨_, left⟩ := Option.ite_none_right_eq_some.mp enabled
    cases left
    exact popped.of_leaving rfl (fun _ => id) (Nat.le_refl _) (selected_of_update nofun)
  | selectNothing w =>
    obtain ⟨_, left⟩ := Option.ite_none_right_eq_some.mp enabled
    cases left
    exact popped.of_leaving rfl (fun _ => id) (Nat.le_refl _) (selected_of_update nofun)
  | select w id =>
    obtain ⟨⟨_, found⟩, chosen⟩ := Option.ite_none_right_eq_some.mp enabled
    cases chosen
    exact popped.select found free
  | update w =>
    cases now : s.popping w with
    | outside | locked =>
      simp only [now, reduceCtorEq] at enabled
    | selected id =>
      simp only [now] at enabled
      split at enabled
      · cases enabled
        exact popped.update now
      · cases enabled
        exact popped.of_leaving rfl (fun id marked => marked_exec marked _) exec_todo_next
          (selected_of_update nofun)
  | raise w =>
    simp only at enabled
    split at enabled
    · cases enabled
    · cases enabled
      exact popped.of_leaving rfl (fun _ => id) (Nat.le_refl _) (selected_of_update nofun)
  | statement st =>
    cases enabled
    exact popped.of_leaving rfl (fun id marked => marked_exec marked _) exec_todo_next
      fun _ _ => id

theorem notBeingPopped_of_outside {s : Popper} {w id : Nat}
    (outside : ∀ other, other ≠ w → s.popping other = .outside) :
    NotBeingPopped s (.select w id) := by
  intro other different selected
  rw [outside other different] at selected
  cases selected

/-- In every state reached without selecting a row that is being popped, no row has been returned
twice. -/
theorem returnedOnce_of_reached {tables : Tables} {s : Popper}
    (reached : Reached (Popper.step collation lockOf) NotBeingPopped (Popper.start tables) s) :
    ReturnedOnce s := by
  have popped := reached.invariant Popped (popped_start tables) fun s e s' => popped_step
  exact popped.once

/-! ### One lock for all workers -/

theorem holding_leave {s : Popper} {w : Nat} (holding : Holding lockOf s)
    (inside : s.popping w ≠ .outside) : Holding lockOf (s.leave lockOf w) := by
  intro w' now
  simp only [Popper.leave, Function.update_apply] at now ⊢
  split at now
  · exact absurd rfl now
  · next different =>
    have own := holding w' now
    split
    · next same =>
      rw [same, holding w inside] at own
      exact absurd (Option.some.inj own).symm different
    · exact own

theorem holding_enter {s : Popper} {w : Nat} (holding : Holding lockOf s)
    (free : s.holder (lockOf w) = none) : Holding lockOf { s with
      holder := Function.update s.holder (lockOf w) (some w)
      popping := Function.update s.popping w .locked } := by
  intro w' now
  simp only [Function.update_apply] at now ⊢
  split at now
  · next same => rw [same, if_pos rfl]
  · have own := holding w' now
    split
    · next same =>
      rw [same, free] at own
      cases own
    · exact own

theorem holding_step {s s' : Popper} {e : PopEvent} (holding : Holding lockOf s)
    (enabled : s.step collation lockOf e = some s') : Holding lockOf s' := by
  unfold Popper.step at enabled
  cases e with
  | enter w =>
    obtain ⟨⟨_, free⟩, entered⟩ := Option.ite_none_right_eq_some.mp enabled
    cases entered
    exact holding_enter holding free
  | selectNothing w =>
    obtain ⟨⟨locked, _⟩, left⟩ := Option.ite_none_right_eq_some.mp enabled
    cases left
    exact holding_leave holding (by simp [locked])
  | select w id =>
    obtain ⟨⟨locked, _⟩, chosen⟩ := Option.ite_none_right_eq_some.mp enabled
    cases chosen
    intro w' now
    simp only [Function.update_apply] at now
    split at now
    · next same => exact holding w' (by simp [same, locked])
    · exact holding w' now
  | update w =>
    cases now : s.popping w with
    | outside | locked =>
      simp only [now, reduceCtorEq] at enabled
    | selected id =>
      have left : Holding lockOf (s.leave lockOf w) := holding_leave holding (by simp [now])
      simp only [now] at enabled
      split at enabled <;> cases enabled <;> exact left
  | raise w =>
    simp only at enabled
    split at enabled
    · cases enabled
    · next inside =>
      cases enabled
      exact holding_leave holding inside
  | statement st =>
    cases enabled
    exact holding

/-- With one lock, no worker selects what another is about to mark. -/
theorem notBeingPopped_of_holding {s s' : Popper} {e : PopEvent}
    (shared : ∀ w w', lockOf w = lockOf w') (holding : Holding lockOf s)
    (enabled : s.step collation lockOf e = some s') : NotBeingPopped s e := by
  cases e with
  | select w id =>
    intro other different selected
    obtain ⟨⟨locked, _⟩, _⟩ := Option.ite_none_right_eq_some.mp enabled
    have left := holding w (by simp [locked])
    have right := holding other (by simp [selected])
    rw [shared other w, left] at right
    exact different (Option.some.inj right).symm
  | enter | selectNothing | update | raise | statement => trivial

/-- One lock for all workers would do. -/
theorem returnedOnce_of_sharedLock (shared : ∀ w w', lockOf w = lockOf w') {tables : Tables}
    {s : Popper} (reached : Reached (Popper.step collation lockOf) (fun _ _ => True)
      (Popper.start tables) s) : ReturnedOnce s := by
  have both := reached.invariant (fun s => Popped s ∧ Holding lockOf s)
    ⟨popped_start tables, fun w now => absurd rfl now⟩
    fun s e s' inv _ enabled => ⟨popped_step inv.1 (notBeingPopped_of_holding shared inv.2 enabled)
      enabled, holding_step inv.2 enabled⟩
  exact both.1.once

end workers

/-! ### The workers as they are -/

/-- One job with one row to do. -/
def oneTodo : Tables :=
  ⟨Table.empty.insert ⟨"setup.exe".toList, "d41d8c".toList, false⟩,
    Table.empty.insert ⟨1, defaultTodoPath, false⟩, Table.empty⟩

/-- Two workers, one after the other. -/
def inTurn : List PopEvent :=
  [.enter 0, .select 0 1, .update 0, .enter 1, .selectNothing 1]

/-- Two workers, each inside its own lock. -/
def bothInside : List PopEvent :=
  [.enter 0, .enter 1, .select 0 1, .select 1 1, .update 0, .update 1]

theorem returnedOnce_of_reached_inTurn :
    ∃ s, inTurn.foldlM (Popper.step .binary instanceLock) (Popper.start oneTodo) = some s ∧
      s.returned = [(0, 1)] ∧ ReturnedOnce s := by
  have entered : Reached (Popper.step .binary instanceLock) NotBeingPopped (Popper.start oneTodo)
      _ := .next (e := .enter 0) .start trivial rfl
  have selected := entered.next (e := PopEvent.select 0 1)
    (notBeingPopped_of_outside fun other different => Function.update_of_ne different _ _) rfl
  have updated := selected.next (e := PopEvent.update 0) trivial rfl
  have second := updated.next (e := PopEvent.enter 1) trivial rfl
  have last := second.next (e := PopEvent.selectNothing 1) trivial rfl
  exact ⟨_, rfl, rfl, returnedOnce_of_reached last⟩

/-- Both workers get the row. -/
theorem not_returnedOnce : ¬ ∀ collation tables s,
    Reached (Popper.step collation instanceLock) (fun _ _ => True) (Popper.start tables) s →
      ReturnedOnce s := by
  intro once
  have replay : bothInside.foldlM (Popper.step .binary instanceLock) (Popper.start oneTodo) =
      some _ := rfl
  have here := once .binary oneTodo _ (Reached.of_steps (fun _ _ _ => trivial) replay)
  revert here
  unfold ReturnedOnce
  decide

end GuestAgent.Guarantees.PopTodoJob
