import GuestAgent.Source.HostDatabase

/-!
The two ways to ask whether a path is queued or finished. `IsAlreadyDoneOrTodo` looks at the rows of
one job in either table; `FilterDoneOrTodoByPath` joins the two tables, so it finds nothing while
one of them is empty, and it finds the rows of every job.
-/
namespace GuestAgent.Guarantees.DuplicateChecks
open Library Source.Host

section checks

variable (collation : Collation) (tables : Tables)

/-- A row of either table has the path `p`, whatever its job. -/
def Known (p : Text) : Prop :=
  (∃ row ∈ tables.todo.rows, collation.equal row.cells.controlPath p = true) ∨
    ∃ row ∈ tables.done.rows, collation.equal row.cells.controlPath p = true

/-- A row of the job `jId` has the path `p`. -/
def KnownOf (jId : Nat) (p : Text) : Prop :=
  (∃ row ∈ tables.todo.rows, row.cells.jId = jId ∧
      collation.equal row.cells.controlPath p = true) ∨
    ∃ row ∈ tables.done.rows, row.cells.jId = jId ∧
      collation.equal row.cells.controlPath p = true

variable {collation tables}

theorem KnownOf.known {jId : Nat} {p : Text} (known : KnownOf collation tables jId p) :
    Known collation tables p := by
  rcases known with ⟨row, member, _, same⟩ | ⟨row, member, _, same⟩
  · exact .inl ⟨row, member, same⟩
  · exact .inr ⟨row, member, same⟩

variable (collation tables)

theorem isAlreadyDoneOrTodo_iff (jId : Nat) (p : Text) :
    isAlreadyDoneOrTodo collation tables jId p = true ↔ KnownOf collation tables jId p := by
  unfold isAlreadyDoneOrTodo isJobDoneOrTodo
  rw [List.isSome_head?]
  constructor
  · intro found
    obtain ⟨id, member⟩ := List.exists_mem_of_ne_nil _ found
    rcases List.mem_union_iff.mp member with inTodo | inDone
    · obtain ⟨row, selected, _⟩ := List.mem_map.mp inTodo
      have here := List.mem_filter.mp selected
      simp only [Bool.and_eq_true, beq_iff_eq] at here
      exact .inl ⟨row, here⟩
    · obtain ⟨row, selected, _⟩ := List.mem_map.mp inDone
      have here := List.mem_filter.mp selected
      simp only [Bool.and_eq_true, beq_iff_eq] at here
      exact .inr ⟨row, here.1, here.2.2, here.2.1⟩
  · intro known
    rcases known with ⟨row, member, own, same⟩ | ⟨row, member, own, same⟩
    · have selected : row ∈ tables.todo.rows.filter fun row =>
          row.cells.jId == jId && collation.equal row.cells.controlPath p :=
        List.mem_filter.mpr ⟨member, by simp [own, same]⟩
      exact List.ne_nil_of_mem (List.mem_union_iff.mpr (.inl (List.mem_map_of_mem selected)))
    · have selected : row ∈ tables.done.rows.filter fun row =>
          collation.equal row.cells.controlPath p && row.cells.jId == jId :=
        List.mem_filter.mpr ⟨member, by simp [own, same]⟩
      exact List.ne_nil_of_mem (List.mem_union_iff.mpr (.inr (List.mem_map_of_mem selected)))

/-- The join needs a row in each table. -/
theorem selectTodoOrDone_ne_nil_iff (p : Text) : selectTodoOrDone collation tables p ≠ [] ↔
    tables.todo.rows ≠ [] ∧ tables.done.rows ≠ [] ∧ Known collation tables p := by
  unfold selectTodoOrDone
  constructor
  · intro found
    obtain ⟨r, selected⟩ := List.exists_mem_of_ne_nil _ found
    obtain ⟨member, same⟩ := List.mem_filter.mp selected
    obtain ⟨inTodo, inDone⟩ := List.mem_product.mp member
    refine ⟨List.ne_nil_of_mem inTodo, List.ne_nil_of_mem inDone, ?_⟩
    rcases (Bool.or_eq_true _ _).mp same with left | right
    · exact .inl ⟨r.1, inTodo, left⟩
    · exact .inr ⟨r.2, inDone, right⟩
  · intro ⟨someTodo, someDone, known⟩
    have select : ∀ t ∈ tables.todo.rows, ∀ d ∈ tables.done.rows,
        collation.equal t.cells.controlPath p = true ∨ collation.equal d.cells.controlPath p = true →
        (t, d) ∈ (tables.todo.rows.product tables.done.rows).filter fun r =>
          collation.equal r.1.cells.controlPath p || collation.equal r.2.cells.controlPath p :=
      fun t inTodo d inDone same => List.mem_filter.mpr
        ⟨List.mem_product.mpr ⟨inTodo, inDone⟩, (Bool.or_eq_true _ _).mpr same⟩
    rcases known with ⟨row, member, same⟩ | ⟨row, member, same⟩
    · obtain ⟨d, inDone⟩ := List.exists_mem_of_ne_nil _ someDone
      exact List.ne_nil_of_mem (select row member d inDone (.inl same))
    · obtain ⟨t, inTodo⟩ := List.exists_mem_of_ne_nil _ someTodo
      exact List.ne_nil_of_mem (select t inTodo row member (.inr same))

end checks

/-- A filter depends on what it decides for the members. -/
theorem filter_eq_iff {α : Type} (p q : α → Bool) (list : List α) :
    list.filter p = list.filter q ↔ ∀ a ∈ list, (p a = true ↔ q a = true) := by
  constructor
  · intro same a member
    have left : a ∈ list.filter p ↔ p a = true := by simp [member]
    have right : a ∈ list.filter q ↔ q a = true := by simp [member]
    rw [← left, ← right, same]
  · intro agree
    exact List.filter_congr fun a member => Bool.eq_iff_iff.mpr (agree a member)

/-- The two checks agree exactly if each path that the job knows is looked for in two tables that
have rows, and each path that another job knows is known to the job too, or a table is empty. -/
theorem filterDoneOrTodoByPath_iff (collation : Collation) (tables : Tables) (jId : Nat)
    (paths : List Text) : filterDoneOrTodoByPath collation tables paths =
        paths.filter (fun p => !isAlreadyDoneOrTodo collation tables jId p) ↔
      ∀ p ∈ paths, (KnownOf collation tables jId p →
          tables.todo.rows ≠ [] ∧ tables.done.rows ≠ []) ∧
        (Known collation tables p →
          KnownOf collation tables jId p ∨ tables.todo.rows = [] ∨ tables.done.rows = []) := by
  unfold filterDoneOrTodoByPath
  rw [filter_eq_iff]
  refine forall₂_congr fun p _ => ?_
  have joined := selectTodoOrDone_ne_nil_iff collation tables p
  have asked := isAlreadyDoneOrTodo_iff collation tables jId p
  rw [ne_eq, not_iff_comm] at joined
  rw [List.isEmpty_iff, Bool.not_eq_true', Bool.eq_false_iff, ne_eq, asked, ← joined, not_iff_not]
  constructor
  · intro same
    refine ⟨fun known => ?_, fun known => ?_⟩
    · obtain ⟨someTodo, someDone, -⟩ := same.mpr known
      exact ⟨someTodo, someDone⟩
    · by_contra unknown
      rw [not_or, not_or] at unknown
      exact unknown.1 (same.mp ⟨unknown.2.1, unknown.2.2, known⟩)
  · intro agree
    obtain ⟨filled, own⟩ := agree
    constructor
    · intro found
      obtain ⟨someTodo, someDone, known⟩ := found
      rcases own known with here | empty | empty
      · exact here
      · exact absurd empty someTodo
      · exact absurd empty someDone
    · intro known
      exact ⟨(filled known).1, (filled known).2, known.known⟩

/-- A path of the first job queued, and nothing finished yet. -/
def oneQueued : Tables :=
  ⟨Table.empty, Table.empty.insert ⟨1, "APPSTART://ok=1/".toList, false⟩, Table.empty⟩

theorem not_filterDoneOrTodoByPath : ¬ ∀ collation tables jId paths,
    filterDoneOrTodoByPath collation tables paths =
      paths.filter fun p => !isAlreadyDoneOrTodo collation tables jId p := by
  intro agree
  have here := agree .binary oneQueued 1 ["APPSTART://ok=1/".toList]
  revert here
  decide

end GuestAgent.Guarantees.DuplicateChecks
