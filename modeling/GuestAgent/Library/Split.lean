import Mathlib.Data.List.Chain
import Mathlib.Data.List.Infix

/-!
Cutting texts at separators: at a character, with the empty pieces dropped, and at a text, whose
occurrences are looked for from left to right and do not overlap. Everything put between
separators that do not occur in it comes out again.
-/
namespace GuestAgent.Library.Split

variable {α : Type} [DecidableEq α]

/-! ### At a character -/

/-- The pieces that are not empty. -/
def pieces (sep : α) (text : List α) : List (List α) := (text.splitOn sep).filter fun p => !p.isEmpty

@[simp] theorem pieces_nil (sep : α) : pieces sep [] = [] := rfl

theorem pieces_append_cons (sep : α) (first rest : List α) :
    pieces sep (first ++ sep :: rest) = pieces sep first ++ pieces sep rest := by
  rw [pieces, List.splitOn_append_cons_self, List.filter_append]
  rfl

theorem pieces_cons_self (sep : α) (text : List α) : pieces sep (sep :: text) = pieces sep text := by
  rw [← List.nil_append (sep :: text), pieces_append_cons, pieces_nil, List.nil_append]

theorem pieces_of_not_mem {sep : α} {text : List α} (fresh : sep ∉ text) (nonempty : text ≠ []) :
    pieces sep text = [text] := by
  rw [pieces, List.splitOn_eq_singleton fresh, List.filter_cons_of_pos, List.filter_nil]
  simpa using nonempty

theorem pieces_append {sep : α} {first : List α} (fresh : sep ∉ first) (nonempty : first ≠ [])
    (rest : List α) : pieces sep (first ++ sep :: rest) = first :: pieces sep rest := by
  rw [pieces_append_cons, pieces_of_not_mem fresh nonempty, List.singleton_append]

/-- Pieces, each closed by a separator. -/
def terminated (sep : α) (list : List (List α)) : List α := list.flatMap fun p => p ++ [sep]

omit [DecidableEq α] in
@[simp] theorem terminated_nil (sep : α) : terminated sep [] = [] := rfl

omit [DecidableEq α] in
@[simp] theorem terminated_cons (sep : α) (p : List α) (list : List (List α)) :
    terminated sep (p :: list) = p ++ sep :: terminated sep list := by
  simp [terminated]

/-- Pieces, each behind a separator. -/
def preceded (sep : α) (list : List (List α)) : List α := (list.map fun p => sep :: p).flatten

omit [DecidableEq α] in
@[simp] theorem preceded_nil (sep : α) : preceded sep [] = [] := rfl

omit [DecidableEq α] in
@[simp] theorem preceded_cons (sep : α) (p : List α) (list : List (List α)) :
    preceded sep (p :: list) = sep :: (p ++ preceded sep list) := by
  simp [preceded]

omit [DecidableEq α] in
theorem intercalate_cons (sep : α) (p : List α) (list : List (List α)) :
    List.intercalate [sep] (p :: list) = p ++ preceded sep list := by
  induction list generalizing p with
  | nil => rw [List.intercalate_singleton, preceded_nil, List.append_nil]
  | cons q list ih => rw [List.intercalate_cons_cons, ih q, preceded_cons, List.append_assoc,
      List.singleton_append]

theorem pieces_append_preceded {sep : α} {first : List α} (fresh : sep ∉ first)
    (nonempty : first ≠ []) (list : List (List α)) :
    pieces sep (first ++ preceded sep list) = first :: pieces sep (preceded sep list) := by
  cases list with
  | nil => rw [preceded_nil, List.append_nil, pieces_of_not_mem fresh nonempty, pieces_nil]
  | cons p list => rw [preceded_cons, pieces_append fresh nonempty, pieces_cons_self]

theorem pieces_preceded {sep : α} {list : List (List α)} (fresh : ∀ p ∈ list, sep ∉ p)
    (nonempty : ∀ p ∈ list, p ≠ []) : pieces sep (preceded sep list) = list := by
  induction list with
  | nil => rfl
  | cons p list ih =>
    rw [List.forall_mem_cons] at fresh nonempty
    rw [preceded_cons, pieces_cons_self, pieces_append_preceded fresh.1 nonempty.1,
      ih fresh.2 nonempty.2]

theorem pieces_terminated {sep : α} {list : List (List α)} (fresh : ∀ p ∈ list, sep ∉ p)
    (nonempty : ∀ p ∈ list, p ≠ []) : pieces sep (terminated sep list) = list := by
  induction list with
  | nil => rfl
  | cons p list ih =>
    rw [List.forall_mem_cons] at fresh nonempty
    rw [terminated_cons, pieces_append fresh.1 nonempty.1, ih fresh.2 nonempty.2]

omit [DecidableEq α] in
/-- Two separators never come together. -/
theorem not_infix_terminated {sep : α} {list : List (List α)} (fresh : ∀ p ∈ list, sep ∉ p)
    (nonempty : ∀ p ∈ list, p ≠ []) : ¬ [sep, sep] <:+: terminated sep list := by
  -- A separator is followed by the first character of the next piece, if by anything.
  have apart : (terminated sep list).IsChain (fun a b => a = sep → b ≠ sep) ∧
      ∀ c ∈ (terminated sep list).head?, c ≠ sep := by
    induction list with
    | nil => simp
    | cons p list ih =>
      rw [List.forall_mem_cons] at fresh nonempty
      obtain ⟨chain, start⟩ := ih fresh.2 nonempty.2
      have other : ∀ c ∈ p, c ≠ sep := fun c member same => fresh.1 (same ▸ member)
      have inside : p.IsChain (fun a b => a = sep → b ≠ sep) :=
        List.Pairwise.isChain (List.pairwise_of_forall_mem_list fun a first b _ same =>
          absurd same (other a first))
      refine ⟨?_, ?_⟩
      · rw [terminated_cons, List.isChain_append]
        refine ⟨inside, ?_, ?_⟩
        · rw [List.isChain_cons]
          exact ⟨fun c head _ => start c head, chain⟩
        · intro a last b _ same
          exact absurd same (other a (List.mem_of_getLast? last))
      · cases p with
        | nil => exact absurd rfl nonempty.1
        | cons c p =>
          rw [terminated_cons, List.cons_append, List.head?_cons]
          intro d here
          rw [Option.mem_some_iff] at here
          exact other d (by rw [← here]; exact List.mem_cons_self)
  rintro ⟨before, after, same⟩
  have chain := apart.1
  rw [← same, List.append_assoc, List.isChain_append, List.cons_append, List.cons_append,
    List.isChain_cons_cons] at chain
  exact chain.2.1.1 rfl rfl

/-- A piece consists of characters of the text, none of them the separator. -/
theorem of_mem_splitOn {sep : α} {text piece : List α} (member : piece ∈ text.splitOn sep) :
    sep ∉ piece ∧ ∀ d ∈ piece, d ∈ text := by
  induction text generalizing piece with
  | nil =>
    rw [List.splitOn_nil, List.mem_singleton] at member
    rw [member]
    exact ⟨List.not_mem_nil, fun d here => here⟩
  | cons c text ih =>
    have longer {p : List α} (old : p ∈ text.splitOn sep) : sep ∉ p ∧ ∀ d ∈ p, d ∈ c :: text :=
      ⟨(ih old).1, fun d here => List.mem_cons_of_mem c ((ih old).2 d here)⟩
    rw [List.splitOn_cons_eq_if_modifyHead] at member
    split at member
    · rcases List.mem_cons.mp member with here | later
      · rw [here]
        exact ⟨List.not_mem_nil, nofun⟩
      · exact longer later
    · next other =>
      obtain ⟨head, tail, cut⟩ := List.exists_cons_of_ne_nil (List.splitOn_ne_nil sep text)
      rw [cut, List.modifyHead_cons] at member
      rcases List.mem_cons.mp member with here | later
      · obtain ⟨fresh, inside⟩ := longer (p := head) (by rw [cut]; exact List.mem_cons_self)
        rw [here, List.mem_cons, not_or, List.forall_mem_cons]
        exact ⟨⟨fun same => other (by simp [same]), fresh⟩, List.mem_cons_self, inside⟩
      · exact longer (by rw [cut]; exact List.mem_cons_of_mem head later)

theorem not_mem_of_mem_pieces {sep : α} {text piece : List α} (member : piece ∈ pieces sep text) :
    sep ∉ piece :=
  (of_mem_splitOn (List.mem_of_mem_filter member)).1

/-! ### At a text -/

/-- `skip` characters of a separator are still to be left out; `piece` is the reversed start of the
piece being read. -/
def cutFrom (sep : List α) : (skip : Nat) → (piece : List α) → List α → List (List α)
  | _, piece, [] => [piece.reverse]
  | skip + 1, piece, _ :: rest => cutFrom sep skip piece rest
  | 0, piece, c :: rest =>
    if sep.isPrefixOf (c :: rest) then piece.reverse :: cutFrom sep (sep.length - 1) [] rest
    else cutFrom sep 0 (c :: piece) rest

def cut (sep text : List α) : List (List α) := cutFrom sep 0 [] text

theorem cutFrom_skip (sep skipped piece rest : List α) :
    cutFrom sep skipped.length piece (skipped ++ rest) = cutFrom sep 0 piece rest := by
  induction skipped with
  | nil => rfl
  | cons c skipped ih =>
    rw [List.length_cons, List.cons_append, cutFrom]
    exact ih

theorem cutFrom_of_not_infix {sep : List α} (piece : List α) {text : List α}
    (absent : ¬ sep <:+: text) : cutFrom sep 0 piece text = [piece.reverse ++ text] := by
  induction text generalizing piece with
  | nil => rw [cutFrom, List.append_nil]
  | cons c text ih =>
    have here : sep.isPrefixOf (c :: text) = false := by
      rw [Bool.eq_false_iff, ne_eq, List.isPrefixOf_iff_prefix]
      exact fun starts => absent starts.isInfix
    have later : ¬ sep <:+: text := fun occurs => absent (List.infix_cons occurs)
    rw [cutFrom, here, if_neg Bool.false_ne_true, ih (c :: piece) later]
    simp

/-- A separator in front cuts off an empty piece. -/
theorem cut_append_self {sep : List α} (nonempty : sep ≠ []) (text : List α) :
    cut sep (sep ++ text) = [] :: cut sep text := by
  cases sep with
  | nil => exact absurd rfl nonempty
  | cons c sep =>
    have here : (c :: sep).isPrefixOf (c :: (sep ++ text)) = true := by
      rw [List.isPrefixOf_iff_prefix]
      exact ⟨text, rfl⟩
    rw [cut, List.cons_append, cutFrom, here, if_pos rfl, List.length_cons, Nat.add_sub_cancel,
      cutFrom_skip]
    rfl

theorem cut_of_not_infix {sep text : List α} (absent : ¬ sep <:+: text) : cut sep text = [text] :=
  cutFrom_of_not_infix [] absent

/-- A separator in front of a text without one. -/
theorem cut_append {sep text : List α} (nonempty : sep ≠ []) (absent : ¬ sep <:+: text) :
    cut sep (sep ++ text) = [[], text] := by
  rw [cut_append_self nonempty, cut_of_not_infix absent]

theorem length_le_of_mem_cutFrom {sep piece text p : List α} {skip : Nat}
    (member : p ∈ cutFrom sep skip piece text) : p.length ≤ piece.length + text.length := by
  induction text generalizing skip piece with
  | nil =>
    rw [cutFrom, List.mem_singleton] at member
    simp [member]
  | cons c text ih =>
    rw [List.length_cons]
    cases skip with
    | succ skip =>
      have rest := ih member
      omega
    | zero =>
      rw [cutFrom] at member
      split at member
      · rcases List.mem_cons.mp member with rfl | later
        · rw [List.length_reverse]
          omega
        · have rest := ih later
          rw [List.length_nil] at rest
          omega
      · have rest := ih member
        rw [List.length_cons] at rest
        omega

theorem length_lt_of_mem_cutFrom {sep piece text p : List α} (nonempty : sep ≠ [])
    (occurs : sep <:+: text) (member : p ∈ cutFrom sep 0 piece text) :
    p.length < piece.length + text.length := by
  induction text generalizing piece with
  | nil => exact absurd (List.eq_nil_of_infix_nil occurs) nonempty
  | cons c text ih =>
    rw [List.length_cons]
    rw [cutFrom] at member
    split at member
    · rcases List.mem_cons.mp member with rfl | later
      · rw [List.length_reverse]
        omega
      · have rest := length_le_of_mem_cutFrom later
        rw [List.length_nil] at rest
        omega
    next other =>
      have later : sep <:+: text := by
        rcases List.infix_cons_iff.mp occurs with here | later
        · exact absurd (List.isPrefixOf_iff_prefix.mpr here) other
        · exact later
      have rest := ih later member
      rw [List.length_cons] at rest
      omega

/-- Where the separator occurs, every piece is shorter than the text. -/
theorem length_lt_of_infix {sep text p : List α} (nonempty : sep ≠ []) (occurs : sep <:+: text)
    (member : p ∈ cut sep text) : p.length < text.length := by
  simpa using length_lt_of_mem_cutFrom nonempty occurs member

theorem cutFrom_singleton (sep : α) (piece text : List α) :
    cutFrom [sep] 0 piece text = (text.splitOn sep).modifyHead (piece.reverse ++ ·) := by
  induction text generalizing piece with
  | nil => simp [cutFrom]
  | cons c text ih =>
    rw [cutFrom, List.splitOn_cons_eq_if_modifyHead]
    obtain ⟨head, tail, split⟩ := List.exists_cons_of_ne_nil (List.splitOn_ne_nil sep text)
    rw [split] at ih ⊢
    by_cases same : sep = c
    · subst same
      simp [List.isPrefixOf, ih]
    · simp [List.isPrefixOf, same, Ne.symm same, ih]

/-- A text of one character separates as that character does. -/
theorem cut_singleton (sep : α) (text : List α) : cut [sep] text = text.splitOn sep := by
  obtain ⟨head, tail, split⟩ := List.exists_cons_of_ne_nil (List.splitOn_ne_nil sep text)
  rw [cut, cutFrom_singleton, split]
  rfl

end GuestAgent.Library.Split
