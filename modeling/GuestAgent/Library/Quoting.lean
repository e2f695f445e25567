import GuestAgent.Library.Split

/-!
Lines of pieces between blanks. A piece may be quoted, wholly or in parts; blanks between quotes
belong to it, the quotes do not, and an empty pair of quotes is an empty piece. The second part is
about pieces stored one behind the other, each closed by a terminator, and read back from where
they start.
-/
namespace GuestAgent.Library.Quoting

variable {α : Type}

/-! ### Reading a line -/

/-- What is known of a line read so far: its complete pieces, the one being read, and whether a
quotation is open. -/
structure Reading (α : Type) where
  done : List (List α)
  current : Option (List α)
  quoted : Bool

namespace Reading

def start : Reading α := ⟨[], none, false⟩

def extend (r : Reading α) (a : α) : Reading α :=
  { r with current := some (r.current.getD [] ++ [a]) }

def pieces (r : Reading α) : List (List α) := r.done ++ r.current.toList

variable (isQuote isBlank : α → Bool)

def read (r : Reading α) (a : α) : Reading α :=
  if r.quoted then if isQuote a then { r with quoted := false } else r.extend a
  else if isQuote a then ⟨r.done, some (r.current.getD []), true⟩
  else if isBlank a then ⟨r.pieces, none, false⟩
  else r.extend a

/-- An open quotation belongs to a piece. -/
def WellFormed (r : Reading α) : Prop := r.quoted = true → r.current.isSome = true

theorem wellFormed_read (r : Reading α) (a : α) : (r.read isQuote isBlank a).WellFormed := by
  unfold Reading.read WellFormed extend
  split
  · split
    · exact fun open_ => Bool.noConfusion open_
    · exact fun _ => rfl
  · split
    · exact fun _ => rfl
    · split
      · exact fun open_ => Bool.noConfusion open_
      · exact fun _ => rfl

theorem wellFormed_foldl (line : List α) :
    (line.foldl (Reading.read isQuote isBlank) start).WellFormed := by
  induction line using List.reverseRecOn with
  | nil => exact fun open_ => Bool.noConfusion open_
  | append_singleton line a _ =>
    rw [List.foldl_append]
    exact wellFormed_read isQuote isBlank _ a

/-- A piece grows by the character that is read, or does not. -/
theorem mem_pieces_read {r : Reading α} {a : α} {p : List α}
    (member : p ∈ (r.read isQuote isBlank a).pieces) :
    p ∈ r.pieces ∨ p = [] ∨ p = r.current.getD [] ++ [a] := by
  obtain ⟨done, current, quoted⟩ := r
  unfold Reading.read extend at member
  simp only [pieces, List.mem_append, Option.mem_toList] at member ⊢
  split at member
  · split at member
    · exact .inl member
    · rcases member with old | new
      · exact .inl (.inl old)
      · exact .inr (.inr (Option.some.inj new).symm)
  · split at member
    · rcases member with old | new
      · exact .inl (.inl old)
      · cases current with
        | none => exact .inr (.inl (Option.some.inj new).symm)
        | some q => exact .inl (.inr new)
    · split at member
      · rcases member with old | new
        · exact .inl (List.mem_append.mp old |>.imp_right Option.mem_toList.mp)
        · cases new
      · rcases member with old | new
        · exact .inl (.inl old)
        · exact .inr (.inr (Option.some.inj new).symm)

end Reading

section line

variable (isQuote isBlank : α → Bool)

/-- The pieces of a line. -/
def piecesOf (line : List α) : List (List α) :=
  (line.foldl (Reading.read isQuote isBlank) .start).pieces

variable {isQuote isBlank} in
/-- Nothing stands in a piece that does not stand in the line. -/
theorem mem_of_mem_piecesOf {line p : List α} (member : p ∈ piecesOf isQuote isBlank line) {a : α}
    (within : a ∈ p) : a ∈ line := by
  unfold piecesOf at member
  induction line using List.reverseRecOn generalizing p with
  | nil => cases member
  | append_singleton line b ih =>
    rw [List.foldl_append] at member
    rw [List.mem_append, List.mem_singleton]
    rcases Reading.mem_pieces_read isQuote isBlank member with old | rfl | rfl
    · exact .inl (ih old within)
    · cases within
    · rcases List.mem_append.mp within with before | here
      · cases current : (line.foldl (Reading.read isQuote isBlank) .start).current with
        | none =>
          rw [current] at before
          cases before
        | some q =>
          rw [current] at before
          refine .inl (ih (p := q) ?_ before)
          rw [Reading.pieces, current]
          exact List.mem_append_right _ (List.mem_singleton.mpr rfl)
      · exact .inr (List.mem_singleton.mp here)

/-- Pieces in quotes, with a blank between any two. -/
def quotedLine (quote blank : α) : List (List α) → List α
  | [] => []
  | [p] => quote :: (p ++ [quote])
  | p :: rest => quote :: (p ++ quote :: blank :: quotedLine quote blank rest)

variable {isQuote isBlank}

theorem foldl_read_inside {p : List α} (unquoted : ∀ a ∈ p, isQuote a = false)
    (done : List (List α)) (piece : List α) :
    p.foldl (Reading.read isQuote isBlank) ⟨done, some piece, true⟩ =
      ⟨done, some (piece ++ p), true⟩ := by
  induction p generalizing piece with
  | nil => rw [List.append_nil, List.foldl_nil]
  | cons a p ih =>
    rw [List.forall_mem_cons] at unquoted
    have here : Reading.read isQuote isBlank ⟨done, some piece, true⟩ a =
        ⟨done, some (piece ++ [a]), true⟩ := by
      simp [Reading.read, unquoted.1, Reading.extend]
    rw [List.foldl_cons, here, ih unquoted.2, List.append_assoc, List.singleton_append]

/-- Reading a piece in quotes, up to the closing quote. -/
theorem foldl_read_quoted {quote : α} (isQ : isQuote quote = true) {p : List α}
    (unquoted : ∀ a ∈ p, isQuote a = false) (done : List (List α)) (rest : List α) :
    (quote :: (p ++ quote :: rest)).foldl (Reading.read isQuote isBlank) ⟨done, none, false⟩ =
      rest.foldl (Reading.read isQuote isBlank) ⟨done, some p, false⟩ := by
  have opens : Reading.read isQuote isBlank ⟨done, none, false⟩ quote = ⟨done, some [], true⟩ := by
    simp [Reading.read, isQ]
  have closes : Reading.read isQuote isBlank ⟨done, some p, true⟩ quote =
      ⟨done, some p, false⟩ := by
    simp [Reading.read, isQ]
  rw [List.foldl_cons, opens, List.foldl_append, foldl_read_inside unquoted, List.nil_append,
    List.foldl_cons, closes]

/-- Pieces without quotes come back from their quoted line, empty ones and blanks included. -/
theorem piecesOf_quotedLine {quote blank : α} (isQ : isQuote quote = true)
    (isB : isBlank blank = true) (noQ : isQuote blank = false) {ps : List (List α)}
    (unquoted : ∀ p ∈ ps, ∀ a ∈ p, isQuote a = false) :
    piecesOf isQuote isBlank (quotedLine quote blank ps) = ps := by
  have from_ : ∀ done : List (List α),
      ((quotedLine quote blank ps).foldl (Reading.read isQuote isBlank)
        ⟨done, none, false⟩).pieces = done ++ ps := by
    induction ps with
    | nil => intro done; rfl
    | cons p rest ih =>
      intro done
      rw [List.forall_mem_cons] at unquoted
      cases rest with
      | nil =>
        rw [quotedLine, foldl_read_quoted isQ unquoted.1]
        rfl
      | cons q rest =>
        have ends : Reading.read isQuote isBlank ⟨done, some p, false⟩ blank =
            ⟨done ++ [p], none, false⟩ := by
          simp [Reading.read, isB, noQ, Reading.pieces]
        rw [quotedLine, foldl_read_quoted isQ unquoted.1, List.foldl_cons, ends,
          ih unquoted.2, List.append_assoc, List.singleton_append]
        simp
  exact from_ []

end line

/-! ### Pieces in a buffer -/

section buffer

/-- Where the pieces start that are stored from `n` on, each with a terminator. -/
def offsets : Nat → List (List α) → List Nat
  | _, [] => []
  | n, p :: ps => n :: offsets (n + p.length + 1) ps

variable [DecidableEq α] (nul : α)

/-- The piece that starts at an offset. -/
def stringAt (buffer : List α) (start : Nat) : List α :=
  (buffer.drop start).takeWhile fun a => a ≠ nul

omit [DecidableEq α] in
theorem offsets_append (n : Nat) (ps qs : List (List α)) :
    offsets n (ps ++ qs) = offsets n ps ++ offsets (n + (Split.terminated nul ps).length) qs := by
  induction ps generalizing n with
  | nil => rfl
  | cons p ps ih =>
    have next : n + p.length + 1 + (Split.terminated nul ps).length =
        n + (Split.terminated nul (p :: ps)).length := by
      rw [Split.terminated_cons, List.length_append, List.length_cons]
      omega
    rw [List.cons_append, offsets, ih, next, offsets, List.cons_append]

theorem stringAt_append {p : List α} (fresh : nul ∉ p) (front rest : List α) :
    stringAt nul (front ++ (p ++ nul :: rest)) front.length = p := by
  have other : ∀ a ∈ p, decide (a ≠ nul) = true :=
    fun a member => decide_eq_true fun same => fresh (same ▸ member)
  rw [stringAt, List.drop_left, List.takeWhile_append_of_pos other, List.takeWhile_cons,
    if_neg (by simp), List.append_nil]

/-- The pieces are read back from their offsets. -/
theorem stringAt_offsets {ps : List (List α)} (fresh : ∀ p ∈ ps, nul ∉ p)
    (front rest : List α) :
    (offsets front.length ps).map (stringAt nul (front ++ (Split.terminated nul ps ++ rest))) =
      ps := by
  induction ps generalizing front with
  | nil => rfl
  | cons p ps ih =>
    rw [List.forall_mem_cons] at fresh
    have here : front ++ (Split.terminated nul (p :: ps) ++ rest) =
        front ++ (p ++ nul :: (Split.terminated nul ps ++ rest)) := by
      rw [Split.terminated_cons, List.append_assoc, List.cons_append]
    have later : front ++ (p ++ nul :: (Split.terminated nul ps ++ rest)) =
        (front ++ (p ++ [nul])) ++ (Split.terminated nul ps ++ rest) := by simp
    have size : front.length + p.length + 1 = (front ++ (p ++ [nul])).length := by
      simp only [List.length_append, List.length_singleton]
      omega
    rw [offsets, List.map_cons, here, stringAt_append nul fresh.1, later, size, ih fresh.2]

/-- A piece is closed by a terminator if there is one behind its start. -/
theorem terminated_of_mem {buffer : List α} {start : Nat} (behind : nul ∈ buffer.drop start) :
    buffer[start + (stringAt nul buffer start).length]? = some nul := by
  rw [stringAt, ← List.getElem?_drop]
  generalize buffer.drop start = tail at behind ⊢
  induction tail with
  | nil => cases behind
  | cons a rest ih =>
    by_cases here : a = nul
    · simp [here]
    · rw [List.takeWhile_cons, if_pos (decide_eq_true here), List.length_cons,
        List.getElem?_cons_succ]
      exact ih ((List.mem_cons.mp behind).resolve_left (Ne.symm here))

end buffer

end GuestAgent.Library.Quoting
