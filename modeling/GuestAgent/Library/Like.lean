import Mathlib.Data.List.Forall2
import Mathlib.Data.List.Infix

/-!
The patterns of SQL's LIKE: `%` stands for any text, `_` for one character, and a backslash takes
away the meaning of the character after it. Which characters count as the same is the
collation's affair, a parameter here. A text without these three characters, followed by `%`,
matches exactly the texts that start like it.
-/
namespace GuestAgent.Library.Like

inductive Token where
  | any
  | one
  | lit (c : Char)
  deriving DecidableEq, Repr

/-- The tokens of a pattern; a backslash at its end stands for itself. -/
def tokens : List Char → List Token
  | [] => []
  | [c] => [if c = '%' then .any else if c = '_' then .one else .lit c]
  | c :: d :: rest =>
    if c = '%' then .any :: tokens (d :: rest)
    else if c = '_' then .one :: tokens (d :: rest)
    else if c = '\\' then .lit d :: tokens rest
    else .lit c :: tokens (d :: rest)

def matchesTokens (same : Char → Char → Bool) : List Token → List Char → Bool
  | [], text => text.isEmpty
  | .any :: pattern, text => text.tails.any (matchesTokens same pattern)
  | .one :: _, [] => false
  | .one :: pattern, _ :: text => matchesTokens same pattern text
  | .lit _ :: _, [] => false
  | .lit c :: pattern, d :: text => same c d && matchesTokens same pattern text

/-- `text LIKE pattern`. -/
def like (same : Char → Char → Bool) (text pattern : List Char) : Bool :=
  matchesTokens same (tokens pattern) text

/-- Without the characters that mean something in a pattern. -/
def Plain (text : List Char) : Prop := '%' ∉ text ∧ '_' ∉ text ∧ '\\' ∉ text

instance (text : List Char) : Decidable (Plain text) :=
  inferInstanceAs (Decidable (_ ∧ _ ∧ _))

theorem plain_cons (c : Char) (text : List Char) :
    Plain (c :: text) ↔ (c ≠ '%' ∧ c ≠ '_' ∧ c ≠ '\\') ∧ Plain text := by
  simp only [Plain, List.mem_cons, not_or, ne_comm (a := c)]
  tauto

theorem tokens_cons_of_plain {c : Char} (percent : c ≠ '%') (underscore : c ≠ '_')
    (backslash : c ≠ '\\') (rest : List Char) : tokens (c :: rest) = .lit c :: tokens rest := by
  cases rest with
  | nil => simp only [tokens, percent, underscore, if_false]
  | cons d rest => simp only [tokens, percent, underscore, backslash, if_false]

theorem tokens_append_of_plain {text : List Char} (plain : Plain text) (rest : List Char) :
    tokens (text ++ rest) = text.map .lit ++ tokens rest := by
  induction text with
  | nil => rfl
  | cons c text ih =>
    obtain ⟨⟨percent, underscore, backslash⟩, plainRest⟩ := (plain_cons c text).mp plain
    rw [List.cons_append, tokens_cons_of_plain percent underscore backslash, ih plainRest]
    rfl

/-- Literals followed by `%` match what starts with the same characters. -/
theorem matchesTokens_literals (same : Char → Char → Bool) (literals text : List Char) :
    matchesTokens same (literals.map .lit ++ [.any]) text = true ↔
      ∃ start rest, text = start ++ rest ∧
        List.Forall₂ (fun c d => same c d = true) literals start := by
  induction literals generalizing text with
  | nil =>
    have all : matchesTokens same [.any] text = true := by
      simp only [matchesTokens, List.any_eq_true]
      exact ⟨[], (List.mem_tails [] text).mpr List.nil_suffix, rfl⟩
    simp only [List.map_nil, List.nil_append, all, true_iff]
    exact ⟨[], text, rfl, .nil⟩
  | cons c literals ih =>
    cases text with
    | nil =>
      constructor
      · intro impossible
        cases impossible
      · intro ⟨start, rest, split, agree⟩
        obtain ⟨rfl, rfl⟩ := List.append_eq_nil_iff.mp split.symm
        cases agree
    | cons d text =>
      simp only [List.map_cons, List.cons_append, matchesTokens, Bool.and_eq_true, ih]
      constructor
      · intro ⟨first, start, rest, split, agree⟩
        exact ⟨d :: start, rest, by rw [split]; rfl, .cons first agree⟩
      · intro ⟨start, rest, split, agree⟩
        cases agree with
        | cons first agree =>
          obtain ⟨rfl, rfl⟩ := List.cons.inj split
          exact ⟨first, _, rest, rfl, agree⟩

/-- With characters compared exactly, a plain text followed by `%` is matched by what it is a
prefix of. -/
theorem like_iff_prefix {same : Char → Char → Bool} (exact_chars : ∀ c d, same c d = true ↔ c = d)
    {start : List Char} (plain : Plain start) (text : List Char) :
    like same text (start ++ ['%']) = true ↔ start <+: text := by
  rw [like, tokens_append_of_plain plain]
  rw [tokens, if_pos rfl, matchesTokens_literals]
  simp only [exact_chars, List.forall₂_eq_eq_eq]
  constructor
  · intro ⟨first, rest, split, same⟩
    exact ⟨rest, by rw [split, same]⟩
  · intro ⟨rest, split⟩
    exact ⟨start, rest, split.symm, rfl⟩

end GuestAgent.Library.Like
