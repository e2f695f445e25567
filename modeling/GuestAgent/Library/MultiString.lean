import Mathlib.Data.List.Basic

/-!
Strings that lie behind one another in a buffer, each with a terminator behind it and another one at
the end. A loop with its test at the end looks at the first string even if there is none; over strings
that are not empty it looks at each in turn until one has what it looks for.
-/
namespace GuestAgent.Library.MultiString

variable {α β γ : Type} [DecidableEq α] (nul : α)

def encode (strings : List (List α)) : List α := strings.flatMap (fun s => s ++ [nul]) ++ [nul]

/-- What lies behind the next terminator. -/
def skip : List α → List α
  | [] => []
  | c :: rest => if c = nul then rest else skip rest

variable (look : List α → Option β)

/-- Looks at the string at `p` and goes on behind it, while there is one, for so many turns. -/
def scan : Nat → List α → Option β
  | 0, _ => none
  | turns + 1, p =>
    match look p with
    | some b => some b
    | none => if (skip nul p).head?.getD nul = nul then none else scan turns (skip nul p)

variable {nul} {look}

theorem skip_string {s : List α} (inside : nul ∉ s) (rest : List α) :
    skip nul (s ++ nul :: rest) = rest := by
  induction s with
  | nil => exact if_pos rfl
  | cons c s ih =>
    have other : c ≠ nul := by
      rintro rfl
      exact inside List.mem_cons_self
    have later := ih fun member => inside (List.mem_cons_of_mem c member)
    rw [List.cons_append, skip, if_neg other, later]

/-- One string, in which nothing is found, and what lies behind it. -/
theorem scan_next {s rest : List α} (inside : nul ∉ s) (missed : look (s ++ nul :: rest) = none)
    (turns : Nat) : scan nul look (turns + 1) (s ++ nul :: rest) =
      if rest.head?.getD nul = nul then none else scan nul look turns rest := by
  rw [scan, missed, skip_string inside]

/-- The strings of some things in turn, where what is found in one does not depend on what lies
behind it. -/
theorem scan_encode {text : γ → List α} {found : γ → Option β} {first : γ} {others : List γ}
    (each : ∀ x ∈ first :: others, text x ≠ [] ∧ nul ∉ text x)
    (looks : ∀ x ∈ first :: others, ∀ rest, look (text x ++ nul :: rest) = found x) (junk : List α)
    {turns : Nat} (enough : others.length < turns) :
    scan nul look turns (encode nul ((first :: others).map text) ++ junk) =
      (first :: others).findSome? found := by
  induction others generalizing first turns with
  | nil =>
    have inside := (each first List.mem_cons_self).2
    have here := looks first List.mem_cons_self (nul :: junk)
    have split : encode nul ([first].map text) ++ junk = text first ++ nul :: (nul :: junk) := by
      simp [encode]
    obtain ⟨more, rfl⟩ : ∃ more, turns = more + 1 := ⟨turns - 1, by omega⟩
    rw [split, List.findSome?_cons, List.findSome?_nil]
    cases hit : found first with
    | some b => rw [scan, here, hit]
    | none =>
      rw [scan_next inside (here.trans hit)]
      exact if_pos rfl
  | cons second others ih =>
    have inside := (each first List.mem_cons_self).2
    have here := looks first List.mem_cons_self (encode nul ((second :: others).map text) ++ junk)
    have split : encode nul ((first :: second :: others).map text) ++ junk =
        text first ++ nul :: (encode nul ((second :: others).map text) ++ junk) := by simp [encode]
    obtain ⟨more, rfl⟩ : ∃ more, turns = more + 1 := ⟨turns - 1, by omega⟩
    rw [split, List.findSome?_cons]
    cases hit : found first with
    | some b => rw [scan, here, hit]
    | none =>
      obtain ⟨some, plain⟩ := each second (List.mem_cons_of_mem first List.mem_cons_self)
      obtain ⟨c, tail, begin_⟩ := List.exists_cons_of_ne_nil some
      have begins : (encode nul ((second :: others).map text) ++ junk).head?.getD nul ≠ nul := by
        intro same
        have head : c = nul := by simpa [encode, begin_] using same
        exact plain (by simp [begin_, head])
      rw [scan_next inside (here.trans hit), if_neg begins]
      apply ih
      · exact fun x member => each x (List.mem_cons_of_mem first member)
      · exact fun x member => looks x (List.mem_cons_of_mem first member)
      · rw [List.length_cons] at enough
        omega

end GuestAgent.Library.MultiString
