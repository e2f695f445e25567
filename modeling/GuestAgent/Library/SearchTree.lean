import Mathlib.Data.List.Perm.Basic
import Mathlib.Data.Tree.Basic

/-!
Search trees under a comparison that need not be an order. A search meets the elements on its path
and nothing else, so an insertion goes to the right place if the comparison tells the truth about
each of them, and a tie or a lie about one of them shows in the result. `toList` is the order of
enumeration.
-/
namespace GuestAgent.Library.SearchTree

variable {α : Type}

def toList : BinaryTree α → List α
  | .nil => []
  | .node a l r => toList l ++ a :: toList r

/-- An element that compares equal to `x` keeps `x` out. -/
def insert (cmp : α → α → Ordering) (x : α) : BinaryTree α → BinaryTree α
  | .nil => .node x .nil .nil
  | .node a l r => match cmp x a with
    | .lt => .node a (insert cmp x l) r
    | .eq => .node a l r
    | .gt => .node a l (insert cmp x r)

def join : BinaryTree α → BinaryTree α → BinaryTree α
  | .nil, t => t
  | .node a l r, t => .node a l (join r t)

/-- Takes out the first element met that compares equal to `x`. -/
def remove (cmp : α → α → Ordering) (x : α) : BinaryTree α → BinaryTree α
  | .nil => .nil
  | .node a l r => match cmp x a with
    | .lt => .node a (remove cmp x l) r
    | .eq => join l r
    | .gt => .node a l (remove cmp x r)

/-- The elements a search for `x` compares it with. -/
def path (cmp : α → α → Ordering) (x : α) : BinaryTree α → List α
  | .nil => []
  | .node a l r => a :: match cmp x a with
    | .lt => path cmp x l
    | .eq => []
    | .gt => path cmp x r

/-- The comparison of `x` with `a` agrees with the relation and finds no tie. -/
def Tells (r : α → α → Prop) (cmp : α → α → Ordering) (x a : α) : Prop :=
  match cmp x a with
  | .lt => r x a
  | .eq => False
  | .gt => r a x

@[simp] theorem toList_nil : toList (.nil : BinaryTree α) = [] := rfl

@[simp] theorem toList_node (a : α) (l r : BinaryTree α) :
    toList (.node a l r) = toList l ++ a :: toList r := rfl

theorem toList_join (l r : BinaryTree α) : toList (join l r) = toList l ++ toList r := by
  induction l with
  | nil => rfl
  | node a l r' _ ih => simp [join, ih]

variable (cmp : α → α → Ordering)

theorem mem_of_mem_path {x a : α} {t : BinaryTree α} (met : a ∈ path cmp x t) : a ∈ toList t := by
  induction t with
  | nil => cases met
  | node b l r left right =>
    rw [path, List.mem_cons] at met
    cases met with
    | inl here => simp [here]
    | inr below =>
      cases way : cmp x b with
      | lt =>
        rw [way] at below
        simp [left below]
      | eq =>
        rw [way] at below
        cases below
      | gt =>
        rw [way] at below
        simp [right below]

/-! ### Insertion -/

/-- Either a tie keeps the element out, or it lands on the side each comparison says. -/
theorem toList_insert (x : α) (t : BinaryTree α) :
    insert cmp x t = t ∧ (∃ a ∈ path cmp x t, cmp x a = .eq) ∨
      ∃ before after, toList t = before ++ after ∧ toList (insert cmp x t) = before ++ x :: after ∧
        ∀ a ∈ path cmp x t, cmp x a = .lt ∧ a ∈ after ∨ cmp x a = .gt ∧ a ∈ before := by
  induction t with
  | nil => exact .inr ⟨[], [], rfl, rfl, fun a met => absurd met List.not_mem_nil⟩
  | node b l r left right =>
    rw [insert, path]
    cases way : cmp x b with
    | eq => exact .inl ⟨rfl, b, List.mem_cons_self, way⟩
    | lt =>
      cases left with
      | inl tie =>
        obtain ⟨same, a, met, equal⟩ := tie
        simp only
        exact .inl ⟨by rw [same], a, List.mem_cons_of_mem _ met, equal⟩
      | inr lands =>
        obtain ⟨before, after, whole, result, sides⟩ := lands
        refine .inr ⟨before, after ++ b :: toList r, ?_, ?_, fun a met => ?_⟩
        · rw [toList_node, whole, List.append_assoc]
        · simp [result]
        · cases List.mem_cons.mp met with
          | inl here => exact .inl ⟨here ▸ way, by simp [here]⟩
          | inr below =>
            cases sides a below with
            | inl after_ => exact .inl ⟨after_.1, List.mem_append_left _ after_.2⟩
            | inr before_ => exact .inr before_
    | gt =>
      cases right with
      | inl tie =>
        obtain ⟨same, a, met, equal⟩ := tie
        simp only
        exact .inl ⟨by rw [same], a, List.mem_cons_of_mem _ met, equal⟩
      | inr lands =>
        obtain ⟨before, after, whole, result, sides⟩ := lands
        refine .inr ⟨toList l ++ b :: before, after, ?_, ?_, fun a met => ?_⟩
        · simp [whole]
        · simp [result]
        · cases List.mem_cons.mp met with
          | inl here => exact .inr ⟨here ▸ way, by simp [here]⟩
          | inr below =>
            cases sides a below with
            | inl after_ => exact .inl after_
            | inr before_ =>
              exact .inr ⟨before_.1, List.mem_append_right _ (List.mem_cons_of_mem _ before_.2)⟩

/-- An insertion into a sorted tree goes to the right place if the path tells the truth. -/
theorem insert_sorted {r : α → α → Prop} (trans : ∀ {a b c}, r a b → r b c → r a c) {x : α}
    {t : BinaryTree α} (sorted : (toList t).Pairwise r) (tells : ∀ a ∈ path cmp x t, Tells r cmp x a) :
    ∃ before after, toList t = before ++ after ∧ toList (insert cmp x t) = before ++ x :: after ∧
      (∀ a ∈ before, r a x) ∧ ∀ a ∈ after, r x a := by
  induction t with
  | nil => exact ⟨[], [], rfl, rfl, by simp, by simp⟩
  | node b l right_ left right =>
    obtain ⟨sortedLeft, sortedRight, across⟩ := List.pairwise_append.mp sorted
    obtain ⟨fromRoot, sortedRight⟩ := List.pairwise_cons.mp sortedRight
    rw [path] at tells
    have root := tells b List.mem_cons_self
    rw [insert]
    rw [Tells] at root
    cases way : cmp x b with
    | eq =>
      rw [way] at root
      exact absurd root id
    | lt =>
      rw [way] at root tells
      obtain ⟨before, after, whole, result, below, above⟩ :=
        left sortedLeft fun a met => tells a (List.mem_cons_of_mem _ met)
      refine ⟨before, after ++ b :: toList right_, ?_, ?_, below, fun a member => ?_⟩
      · rw [toList_node, whole, List.append_assoc]
      · simp [result]
      · rcases List.mem_append.mp member with inLeft | rest
        · exact above a inLeft
        · cases List.mem_cons.mp rest with
          | inl here => exact here ▸ root
          | inr inRight => exact trans root (fromRoot a inRight)
    | gt =>
      rw [way] at root tells
      obtain ⟨before, after, whole, result, below, above⟩ :=
        right sortedRight fun a met => tells a (List.mem_cons_of_mem _ met)
      refine ⟨toList l ++ b :: before, after, ?_, ?_, fun a member => ?_, above⟩
      · simp [whole]
      · simp [result]
      · rcases List.mem_append.mp member with inLeft | rest
        · exact trans (across a inLeft b List.mem_cons_self) root
        · cases List.mem_cons.mp rest with
          | inl here => exact here ▸ root
          | inr inRight => exact below a inRight

/-! ### Removal -/

/-- Either the search finds no tie, or the one it ends at is taken out. -/
theorem toList_remove (x : α) (t : BinaryTree α) :
    (∀ a ∈ path cmp x t, cmp x a ≠ .eq) ∧ toList (remove cmp x t) = toList t ∨
      ∃ a ∈ path cmp x t, cmp x a = .eq ∧ (∀ a' ∈ path cmp x t, cmp x a' = .eq → a' = a) ∧
        ∃ before after, toList t = before ++ a :: after ∧
          toList (remove cmp x t) = before ++ after := by
  induction t with
  | nil => exact .inl ⟨fun a met => absurd met List.not_mem_nil, rfl⟩
  | node b l r left right =>
    have root : ∀ {way : Ordering}, cmp x b = way → way ≠ .eq → ∀ {rest : List α},
        (∀ a ∈ rest, cmp x a ≠ .eq) → ∀ a ∈ b :: rest, cmp x a ≠ .eq := by
      intro way is_ other rest none a met
      cases List.mem_cons.mp met with
      | inl here => exact here ▸ is_ ▸ other
      | inr below => exact none a below
    have only : ∀ {way : Ordering}, cmp x b = way → way ≠ .eq → ∀ {rest : List α} {c : α},
        (∀ a ∈ rest, cmp x a = .eq → a = c) → ∀ a ∈ b :: rest, cmp x a = .eq → a = c := by
      intro way is_ other rest c one a met tie
      cases List.mem_cons.mp met with
      | inl here => exact absurd (is_.symm.trans (here ▸ tie)) other
      | inr below => exact one a below tie
    rw [remove, path]
    cases way : cmp x b with
    | eq =>
      refine .inr ⟨b, List.mem_cons_self, way, fun a met _ => ?_, toList l, toList r, rfl, ?_⟩
      · exact List.mem_singleton.mp met
      · exact toList_join l r
    | lt =>
      cases left with
      | inl none => exact .inl ⟨root way (by decide) none.1, by rw [toList_node, none.2]; rfl⟩
      | inr found =>
        obtain ⟨a, met, tie, one, before, after, whole, result⟩ := found
        refine .inr ⟨a, List.mem_cons_of_mem _ met, tie, only way (by decide) one, before,
          after ++ b :: toList r, ?_, ?_⟩
        · simp [whole]
        · simp [result]
    | gt =>
      cases right with
      | inl none => exact .inl ⟨root way (by decide) none.1, by rw [toList_node, none.2]; rfl⟩
      | inr found =>
        obtain ⟨a, met, tie, one, before, after, whole, result⟩ := found
        refine .inr ⟨a, List.mem_cons_of_mem _ met, tie, only way (by decide) one,
          toList l ++ b :: before, after, ?_, ?_⟩
        · simp [whole]
        · simp [result]

theorem toList_remove_sublist (x : α) (t : BinaryTree α) :
    (toList (remove cmp x t)).Sublist (toList t) := by
  cases toList_remove cmp x t with
  | inl none => rw [none.2]
  | inr found =>
    obtain ⟨a, -, -, -, before, after, whole, result⟩ := found
    rw [whole, result]
    exact (List.Sublist.refl before).append (List.sublist_cons_self a after)

/-- The first element is taken out, and nothing else, exactly if the search for it always goes
left until it is met. -/
theorem remove_first {x : α} {rest : List α} {t : BinaryTree α} (self : cmp x x = .eq)
    (first : toList t = x :: rest) (fresh : x ∉ rest) :
    toList (remove cmp x t) = rest ∧ (∀ a ∈ path cmp x t, a ≠ x → cmp x a = .lt) ∨
      x ∈ toList (remove cmp x t) ∧ ∃ a ∈ path cmp x t, a ≠ x ∧ cmp x a ≠ .lt := by
  induction t generalizing rest with
  | nil => cases first
  | node b l r left _ =>
    cases whole : toList l with
    | nil =>
      rw [toList_node, whole] at first
      obtain ⟨rfl, rfl⟩ := List.cons.inj first
      rw [remove, path, self]
      refine .inl ⟨by rw [toList_join, whole]; rfl, fun a met other => ?_⟩
      exact absurd (List.mem_singleton.mp met) other
    | cons y below =>
      rw [toList_node, whole] at first
      obtain ⟨rfl, rfl⟩ := List.cons.inj first
      have other : b ≠ y := fun same => fresh (by simp [same])
      rw [remove, path]
      cases way : cmp y b with
      | lt =>
        cases left whole fun member => fresh (by simp [member]) with
        | inl removed =>
          refine .inl ⟨by simp [removed.1], fun a met apart => ?_⟩
          cases List.mem_cons.mp met with
          | inl here => exact here ▸ way
          | inr deeper => exact removed.2 a deeper apart
        | inr stays =>
          obtain ⟨there, a, met, wrong⟩ := stays
          exact .inr ⟨by simp [there], a, List.mem_cons_of_mem _ met, wrong⟩
      | eq =>
        refine .inr ⟨by simp [toList_join, whole], b, List.mem_cons_self, other, ?_⟩
        rw [way]
        decide
      | gt =>
        refine .inr ⟨by simp [whole], b, List.mem_cons_self, other, ?_⟩
        rw [way]
        decide

end GuestAgent.Library.SearchTree
