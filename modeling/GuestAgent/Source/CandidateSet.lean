import GuestAgent.Library.Runs
import GuestAgent.Library.SearchTree

/-!
The set of the controls the UI bot may interact with: CandidateSet.cs.

`SortedSet` is a search tree that the library keeps balanced. Balancing may change the shape of
the tree before and during each operation, but not the order of its elements; an operation that
searches while it restructures meets the path of some tree with that order, so a `Balancing` gives
the shape each operation searches. A candidate is an object; of its fields only the score matters
to the set.
-/
namespace GuestAgent.Source
open Library

structure UIControlCandidate where
  id : Nat
  score : Int32
  deriving DecidableEq, Repr

/-- `UIScoreComparer.Compare`; the subtraction wraps around. -/
def UIControlCandidate.compare (x y : UIControlCandidate) : Int32 := y.score - x.score

/-- The sign of a comparison, which is what the set goes by. -/
def UIControlCandidate.order (x y : UIControlCandidate) : Ordering :=
  if x.compare y < 0 then .lt else if x.compare y = 0 then .eq else .gt

structure Balancing where
  reshape : Nat → BinaryTree UIControlCandidate → BinaryTree UIControlCandidate
  keepsOrder : ∀ n t, SearchTree.toList (reshape n t) = SearchTree.toList t

/-- No reshaping: what small trees do that need no rotation. -/
def Balancing.none : Balancing := ⟨fun _ t => t, fun _ _ => rfl⟩

/-- The elements, and the number of operations made so far. -/
structure CandidateSet where
  tree : BinaryTree UIControlCandidate
  operations : Nat

namespace CandidateSet

def empty : CandidateSet := ⟨.nil, 0⟩

/-- The elements in the order of enumeration. -/
def items (s : CandidateSet) : List UIControlCandidate := SearchTree.toList s.tree

@[simp] theorem items_empty : empty.items = [] := rfl

variable (b : Balancing) (s : CandidateSet) (c : UIControlCandidate)

/-- The tree the next operation searches. -/
def searched : BinaryTree UIControlCandidate := b.reshape s.operations s.tree

def add : CandidateSet := ⟨SearchTree.insert UIControlCandidate.order c (s.searched b), s.operations + 1⟩

def remove : CandidateSet := ⟨SearchTree.remove UIControlCandidate.order c (s.searched b), s.operations + 1⟩

/-- The candidate and the set it leaves; `none` is the `NoMoreCandidateException`. The result of
`Remove` is not looked at. -/
def popTopCandidate : Option (UIControlCandidate × CandidateSet) :=
  match s.items with
  | [] => none
  | result :: _ => some (result, s.remove b result)

/-- The candidates the next operation compares `c` with. -/
def compared : List UIControlCandidate := SearchTree.path UIControlCandidate.order c (s.searched b)

@[simp] theorem items_searched : SearchTree.toList (s.searched b) = s.items := b.keepsOrder _ _

theorem compared_subset {a : UIControlCandidate} (met : a ∈ s.compared b c) : a ∈ s.items :=
  s.items_searched b ▸ SearchTree.mem_of_mem_path _ met

end CandidateSet

end GuestAgent.Source
