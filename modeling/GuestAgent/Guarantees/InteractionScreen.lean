import Mathlib.Data.List.Count
import GuestAgent.Guarantees.Candidates
import GuestAgent.Source.InteractionScreen

/-!
When the debug screenshot leaves the candidates as they were.

The candidate is put back before the serializer is made and taken out behind the serialization,
with no handler in between. A failing serialization leaves it in the set, where the next round
pops it again. In a set with tied scores the two operations may also miss each other.
-/
namespace GuestAgent.Guarantees.InteractionScreen
open Library Source Source.CandidateSet Candidates

variable (b : Balancing)

/-- The search for `c` ends at a candidate with its score. -/
def Tied (s : CandidateSet) (c : UIControlCandidate) : Prop :=
  ∃ a ∈ s.compared b c, a.score = c.score

instance (s : CandidateSet) (c : UIControlCandidate) : Decidable (Tied b s c) :=
  inferInstanceAs (Decidable (∃ a ∈ _, _))

/-- The candidate is put back into the set. -/
structure PutsBack (v : ScreenView) : Prop where
  shot : getWindowsScreenshot v.shot ≠ none
  saveClean : v.saveClean = none
  createXml : v.createXml = none

/-- The set is serialized without an exception. -/
structure Serializes (v : ScreenView) : Prop where
  makeSerializer : v.makeSerializer = none
  serialize : v.serialize = none

/-- The removal takes out what the addition put in, or neither finds a place. -/
def Undone (best : UIControlCandidate) (w : CandidateSet) : Prop :=
  Tied b w best ∧ ¬ Tied b (w.add b best) best ∨
    ¬ Tied b w best ∧ best ∈ (w.add b best).compared b best

instance (best : UIControlCandidate) (w : CandidateSet) : Decidable (Undone b best w) :=
  inferInstanceAs (Decidable (_ ∨ _))

/-- The condition under which the set is as it was: a candidate that is put back is taken out
again, or was refused. -/
structure Restores (v : ScreenView) (best : UIControlCandidate) (w : CandidateSet) : Prop where
  serialized : PutsBack v → Serializes v → Undone b best w
  failed : PutsBack v → ¬ Serializes v → Tied b w best

/-- The elements of the set are the same afterwards. -/
def Keeps (v : ScreenView) (best : UIControlCandidate) (w : CandidateSet) : Prop :=
  (saveInteractionScreen b v best w).2.items.Perm w.items

/-- In each round the candidate that is popped leaves the set, and the screenshot restores it. -/
def RoundsRestore : CandidateSet → List ScreenView → Prop
  | _, [] => True
  | w, v :: rest =>
    match w.popTopCandidate b with
    | none => True
    | some (candidate, w') =>
      candidate ∈ w.compared b candidate ∧ (0 < candidate.score → Restores b v candidate w') ∧
        RoundsRestore
          (if 0 < candidate.score then (saveInteractionScreen b v candidate w').2 else w') rest

/-- A set as it is filled with candidates any two of which are apart. -/
def InOrder (s : CandidateSet) : Prop := s.items.Pairwise fun x y => Better x y ∧ Apart x y

/-! ### The two operations -/

section operations

variable {b} {s : CandidateSet} {c : UIControlCandidate}

theorem remove_of_not_tied (free : ¬ Tied b s c) : (s.remove b c).items = s.items := by
  have result := SearchTree.toList_remove UIControlCandidate.order c (s.searched b)
  rw [items_searched] at result
  cases result with
  | inl none => exact none.2
  | inr found =>
    obtain ⟨a, met, tie, -⟩ := found
    exact absurd ⟨a, met, (order_eq_iff c a).mp tie⟩ free

/-- The candidate the search for `c` ends at is taken out, and it is the only one with the score
of `c` on the way. -/
theorem remove_of_tied (tied : Tied b s c) :
    ∃ a ∈ s.compared b c, (∀ x ∈ s.compared b c, x.score = c.score → x = a) ∧
      (a :: (s.remove b c).items).Perm s.items := by
  have result := SearchTree.toList_remove UIControlCandidate.order c (s.searched b)
  rw [items_searched] at result
  cases result with
  | inl none =>
    obtain ⟨a, met, same⟩ := tied
    exact absurd ((order_eq_iff c a).mpr same) (none.1 a met)
  | inr found =>
    obtain ⟨a, met, -, only, before, after, whole, removed⟩ := found
    refine ⟨a, met, fun x met' same => only x met' ((order_eq_iff c x).mpr same), ?_⟩
    rw [whole]
    have items : (s.remove b c).items = before ++ after := removed
    rw [items]
    exact List.perm_middle.symm

theorem remove_of_compared (met : c ∈ s.compared b c) :
    (c :: (s.remove b c).items).Perm s.items := by
  obtain ⟨a, -, only, perm⟩ := remove_of_tied ⟨c, met, rfl⟩
  obtain rfl : c = a := only c met rfl
  exact perm

/-- Adding a candidate and removing it again. -/
theorem undone_iff : ((s.add b c).remove b c).items.Perm s.items ↔ Undone b c s := by
  by_cases tied : Tied b s c
  · have refused := add_of_tied tied
    by_cases again : Tied b (s.add b c) c
    · refine iff_of_false (fun perm => ?_) (fun undone => ?_)
      · obtain ⟨a, -, -, removed⟩ := remove_of_tied again
        rw [refused] at removed
        have fewer := removed.length_eq
        have same := perm.length_eq
        rw [List.length_cons] at fewer
        omega
      · cases undone with
        | inl left => exact left.2 again
        | inr right => exact right.1 tied
    · rw [remove_of_not_tied again, refused]
      exact iff_of_true (List.Perm.refl _) (.inl ⟨tied, again⟩)
  · have placed := add_of_not_tied tied
    by_cases again : Tied b (s.add b c) c
    · obtain ⟨a, met, only, removed⟩ := remove_of_tied again
      have both := removed.trans placed
      constructor
      · intro perm
        have counts := both.count_eq a
        rw [List.count_cons_self, List.count_cons, perm.count_eq a] at counts
        have same : c = a := by
          by_contra other
          simp [other] at counts
        exact .inr ⟨tied, same ▸ met⟩
      · intro undone
        cases undone with
        | inl left => exact absurd left.1 tied
        | inr right =>
          obtain rfl : c = a := only c right.2 rfl
          exact both.cons_inv
    · rw [remove_of_not_tied again]
      refine iff_of_false (fun perm => ?_) (fun undone => ?_)
      · have more := placed.length_eq
        have same := perm.length_eq
        rw [List.length_cons] at more
        omega
      · cases undone with
        | inl left => exact tied left.1
        | inr right => exact again ⟨c, right.2, rfl⟩

end operations

/-! ### One screenshot -/

section screenshot

variable {b} {v : ScreenView} {best : UIControlCandidate} {w : CandidateSet}

theorem save_without_putting_back (not : ¬ PutsBack v) :
    (saveInteractionScreen b v best w).2 = w := by
  unfold saveInteractionScreen
  cases shot : getWindowsScreenshot v.shot with
  | none => rfl
  | some bitmap =>
    have raised : v.saveClean ≠ none ∨ v.createXml ≠ none := by
      by_contra neither
      rw [not_or, not_not, not_not] at neither
      exact not ⟨by rw [shot]; exact Option.some_ne_none _, neither.1, neither.2⟩
    unfold ScreenView.body
    cases clean : v.saveClean with
    | some e => rfl
    | none =>
      cases xml : v.createXml with
      | some e => rfl
      | none => exact (raised.elim (fun h => h clean) fun h => h xml).elim

theorem save_putting_back (puts : PutsBack v) :
    (saveInteractionScreen b v best w).2 = (v.body b best w).state := by
  unfold saveInteractionScreen
  cases shot : getWindowsScreenshot v.shot with
  | none => exact absurd shot puts.shot
  | some bitmap => rfl

theorem save_failing (puts : PutsBack v) (fails : ¬ Serializes v) :
    (saveInteractionScreen b v best w).2 = w.add b best := by
  rw [save_putting_back puts, ScreenView.body, puts.saveClean, puts.createXml]
  cases make : v.makeSerializer with
  | some e => rfl
  | none =>
    cases serialize : v.serialize with
    | some e => rfl
    | none => exact absurd ⟨make, serialize⟩ fails

theorem save_serializing (puts : PutsBack v) (serializes : Serializes v) :
    (saveInteractionScreen b v best w).2 = (w.add b best).remove b best := by
  rw [save_putting_back puts, ScreenView.body, puts.saveClean, puts.createXml,
    serializes.makeSerializer, serializes.serialize]
  cases v.closeXml with
  | some e => rfl
  | none => rfl

theorem keeps_iff : Keeps b v best w ↔ Restores b v best w := by
  unfold Keeps
  by_cases puts : PutsBack v
  · by_cases serializes : Serializes v
    · rw [save_serializing puts serializes, undone_iff]
      exact ⟨fun undone => ⟨fun _ _ => undone, fun _ fails => absurd serializes fails⟩,
        fun restores => restores.serialized puts serializes⟩
    · rw [save_failing puts serializes]
      constructor
      · intro perm
        refine ⟨fun _ done => absurd done serializes, fun _ _ => ?_⟩
        by_contra free
        have more := (add_of_not_tied free).length_eq
        have same := perm.length_eq
        rw [List.length_cons] at more
        omega
      · intro restores
        rw [add_of_tied (restores.failed puts serializes)]
  · rw [save_without_putting_back puts]
    exact iff_of_true (List.Perm.refl _)
      ⟨fun done => absurd done puts, fun done => absurd done puts⟩

section behind

variable {u : CandidateSet} {rest : List UIControlCandidate}
  (ahead : ∀ a ∈ rest, Better best a ∧ Apart best a)
include ahead

/-- Whatever the search for the first candidate meets but the candidate itself lies behind it. -/
theorem remove_ahead (items : u.items = best :: rest) : (u.remove b best).items = rest := by
  have fresh : best ∉ rest := fun member => (ahead best member).2.1 rfl
  cases remove_cases b items fresh with
  | inl removed => exact removed.1
  | inr stays =>
    obtain ⟨-, a, met, other, way⟩ := stays
    have member := compared_subset b u best met
    rw [items] at member
    have behind := ahead a ((List.mem_cons.mp member).resolve_left other)
    exact absurd ((order_lt_iff behind.1).mpr behind.2) way

theorem add_ahead (items : u.items = rest) (sorted : rest.Pairwise Better) :
    ¬ Tied b u best ∧ (u.add b best).items = best :: rest := by
  subst items
  have apart : ∀ a ∈ u.compared b best, Apart best a :=
    fun a met => (ahead a (compared_subset b u best met)).2
  refine ⟨fun tied => ?_, ?_⟩
  · obtain ⟨a, met, same⟩ := tied
    exact (apart a met).1 same.symm
  · obtain ⟨sortedAfter, perm⟩ := add_sorted b sorted apart
    have first : (best :: u.items).Pairwise Better :=
      List.pairwise_cons.mpr ⟨fun a member => (ahead a member).1, sorted⟩
    refine perm.eq_of_pairwise (fun x y _ _ above below => ?_) sortedAfter first
    exact absurd below (Int32.lt_asymm above)

end behind

/-- Behind the top of a set in order there is no tie, and the two operations undo each other. -/
theorem restores_iff_of_inOrder {s : CandidateSet} (inOrder : InOrder s)
    (popped : s.popTopCandidate b = some (best, w)) :
    Restores b v best w ↔ (PutsBack v → Serializes v) := by
  cases whole : s.items with
  | nil =>
    rw [popTopCandidate_none b whole] at popped
    cases popped
  | cons top rest =>
    rw [popTopCandidate_some b whole] at popped
    cases popped
    rw [InOrder, whole] at inOrder
    obtain ⟨ahead, inOrderRest⟩ := List.pairwise_cons.mp inOrder
    have left : (s.remove b best).items = rest := remove_ahead ahead whole
    obtain ⟨free, again⟩ := add_ahead (b := b) ahead left (inOrderRest.imp And.left)
    have undone : Undone b best (s.remove b best) := by
      rw [← undone_iff, remove_ahead ahead again, left]
    constructor
    · intro restores puts
      by_contra fails
      exact free (restores.failed puts fails)
    · intro serializes
      exact ⟨fun _ _ => undone, fun puts fails => absurd (serializes puts) fails⟩

end screenshot

/-! ### The rounds -/

theorem poppedIn_perm {b : Balancing} {w : CandidateSet} {views : List ScreenView}
    (restore : RoundsRestore b w views) : ∃ rest, (poppedIn b w views ++ rest).Perm w.items := by
  induction views generalizing w with
  | nil => exact ⟨w.items, List.Perm.refl _⟩
  | cons v views ih =>
    cases whole : w.items with
    | nil =>
      rw [poppedIn, popTopCandidate_none b whole]
      exact ⟨[], List.Perm.refl _⟩
    | cons top rest =>
      have popped := popTopCandidate_some b whole
      rw [RoundsRestore, popped] at restore
      obtain ⟨met, restores, later⟩ := restore
      obtain ⟨rest', perm⟩ := ih later
      have same : (if 0 < top.score then (saveInteractionScreen b v top (w.remove b top)).2
          else w.remove b top).items.Perm (w.remove b top).items := by
        by_cases positive : 0 < top.score
        · rw [if_pos positive]
          exact keeps_iff.mpr (restores positive)
        · rw [if_neg positive]
      refine ⟨rest', ?_⟩
      rw [poppedIn, popped, ← whole]
      exact ((perm.trans same).cons top).trans (remove_of_compared met)

/-- The elements are the same after a screenshot exactly if it restores them; behind the top of a
set in order it does exactly if a candidate that is put back is serialized without an exception.
In rounds that restore the set no candidate is popped twice, and the set runs out. -/
theorem screenshot_keeps_iff (b : Balancing) :
    (∀ v best w, Keeps b v best w ↔ Restores b v best w) ∧
      (∀ v s best w, InOrder s → s.popTopCandidate b = some (best, w) →
        (Keeps b v best w ↔ (PutsBack v → Serializes v))) ∧
      ∀ w views, w.items.Nodup → RoundsRestore b w views →
        (poppedIn b w views).Nodup ∧ (poppedIn b w views).length ≤ w.items.length := by
  refine ⟨fun v best w => keeps_iff, fun v s best w inOrder popped => ?_,
    fun w views distinct restore => ?_⟩
  · rw [keeps_iff]
    exact restores_iff_of_inOrder inOrder popped
  · obtain ⟨rest, perm⟩ := poppedIn_perm restore
    have sub : (poppedIn b w views).Sublist (poppedIn b w views ++ rest) :=
      List.sublist_append_left _ _
    exact ⟨(perm.nodup_iff.mpr distinct).sublist sub, perm.length_eq ▸ sub.length_le⟩

/-- A screenshot that is saved. -/
def saved : ScreenView := ⟨⟨.ok (some (800, 600)), none⟩, none, none, none, none, none, none⟩

/-- One for which the serialization throws. -/
def unserializable : ScreenView := { saved with serialize := some .invalidOperation }

def twoButtons : CandidateSet := addAll .none [⟨0, 5⟩, ⟨1, 3⟩]

def secondButton : CandidateSet := twoButtons.remove .none ⟨0, 5⟩

theorem twoButtons_items : twoButtons.items = [⟨0, 5⟩, ⟨1, 3⟩] := by decide

theorem twoButtons_popped : twoButtons.popTopCandidate .none = some (⟨0, 5⟩, secondButton) :=
  popTopCandidate_some .none twoButtons_items

theorem twoButtons_inOrder : InOrder twoButtons := by
  rw [InOrder, twoButtons_items, List.pairwise_pair]
  exact ⟨by unfold Better; decide, by decide⟩

theorem saved_restores : Restores .none saved ⟨0, 5⟩ secondButton := by
  refine ⟨fun _ _ => by decide, fun _ fails => ?_⟩
  exact absurd ⟨rfl, rfl⟩ fails

/-- The set behind the first screenshot. -/
def afterFirst : CandidateSet := (saveInteractionScreen .none saved ⟨0, 5⟩ secondButton).2

theorem afterFirst_items : afterFirst.items = [⟨1, 3⟩] := by decide

/-- And behind the second. -/
def afterSecond : CandidateSet :=
  (saveInteractionScreen .none saved ⟨1, 3⟩ (afterFirst.remove .none ⟨1, 3⟩)).2

theorem afterSecond_items : afterSecond.items = [] := by decide

theorem twoButtons_restored : RoundsRestore .none twoButtons [saved, saved, saved] := by
  rw [RoundsRestore, twoButtons_popped]
  refine ⟨by decide, fun _ => saved_restores, ?_⟩
  change RoundsRestore .none afterFirst [saved, saved]
  rw [RoundsRestore, popTopCandidate_some .none afterFirst_items]
  refine ⟨by decide, fun _ => ⟨fun _ _ => by decide, fun _ fails => absurd ⟨rfl, rfl⟩ fails⟩, ?_⟩
  change RoundsRestore .none afterSecond [saved]
  rw [RoundsRestore, popTopCandidate_none .none afterSecond_items]
  trivial

theorem twoButtons_kept :
    (Keeps .none saved ⟨0, 5⟩ secondButton ↔ Restores .none saved ⟨0, 5⟩ secondButton) ∧
      (Keeps .none saved ⟨0, 5⟩ secondButton ↔ (PutsBack saved → Serializes saved)) ∧
      poppedIn .none twoButtons [saved, saved, saved] = [⟨0, 5⟩, ⟨1, 3⟩] ∧
      (poppedIn .none twoButtons [saved, saved, saved]).Nodup ∧
      (poppedIn .none twoButtons [saved, saved, saved]).length ≤ twoButtons.items.length := by
  obtain ⟨each, behind, rounds⟩ := screenshot_keeps_iff .none
  exact ⟨each _ _ _, behind saved _ _ _ twoButtons_inOrder twoButtons_popped, by decide,
    rounds twoButtons [saved, saved, saved] (by decide) twoButtons_restored⟩

/-- The candidate that could not be serialized stays in the set. -/
theorem unserializable_stays : ¬ ∀ b v best w (s : CandidateSet),
    s.popTopCandidate b = some (best, w) → Keeps b v best w := by
  intro keeps
  have perm := keeps .none unserializable _ _ twoButtons twoButtons_popped
  have same := perm.length_eq
  exact absurd same (by decide)

/-- And it is popped again. -/
example : poppedIn .none twoButtons [unserializable, unserializable] = [⟨0, 5⟩, ⟨0, 5⟩] := by decide

end GuestAgent.Guarantees.InteractionScreen
