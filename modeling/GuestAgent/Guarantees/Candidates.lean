import Mathlib.Data.List.Pairwise
import GuestAgent.Source.CandidateSet

/-!
When the set of candidates loses none of them.

Adding the candidates and popping them until the set is empty gives all of them, best scores
first, exactly if any two candidates that the set compares on the way have different scores
whose difference is an Int32. So it does if this holds of any two of the candidates, and it never
does if two of them have the same score.
-/
namespace GuestAgent.Guarantees.Candidates
open Library Library.Runs Source Source.CandidateSet

variable (b : Balancing)

def addAll (cs : List UIControlCandidate) : CandidateSet := run (add b) empty cs

/-- Calls of `PopTopCandidate` until it throws, with the candidates they returned. -/
inductive PopsUntilEmpty : CandidateSet → List UIControlCandidate → Prop
  | none {s : CandidateSet} (empty : s.popTopCandidate b = none) : PopsUntilEmpty s []
  | next {s s' : CandidateSet} {c : UIControlCandidate} {out : List UIControlCandidate}
      (popped : s.popTopCandidate b = some (c, s')) (rest : PopsUntilEmpty s' out) :
      PopsUntilEmpty s (c :: out)

/-- Every candidate is returned exactly once, in the order of the scores. -/
def Keeps (cs : List UIControlCandidate) : Prop :=
  ∃ out, PopsUntilEmpty b (addAll b cs) out ∧ out.Perm cs ∧
    out.Pairwise fun first later => later.score ≤ first.score

/-- The scores differ, and their difference does not overflow. -/
def Apart (x y : UIControlCandidate) : Prop :=
  x.score ≠ y.score ∧ -0x80000000 ≤ y.score.toInt - x.score.toInt ∧
    y.score.toInt - x.score.toInt < 0x80000000

instance (x y : UIControlCandidate) : Decidable (Apart x y) :=
  inferInstanceAs (Decidable (_ ∧ _ ∧ _))

/-- The set after a call of `PopTopCandidate`. -/
def pop (s : CandidateSet) : CandidateSet :=
  match s.popTopCandidate b with
  | none => s
  | some (_, s') => s'

/-- Whatever is compared while the candidates are added and popped is apart. -/
structure ComparedApart (cs : List UIControlCandidate) : Prop where
  adds : EachStep (add b) (fun s c => ∀ a ∈ s.compared b c, Apart c a) empty cs
  pops : ∀ k top rest, ((pop b)^[k] (addAll b cs)).items = top :: rest →
    ∀ a ∈ ((pop b)^[k] (addAll b cs)).compared b top, a ≠ top → Apart top a

/-- Any two candidates are apart; `x - y` is what comparing the later one with the earlier gives. -/
def ScoresApart (cs : List UIControlCandidate) : Prop :=
  cs.Pairwise fun earlier later => Apart later earlier

/-! ### The comparison -/

/-- The order of enumeration a set is meant to have. -/
def Better (x y : UIControlCandidate) : Prop := y.score < x.score

theorem better_trans {x y z : UIControlCandidate} (first : Better x y) (second : Better y z) :
    Better x z := Int32.lt_trans second first

theorem tells_iff (x a : UIControlCandidate) :
    SearchTree.Tells Better UIControlCandidate.order x a ↔ Apart x a := by
  have difference : (x.compare a).toInt = (a.score.toInt - x.score.toInt).bmod (2 ^ 32) :=
    Int32.toInt_sub ..
  have lx := x.score.le_toInt
  have ux := x.score.toInt_lt
  have la := a.score.le_toInt
  have ua := a.score.toInt_lt
  have negative : x.compare a < 0 ↔ (x.compare a).toInt < 0 := Int32.lt_iff_toInt_lt
  have zero : x.compare a = 0 ↔ (x.compare a).toInt = 0 := Int32.toInt_inj.symm
  have same : x.score = a.score ↔ x.score.toInt = a.score.toInt := Int32.toInt_inj.symm
  simp only [SearchTree.Tells, UIControlCandidate.order, Better, Apart, negative, zero, difference,
    Int32.lt_iff_toInt_lt, ne_eq, same]
  rw [Int.bmod_def]
  split_ifs <;> dsimp only <;> first | omega | (rw [false_iff]; omega)

theorem order_of_score_eq {x y : UIControlCandidate} (same : x.score = y.score) :
    x.order y = .eq := by
  have zero : x.compare y = 0 := by
    rw [UIControlCandidate.compare, same]
    exact Int32.sub_self y.score
  rw [UIControlCandidate.order, zero]
  rfl

theorem score_eq_of_order {x y : UIControlCandidate} (tie : x.order y = .eq) :
    x.score = y.score := by
  unfold UIControlCandidate.order at tie
  split at tie
  · cases tie
  · split at tie
    · next zero =>
      have same : y.score = 0 + x.score := Int32.sub_eq_iff_eq_add.mp zero
      rw [same, Int32.zero_add]
    · cases tie

theorem order_eq_iff (x y : UIControlCandidate) : x.order y = .eq ↔ y.score = x.score :=
  ⟨fun tie => (score_eq_of_order tie).symm, fun same => order_of_score_eq same.symm⟩

theorem better_of_not {x y : UIControlCandidate} (differ : x.score ≠ y.score)
    (not : ¬ Better x y) : Better y x :=
  Int32.lt_of_le_of_ne (Int32.not_lt.mp not) differ

/-- Against a candidate behind it, the first one goes left exactly if the two are apart. -/
theorem order_lt_iff {top a : UIControlCandidate} (better : Better top a) :
    top.order a = .lt ↔ Apart top a := by
  rw [← tells_iff, SearchTree.Tells]
  cases top.order a with
  | lt => exact iff_of_true rfl better
  | eq => simp
  | gt =>
    have not_worse : ¬ Better a top := Int32.lt_asymm better
    simp [not_worse]

/-! ### Adding -/

theorem items_add (s : CandidateSet) (c : UIControlCandidate) : (s.add b c).items =
    SearchTree.toList (SearchTree.insert UIControlCandidate.order c (s.searched b)) := rfl

/-- What an addition that is compared rightly does. -/
theorem add_sorted {s : CandidateSet} {c : UIControlCandidate} (sorted : s.items.Pairwise Better)
    (apart : ∀ a ∈ s.compared b c, Apart c a) :
    (s.add b c).items.Pairwise Better ∧ (s.add b c).items.Perm (c :: s.items) := by
  obtain ⟨before, after, whole, result, above, below⟩ :=
    SearchTree.insert_sorted UIControlCandidate.order (r := Better) better_trans
      (by rw [items_searched]; exact sorted) fun a met => (tells_iff c a).mpr (apart a met)
  rw [items_searched] at whole
  rw [whole, List.pairwise_append] at sorted
  obtain ⟨sortedBefore, sortedAfter, across⟩ := sorted
  rw [items_add, result, whole]
  refine ⟨List.pairwise_append.mpr ⟨sortedBefore, List.pairwise_cons.mpr ⟨below, sortedAfter⟩, ?_⟩,
    List.perm_middle⟩
  intro x inBefore y member
  cases List.mem_cons.mp member with
  | inl here => exact here ▸ above x inBefore
  | inr inAfter => exact across x inBefore y inAfter

/-- What any addition does: the candidate is dropped, or it is put somewhere. -/
theorem add_cases (s : CandidateSet) (c : UIControlCandidate) :
    (s.add b c).items = s.items ∨
      ∃ before after, s.items = before ++ after ∧ (s.add b c).items = before ++ c :: after ∧
        ∀ a ∈ s.compared b c, c.order a = .lt ∧ a ∈ after ∨ c.order a = .gt ∧ a ∈ before := by
  have result := SearchTree.toList_insert UIControlCandidate.order c (s.searched b)
  rw [items_searched] at result
  cases result with
  | inl tie => exact .inl (by rw [items_add, tie.1, items_searched])
  | inr lands => exact .inr lands

section tie

variable {b} {s : CandidateSet} {c : UIControlCandidate}

theorem add_of_tied (tied : ∃ a ∈ s.compared b c, a.score = c.score) :
    (s.add b c).items = s.items := by
  cases add_cases b s c with
  | inl same => exact same
  | inr lands =>
    obtain ⟨before, after, -, -, sides⟩ := lands
    obtain ⟨a, met, same⟩ := tied
    have tie := (order_eq_iff c a).mpr same
    rcases sides a met with ⟨way, -⟩ | ⟨way, -⟩
    · cases tie.symm.trans way
    · cases tie.symm.trans way

theorem add_of_not_tied (free : ¬ ∃ a ∈ s.compared b c, a.score = c.score) :
    (s.add b c).items.Perm (c :: s.items) := by
  have result := SearchTree.toList_insert UIControlCandidate.order c (s.searched b)
  rw [items_searched] at result
  cases result with
  | inl tied =>
    obtain ⟨-, a, met, tie⟩ := tied
    exact absurd ⟨a, met, (order_eq_iff c a).mp tie⟩ free
  | inr lands =>
    obtain ⟨before, after, whole, placed, -⟩ := lands
    rw [items_add, placed, whole]
    exact List.perm_middle

end tie

theorem add_sublist (s : CandidateSet) (c : UIControlCandidate) :
    s.items.Sublist (s.add b c).items := by
  cases add_cases b s c with
  | inl same => rw [same]
  | inr lands =>
    obtain ⟨before, after, whole, result, -⟩ := lands
    rw [whole, result]
    exact (List.Sublist.refl before).append (List.sublist_cons_self c after)

/-- A candidate that is dropped leaves another one with its score. -/
theorem score_add (s : CandidateSet) (c : UIControlCandidate) :
    ∃ a ∈ (s.add b c).items, a.score = c.score := by
  by_cases tied : ∃ a ∈ s.compared b c, a.score = c.score
  · rw [add_of_tied tied]
    obtain ⟨a, met, same⟩ := tied
    exact ⟨a, compared_subset b s c met, same⟩
  · exact ⟨c, (add_of_not_tied tied).mem_iff.mpr List.mem_cons_self, rfl⟩

/-- A tie or a wrong comparison leaves a candidate out, or two in the wrong order. -/
theorem add_wrong {s : CandidateSet} {c : UIControlCandidate}
    (wrong : ¬ ∀ a ∈ s.compared b c, Apart c a) :
    (s.add b c).items = s.items ∨
      ∃ x y, [x, y].Sublist (s.add b c).items ∧ x.score < y.score := by
  simp only [not_forall] at wrong
  obtain ⟨a, met, wrong⟩ := wrong
  cases add_cases b s c with
  | inl same => exact .inl same
  | inr lands =>
    obtain ⟨before, after, -, result, sides⟩ := lands
    rw [← tells_iff, SearchTree.Tells] at wrong
    have untied : ∀ way, c.order a = way → way ≠ .eq → c.score ≠ a.score := by
      intro way is_ apart same
      exact apart (is_.symm.trans (order_of_score_eq same))
    refine .inr ?_
    cases sides a met with
    | inl behind =>
      obtain ⟨way, inAfter⟩ := behind
      rw [way] at wrong
      refine ⟨c, a, ?_, better_of_not (untied _ way (by decide)) wrong⟩
      rw [result]
      exact (List.singleton_sublist.mpr inAfter).cons_cons c |>.trans (List.sublist_append_right _ _)
    | inr ahead =>
      obtain ⟨way, inBefore⟩ := ahead
      rw [way] at wrong
      refine ⟨a, c, ?_, better_of_not (untied _ way (by decide)).symm wrong⟩
      rw [result]
      exact (List.singleton_sublist.mpr inBefore).append
        (List.singleton_sublist.mpr List.mem_cons_self)

section run

variable {b}

theorem run_sorted {s : CandidateSet} {cs : List UIControlCandidate}
    (sorted : s.items.Pairwise Better)
    (apart : EachStep (add b) (fun s c => ∀ a ∈ s.compared b c, Apart c a) s cs) :
    (run (add b) s cs).items.Pairwise Better ∧ (run (add b) s cs).items.Perm (cs ++ s.items) := by
  induction cs generalizing s with
  | nil => exact ⟨sorted, List.Perm.refl _⟩
  | cons c cs ih =>
    obtain ⟨here, later⟩ := (eachStep_cons _ _ _ _ _).mp apart
    obtain ⟨sorted', perm⟩ := add_sorted b sorted here
    obtain ⟨result, perm'⟩ := ih sorted' later
    exact ⟨result, (perm'.trans (perm.append_left cs)).trans List.perm_middle⟩

theorem run_sublist (s : CandidateSet) (cs : List UIControlCandidate) :
    s.items.Sublist (run (add b) s cs).items := by
  induction cs generalizing s with
  | nil => exact List.Sublist.refl _
  | cons c cs ih => exact (add_sublist b s c).trans (ih (s.add b c))

theorem run_subset (s : CandidateSet) (cs : List UIControlCandidate) :
    (run (add b) s cs).items.Subperm (cs ++ s.items) := by
  induction cs generalizing s with
  | nil => exact List.Subperm.refl _
  | cons c cs ih =>
    refine (ih (s.add b c)).trans ?_
    have one : (s.add b c).items.Subperm (c :: s.items) := by
      cases add_cases b s c with
      | inl same => rw [same]; exact (List.sublist_cons_self _ _).subperm
      | inr lands =>
        obtain ⟨before, after, whole, result, -⟩ := lands
        rw [whole, result]
        exact List.perm_middle.subperm
    exact ((List.subperm_append_left cs).mpr one).trans List.perm_middle.subperm

/-- The scores in the set are those of the candidates. -/
theorem run_score_iff (s : CandidateSet) (cs : List UIControlCandidate) (score : Int32) :
    (∃ a ∈ (run (add b) s cs).items, a.score = score) ↔ ∃ a ∈ cs ++ s.items, a.score = score := by
  constructor
  · intro holds
    obtain ⟨a, member, scored⟩ := holds
    exact ⟨a, (run_subset s cs).subset member, scored⟩
  · intro holds
    obtain ⟨a, member, rfl⟩ := holds
    induction cs generalizing s with
    | nil => exact ⟨a, member, rfl⟩
    | cons c cs ih =>
      rw [List.cons_append, List.mem_cons] at member
      cases member with
      | inl here =>
        obtain ⟨x, kept, same⟩ := score_add b s c
        exact ⟨x, (run_sublist (s.add b c) cs).subset kept, here ▸ same⟩
      | inr later =>
        refine ih (s.add b c) ?_
        cases List.mem_append.mp later with
        | inl behind => exact List.mem_append_left _ behind
        | inr there => exact List.mem_append_right _ ((add_sublist b s c).subset there)

theorem addAll_subset (cs : List UIControlCandidate) : (addAll b cs).items ⊆ cs := by
  have within := (run_subset (b := b) empty cs).subset
  rwa [items_empty, List.append_nil] at within

theorem addAll_score_iff (cs : List UIControlCandidate) (score : Int32) :
    (∃ a ∈ (addAll b cs).items, a.score = score) ↔ ∃ a ∈ cs, a.score = score := by
  have scores := run_score_iff (b := b) empty cs score
  rwa [items_empty, List.append_nil] at scores

theorem run_wrong {s : CandidateSet} {cs : List UIControlCandidate}
    (wrong : ¬ EachStep (add b) (fun s c => ∀ a ∈ s.compared b c, Apart c a) s cs) :
    (run (add b) s cs).items.length < s.items.length + cs.length ∨
      ∃ x y, [x, y].Sublist (run (add b) s cs).items ∧ x.score < y.score := by
  induction cs generalizing s with
  | nil => exact absurd (eachStep_nil _ _ _) wrong
  | cons c cs ih =>
    rw [eachStep_cons, not_and_or] at wrong
    have bound := (run_subset (b := b) (s.add b c) cs).length_le
    have one := (run_subset (b := b) s [c]).length_le
    have added : run (add b) s [c] = s.add b c := rfl
    rw [added] at one
    simp only [List.length_append, List.length_cons, List.length_nil] at bound one ⊢
    cases wrong with
    | inl now =>
      cases add_wrong b now with
      | inl dropped =>
        rw [dropped] at bound
        exact .inl (Nat.lt_of_le_of_lt bound (by omega))
      | inr misplaced =>
        obtain ⟨x, y, pair, worse⟩ := misplaced
        exact .inr ⟨x, y, pair.trans (run_sublist (s.add b c) cs), worse⟩
    | inr later =>
      cases ih later with
      | inl fewer => exact .inl (Nat.lt_of_lt_of_le fewer (by omega))
      | inr misplaced => exact .inr misplaced

end run

/-! ### Popping -/

theorem popTopCandidate_none {s : CandidateSet} (empty : s.items = []) :
    s.popTopCandidate b = none := by
  rw [popTopCandidate, empty]

theorem popTopCandidate_some {s : CandidateSet} {top : UIControlCandidate}
    {rest : List UIControlCandidate} (first : s.items = top :: rest) :
    s.popTopCandidate b = some (top, s.remove b top) := by
  rw [popTopCandidate, first]

theorem pop_some {s : CandidateSet} {top : UIControlCandidate} {rest : List UIControlCandidate}
    (first : s.items = top :: rest) : pop b s = s.remove b top := by
  rw [pop, popTopCandidate_some b first]

/-- Removing the first candidate: the search went left all the way, or the candidate is still
there. -/
theorem remove_cases {s : CandidateSet} {top : UIControlCandidate}
    {rest : List UIControlCandidate} (first : s.items = top :: rest) (fresh : top ∉ rest) :
    (s.remove b top).items = rest ∧ (∀ a ∈ s.compared b top, a ≠ top → top.order a = .lt) ∨
      top ∈ (s.remove b top).items ∧ ∃ a ∈ s.compared b top, a ≠ top ∧ top.order a ≠ .lt :=
  SearchTree.remove_first UIControlCandidate.order (order_of_score_eq rfl)
    ((s.items_searched b).trans first) fresh

theorem remove_sublist (s : CandidateSet) (c : UIControlCandidate) :
    (s.remove b c).items.Sublist s.items := by
  have smaller := SearchTree.toList_remove_sublist UIControlCandidate.order c (s.searched b)
  rw [items_searched] at smaller
  exact smaller

theorem pop_sublist (s : CandidateSet) : (pop b s).items.Sublist s.items := by
  cases first : s.items with
  | nil =>
    rw [pop, popTopCandidate_none b first, first]
  | cons top rest =>
    rw [pop_some b first, ← first]
    exact remove_sublist b s top

theorem pops_sublist (k : Nat) (s : CandidateSet) : ((pop b)^[k] s).items.Sublist s.items := by
  induction k generalizing s with
  | zero => exact List.Sublist.refl _
  | succ k ih => exact (ih (pop b s)).trans (pop_sublist b s)

/-- In each removal from here on the search goes left until it meets the candidate. -/
def PopsLeft (s : CandidateSet) : Prop :=
  ∀ k top rest, ((pop b)^[k] s).items = top :: rest →
    ∀ a ∈ ((pop b)^[k] s).compared b top, a ≠ top → top.order a = .lt

section popping

variable {b}

theorem pops_of_left {s : CandidateSet} (distinct : s.items.Nodup) (left : PopsLeft b s) :
    PopsUntilEmpty b s s.items := by
  induction whole : s.items generalizing s with
  | nil => exact .none (popTopCandidate_none b whole)
  | cons top rest ih =>
    rw [whole] at distinct
    obtain ⟨fresh, distinctRest⟩ := List.nodup_cons.mp distinct
    cases remove_cases b whole fresh with
    | inl removed =>
      have later : PopsLeft b (s.remove b top) := by
        rw [← pop_some b whole]
        exact fun k => left (k + 1)
      exact .next (popTopCandidate_some b whole) (ih (removed.1 ▸ distinctRest) later removed.1)
    | inr stays =>
      obtain ⟨-, a, met, other, wrong⟩ := stays
      exact absurd (left 0 top rest whole a met other) wrong

/-- If no candidate is returned twice, every removal took out what was returned. -/
theorem left_of_pops {s : CandidateSet} {out : List UIControlCandidate} (distinct : s.items.Nodup)
    (pops : PopsUntilEmpty b s out) (once : out.Nodup) : out = s.items ∧ PopsLeft b s := by
  induction pops with
  | @none s empty =>
    have nothing : s.items = [] := by
      cases whole : s.items with
      | nil => rfl
      | cons top rest =>
        rw [popTopCandidate_some b whole] at empty
        cases empty
    refine ⟨nothing.symm, fun k top rest whole => ?_⟩
    have fewer := pops_sublist b k s
    rw [nothing, whole] at fewer
    cases fewer
  | @next s s' c out popped _ ih =>
    cases whole : s.items with
    | nil =>
      rw [popTopCandidate_none b whole] at popped
      cases popped
    | cons top rest =>
      rw [popTopCandidate_some b whole] at popped
      cases popped
      obtain ⟨unseen, onceLater⟩ := List.nodup_cons.mp once
      have fresh : c ∉ rest := (List.nodup_cons.mp (whole ▸ distinct)).1
      obtain ⟨same, later⟩ := ih (distinct.sublist (remove_sublist b s c)) onceLater
      cases remove_cases b whole fresh with
      | inl removed =>
        refine ⟨by rw [same, removed.1], fun k => ?_⟩
        cases k with
        | zero =>
          intro top' rest' first
          obtain ⟨rfl, -⟩ := List.cons.inj (whole.symm.trans first)
          exact removed.2
        | succ k =>
          rw [Function.iterate_succ_apply, pop_some b whole]
          exact later k
      | inr stays => exact absurd (same ▸ stays.1) unseen

end popping

/-! ### The whole run -/

section whole

variable {b} {cs : List UIControlCandidate}

theorem addAll_nodup (distinct : cs.Nodup) : (addAll b cs).items.Nodup := by
  have within := run_subset (b := b) empty cs
  rw [items_empty, List.append_nil] at within
  obtain ⟨l, perm, sub⟩ := within
  exact perm.nodup_iff.mp (distinct.sublist sub)

theorem addAll_sorted
    (adds : EachStep (add b) (fun s c => ∀ a ∈ s.compared b c, Apart c a) empty cs) :
    (addAll b cs).items.Pairwise Better ∧ (addAll b cs).items.Perm cs := by
  obtain ⟨sorted, perm⟩ := run_sorted (s := empty) List.Pairwise.nil adds
  rw [items_empty, List.append_nil] at perm
  exact ⟨sorted, perm⟩

theorem apart_or_apart (apart : ScoresApart cs) {x y : UIControlCandidate} (inX : x ∈ cs)
    (inY : y ∈ cs) (other : x ≠ y) : Apart x y ∨ Apart y x := by
  have either : cs.Pairwise fun x y => Apart x y ∨ Apart y x := apart.imp Or.inr
  have symm : Std.Symm fun x y => Apart x y ∨ Apart y x := ⟨fun _ _ => Or.symm⟩
  exact either.forall inX inY other

theorem apart_of_better {x y : UIControlCandidate} (better : Better x y)
    (either : Apart x y ∨ Apart y x) : Apart x y := by
  have less := Int32.lt_iff_toInt_lt.mp better
  cases either with
  | inl apart => exact apart
  | inr apart =>
    obtain ⟨differ, low, high⟩ := apart
    exact ⟨differ.symm, by omega, by omega⟩

/-- In a set in the right order, the removals go left exactly if what they compare is apart. -/
theorem popsLeft_iff {s : CandidateSet} (sorted : s.items.Pairwise Better) :
    PopsLeft b s ↔ ∀ k top rest, ((pop b)^[k] s).items = top :: rest →
      ∀ a ∈ ((pop b)^[k] s).compared b top, a ≠ top → Apart top a := by
  have each : ∀ k top rest, ((pop b)^[k] s).items = top :: rest →
      ∀ a ∈ ((pop b)^[k] s).compared b top, a ≠ top → (top.order a = .lt ↔ Apart top a) := by
    intro k top rest whole a met other
    have sortedThen := sorted.sublist (pops_sublist b k s)
    have present := compared_subset b _ top met
    rw [whole] at sortedThen present
    cases List.mem_cons.mp present with
    | inl same => exact absurd same other
    | inr behind => exact order_lt_iff ((List.pairwise_cons.mp sortedThen).1 a behind)
  constructor
  · intro left k top rest whole a met other
    exact (each k top rest whole a met other).mp (left k top rest whole a met other)
  · intro apart k top rest whole a met other
    exact (each k top rest whole a met other).mpr (apart k top rest whole a met other)

theorem comparedApart_of_keeps (distinct : cs.Nodup) (keeps : Keeps b cs) :
    ComparedApart b cs := by
  obtain ⟨out, pops, perm, ordered⟩ := keeps
  obtain ⟨rfl, left⟩ := left_of_pops (addAll_nodup distinct) pops (perm.nodup_iff.mpr distinct)
  have adds : EachStep (add b) (fun s c => ∀ a ∈ s.compared b c, Apart c a) empty cs := by
    by_contra wrong
    cases run_wrong wrong with
    | inl fewer =>
      have enough := perm.length_eq
      have nothing : empty.items.length = 0 := rfl
      rw [addAll] at enough
      omega
    | inr misplaced =>
      obtain ⟨x, y, pair, worse⟩ := misplaced
      have order := List.pairwise_pair.mp (ordered.sublist pair)
      exact absurd worse (Int32.not_lt.mpr order)
  exact ⟨adds, (popsLeft_iff (addAll_sorted adds).1).mp left⟩

theorem keeps_of_comparedApart (distinct : cs.Nodup) (apart : ComparedApart b cs) :
    Keeps b cs := by
  obtain ⟨sorted, perm⟩ := addAll_sorted apart.adds
  have left := (popsLeft_iff sorted).mpr apart.pops
  refine ⟨_, pops_of_left (addAll_nodup distinct) left, perm, sorted.imp fun better => ?_⟩
  exact Int32.le_of_lt better

theorem comparedApart_of_scoresApart (apart : ScoresApart cs) : ComparedApart b cs := by
  have adds : EachStep (add b) (fun s c => ∀ a ∈ s.compared b c, Apart c a) empty cs := by
    intro done c rest split a met
    have earlier : a ∈ done := addAll_subset done (compared_subset b _ c met)
    rw [ScoresApart, split] at apart
    exact (List.pairwise_append.mp apart).2.2 a earlier c List.mem_cons_self
  obtain ⟨sorted, perm⟩ := addAll_sorted adds
  refine ⟨adds, fun k top rest whole a met other => ?_⟩
  have within := pops_sublist b k (addAll b cs)
  have present := compared_subset b _ top met
  rw [whole] at within present
  have better : Better top a := by
    cases List.mem_cons.mp present with
    | inl same => exact absurd same other
    | inr behind => exact (List.pairwise_cons.mp (sorted.sublist within)).1 a behind
  have inList : ∀ x ∈ top :: rest, x ∈ cs := fun x member => perm.subset (within.subset member)
  have either := apart_or_apart apart (inList top List.mem_cons_self) (inList a present) other.symm
  exact apart_of_better better either

end whole

/-- The candidates are kept exactly if whatever is compared is apart. They are if any two of them
are apart, and they are not if any two have the same score. -/
theorem candidates_kept_iff (cs : List UIControlCandidate) (distinct : cs.Nodup) :
    (Keeps b cs ↔ ComparedApart b cs) ∧ (ScoresApart cs → Keeps b cs) ∧
      (Keeps b cs → cs.Pairwise fun x y => x.score ≠ y.score) := by
  refine ⟨⟨comparedApart_of_keeps distinct, keeps_of_comparedApart distinct⟩, ?_, ?_⟩
  · intro apart
    exact keeps_of_comparedApart distinct (comparedApart_of_scoresApart apart)
  · intro keeps
    obtain ⟨sorted, perm⟩ := addAll_sorted (comparedApart_of_keeps distinct keeps).adds
    refine (perm.pairwise_iff fun {x y} differ => Ne.symm differ).mp (sorted.imp fun better => ?_)
    exact (Int32.ne_of_lt better).symm

theorem candidates_kept_iff_two :
    (Keeps .none [⟨0, 5⟩, ⟨1, 3⟩] ↔ ComparedApart .none [⟨0, 5⟩, ⟨1, 3⟩]) ∧
      (ScoresApart [⟨0, 5⟩, ⟨1, 3⟩] → Keeps .none [⟨0, 5⟩, ⟨1, 3⟩]) ∧
      (Keeps .none [⟨0, 5⟩, ⟨1, 3⟩] →
        [(⟨0, 5⟩ : UIControlCandidate), ⟨1, 3⟩].Pairwise fun x y => x.score ≠ y.score) :=
  candidates_kept_iff .none [⟨0, 5⟩, ⟨1, 3⟩] (by decide)

/-- Of two buttons with the same score one is lost. -/
theorem tied_candidate_lost : ¬ Keeps .none [⟨0, 5⟩, ⟨1, 5⟩] := by
  intro keeps
  obtain ⟨out, pops, perm, -⟩ := keeps
  have items : (addAll .none [⟨0, 5⟩, ⟨1, 5⟩]).items = [⟨0, 5⟩] := by decide
  have two := perm.length_eq
  cases pops with
  | none empty => cases two
  | next popped rest =>
    rw [popTopCandidate_some _ items] at popped
    cases popped
    cases rest with
    | none => cases two
    | next again =>
      rw [popTopCandidate_none _ (by decide)] at again
      cases again

end GuestAgent.Guarantees.Candidates
