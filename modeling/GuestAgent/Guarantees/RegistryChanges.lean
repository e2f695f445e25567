import GuestAgent.Library.Raising
import GuestAgent.Source.RegistryReport

/-!
What the report says about the changes of a key.

The five collections are a complete patch from the original to the current state exactly if every
value under a name of both states is the same, or non-null on both sides with a different text.
Their listing is faithful exactly if there are no new subkeys, which are listed among the new
values, and no null among the new and the deleted values, which ends the report.
-/
namespace GuestAgent.Guarantees.RegistryChanges
open Library Source

/-- The state of a key: its values under distinct names, and its subkeys. -/
structure Snapshot where
  values : List (WString × Option RegValue)
  subkeys : List WString
  distinct : Patch.Distinct values

namespace Snapshot

def Same (s s' : Snapshot) : Prop :=
  Patch.Same s.values s'.values ∧ ∀ subkey, subkey ∈ s.subkeys ↔ subkey ∈ s'.subkeys

def differencesTo (original current : Snapshot) : Differences :=
  differences original.values original.subkeys current.values current.subkeys

/-- The values with the differences applied. -/
def patchedValues (s : Snapshot) (d : Differences) : List (WString × Option RegValue) :=
  Patch.patch (fun m : Modification => some m.currentValue) d.deletedValues d.newValues
    d.modifiedValues s.values

def patchedSubkeys (s : Snapshot) (d : Differences) : List WString :=
  (s.subkeys.filter fun subkey => !d.deletedSubkeys.contains subkey) ++ d.newSubeys

end Snapshot

open Snapshot

/-- The differences lead from the original to the current snapshot, and there are none exactly if
the two are the same. -/
structure CompletePatch (original current : Snapshot) : Prop where
  values : Patch.Same (original.patchedValues (original.differencesTo current)) current.values
  subkeys : ∀ subkey, subkey ∈ original.patchedSubkeys (original.differencesTo current) ↔
    subkey ∈ current.subkeys
  any : (original.differencesTo current).any = false ↔ original.Same current

/-- Neither value is null and their texts differ. -/
def TextsDiffer (original current : Option RegValue) : Prop :=
  ∃ old new, original = some old ∧ current = some new ∧ old.text ≠ new.text

/-! ### The patch -/

theorem modification_isSome_iff (original current : Option RegValue) :
    (modification original current).isSome ↔ TextsDiffer original current := by
  cases original with
  | none => cases current <;> simp [modification, TextsDiffer]
  | some old =>
    cases current with
    | none => simp [modification, TextsDiffer]
    | some new => by_cases same : new.text = old.text <;> simp [modification, TextsDiffer, same, eq_comm]

theorem modification_current (original current : Option RegValue) (m : Modification)
    (found : modification original current = some m) : some m.currentValue = current := by
  cases original with
  | none => cases current <;> cases found
  | some old =>
    cases current with
    | none => cases found
    | some new =>
      rw [modification] at found
      split at found
      · cases found
        rfl
      · cases found

theorem ne_of_modification (original current : Option RegValue)
    (found : (modification original current).isSome) : original ≠ current := by
  obtain ⟨old, new, rfl, rfl, apart⟩ := (modification_isSome_iff _ _).mp found
  intro same
  exact apart (congrArg RegValue.text (Option.some.inj same))

theorem mem_patchedSubkeys (original current : Snapshot) (subkey : WString) :
    subkey ∈ original.patchedSubkeys (original.differencesTo current) ↔ subkey ∈ current.subkeys := by
  simp only [patchedSubkeys, differencesTo, differences, List.mem_append, List.mem_filter,
    List.contains_eq_mem, Bool.not_eq_true', decide_eq_false_iff_not]
  by_cases before : subkey ∈ original.subkeys <;> by_cases now : subkey ∈ current.subkeys <;>
    simp [before, now]

theorem no_subkey_iff (original current : Snapshot) :
    (original.differencesTo current).newSubeys = [] ∧
      (original.differencesTo current).deletedSubkeys = [] ↔
      ∀ subkey, subkey ∈ original.subkeys ↔ subkey ∈ current.subkeys := by
  simp only [differencesTo, differences, List.filter_eq_nil_iff, List.contains_eq_mem,
    Bool.not_eq_true', decide_eq_false_iff_not, not_not]
  constructor
  · intro both subkey
    exact ⟨both.2 subkey, both.1 subkey⟩
  · intro same
    exact ⟨fun subkey => (same subkey).mpr, fun subkey => (same subkey).mp⟩

theorem any_eq_false_iff (d : Differences) : d.any = false ↔
    (d.newSubeys = [] ∧ d.deletedSubkeys = []) ∧
      d.deletedValues = [] ∧ d.newValues = [] ∧ d.modifiedValues = [] := by
  simp [Differences.any, and_assoc]

/-- The differences are a complete patch exactly if the test for modified values sees every
modified value. -/
theorem complete_patch_iff (original current : Snapshot) : CompletePatch original current ↔
    ∀ name a b, original.values.lookup name = some a → current.values.lookup name = some b →
      a = b ∨ TextsDiffer a b := by
  have values := Patch.patch_same_iff original.values modification_current current.distinct
  simp only [modification_isSome_iff] at values
  constructor
  · intro complete
    exact values.mp complete.values
  · intro seen
    refine ⟨values.mpr seen, mem_patchedSubkeys original current, ?_⟩
    rw [any_eq_false_iff, no_subkey_iff, and_comm]
    refine and_congr_left fun _ => ?_
    apply Patch.nothing_found_iff ne_of_modification current.distinct
    simpa only [modification_isSome_iff] using seen

/-! ### What is compared -/

theorem readValues_distinct {key : RegistryKey} {names : List WString}
    {res values : List (WString × Option RegValue)} (distinct : Patch.Distinct res)
    (read : RegAccessInfo.readValues key names res = .ok values) : Patch.Distinct values := by
  induction names generalizing res with
  | nil =>
    cases read
    exact distinct
  | cons name names ih =>
    obtain ⟨value, -, rest⟩ := (bind_eq_ok _ _ _).mp read
    split at rest
    · cases rest
    next fresh =>
      apply ih _ rest
      simp only [List.contains_eq_mem, decide_eq_true_eq] at fresh
      rw [Patch.Distinct, List.map_append]
      refine List.nodup_append.mpr ⟨distinct, List.nodup_singleton _, fun a known b here => ?_⟩
      obtain rfl := List.mem_singleton.mp here
      exact fun same => fresh (same ▸ known)

theorem getCurrentKeyValues_distinct {c : Casing} {reg : Registry} {t : RegAccessInfo}
    {values : List (WString × Option RegValue)} (read : t.getCurrentKeyValues c reg = .ok values) :
    Patch.Distinct values := by
  simp only [RegAccessInfo.getCurrentKeyValues, bind_eq_ok] at read
  obtain ⟨root, -, path, -, key, -, read⟩ := read
  cases key with
  | none =>
    cases read
    exact List.nodup_nil
  | some key =>
    obtain ⟨names, -, read⟩ := (bind_eq_ok _ _ _).mp read
    have start : Patch.Distinct ([] : List (WString × Option RegValue)) := List.nodup_nil
    exact readValues_distinct start read

/-- The originals of an entry are a snapshot. -/
theorem firstEntry_distinct {c : Casing} {reg : Registry} {fullname : WString} {existed : Bool}
    {t : RegAccessInfo} (entry : RegMap.firstEntry c reg fullname existed = .ok t) :
    Patch.Distinct t.originalKeyValues := by
  simp only [RegMap.firstEntry, RegAccessInfo.populateOriginalValues, bind_eq_ok] at entry
  obtain ⟨t', -, t'', ⟨values, read, subkeys, -, made⟩, same⟩ := entry
  cases made
  cases same
  exact getCurrentKeyValues_distinct read

/-- `UpdateDifferences` compares the originals with the snapshot it reads. -/
theorem updateDifferences_eq {c : Casing} {reg : Registry} {t : RegAccessInfo} {d : Differences}
    (distinct : Patch.Distinct t.originalKeyValues) (goes : t.updateDifferences c reg = .ok d) :
    ∃ current : Snapshot, t.getCurrentKeyValues c reg = .ok current.values ∧
      t.getCurrentKeySubkeys c reg = .ok current.subkeys ∧
      d = Snapshot.differencesTo ⟨t.originalKeyValues, t.originalSubkeys, distinct⟩ current := by
  simp only [RegAccessInfo.updateDifferences, bind_eq_ok] at goes
  obtain ⟨values, readValues, subkeys, readSubkeys, same⟩ := goes
  cases same
  exact ⟨⟨values, subkeys, getCurrentKeyValues_distinct readValues⟩, readValues, readSubkeys, rfl⟩

/-- A snapshot of one value. -/
def oneValue (value : Option RegValue) : Snapshot :=
  ⟨[(wide "v", value)], [], List.nodup_singleton _⟩

/-- A byte array that changed is not among the differences. -/
theorem changed_bytes_not_found :
    ¬ CompletePatch (oneValue (some (.bytes [1]))) (oneValue (some (.bytes [2]))) := by
  intro complete
  have same := complete.any.mp (by decide)
  exact absurd (same.1 (wide "v")) (by decide)

/-! ### The listing -/

/-- What the children of an element list under a name. -/
def under (name : WString) : XmlNode → List (List XmlNode)
  | .text _ => []
  | .element _ _ children => children.filterMap fun child => match child with
    | .text _ => none
    | .element name' _ listed => if name' = name then some listed else none

/-- A value as it is listed, a null without a text. -/
def listedValue (kv : WString × Option RegValue) : XmlNode :=
  .element (wide "KeyValue") []
    [.leaf (wide "Name") kv.1, .leaf (wide "Value") (kv.2.elim [] RegValue.text)]

/-- The element lists each of the five collections under its name. -/
structure Lists (element : XmlNode) (d : Differences) : Prop where
  newValues : under (wide "NewValues") element = [d.newValues.map listedValue]
  newSubkeys : under (wide "NewSubKeys") element = [d.newSubeys.map subkeyElement]
  oldValues : under (wide "OldValues") element = [d.deletedValues.map listedValue]
  oldSubkeys : under (wide "OldSubKeys") element = [d.deletedSubkeys.map subkeyElement]
  editedValues : under (wide "EditedValues") element = [d.modifiedValues.map editedElement]

theorem valueElement_ok_iff (kv : WString × Option RegValue) (element : XmlNode) :
    valueElement kv = .ok element ↔ kv.2 ≠ none ∧ element = listedValue kv := by
  obtain ⟨name, value⟩ := kv
  cases value with
  | none => simp [valueElement]
  | some value =>
    simp only [valueElement, listedValue, Except.ok.injEq, Option.elim_some]
    exact ⟨fun same => ⟨by simp, same.symm⟩, fun both => both.2.symm⟩

theorem mapM_valueElement_iff (values : List (WString × Option RegValue)) (elements : List XmlNode) :
    values.mapM valueElement = .ok elements ↔
      (∀ kv ∈ values, kv.2 ≠ none) ∧ elements = values.map listedValue := by
  rw [mapM_eq_ok]
  simp only [valueElement_ok_iff]
  induction values generalizing elements with
  | nil => simp
  | cons kv values ih =>
    cases elements with
    | nil => simp
    | cons element elements =>
      rw [List.forall₂_cons, ih, List.forall_mem_cons, List.map_cons, List.cons.injEq]
      exact and_and_and_comm

/-- The element of a key is built and lists the differences exactly if there are no new subkeys and
no null is among the new and the deleted values. -/
theorem keyElement_lists_iff (t : RegAccessInfo) (deleted modified new : Bool) (d : Differences) :
    (∃ element, keyElement t deleted modified new d = .ok element ∧ Lists element d) ↔
      d.newSubeys = [] ∧ ∀ kv ∈ d.newValues ++ d.deletedValues, kv.2 ≠ none := by
  simp only [keyElement, bind_eq_ok, mapM_valueElement_iff, List.forall_mem_append]
  constructor
  · intro holds
    obtain ⟨element, ⟨_, ⟨newSet, rfl⟩, _, ⟨oldSet, rfl⟩, same⟩, lists⟩ := holds
    cases same
    refine ⟨?_, newSet, oldSet⟩
    have none_listed : [[]] = [d.newSubeys.map subkeyElement] := lists.newSubkeys
    simpa using none_listed.symm
  · intro holds
    obtain ⟨none_new, newSet, oldSet⟩ := holds
    refine ⟨_, ⟨_, ⟨newSet, rfl⟩, _, ⟨oldSet, rfl⟩, rfl⟩, ?_⟩
    rw [none_new, List.map_nil, List.append_nil]
    exact ⟨rfl, by rw [none_new]; rfl, rfl, rfl, rfl⟩

/-- Every element the loop appends is built from a comparison. -/
theorem keyTurn_element {c : Casing} {t : RegAccessInfo} {looks : KeyLooks} {element : XmlNode}
    (goes : keyTurn c t looks = .ok (some element)) :
    ∃ reg d deleted modified new, t.updateDifferences c reg = .ok d ∧
      keyElement t deleted modified new d = .ok element := by
  have built : ∀ {deleted modified new : Bool} {d : Differences},
      (do return some (← keyElement t deleted modified new d)) = Except.ok (some element) →
        keyElement t deleted modified new d = .ok element := by
    intro deleted modified new d returns
    obtain ⟨element', made, same⟩ := (bind_eq_ok _ _ _).mp returns
    cases same
    exact made
  simp only [keyTurn, bind_eq_ok] at goes
  obtain ⟨_, -, deleted, -, d, compared, new, -, isNew, -, goes⟩ := goes
  cases isNew with
  | true => exact ⟨_, d, _, _, _, compared, built goes⟩
  | false =>
    simp only [Bool.false_eq_true, if_false, bind_eq_ok] at goes
    obtain ⟨d', comparedAgain, goes⟩ := goes
    refine ⟨_, d', deleted, d.any, new, comparedAgain, ?_⟩
    split at goes
    · exact built goes
    · obtain ⟨isDeleted, -, goes⟩ := (bind_eq_ok _ _ _).mp goes
      cases isDeleted with
      | true => exact built goes
      | false => cases goes

/-- A new subkey is listed among the new values. -/
theorem new_subkey_listed_as_value :
    ¬ ∃ element, keyElement ⟨wide "hkey_local_machine\\a", wide "HKEY_LOCAL_MACHINE", [], [], true⟩
        false true false (differences [] [] [] [wide "b"]) = .ok element ∧
      Lists element (differences [] [] [] [wide "b"]) := by
  intro holds
  obtain ⟨element, built, lists⟩ := holds
  cases built
  have none_listed : [[]] = [[XmlNode.leaf (wide "Key") (wide "b")]] := lists.newSubkeys
  simp at none_listed

/-! ### Turns that complete -/

/-- The values and the subkeys of the key can be read. -/
def Answers (c : Casing) (t : RegAccessInfo) (reg : Registry) : Prop :=
  Completes (t.getCurrentKeyValues c reg) ∧ Completes (t.getCurrentKeySubkeys c reg)

/-- Nothing that is new or gone is null. -/
def NoNulls (c : Casing) (t : RegAccessInfo) (reg : Registry) : Prop :=
  ∀ values, t.getCurrentKeyValues c reg = .ok values →
    ∀ kv ∈ Patch.missing values t.originalKeyValues ++ Patch.missing t.originalKeyValues values,
      kv.2 ≠ none

/-- The values and the subkeys are as they were. -/
def Unchanged (c : Casing) (t : RegAccessInfo) (reg : Registry) : Prop :=
  ∀ values subkeys, t.getCurrentKeyValues c reg = .ok values →
    t.getCurrentKeySubkeys c reg = .ok subkeys →
    (differences t.originalKeyValues t.originalSubkeys values subkeys).any = false

/-- What the turn of a key asks is answered, and what it lists is not null. -/
structure KeyGoes (c : Casing) (t : RegAccessInfo) (looks : KeyLooks) : Prop where
  compared : Answers c t looks.compared
  presentForDeleted : Completes looks.presentForDeleted
  comparedForModified : Answers c t looks.comparedForModified
  presentForNew : t.originalExisted = false → Completes looks.presentForNew ∧
    Completes looks.presentAgainForNew
  new : t.originalExisted = false → looks.presentAgainForNew = .ok true →
    NoNulls c t looks.comparedForModified
  old : ¬ (t.originalExisted = false ∧ looks.presentAgainForNew = .ok true) →
    Answers c t looks.comparedAgainForModified ∧ NoNulls c t looks.comparedAgainForModified ∧
      (Unchanged c t looks.comparedAgainForModified → Completes looks.presentAgainForDeleted)

theorem updateDifferences_eq_ok (c : Casing) (t : RegAccessInfo) (reg : Registry)
    (d : Differences) : t.updateDifferences c reg = .ok d ↔ ∃ values subkeys, t.getCurrentKeyValues c reg = .ok values ∧
      t.getCurrentKeySubkeys c reg = .ok subkeys ∧
      d = differences t.originalKeyValues t.originalSubkeys values subkeys := by
  simp only [RegAccessInfo.updateDifferences, bind_eq_ok, Except.ok.injEq, exists_and_left,
    eq_comm (b := d)]

theorem completes_updateDifferences (c : Casing) (t : RegAccessInfo) (reg : Registry) :
    Completes (t.updateDifferences c reg) ↔ Answers c t reg := by
  simp only [Completes, Answers, updateDifferences_eq_ok]
  constructor
  · rintro ⟨d, values, subkeys, read, listed, -⟩
    exact ⟨⟨values, read⟩, subkeys, listed⟩
  · rintro ⟨⟨values, read⟩, subkeys, listed⟩
    exact ⟨_, values, subkeys, read, listed, rfl⟩

theorem noNulls_iff {c : Casing} {t : RegAccessInfo} {reg : Registry} {d : Differences}
    (compared : t.updateDifferences c reg = .ok d) :
    NoNulls c t reg ↔ ∀ kv ∈ d.newValues ++ d.deletedValues, kv.2 ≠ none := by
  obtain ⟨values, subkeys, read, -, rfl⟩ := (updateDifferences_eq_ok c t reg d).mp compared
  unfold NoNulls
  rw [read]
  exact ⟨fun all => all values rfl, fun all values' same => by cases same; exact all⟩

theorem unchanged_iff {c : Casing} {t : RegAccessInfo} {reg : Registry} {d : Differences}
    (compared : t.updateDifferences c reg = .ok d) : Unchanged c t reg ↔ d.any = false := by
  obtain ⟨values, subkeys, read, listed, rfl⟩ := (updateDifferences_eq_ok c t reg d).mp compared
  unfold Unchanged
  rw [read, listed]
  exact ⟨fun all => all values subkeys rfl rfl,
    fun same values' subkeys' first second => by cases first; cases second; exact same⟩

theorem completes_isDeleted (t : RegAccessInfo) (present : Except Exn Bool) :
    Completes (t.isDeleted present) ↔ Completes present :=
  completes_bind_pure present fun present => !present && t.originalExisted

theorem completes_isNew (t : RegAccessInfo) (present : Except Exn Bool) :
    Completes (t.isNew present) ↔ (t.originalExisted = false → Completes present) := by
  unfold RegAccessInfo.isNew
  cases t.originalExisted <;> simp

/-- The element of the key is made exactly if nothing that is new or gone is null. -/
theorem completes_keyElement (t : RegAccessInfo) (deleted modified new : Bool) (d : Differences) :
    Completes (keyElement t deleted modified new d >>= fun element => pure (some element)) ↔
      ∀ kv ∈ d.newValues ++ d.deletedValues, kv.2 ≠ none := by
  rw [completes_bind_pure, List.forall_mem_append]
  simp only [Completes, keyElement, bind_eq_ok, mapM_valueElement_iff]
  constructor
  · rintro ⟨_, _, ⟨newSet, -⟩, _, ⟨oldSet, -⟩, -⟩
    exact ⟨newSet, oldSet⟩
  · rintro ⟨newSet, oldSet⟩
    exact ⟨_, _, ⟨newSet, rfl⟩, _, ⟨oldSet, rfl⟩, rfl⟩

/-- What the rest of a turn does once the key is not new. -/
theorem completes_keyTurn_old (c : Casing) (t : RegAccessInfo) (looks : KeyLooks)
    (deleted modified new : Bool) :
    Completes (do
      let d ← t.updateDifferences c looks.comparedAgainForModified
      if d.any then
        return some (← keyElement t deleted modified new d)
      if ← t.isDeleted looks.presentAgainForDeleted then
        return some (← keyElement t deleted modified new d)
      return none) ↔
    Answers c t looks.comparedAgainForModified ∧ NoNulls c t looks.comparedAgainForModified ∧
      (Unchanged c t looks.comparedAgainForModified → Completes looks.presentAgainForDeleted) := by
  rw [← completes_updateDifferences, completes_bind]
  cases compared : t.updateDifferences c looks.comparedAgainForModified with
  | error e => simp
  | ok d =>
    simp only [Except.ok.injEq, exists_eq_left', completes_ok, true_and, noNulls_iff compared,
      unchanged_iff compared]
    cases changed : d.any with
    | true =>
      simp only [if_true, completes_keyElement]
      simp
    | false =>
      -- without differences nothing is listed, so nothing of it is null
      have nothing : d.newValues ++ d.deletedValues = [] := by
        simp only [Differences.any, Bool.or_eq_false_iff, Bool.not_eq_false',
          List.isEmpty_iff] at changed
        simp [changed]
      have listed :=
        (completes_keyElement t deleted modified new d).mpr (by simp [nothing])
      simp only [Bool.false_eq_true, if_false, nothing, List.not_mem_nil, false_imp_iff,
        implies_true, true_and, forall_const]
      rw [← completes_isDeleted t, completes_bind]
      constructor
      · intro holds
        obtain ⟨gone, asked, -⟩ := holds
        exact ⟨gone, asked⟩
      · intro holds
        obtain ⟨gone, asked⟩ := holds
        refine ⟨gone, asked, ?_⟩
        cases gone with
        | true => exact listed
        | false => exact completes_pure _

theorem completes_keyTurn_iff (c : Casing) (t : RegAccessInfo) (looks : KeyLooks) :
    Completes (keyTurn c t looks) ↔ KeyGoes c t looks := by
  have isNew_true : t.isNew looks.presentAgainForNew = .ok true ↔
      t.originalExisted = false ∧ looks.presentAgainForNew = .ok true := by
    unfold RegAccessInfo.isNew
    cases t.originalExisted <;> simp
  simp only [keyTurn, completes_bind]
  constructor
  · intro holds
    obtain ⟨d₀, compared, deleted, gone, d, comparedForModified, new, isNew, again, askedAgain,
      goes⟩ := holds
    have first := (completes_updateDifferences c t _).mp ⟨d₀, compared⟩
    have second := (completes_updateDifferences c t _).mp ⟨d, comparedForModified⟩
    have present := (completes_isDeleted t _).mp ⟨deleted, gone⟩
    have asked := (completes_isNew t _).mp ⟨new, isNew⟩
    have askedTwice := (completes_isNew t _).mp ⟨again, askedAgain⟩
    refine ⟨first, present, second, fun fresh => ⟨asked fresh, askedTwice fresh⟩, ?_, ?_⟩
    · intro fresh there
      rw [isNew_true.mpr ⟨fresh, there⟩] at askedAgain
      cases askedAgain
      exact (noNulls_iff comparedForModified).mpr
        ((completes_keyElement t deleted d.any new d).mp goes)
    · intro old
      cases again with
      | true => exact absurd (isNew_true.mp askedAgain) old
      | false => exact (completes_keyTurn_old c t looks deleted d.any new).mp goes
  · intro goes
    obtain ⟨d₀, compared⟩ := (completes_updateDifferences c t _).mpr goes.compared
    obtain ⟨deleted, gone⟩ := (completes_isDeleted t _).mpr goes.presentForDeleted
    obtain ⟨d, comparedForModified⟩ :=
      (completes_updateDifferences c t _).mpr goes.comparedForModified
    obtain ⟨new, isNew⟩ := (completes_isNew t _).mpr fun fresh => (goes.presentForNew fresh).1
    obtain ⟨again, askedAgain⟩ :=
      (completes_isNew t _).mpr fun fresh => (goes.presentForNew fresh).2
    refine ⟨d₀, compared, deleted, gone, d, comparedForModified, new, isNew, again, askedAgain, ?_⟩
    cases again with
    | true =>
      obtain ⟨fresh, there⟩ := isNew_true.mp askedAgain
      exact (completes_keyElement t deleted d.any new d).mpr
        ((noNulls_iff comparedForModified).mp (goes.new fresh there))
    | false =>
      refine (completes_keyTurn_old c t looks deleted d.any new).mpr (goes.old fun there => ?_)
      rw [isNew_true.mpr there] at askedAgain
      cases askedAgain

end GuestAgent.Guarantees.RegistryChanges
