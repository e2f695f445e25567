import GuestAgent.Library.Raising
import GuestAgent.Library.Runs
import GuestAgent.Source.EventServer

/-!
One entry for each registry key, with the state of the key before the programs touched it.

`_regMap` is indexed by the lower-cased path of the notification, while the key is identified by
the full name, in which repeated and trailing backslashes are gone. So a key has one entry with
the state it had first exactly if every notification that adds an entry is the first one to name
its key, provided that `SubkeyPath` is the path of the key. It is not for a root key and for a
path in which the name of its root comes again.
-/
namespace GuestAgent.Guarantees.RegistryBaseline
open Library Library.Runs Source

/-- A notification and the registry it is handled over. -/
structure RegNotice where
  registry : Registry
  path : WString

def RegNotice.Names (c : Casing) (n : RegNotice) (fullName : WString) : Prop :=
  RegAccessInfo.convertToFullName c n.path = some fullName

def notify (c : Casing) (m : RegMap) (n : RegNotice) : RegMap :=
  (m.notifyRegistryAccess c n.registry n.path).state

def monitored (c : Casing) (notices : List RegNotice) : RegMap := run (notify c) ∅ notices

/-- Where a key lies: its root and its path below the root. -/
def place (fullName : WString) : Option (RootKey × WString) :=
  match splitRemoveEmpty [backslash] fullName with
  | [] => none
  | first :: rest =>
    (RegAccessInfo.namedRoot first).map fun root => (root, List.intercalate [backslash] rest)

structure KeyState where
  existed : Bool
  values : List (WString × Option RegValue)
  subkeys : List WString
  deriving DecidableEq, Repr

def stateOf (key : RegistryKey) : Except Exn KeyState := do
  let names ← key.getValueNames
  let values ← RegAccessInfo.readValues key names []
  let subkeys ← key.getSubKeyNames
  .ok ⟨true, values, subkeys⟩

/-- What the registry shows of a key. -/
def keyState (reg : Registry) (fullName : WString) : Except Exn KeyState :=
  match place fullName with
  | none => .ok ⟨false, [], []⟩
  | some (root, path) => do
    match ← reg.openSubKey root path with
    | none => .ok ⟨false, [], []⟩
    | some key => stateOf key

def originals (t : RegAccessInfo) : KeyState :=
  ⟨t.originalExisted, t.originalKeyValues, t.originalSubkeys⟩

def firstNaming (c : Casing) (notices : List RegNotice) (fullName : WString) : Option RegNotice :=
  notices.find? fun n => decide (RegAccessInfo.convertToFullName c n.path = some fullName)

/-- One entry a key, and it shows the key as it was at the first notification of the key. -/
structure OneBaseline (c : Casing) (notices : List RegNotice) : Prop where
  unique : ∀ p q t u, (monitored c notices).lookup p = some t →
    (monitored c notices).lookup q = some u → t.fullName = u.fullName → p = q
  first : ∀ p t, (monitored c notices).lookup p = some t →
    ∃ n, firstNaming c notices t.fullName = some n ∧
      keyState n.registry t.fullName = .ok (originals t)

/-- Where `PopulateOriginalValues` looks. -/
def readPlace (c : Casing) (fullName : WString) : Except Exn (RootKey × WString) := do
  let t ← RegAccessInfo.new c fullName
  let root ← t.getRootKey
  let path ← t.subkeyPath c
  .ok (root, path)

/-- The key that is read is the key that is named. -/
def ReadsItself (c : Casing) (n : RegNotice) : Prop :=
  ∀ fullName, n.Names c fullName → ∀ spot, readPlace c fullName = .ok spot →
    place fullName = some spot

/-- The registry refuses none of the questions asked for a first entry. -/
def Answers (c : Casing) (reg : Registry) (fullName : WString) : Prop :=
  ∃ existed, RegAccessInfo.keyExists reg fullName = .ok existed ∧
    Completes (RegMap.firstEntry c reg fullName existed)

/-- A notification that adds an entry is the first one to name its key. -/
def FirstOfKey (c : Casing) (done : List RegNotice) (n : RegNotice) : Prop :=
  ∀ fullName, n.Names c fullName → c.toLower n.path ∉ monitored c done →
    Answers c n.registry fullName → ∀ earlier ∈ done, ¬ earlier.Names c fullName

/-! ### One notification -/

theorem names_unique {c : Casing} {n n' : RegNotice} {f f' : WString}
    (samePath : c.toLower n.path = c.toLower n'.path) (names : n.Names c f)
    (names' : n'.Names c f') : f = f' := by
  have same : RegAccessInfo.convertToFullName c n.path =
      RegAccessInfo.convertToFullName c n'.path := by
    simp only [RegAccessInfo.convertToFullName, samePath]
  rw [RegNotice.Names, same, names'] at names
  exact (Option.some.inj names).symm

theorem notify_cases (c : Casing) (m : RegMap) (n : RegNotice) :
    (notify c m n = m ∧
      ∀ f, n.Names c f → Answers c n.registry f → c.toLower n.path ∈ m) ∨
    ∃ f existed t, n.Names c f ∧ c.toLower n.path ∉ m ∧
      RegAccessInfo.keyExists n.registry f = .ok existed ∧
      RegMap.firstEntry c n.registry f existed = .ok t ∧
      notify c m n = m.insert (c.toLower n.path) t := by
  rcases RegMap.notifyRegistryAccess_cases c n.registry n.path m with
    ⟨invalid, h⟩ | ⟨f, name, ⟨e, refused, h⟩ |
      ⟨existed, known, ⟨seen, h⟩ | ⟨unseen, ⟨e, refused, h⟩ | ⟨t, entry, h⟩⟩⟩⟩
  · refine .inl ⟨by rw [notify, h]; rfl, fun f names => ?_⟩
    rw [RegNotice.Names, invalid] at names
    cases names
  · refine .inl ⟨by rw [notify, h]; rfl, fun f' names answers => ?_⟩
    obtain rfl := names_unique rfl name names
    obtain ⟨existed, known, -⟩ := answers
    rw [refused] at known
    cases known
  · exact .inl ⟨by rw [notify, h]; rfl, fun _ _ _ => seen⟩
  · refine .inl ⟨by rw [notify, h]; rfl, fun f' names answers => ?_⟩
    obtain rfl := names_unique rfl name names
    obtain ⟨existed', known', t, entry⟩ := answers
    rw [known] at known'
    cases known'
    rw [refused] at entry
    cases entry
  · exact .inr ⟨f, existed, t, name, unseen, known, entry, by rw [notify, h]; rfl⟩

/-! ### What is read for a first entry -/

theorem new_fullName {c : Casing} {f : WString} {t : RegAccessInfo}
    (made : RegAccessInfo.new c f = .ok t) : t.fullName = f := by
  simp only [RegAccessInfo.new] at made
  split at made
  · cases made
  · split at made
    · cases made
      rfl
    · cases made

theorem keyExists_of_place (reg : Registry) {f path : WString} {root : RootKey}
    (found : place f = some (root, path)) :
    RegAccessInfo.keyExists reg f = (do
      let key ← reg.openSubKey root path
      .ok key.isSome) := by
  rw [place] at found
  rw [RegAccessInfo.keyExists]
  cases parts : splitRemoveEmpty [backslash] f with
  | nil =>
    rw [parts] at found
    cases found
  | cons first rest =>
    rw [parts] at found
    obtain ⟨named, isRoot, same⟩ := Option.map_eq_some_iff.mp found
    cases same
    simp only [isRoot]

theorem populateOriginalValues_eq {c : Casing} (reg : Registry) {path : WString} {root : RootKey}
    {t : RegAccessInfo} (toRoot : t.getRootKey = .ok root) (below : t.subkeyPath c = .ok path) :
    t.populateOriginalValues c reg = (do
      match ← reg.openSubKey root path with
      | none => .ok { t with originalKeyValues := [], originalSubkeys := [] }
      | some key =>
        let k ← stateOf key
        .ok { t with originalKeyValues := k.values, originalSubkeys := k.subkeys }) := by
  simp only [RegAccessInfo.populateOriginalValues, RegAccessInfo.getCurrentKeyValues,
    RegAccessInfo.getCurrentKeySubkeys, toRoot, below, bind, Except.bind]
  cases reg.openSubKey root path with
  | error e => rfl
  | ok key =>
    cases key with
    | none => rfl
    | some key =>
      simp only [stateOf, bind, Except.bind]
      cases key.getValueNames with
      | error e => rfl
      | ok names =>
        simp only
        cases RegAccessInfo.readValues key names [] with
        | error e => rfl
        | ok values =>
          simp only
          cases key.getSubKeyNames <;> rfl

/-- An entry is made exactly if the registry shows the key, and of what it shows. -/
theorem firstEntry_iff {c : Casing} (reg : Registry) {f path : WString} {root : RootKey}
    {t : RegAccessInfo} (made : RegAccessInfo.new c f = .ok t) (toRoot : t.getRootKey = .ok root)
    (below : t.subkeyPath c = .ok path) (found : place f = some (root, path)) (k : KeyState) :
    (∃ existed entry, RegAccessInfo.keyExists reg f = .ok existed ∧
      RegMap.firstEntry c reg f existed = .ok entry ∧ originals entry = k) ↔
      keyState reg f = .ok k := by
  simp only [keyExists_of_place reg found, RegMap.firstEntry, made, keyState, found, bind,
    Except.bind, populateOriginalValues_eq reg toRoot below]
  cases reg.openSubKey root path with
  | error e => simp
  | ok key =>
    cases key with
    | none => simp [originals]
    | some key =>
      cases shown : stateOf key with
      | error e => simp [shown]
      | ok k' =>
        have existed : k'.existed = true := by
          simp only [stateOf, bind_eq_ok] at shown
          obtain ⟨_, _, _, _, _, _, same⟩ := shown
          cases same
          rfl
        simp [shown, originals, ← existed]

theorem firstEntry_reads {c : Casing} {reg : Registry} {f : WString} {existed : Bool}
    {entry : RegAccessInfo} (goes : RegMap.firstEntry c reg f existed = .ok entry) :
    entry.fullName = f ∧ ∃ t root path, RegAccessInfo.new c f = .ok t ∧ t.getRootKey = .ok root ∧
      t.subkeyPath c = .ok path := by
  simp only [RegMap.firstEntry, RegAccessInfo.populateOriginalValues,
    RegAccessInfo.getCurrentKeyValues, bind_eq_ok] at goes
  obtain ⟨t, made, t', ⟨values, ⟨root, toRoot, path, below, -⟩, subkeys, -, read⟩, same⟩ := goes
  cases read
  cases same
  have name : t.fullName = f := new_fullName made
  exact ⟨name, t, root, path, made, toRoot, below⟩

theorem place_of_reads {c : Casing} {f path : WString} {root : RootKey} {t : RegAccessInfo}
    (itself : ∀ spot, readPlace c f = .ok spot → place f = some spot)
    (made : RegAccessInfo.new c f = .ok t) (toRoot : t.getRootKey = .ok root)
    (below : t.subkeyPath c = .ok path) : place f = some (root, path) := by
  apply itself
  simp only [readPlace, made, toRoot, below, bind, Except.bind]

/-- What is read is what the registry shows of the key. -/
theorem shown_of_firstEntry {c : Casing} {reg : Registry} {f : WString} {existed : Bool}
    {entry : RegAccessInfo} (itself : ∀ spot, readPlace c f = .ok spot → place f = some spot)
    (known : RegAccessInfo.keyExists reg f = .ok existed)
    (goes : RegMap.firstEntry c reg f existed = .ok entry) :
    keyState reg f = .ok (originals entry) := by
  obtain ⟨-, t, root, path, made, toRoot, below⟩ := firstEntry_reads goes
  have found := place_of_reads itself made toRoot below
  exact (firstEntry_iff reg made toRoot below found _).mp ⟨existed, entry, known, goes, rfl⟩

/-- The registry answers for a key it shows, if an entry can be made of the name at all. -/
theorem answers_of_shown {c : Casing} {reg other : Registry} {f : WString} {k : KeyState}
    (itself : ∀ spot, readPlace c f = .ok spot → place f = some spot)
    (possible : Answers c other f) (shown : keyState reg f = .ok k) : Answers c reg f := by
  obtain ⟨existed, -, entry, goes⟩ := possible
  obtain ⟨-, t, root, path, made, toRoot, below⟩ := firstEntry_reads goes
  have found := place_of_reads itself made toRoot below
  obtain ⟨existed', entry', known, goes', -⟩ :=
    (firstEntry_iff reg made toRoot below found k).mpr shown
  exact ⟨existed', known, entry', goes'⟩

/-! ### What the notifications leave -/

/-- Entries come from notifications of their key, and a key the registry answered for has one. -/
structure Tracks (c : Casing) (done : List RegNotice) (m : RegMap) : Prop where
  named : ∀ p t, m.lookup p = some t → ∃ n ∈ done, c.toLower n.path = p ∧ n.Names c t.fullName
  kept : ∀ n ∈ done, ∀ f, n.Names c f → Answers c n.registry f →
    ∃ p t, m.lookup p = some t ∧ t.fullName = f

theorem notify_tracks {c : Casing} {done : List RegNotice} {m : RegMap} (tracks : Tracks c done m)
    (n : RegNotice) : Tracks c (done ++ [n]) (notify c m n) := by
  cases notify_cases c m n with
  | inl unchanged =>
    obtain ⟨same, seen⟩ := unchanged
    rw [same]
    constructor
    · intro p t stored
      obtain ⟨n', member, rest⟩ := tracks.named p t stored
      exact ⟨n', List.mem_append_left _ member, rest⟩
    · intro n' member f names answers
      rcases List.mem_append.mp member with before | now
      · exact tracks.kept n' before f names answers
      · obtain rfl := List.mem_singleton.mp now
        obtain ⟨t, stored⟩ := Option.isSome_iff_exists.mp
          (AList.lookup_isSome.mpr (seen f names answers))
        obtain ⟨other, -, samePath, names'⟩ := tracks.named _ t stored
        exact ⟨_, t, stored, names_unique samePath names' names⟩
  | inr added =>
    obtain ⟨f, existed, t, names, unseen, known, entry, result⟩ := added
    rw [result]
    constructor
    · intro p u stored
      by_cases here : p = c.toLower n.path
      · rw [here, AList.lookup_insert] at stored
        obtain rfl := Option.some.inj stored
        exact ⟨n, by simp, here.symm, (firstEntry_reads entry).1 ▸ names⟩
      · rw [AList.lookup_insert_ne here] at stored
        obtain ⟨n', member, rest⟩ := tracks.named p u stored
        exact ⟨n', List.mem_append_left _ member, rest⟩
    · intro n' member f' names' answers
      rcases List.mem_append.mp member with before | now
      · obtain ⟨p, u, stored, name⟩ := tracks.kept n' before f' names' answers
        refine ⟨p, u, ?_, name⟩
        rw [AList.lookup_insert_ne, stored]
        intro here
        rw [here, AList.lookup_eq_none.mpr unseen] at stored
        cases stored
      · obtain rfl := List.mem_singleton.mp now
        exact ⟨_, t, AList.lookup_insert _,
          (firstEntry_reads entry).1.trans (names_unique rfl names names')⟩

theorem monitored_tracks (c : Casing) (done : List RegNotice) :
    Tracks c done (monitored c done) := by
  induction done using List.reverseRecOn with
  | nil =>
    constructor
    · intro p t stored
      cases stored
    · intro n member
      cases member
  | append_singleton done n ih =>
    rw [monitored, run_append]
    exact notify_tracks ih n

theorem firstNaming_some {c : Casing} {done : List RegNotice} {f : WString} {n : RegNotice}
    (found : firstNaming c done f = some n) : n ∈ done ∧ n.Names c f := by
  have names := List.find?_some found
  simp only [decide_eq_true_eq] at names
  exact ⟨List.mem_of_find?_eq_some found, names⟩

theorem firstNaming_append (c : Casing) (done : List RegNotice) (n : RegNotice) (f : WString) :
    firstNaming c (done ++ [n]) f = (firstNaming c done f).or (firstNaming c [n] f) :=
  List.find?_append

theorem firstNaming_here {c : Casing} {n : RegNotice} {f : WString} (names : n.Names c f) :
    firstNaming c [n] f = some n := by
  rw [RegNotice.Names] at names
  simp [firstNaming, names]

theorem firstNaming_none {c : Casing} {done : List RegNotice} {f : WString} :
    firstNaming c done f = none ↔ ∀ n ∈ done, ¬ n.Names c f := by
  simp [firstNaming, RegNotice.Names, List.find?_eq_none]

/-! ### One entry a key -/

theorem monitored_append (c : Casing) (done : List RegNotice) (n : RegNotice) :
    monitored c (done ++ [n]) = notify c (monitored c done) n :=
  run_append ..

/-- An entry for a key that was named before takes its state at another notification, or comes
beside the entry of that one. -/
theorem firstOfKey_of_oneBaseline {c : Casing} {done : List RegNotice} {n : RegNotice}
    (itself : ReadsItself c n) (one : OneBaseline c (done ++ [n])) : FirstOfKey c done n := by
  intro f names unseen answers earlier member alsoNames
  have tracks := monitored_tracks c done
  cases notify_cases c (monitored c done) n with
  | inl unchanged => exact unseen (unchanged.2 f names answers)
  | inr added =>
    obtain ⟨f', existed, t, names', -, known, entry, result⟩ := added
    obtain rfl := names_unique rfl names names'
    have fullName := (firstEntry_reads entry).1
    rw [← monitored_append] at result
    have stored : (monitored c (done ++ [n])).lookup (c.toLower n.path) = some t := by
      rw [result, AList.lookup_insert]
    obtain ⟨first, found, shown⟩ := one.first _ t stored
    have before : firstNaming c done f = some first := by
      rw [fullName, firstNaming_append] at found
      cases sought : firstNaming c done f with
      | some other =>
        rw [sought] at found
        exact found
      | none => exact absurd alsoNames (firstNaming_none.mp sought earlier member)
    obtain ⟨inDone, firstNames⟩ := firstNaming_some before
    rw [fullName] at shown
    obtain ⟨p, u, storedThen, sameKey⟩ := tracks.kept first inDone f firstNames
      (answers_of_shown (itself f names) answers shown)
    have apart : p ≠ c.toLower n.path := by
      intro here
      rw [here, AList.lookup_eq_none.mpr unseen] at storedThen
      cases storedThen
    have still : (monitored c (done ++ [n])).lookup p = some u := by
      rw [result, AList.lookup_insert_ne apart, storedThen]
    exact apart (one.unique p _ u t still stored (sameKey.trans fullName.symm))

/-- With an entry of another key, two entries of one key are still one entry. -/
theorem unique_insert {m : RegMap} {path : WString} {t : RegAccessInfo}
    (unique : ∀ p q u v, m.lookup p = some u → m.lookup q = some v → u.fullName = v.fullName →
      p = q)
    (others : ∀ p u, m.lookup p = some u → u.fullName ≠ t.fullName) :
    ∀ p q u v, (m.insert path t).lookup p = some u → (m.insert path t).lookup q = some v →
      u.fullName = v.fullName → p = q := by
  intro p q u v atP atQ same
  by_cases hereP : p = path
  · by_cases hereQ : q = path
    · rw [hereP, hereQ]
    · rw [hereP, AList.lookup_insert] at atP
      rw [AList.lookup_insert_ne hereQ] at atQ
      obtain rfl := Option.some.inj atP
      exact absurd same.symm (others q v atQ)
  · rw [AList.lookup_insert_ne hereP] at atP
    by_cases hereQ : q = path
    · rw [hereQ, AList.lookup_insert] at atQ
      obtain rfl := Option.some.inj atQ
      exact absurd same (others p u atP)
    · rw [AList.lookup_insert_ne hereQ] at atQ
      exact unique p q u v atP atQ same

theorem oneBaseline_of_firstOfKey {c : Casing} {done : List RegNotice} {n : RegNotice}
    (itself : ReadsItself c n) (one : OneBaseline c done) (first : FirstOfKey c done n) :
    OneBaseline c (done ++ [n]) := by
  have tracks := monitored_tracks c done
  have kept : ∀ f first', firstNaming c done f = some first' →
      firstNaming c (done ++ [n]) f = some first' := by
    intro f first' found
    rw [firstNaming_append, found]
    rfl
  cases notify_cases c (monitored c done) n with
  | inl unchanged =>
    have same := (monitored_append c done n).trans unchanged.1
    constructor
    · rw [same]
      exact one.unique
    · intro p t stored
      rw [same] at stored
      obtain ⟨first', found, shown⟩ := one.first p t stored
      exact ⟨first', kept _ _ found, shown⟩
  | inr added =>
    obtain ⟨f, existed, t, names, unseen, known, entry, result⟩ := added
    rw [← monitored_append] at result
    have fullName := (firstEntry_reads entry).1
    have new := first f names unseen ⟨existed, known, t, entry⟩
    -- no entry so far is one of the key
    have others : ∀ p u, (monitored c done).lookup p = some u → u.fullName ≠ t.fullName := by
      intro p u stored same
      obtain ⟨earlier, member, -, alsoNames⟩ := tracks.named p u stored
      exact new earlier member (fullName ▸ same ▸ alsoNames)
    constructor
    · rw [result]
      exact unique_insert one.unique others
    · intro p u stored
      rw [result] at stored
      by_cases here : p = c.toLower n.path
      · rw [here, AList.lookup_insert] at stored
        obtain rfl := Option.some.inj stored
        refine ⟨n, ?_, ?_⟩
        · rw [fullName, firstNaming_append, firstNaming_none.mpr new, firstNaming_here names]
          rfl
        · rw [fullName]
          exact shown_of_firstEntry (itself f names) known entry
      · rw [AList.lookup_insert_ne here] at stored
        obtain ⟨first', found, shown⟩ := one.first p u stored
        exact ⟨first', kept _ _ found, shown⟩

theorem oneBaseline_nil (c : Casing) : OneBaseline c [] := by
  constructor
  · intro p q t u stored
    cases stored
  · intro p t stored
    cases stored

/-- The history after one more notification. -/
def noted (done : List RegNotice) (n : RegNotice) : List RegNotice := done ++ [n]

/-- In every run in which each notification reads the key it names and adds an entry only as the
first one to name its key, every key has at most one entry, with the state it had first. Without
notifications that read another key this is exact. -/
theorem one_baseline_of_first (c : Casing) (notices : List RegNotice) :
    (EachStep noted (fun done n => ReadsItself c n ∧ FirstOfKey c done n) [] notices →
      Throughout noted (OneBaseline c) [] notices) ∧
      (EachStep noted (fun _ n => ReadsItself c n) [] notices →
        (Throughout noted (OneBaseline c) [] notices ↔
          EachStep noted (FirstOfKey c) [] notices)) := by
  have exact_step : ∀ done n, OneBaseline c done → ReadsItself c n →
      (OneBaseline c (noted done n) ∧ True ↔ FirstOfKey c done n) := by
    intro done n one itself
    constructor
    · intro holds
      exact firstOfKey_of_oneBaseline itself holds.1
    · intro first
      exact ⟨oneBaseline_of_firstOfKey itself one first, trivial⟩
  have each : EachStep noted (fun _ n => ReadsItself c n) [] notices →
      (Throughout noted (OneBaseline c) [] notices ↔
        EachStep noted (FirstOfKey c) [] notices) := by
    intro itself
    rw [← throughout_and_eachStep_iff_of_possible exact_step (oneBaseline_nil c) itself,
      and_iff_left (eachStep_true _ _ _)]
  refine ⟨fun both => (each fun done n rest split => ?_).mpr fun done n rest split => ?_, each⟩
  · exact (both done n rest split).1
  · exact (both done n rest split).2

/-- For a root key, `SubkeyPath` is the name of the root: a subkey of it is read. -/
example (reg : Registry) : ¬ ReadsItself .ascii ⟨reg, wide "\\registry\\machine"⟩ := by
  intro itself
  have names : RegAccessInfo.convertToFullName .ascii (wide "\\registry\\machine") =
      some (wide "hkey_local_machine") := by decide
  have found := itself _ names (.localMachine, wide "hkey_local_machine") (by decide)
  exact absurd found (by decide)

/-- A key of the local machine and its one value. -/
def oneValueRegistry (value : RegValue) : Registry where
  openSubKey := fun root path =>
    if root = .localMachine ∧ path = wide "a" then
      .ok (some ⟨.ok [wide "v"], fun _ => .ok (some value), .ok []⟩)
    else .ok none

/-- A key is named, named again in capitals when its value has changed, and then another key. -/
def twoKeys : List RegNotice :=
  [⟨oneValueRegistry (.dword 1), wide "\\registry\\machine\\a"⟩,
    ⟨oneValueRegistry (.dword 2), wide "\\REGISTRY\\MACHINE\\A"⟩,
    ⟨oneValueRegistry (.dword 2), wide "\\registry\\machine\\b"⟩]

/-- What is read is fixed by the one name the notification gives. -/
theorem readsItself_of_names {c : Casing} {n : RegNotice} (fullName : WString)
    (names : n.Names c fullName) {spot : RootKey × WString}
    (read : readPlace c fullName = .ok spot) (same : place fullName = some spot) :
    ReadsItself c n := by
  intro other names' spot' read'
  obtain rfl : fullName = other := Option.some.inj (names.symm.trans names')
  rw [read] at read'
  cases read'
  exact same

/-- Only the first notice of each key adds an entry. -/
theorem twoKeys_first : EachStep noted (fun done n => ReadsItself .ascii n ∧ FirstOfKey .ascii done n)
    [] twoKeys := by
  refine (eachStep_cons ..).mpr ⟨⟨?_, fun _ _ _ _ => by simp⟩, ?_⟩
  · exact readsItself_of_names (wide "hkey_local_machine\\a") rfl rfl rfl
  refine (eachStep_cons ..).mpr ⟨⟨?_, fun _ _ new _ => absurd (by decide) new⟩, ?_⟩
  · exact readsItself_of_names (wide "hkey_local_machine\\a") rfl rfl rfl
  refine (eachStep_cons ..).mpr ⟨⟨?_, fun fullName names _ _ earlier known => ?_⟩, eachStep_nil _ _ _⟩
  · exact readsItself_of_names (wide "hkey_local_machine\\b") rfl rfl rfl
  · obtain rfl : wide "hkey_local_machine\\b" = fullName := Option.some.inj names
    rcases List.mem_pair.mp known with rfl | rfl <;> unfold RegNotice.Names <;> decide

theorem one_baseline_of_first_twoKeys :
    Throughout noted (OneBaseline .ascii) [] twoKeys ∧
      (monitored .ascii twoKeys).keys.length = 2 :=
  ⟨(one_baseline_of_first .ascii twoKeys).1 twoKeys_first, by decide⟩

/-- A second spelling of a key makes a second entry, which shows the value already changed. -/
theorem trailing_backslash_second_entry :
    ¬ OneBaseline .ascii
      [⟨oneValueRegistry (.dword 1), wide "\\registry\\machine\\a"⟩,
        ⟨oneValueRegistry (.dword 2), wide "\\registry\\machine\\a\\"⟩] := by
  intro one
  have apart := one.unique (wide "\\registry\\machine\\a") (wide "\\registry\\machine\\a\\")
    ⟨wide "hkey_local_machine\\a", wide "HKEY_LOCAL_MACHINE", [(wide "v", some (.dword 1))], [],
      true⟩
    ⟨wide "hkey_local_machine\\a", wide "HKEY_LOCAL_MACHINE", [(wide "v", some (.dword 2))], [],
      true⟩
    (by decide) (by decide) rfl
  exact absurd apart (by decide)

end GuestAgent.Guarantees.RegistryBaseline
