import Mathlib.Data.List.TakeWhile
import GuestAgent.Guarantees.RegistryBaseline
import GuestAgent.Library.Split

/-!
The names of registry keys on their way through the guest.

`ConvertToFullName` turns the name the kernel has for a key into a full name. It takes
`\REGISTRY\USER` for the current user's key, and it does not ask for a backslash behind
`\REGISTRY`. `SubkeyPath` gets the path back by cutting the full name at the name of the root,
which leaves a root as it is and cuts a path in which the name of its root comes again.
-/
namespace GuestAgent.Guarantees.RegistryNames
open Library Source Source.RegAccessInfo RegistryBaseline
open Split (preceded)

/-! ### Cutting names -/

theorem pieces_eq_cutFrom (sep s : WString) (skip : Nat) (piece : WString) :
    pieces sep s skip piece = Split.cutFrom sep skip piece.reverse s := by
  induction s generalizing skip piece with
  | nil => simp [pieces, Split.cutFrom]
  | cons c s ih =>
    cases skip with
    | succ skip => rw [pieces, Split.cutFrom, ih]
    | zero =>
      rw [pieces, Split.cutFrom, ih, ih, List.reverse_reverse, List.reverse_append]
      rfl

theorem splitRemoveEmpty_eq (sep s : WString) :
    splitRemoveEmpty sep s = (Split.cut sep s).filter fun p => !p.isEmpty := by
  rw [splitRemoveEmpty, pieces_eq_cutFrom]
  rfl

/-- Cut at backslashes. -/
theorem splitRemoveEmpty_backslash (s : WString) :
    splitRemoveEmpty [backslash] s = Split.pieces backslash s := by
  rw [splitRemoveEmpty_eq, Split.cut_singleton]
  rfl

/-! ### The full name of a key -/

/-- The `switch` of `ConvertToFullName`. -/
def rootName (word : WString) : Option WString :=
  if word = wide "user" then some (wide "hkey_current_user")
  else if word = wide "machine" then some (wide "hkey_local_machine")
  else if word = wide "root" then some (wide "hkey_classes_root")
  else if word = wide "users" then some (wide "hkey_users")
  else none

def rootNames : List WString :=
  [wide "hkey_current_user", wide "hkey_local_machine", wide "hkey_classes_root", wide "hkey_users"]

/-- The hives of the kernel. -/
inductive Hive where
  | machine | user
  deriving DecidableEq, Repr

def Hive.word : Hive → WString
  | .machine => wide "machine"
  | .user => wide "user"

theorem rootName_mem {word root : WString} (named : rootName word = some root) :
    root ∈ rootNames := by
  unfold rootName at named
  simp only [rootNames, List.mem_cons, List.not_mem_nil, or_false]
  split at named
  · cases named
    exact .inl rfl
  · split at named
    · cases named
      exact .inr (.inl rfl)
    · split at named
      · cases named
        exact .inr (.inr (.inl rfl))
      · split at named
        · cases named
          exact .inr (.inr (.inr rfl))
        · cases named

theorem proper_of_rootName {root : WString} (known : root ∈ rootNames) :
    root ≠ [] ∧ backslash ∉ root := by
  have all : ∀ root ∈ rootNames, root ≠ [] ∧ backslash ∉ root := by decide
  exact all root known

theorem convertToFullName_of_starts {c : Casing} {s t : WString}
    (text : c.toLower s = registryPrefix ++ t) :
    convertToFullName c s = match Split.pieces backslash t with
      | [] => none
      | first :: rest => (rootName first).map fun root => root ++ preceded backslash rest := by
  simp only [convertToFullName, text, List.drop_left, splitRemoveEmpty_backslash]
  rw [List.isPrefixOf_iff_prefix.mpr (List.prefix_append _ _)]
  cases Split.pieces backslash t <;> rfl

theorem prefix_of_converted {c : Casing} {s : WString}
    (named : (convertToFullName c s).isSome = true) : ∃ t, c.toLower s = registryPrefix ++ t := by
  obtain ⟨f, converted⟩ := Option.isSome_iff_exists.mp named
  have starts := RegMap.prefix_of_convertToFullName converted
  obtain ⟨t, same⟩ := List.isPrefixOf_iff_prefix.mp starts
  exact ⟨t, same.symm⟩

/-- The components of a full name. -/
theorem components_fullName {root : WString} (known : root ∈ rootNames) {path : List WString}
    (proper : ∀ part ∈ path, part ≠ [] ∧ backslash ∉ part) :
    splitRemoveEmpty [backslash] (root ++ preceded backslash path) = root :: path := by
  obtain ⟨nonempty, fresh⟩ := proper_of_rootName known
  rw [splitRemoveEmpty_backslash, Split.pieces_append_preceded fresh nonempty,
    Split.pieces_preceded (fun p member => (proper p member).2) fun p member => (proper p member).1]

/-- The root `ConvertToFullName` names for a hive. -/
def Hive.root : Hive → WString
  | .machine => wide "hkey_local_machine"
  | .user => wide "hkey_current_user"

/-- `\registryuser` is taken for `\registry\user`. -/
example : convertToFullName .ascii (wide "\\registryuser\\a") = some (wide "hkey_current_user\\a") := by
  decide

/-- The guest's case mapping is that of ASCII on ASCII, and a second lowering changes nothing. -/
structure Ordinary (c : Casing) : Prop where
  ascii : ∀ u : WChar, u < 128 → c.upper u = Casing.ascii.upper u ∧ c.lower u = Casing.ascii.lower u
  lowered : ∀ u : WChar, c.lower (c.lower u) = c.lower u

/-- `new RegAccessInfo(f)` succeeds, its root and path make up the name again, and they lead to
the key `KeyExists` looks for. -/
def ReadsBack (c : Casing) (f : WString) : Prop :=
  ∃ t subkey, RegAccessInfo.new c f = .ok t ∧ t.subkeyPath c = .ok subkey ∧
    f = (if subkey = [] then c.toLower t.root else c.toLower t.root ++ backslash :: subkey) ∧
    ∃ spot, readPlace c f = .ok spot ∧ place f = some spot

/-- There is a path below the root, and the name of the root does not end a component of it that
another one follows. -/
def RootOnce (f : WString) : Prop :=
  ∃ root path, root ∈ rootNames ∧ path ≠ [] ∧ f = root ++ backslash :: path ∧
    ¬ (root ++ [backslash]) <:+: path

theorem ordinary_ascii : Ordinary .ascii := by
  refine ⟨fun u _ => ⟨rfl, rfl⟩, fun u => ?_⟩
  simp only [Casing.ascii]
  split
  next upper =>
    have up : (u + 32).toNat = u.toNat + 32 := by
      rw [UInt16.toNat_add]
      have small : (32 : UInt16).toNat = 32 := rfl
      omega
    rw [if_neg (by omega)]
  next other => rfl

theorem Ordinary.toUpper {c : Casing} (ordinary : Ordinary c) {s : WString}
    (plain : s.all (· < 128) = true) : c.toUpper s = Casing.ascii.toUpper s := by
  rw [List.all_eq_true] at plain
  exact List.map_congr_left fun u member => (ordinary.ascii u (by simpa using plain u member)).1

theorem Ordinary.toLower {c : Casing} (ordinary : Ordinary c) {s : WString}
    (plain : s.all (· < 128) = true) : c.toLower s = Casing.ascii.toLower s := by
  rw [List.all_eq_true] at plain
  exact List.map_congr_left fun u member => (ordinary.ascii u (by simpa using plain u member)).2

theorem Ordinary.lower_lower {c : Casing} (ordinary : Ordinary c) {u : WChar} {s : WString}
    (member : u ∈ c.toLower s) : c.lower u = u := by
  obtain ⟨v, -, same⟩ := List.mem_map.mp member
  rw [← same, ordinary.lowered]

/-- A character of lower-case ASCII is left alone. -/
theorem Ordinary.lower_of_ascii {c : Casing} (ordinary : Ordinary c) {s : WString}
    (low : (s.all fun u => u < 128 ∧ Casing.ascii.lower u = u) = true) {u : WChar} (member : u ∈ s) :
    c.lower u = u := by
  have plain := List.all_eq_true.mp low u member
  simp only [decide_eq_true_eq] at plain
  rw [(ordinary.ascii u plain.1).2, plain.2]

theorem rootNames_low {root : WString} (known : root ∈ rootNames) :
    (root.all fun u => u < 128 ∧ Casing.ascii.lower u = u) = true := by
  have all : ∀ root ∈ rootNames,
      (root.all fun u => u < 128 ∧ Casing.ascii.lower u = u) = true := by decide
  exact all root known

/-- In upper case they are ASCII still, and lower case leads back. -/
theorem rootNames_upper {root : WString} (known : root ∈ rootNames) :
    (Casing.ascii.toUpper root).all (· < 128) = true ∧
      Casing.ascii.toLower (Casing.ascii.toUpper root) = root := by
  have all : ∀ root ∈ rootNames, (Casing.ascii.toUpper root).all (· < 128) = true ∧
      Casing.ascii.toLower (Casing.ascii.toUpper root) = root := by decide
  exact all root known

theorem mem_preceded {sep u : WChar} {list : List WString} (member : u ∈ preceded sep list) :
    u = sep ∨ ∃ part ∈ list, u ∈ part := by
  simp only [preceded, List.mem_flatten, List.mem_map, exists_exists_and_eq_and,
    List.mem_cons] at member
  obtain ⟨part, listed, here | inside⟩ := member
  · exact .inl here
  · exact .inr ⟨part, listed, inside⟩

/-- The names `ConvertToFullName` returns: a root, and components in lower case. -/
theorem converted_form {c : Casing} (ordinary : Ordinary c) {s f : WString}
    (converted : convertToFullName c s = some f) :
    ∃ root parts, root ∈ rootNames ∧ f = root ++ preceded backslash parts ∧
      (∀ part ∈ parts, part ≠ [] ∧ backslash ∉ part) ∧ c.toLower f = f := by
  obtain ⟨t, text⟩ := prefix_of_converted (by rw [converted]; rfl)
  rw [convertToFullName_of_starts text] at converted
  cases cut : Split.pieces backslash t with
  | nil => simp [cut] at converted
  | cons first parts =>
    simp only [cut, Option.map_eq_some_iff] at converted
    obtain ⟨root, named, rfl⟩ := converted
    have piece {part : WString} (listed : part ∈ parts) : part ∈ Split.pieces backslash t := by
      rw [cut]
      exact List.mem_cons_of_mem first listed
    refine ⟨root, parts, rootName_mem named, rfl, fun part listed => ⟨?_, ?_⟩, ?_⟩
    · rintro rfl
      simpa using List.of_mem_filter (piece listed)
    · exact Split.not_mem_of_mem_pieces (piece listed)
    · refine (List.map_congr_left fun u member => ?_).trans (List.map_id _)
      rcases List.mem_append.mp member with inRoot | below
      · exact ordinary.lower_of_ascii (rootNames_low (rootName_mem named)) inRoot
      · rcases mem_preceded below with rfl | ⟨part, listed, inside⟩
        · exact ordinary.lower_of_ascii (s := [backslash]) (by decide) (List.mem_singleton_self _)
        · -- the components come from the lower-cased name
          have there := (Split.of_mem_splitOn (List.mem_of_mem_filter (piece listed))).2 u inside
          exact ordinary.lower_lower (s := s) (by rw [text]; exact List.mem_append_right _ there)

theorem new_eq {c : Casing} (ordinary : Ordinary c) {root : WString} (known : root ∈ rootNames)
    (parts : List WString) (proper : ∀ part ∈ parts, part ≠ [] ∧ backslash ∉ part) :
    ∃ t, RegAccessInfo.new c (root ++ preceded backslash parts) = .ok t ∧
      t.fullName = root ++ preceded backslash parts ∧ c.toLower t.root = root ∧
      ∃ key, t.getRootKey = .ok key ∧ namedRoot root = some key := by
  have plain : root.all (· < 128) = true := by
    rw [List.all_eq_true]
    intro u member
    have low := List.all_eq_true.mp (rootNames_low known) u member
    simp only [decide_eq_true_eq] at low ⊢
    exact low.1
  unfold RegAccessInfo.new
  rw [components_fullName known proper]
  simp only [ordinary.toUpper plain]
  obtain ⟨upper, back⟩ := rootNames_upper known
  have lower : c.toLower (Casing.ascii.toUpper root) = root := (ordinary.toLower upper).trans back
  clear plain upper back
  simp only [rootNames, List.mem_cons, List.not_mem_nil, or_false] at known
  rcases known with rfl | rfl | rfl | rfl
  · exact ⟨_, if_pos (by decide), rfl, lower, .currentUser, rfl, rfl⟩
  · exact ⟨_, if_pos (by decide), rfl, lower, .localMachine, rfl, rfl⟩
  · exact ⟨_, if_pos (by decide), rfl, lower, .classesRoot, rfl, rfl⟩
  · exact ⟨_, if_pos (by decide), rfl, lower, .users, rfl, rfl⟩

/-- `SubkeyPath` cuts the name at the name of the root. -/
theorem subkeyPath_eq {c : Casing} {t : RegAccessInfo} {root f : WString} (name : t.fullName = f)
    (low : c.toLower f = f) (lower : c.toLower t.root = root) :
    t.subkeyPath c = match (Split.cut (root ++ [backslash]) f).filter fun p => !p.isEmpty with
      | [] => .error .indexOutOfRange
      | first :: _ => .ok first := by
  rw [subkeyPath, lower, name, low, splitRemoveEmpty_eq]
  cases (Split.cut (root ++ [backslash]) f).filter fun p => !p.isEmpty <;> rfl

theorem cut_root (root : WString) : Split.cut (root ++ [backslash]) root = [root] := by
  apply Split.cut_of_not_infix
  intro occurs
  have long := occurs.length_le
  simp at long

theorem cut_below (root path : WString) :
    (Split.cut (root ++ [backslash]) (root ++ backslash :: path)).filter (fun p => !p.isEmpty) =
      (Split.cut (root ++ [backslash]) path).filter fun p => !p.isEmpty := by
  have split : root ++ backslash :: path = root ++ [backslash] ++ path := by simp
  rw [split, Split.cut_append_self (by simp), List.filter_cons_of_neg (by simp)]

/-- A root is not told from a subkey of its own name. -/
theorem not_readsBack_root {c : Casing} (ordinary : Ordinary c) {root : WString}
    (known : root ∈ rootNames) (low : c.toLower root = root) : ¬ ReadsBack c root := by
  rintro ⟨t, subkey, made, below, whole, -⟩
  obtain ⟨t', made', name, lower, -⟩ := new_eq ordinary known [] (by simp)
  rw [Split.preceded_nil, List.append_nil] at made' name
  rw [made'] at made
  cases made
  obtain ⟨some_, -⟩ := proper_of_rootName known
  rw [subkeyPath_eq name low lower, cut_root, List.filter_cons_of_pos (by simpa using some_)] at below
  cases below
  rw [if_neg some_, lower] at whole
  have length := congrArg List.length whole
  simp only [List.length_append, List.length_cons] at length
  omega

/-- Below a root the path is read back exactly if the root's name does not come again. -/
theorem readsBack_below_iff {c : Casing} (ordinary : Ordinary c) {root p : WString}
    {parts : List WString} (known : root ∈ rootNames)
    (proper : ∀ part ∈ p :: parts, part ≠ [] ∧ backslash ∉ part)
    (low : c.toLower (root ++ backslash :: (p ++ preceded backslash parts)) =
      root ++ backslash :: (p ++ preceded backslash parts)) :
    ReadsBack c (root ++ backslash :: (p ++ preceded backslash parts)) ↔
      ¬ (root ++ [backslash]) <:+: p ++ preceded backslash parts := by
  obtain ⟨t, made, name, lower, key, toRoot, isRoot⟩ := new_eq ordinary known _ proper
  rw [Split.preceded_cons] at made name
  have found : place (root ++ backslash :: (p ++ preceded backslash parts)) =
      some (key, p ++ preceded backslash parts) := by
    have components := components_fullName known proper
    rw [Split.preceded_cons] at components
    rw [place, components]
    simp only [isRoot, Option.map_some, Split.intercalate_cons]
  have some_ : p ++ preceded backslash parts ≠ [] := by
    simp [(proper p List.mem_cons_self).1]
  have reads := subkeyPath_eq name low lower
  rw [cut_below] at reads
  generalize p ++ preceded backslash parts = path at *
  constructor
  · rintro ⟨t', subkey, made', below, whole, -⟩ again
    rw [made] at made'
    cases made'
    rw [reads] at below
    cases listed : (Split.cut (root ++ [backslash]) path).filter fun p => !p.isEmpty with
    | nil => simp [listed] at below
    | cons first rest =>
      simp only [listed, Except.ok.injEq] at below
      subst below
      have member : first ∈ (Split.cut (root ++ [backslash]) path).filter fun p => !p.isEmpty := by
        rw [listed]
        exact List.mem_cons_self
      obtain ⟨piece, nonempty⟩ := List.mem_filter.mp member
      have short := Split.length_lt_of_infix (by simp) again piece
      rw [if_neg (by simpa using nonempty), lower] at whole
      have same := List.append_cancel_left whole
      rw [List.cons.injEq] at same
      rw [same.2] at short
      exact Nat.lt_irrefl _ short
  · intro once
    rw [Split.cut_of_not_infix once, List.filter_cons_of_pos (by simpa using some_)] at reads
    refine ⟨t, path, made, reads, ?_, (key, path), ?_, found⟩
    · rw [if_neg some_, lower]
    · simp only [readPlace, made, toRoot, reads, bind, Except.bind]

/-- A full name the guest makes is read back exactly if it has a path below its root, in which the
name of the root with a backslash behind it does not come again. -/
theorem reads_back_iff (c : Casing) (ordinary : Ordinary c) (s f : WString)
    (converted : convertToFullName c s = some f) : ReadsBack c f ↔ RootOnce f := by
  obtain ⟨root, parts, known, rfl, proper, low⟩ := converted_form ordinary converted
  cases parts with
  | nil =>
    rw [Split.preceded_nil, List.append_nil] at low ⊢
    refine iff_of_false (not_readsBack_root ordinary known low) ?_
    rintro ⟨root', path, -, -, same, -⟩
    exact (proper_of_rootName known).2 (by rw [same]; simp)
  | cons p parts =>
    rw [Split.preceded_cons] at low ⊢
    rw [readsBack_below_iff ordinary known proper low]
    constructor
    · intro once
      exact ⟨root, _, known, by simp [(proper p List.mem_cons_self).1], rfl, once⟩
    · rintro ⟨root', path, known', -, same, once⟩
      have cut := congrArg (Split.pieces backslash) same
      rw [Split.pieces_append (proper_of_rootName known).2 (proper_of_rootName known).1,
        Split.pieces_append (proper_of_rootName known').2 (proper_of_rootName known').1,
        List.cons.injEq] at cut
      rw [cut.1, List.append_cancel_left_eq, List.cons.injEq] at same
      rw [cut.1, same.2]
      exact once

theorem reads_back_key : convertToFullName .ascii (wide "\\REGISTRY\\MACHINE\\A\\b") =
      some (wide "hkey_local_machine\\a\\b") ∧
    ReadsBack .ascii (wide "hkey_local_machine\\a\\b") :=
  ⟨by decide, (reads_back_iff .ascii ordinary_ascii (wide "\\REGISTRY\\MACHINE\\A\\b") _
    (by decide)).mpr ⟨wide "hkey_local_machine", wide "a\\b", by decide, by decide, by decide,
      by decide⟩⟩

/-- The root of the machine is read as its subkey `hkey_local_machine`. -/
theorem root_not_read_back : ¬ ∀ (c : Casing) (s f : WString), Ordinary c →
    convertToFullName c s = some f → ReadsBack c f := by
  intro always_reads_back
  have reads := always_reads_back .ascii (wide "\\REGISTRY\\MACHINE") (wide "hkey_local_machine") ordinary_ascii
    (by decide)
  exact not_readsBack_root ordinary_ascii (by decide) (by decide) reads

end GuestAgent.Guarantees.RegistryNames
