import GuestAgent.Library.Raising
import GuestAgent.Source.FrameworkPaths

/-!
The file `File.Create` opens for a name in a folder.

Behind the drive the scan of `NormalizePath` goes component by component: dots and spaces at the
end of one are dropped, one of spaces disappears, one of dots becomes `.` or `..`. So the path of a
folder stays in front, and what the name adds to it is told by its own components.
-/
namespace GuestAgent.Guarantees.CreatedPaths
open Library Source

/-- The components of a path, empty ones included. -/
def components (path : WString) : List WString := path.splitOnP isSeparator

def isDotOrSpace (u : WChar) : Bool := u = dot || u = space

/-- What is written for a component: itself without the dots and spaces at its end, or what
`normalizeDots` makes of it if there is nothing else in it. -/
def tidy (component : WString) : Except Exn WString :=
  if component.rdropWhile isDotOrSpace = [] then normalizeDots component false
  else .ok (component.rdropWhile isDotOrSpace)

/-- The components written one behind the other, nothing for one that disappeared. -/
def assemble : List WString → WString
  | [] => []
  | [last] => last
  | component :: rest =>
    (if component = [] then [] else component ++ [backslash]) ++ assemble rest

/-! ### One component -/

/-- The scan behind a separator, when `b` was written and `u` was read since then. -/
def inside (b u : WString) (last : Option WChar) : Normalizing where
  newBuffer := b ++ u.rdropWhile isDotOrSpace
  pending := u.rtakeWhile isDotOrSpace
  numSigChars := (u.rdropWhile isDotOrSpace).length
  fixupDirectorySeparator := (u.rdropWhile isDotOrSpace).isEmpty
  startedWithVolumeSeparator := false
  firstSegment := false
  last := last

theorem inside_dotOrSpace (b u : WString) (last : Option WChar) {c : WChar}
    (trailing : isDotOrSpace c = true) :
    { inside b u last with pending := (inside b u last).pending ++ [c], last := some c } =
      inside b (u ++ [c]) (some c) := by
  have body : (u ++ [c]).rdropWhile isDotOrSpace = u.rdropWhile isDotOrSpace := by
    rw [List.rdropWhile_concat_pos _ _ _ trailing]
  have tail : (u ++ [c]).rtakeWhile isDotOrSpace = u.rtakeWhile isDotOrSpace ++ [c] := by
    rw [List.rtakeWhile_concat_pos _ _ _ trailing]
  simp only [inside, body, tail]

theorem inside_other (b u : WString) (last : Option WChar) {c : WChar}
    (other : isDotOrSpace c = false) :
    (inside b u last).other c = inside b (u ++ [c]) (some c) := by
  have body : (u ++ [c]).rdropWhile isDotOrSpace = u ++ [c] :=
    List.rdropWhile_concat_neg _ _ _ (by simp [other])
  have tail : (u ++ [c]).rtakeWhile isDotOrSpace = [] :=
    List.rtakeWhile_concat_neg _ _ _ (by simp [other])
  have whole : u.rdropWhile isDotOrSpace ++ u.rtakeWhile isDotOrSpace = u :=
    List.rdropWhile_append_rtakeWhile
  have length := congrArg List.length whole
  rw [List.length_append] at length
  have sum : (u.rdropWhile isDotOrSpace).length + 1 + (u.rtakeWhile isDotOrSpace).length =
      (u ++ [c]).length := by
    rw [List.length_append, List.length_singleton]
    omega
  have buffer : b ++ u.rdropWhile isDotOrSpace ++ u.rtakeWhile isDotOrSpace ++ [c] =
      b ++ (u ++ [c]) := by
    rw [List.append_assoc b, whole, List.append_assoc]
  have written : (u ++ [c]).isEmpty = false := by simp
  simp only [Normalizing.other, inside, body, tail, sum, buffer, written]

/-- The dots of a component, flushed at its end. -/
theorem inside_flushDots (b u : WString) (last : Option WChar) :
    (inside b u last).flushDots = (tidy u).map fun t =>
      { inside b u last with newBuffer := b ++ t, fixupDirectorySeparator := t.isEmpty } := by
  unfold Normalizing.flushDots tidy
  by_cases none : u.rdropWhile isDotOrSpace = []
  · rw [if_pos (by simp [inside, none]), if_pos none]
    have pending : u.rtakeWhile isDotOrSpace = u :=
      List.rtakeWhile_eq_self_iff.mpr (List.rdropWhile_eq_nil_iff.mp none)
    simp only [inside, none, pending]
    cases normalizeDots u false with
    | error e => rfl
    | ok dots =>
      by_cases empty : dots = []
      · simp [empty, Except.map, bind, Except.bind]
      · simp [empty, Except.map, bind, Except.bind]
  · rw [if_neg (by simpa [inside] using none), if_neg none]
    rfl

theorem inside_separator (b u : WString) (last : Option WChar) (c : WChar) (next : Option WChar) :
    (inside b u last).separator c next = (tidy u).map fun t =>
      inside (if t = [] then b else b ++ t ++ [backslash]) [] (some c) := by
  unfold Normalizing.separator
  rw [inside_flushDots]
  have first : (inside b u last).firstSegment = false := rfl
  cases tidy u with
  | error e => rfl
  | ok t =>
    by_cases empty : t = []
    · simp [empty, inside, Except.map, bind, Except.bind]
    · simp [empty, inside, Except.map, bind, Except.bind]

/-! ### All components -/

theorem assemble_cons (component : WString) {rest : List WString} (more : rest ≠ []) :
    assemble (component :: rest) =
      (if component = [] then [] else component ++ [backslash]) ++ assemble rest := by
  cases rest with
  | nil => exact absurd rfl more
  | cons next rest => rfl

theorem parts_ne_nil {text : WString} {parts : List WString}
    (mapped : (components text).mapM tidy = .ok parts) : parts ≠ [] := by
  rintro rfl
  have none := ((mapM_eq_ok tidy _ _).mp mapped).length_eq
  exact List.splitOnP_ne_nil _ _ (List.length_eq_zero_iff.mp none)

/-- Of the components of the text, the first one begins with what was read before. -/
theorem scan_inside (b u : WString) (last : Option WChar)
    (plain : ∀ c ∈ u, isSeparator c = false) (text : WString) :
    ((inside b u last).scan text).map Normalizing.newBuffer =
      ((components (u ++ text)).mapM tidy).map fun parts => b ++ assemble parts := by
  induction text generalizing b u last with
  | nil =>
    have single : components (u ++ []) = [u] := by
      rw [List.append_nil]
      exact List.splitOnP_eq_singleton plain
    rw [Normalizing.scan, inside_flushDots, single, List.mapM_cons, List.mapM_nil]
    cases tidy u with
    | error e => rfl
    | ok t => rfl
  | cons c text ih =>
    rw [Normalizing.scan]
    by_cases separates : isSeparator c = true
    · have cut : components (u ++ c :: text) = u :: components text :=
        List.splitOnP_append_cons_of_forall_mem plain c separates text
      rw [if_pos separates, inside_separator, cut, List.mapM_cons]
      cases tidy u with
      | error e => rfl
      | ok t =>
        have later := ih (if t = [] then b else b ++ t ++ [backslash]) [] (some c) (by simp)
        rw [List.nil_append] at later
        change Except.map Normalizing.newBuffer (Normalizing.scan _ text) = _
        rw [later]
        cases mapped : (components text).mapM tidy with
        | error e => rfl
        | ok parts =>
          have written : b ++ assemble (t :: parts) =
              (if t = [] then b else b ++ t ++ [backslash]) ++ assemble parts := by
            rw [assemble_cons t (parts_ne_nil mapped)]
            by_cases empty : t = [] <;> simp [empty]
          exact congrArg Except.ok written.symm
    · have more : ∀ d ∈ u ++ [c], isSeparator d = false := by
        intro d member
        rcases List.mem_append.mp member with old | new
        · exact plain d old
        · rw [List.mem_singleton.mp new]
          simpa using separates
      have same : u ++ c :: text = (u ++ [c]) ++ text := by rw [List.append_assoc]; rfl
      rw [if_neg separates, same]
      by_cases trailing : isDotOrSpace c = true
      · rw [if_pos (by simpa [isDotOrSpace] using trailing), inside_dotOrSpace b u last trailing]
        exact ih b (u ++ [c]) (some c) more
      · have first : (inside b u last).firstSegment = false := rfl
        rw [if_neg (by simpa [isDotOrSpace] using trailing), first, Bool.false_and,
          if_neg Bool.false_ne_true, inside_other b u last (by simpa using trailing)]
        exact ih b (u ++ [c]) (some c) more

/-! ### Below a folder -/

/-- What no created path contains behind its drive. -/
def isRefused (u : WChar) : Bool := u = asterisk || u = questionMark || u = colon

/-- The name of a file or of a folder as it stands on the disk: what makes a path of a name leaves
it as it is, so it is not `.` or `..` either. -/
def IsName (name : WString) : Prop :=
  name.getLast?.any (fun u => !isDotOrSpace u) = true ∧
    name.all (fun u => !isSeparator u && !isInvalidPathChar u && !isRefused u) = true

instance (name : WString) : Decidable (IsName name) := inferInstanceAs (Decidable (_ ∧ _))

theorem IsName.chars {name : WString} (proper : IsName name) {u : WChar} (member : u ∈ name) :
    isSeparator u = false ∧ isInvalidPathChar u = false ∧ isRefused u = false := by
  have all := List.all_eq_true.mp proper.2 u member
  simpa [and_assoc] using all

theorem IsName.ne_nil {name : WString} (proper : IsName name) : name ≠ [] := by
  rintro rfl
  exact absurd proper (by decide)

theorem IsName.ne_dots {name : WString} (proper : IsName name) :
    name ≠ [dot] ∧ name ≠ [dot, dot] := by
  constructor <;> rintro rfl <;> exact absurd proper (by decide)

theorem IsName.tidy_eq {name : WString} (proper : IsName name) : tidy name = .ok name := by
  have kept : name.rdropWhile isDotOrSpace = name := by
    rw [List.rdropWhile_eq_self_iff]
    intro some
    have last := proper.1
    rw [List.getLast?_eq_some_getLast some] at last
    simpa using last
  rw [tidy, kept, if_neg proper.ne_nil]

/-- A folder of a drive. -/
structure Folder where
  drive : WChar
  names : List WString
  letter : 65 ≤ drive ∧ drive ≤ 90 ∨ 97 ≤ drive ∧ drive ≤ 122
  proper : ∀ name ∈ names, IsName name

/-- Its path, which ends in a separator as that of `GetTempPath` does. -/
def Folder.path (folder : Folder) : WString :=
  folder.drive :: colon :: backslash :: folder.names.flatMap fun name => name ++ [backslash]

theorem Folder.letter_plain (folder : Folder) : isSeparator folder.drive = false ∧
    isInvalidPathChar folder.drive = false ∧ isDotOrSpace folder.drive = false ∧
    isRefused folder.drive = false := by
  have letter := folder.letter
  simp only [UInt16.le_iff_toNat_le] at letter
  change 65 ≤ _ ∧ _ ≤ 90 ∨ 97 ≤ _ ∧ _ ≤ 122 at letter
  have other (c : WChar) (outside : c.toNat < 65 ∨ 90 < c.toNat ∧ c.toNat < 97 ∨ 122 < c.toNat) :
      folder.drive ≠ c := by
    rintro rfl
    omega
  have printable : ¬ folder.drive < 32 := by
    rw [UInt16.lt_iff_toNat_lt]
    change ¬ _ < 32
    omega
  simp [isSeparator, isInvalidPathChar, isDotOrSpace, isRefused, printable,
    other backslash (by decide), other slash (by decide), other dot (by decide),
    other space (by decide), other asterisk (by decide), other questionMark (by decide),
    other colon (by decide), other 34, other 60, other 62, other 124]

theorem path_valid (folder : Folder) : folder.path.any isInvalidPathChar = false := by
  have letter := folder.letter_plain.2.1
  have names : (folder.names.flatMap fun name => name ++ [backslash]).any isInvalidPathChar
      = false := by
    rw [List.any_eq_false]
    intro u member
    obtain ⟨name, here, inside⟩ := List.mem_flatMap.mp member
    rcases List.mem_append.mp inside with char | last
    · simp [((folder.proper name here).chars char).2.1]
    · rw [List.mem_singleton.mp last]
      decide
  rw [Folder.path, List.any_cons, List.any_cons, List.any_cons, letter, names]
  decide

theorem path_getLast (folder : Folder) : folder.path.getLast? = some backslash := by
  unfold Folder.path
  rcases List.eq_nil_or_concat folder.names with none | ⟨names, name, some⟩
  · rw [none]
    rfl
  · rw [some]
    simp [List.getLast?_cons]

/-- A name is put behind the path of the folder, unless it is rooted. -/
theorem combine_path (folder : Folder) (name : WString) :
    combine folder.path name = if name.any isInvalidPathChar then .error .argument
      else if isPathRooted name then .ok name else .ok (folder.path ++ name) := by
  unfold combine
  rw [path_valid, Bool.false_or]
  split
  · rfl
  · by_cases empty : name = []
    · simp [empty, isPathRooted]
    · have something : folder.path ≠ [] := by simp [Folder.path]
      have ends : isSeparator backslash = true := by decide
      rw [if_neg empty, if_neg something, path_getLast]
      simp [ends]

theorem components_append {first : WString} (plain : ∀ u ∈ first, isSeparator u = false)
    (rest : WString) : components (first ++ backslash :: rest) = first :: components rest :=
  List.splitOnP_append_cons_of_forall_mem plain backslash (by decide) rest

theorem components_names {names : List WString} (proper : ∀ name ∈ names, IsName name)
    (rest : WString) :
    components ((names.flatMap fun name => name ++ [backslash]) ++ rest) =
      names ++ components rest := by
  induction names with
  | nil => rfl
  | cons name names ih =>
    rw [List.forall_mem_cons] at proper
    have plain : ∀ u ∈ name, isSeparator u = false :=
      fun u member => (proper.1.chars member).1
    rw [List.flatMap_cons, List.append_assoc, List.append_assoc, List.singleton_append,
      components_append plain, ih proper.2]
    rfl

theorem assemble_names {names parts : List WString} (proper : ∀ name ∈ names, IsName name)
    (some : parts ≠ []) : assemble (names ++ parts) =
      (names.flatMap fun name => name ++ [backslash]) ++ assemble parts := by
  induction names with
  | nil => rfl
  | cons name names ih =>
    rw [List.forall_mem_cons] at proper
    rw [List.cons_append, assemble_cons name (by simp [some]), if_neg proper.1.ne_nil, ih proper.2,
      List.flatMap_cons]
    simp only [List.append_assoc]

theorem tidy_names {names : List WString} (proper : ∀ name ∈ names, IsName name)
    (rest : List WString) :
    (names ++ rest).mapM tidy = (rest.mapM tidy).map fun parts => names ++ parts := by
  induction names with
  | nil =>
    rw [List.nil_append]
    cases rest.mapM tidy <;> rfl
  | cons name names ih =>
    rw [List.forall_mem_cons] at proper
    rw [List.cons_append, List.mapM_cons, proper.1.tidy_eq, ih proper.2]
    cases rest.mapM tidy <;> rfl

/-- The components a name adds to the path of a folder. -/
def added (name : WString) : Except Exn (List WString) :=
  (components (name.rdropWhile isTrimEndChar)).mapM tidy

/-- The scan of a drive and the separator behind it. -/
theorem scan_drive (folder : Folder) (text : WString) :
    (Normalizing.mk [] [] 0 false false true none).scan
        (folder.drive :: colon :: backslash :: text) =
      (inside [folder.drive, colon, backslash] [] (some backslash)).scan text := by
  obtain ⟨separator, -, dotOrSpace, refused⟩ := folder.letter_plain
  have letter : ¬ (folder.drive = dot ∨ folder.drive = space) := by
    simpa [isDotOrSpace] using dotOrSpace
  obtain ⟨-, noColon⟩ : (_ ∧ _) ∧ folder.drive ≠ colon := by simpa [isRefused] using refused
  have drive : ((Normalizing.mk [] [] 0 false false true none).other
      folder.drive).volumeSeparator =
        .ok ⟨[folder.drive, colon], [], 0, false, true, true, some colon⟩ := by
    have noSpace : folder.drive ≠ space := fun same => letter (.inr same)
    simp [Normalizing.other, Normalizing.volumeSeparator, noSpace]
  have behind : (Normalizing.mk [folder.drive, colon] [] 0 false true true (some colon)).separator
      backslash text.head? = .ok (inside [folder.drive, colon, backslash] [] (some backslash)) := by
    rfl
  rw [Normalizing.scan, if_neg (by simp [separator]), if_neg letter, if_neg (by simp [noColon]),
    Normalizing.scan, if_neg (by decide), if_neg (by decide), if_pos (by rfl), drive]
  change Normalizing.scan ⟨[folder.drive, colon], [], 0, false, true, true, some colon⟩
    (backslash :: text) = _
  rw [Normalizing.scan, if_pos (by decide), behind]
  rfl

theorem normalizePath_drive (folder : Folder) (text : WString) :
    normalizePath (folder.drive :: colon :: backslash :: text) =
      ((components text).mapM tidy).map fun parts =>
        folder.drive :: colon :: backslash :: assemble parts := by
  have read := scan_inside [folder.drive, colon, backslash] [] (some backslash) (by simp) text
  rw [List.nil_append, ← scan_drive] at read
  simp only [normalizePath, folder.letter_plain.1, Bool.false_eq_true, if_false]
  cases scanned : (Normalizing.mk [] [] 0 false false true none).scan
      (folder.drive :: colon :: backslash :: text) with
  | error e =>
    rw [scanned] at read
    cases mapped : (components text).mapM tidy with
    | error e' =>
      rw [mapped] at read
      cases read
      rfl
    | ok parts =>
      rw [mapped] at read
      cases read
  | ok s =>
    rw [scanned] at read
    cases mapped : (components text).mapM tidy with
    | error e' =>
      rw [mapped] at read
      cases read
    | ok parts =>
      rw [mapped] at read
      have buffer : s.newBuffer = folder.drive :: colon :: backslash :: assemble parts :=
        Except.ok.inj read
      change (if s.newBuffer = [] then _ else Except.ok s.newBuffer) = Except.ok _
      rw [buffer, if_neg (by simp)]

theorem normalizePath_path (folder : Folder) (text : WString) :
    normalizePath (folder.path ++ text) =
      ((components text).mapM tidy).map fun parts => folder.path ++ assemble parts := by
  have drive := normalizePath_drive folder
    ((folder.names.flatMap fun name => name ++ [backslash]) ++ text)
  rw [components_names folder.proper, tidy_names folder.proper] at drive
  change normalizePath (folder.drive :: colon :: backslash :: (_ ++ text)) = _
  rw [drive]
  cases mapped : (components text).mapM tidy with
  | error e => rfl
  | ok parts =>
    refine congrArg Except.ok ?_
    change _ :: _ :: _ :: assemble (folder.names ++ parts) = folder.path ++ assemble parts
    rw [assemble_names folder.proper (parts_ne_nil mapped)]
    rfl

/-- Only the name loses what `TrimEnd` takes away. -/
theorem trimmed_path (folder : Folder) (name : WString) :
    (folder.path ++ name).rdropWhile isTrimEndChar =
      folder.path ++ name.rdropWhile isTrimEndChar := by
  obtain ⟨init, cut⟩ : ∃ init, folder.path = init ++ [backslash] :=
    List.getLast?_eq_some_iff.mp (path_getLast folder)
  have kept : folder.path.rdropWhile isTrimEndChar = folder.path := by
    rw [cut]
    exact List.rdropWhile_concat_neg _ _ _ (by decide)
  induction name using List.reverseRecOn with
  | nil => simpa using kept
  | append_singleton name u ih =>
    rw [← List.append_assoc]
    by_cases trimmed : isTrimEndChar u = true
    · rw [List.rdropWhile_concat_pos _ _ _ trimmed, List.rdropWhile_concat_pos _ _ _ trimmed, ih]
    · rw [List.rdropWhile_concat_neg _ _ _ trimmed, List.rdropWhile_concat_neg _ _ _ trimmed,
        List.append_assoc]

theorem normalizeFullPath_path (folder : Folder) {name : WString}
    (valid : name.any isInvalidPathChar = false) :
    normalizeFullPath (folder.path ++ name) =
      (added name).map fun parts => folder.path ++ assemble parts := by
  have legal : (name.rdropWhile isTrimEndChar).any isInvalidPathChar = false := by
    rw [List.any_eq_false] at valid ⊢
    exact fun u member => valid u ((List.rdropWhile_prefix _ _).subset member)
  unfold normalizeFullPath
  simp only [trimmed_path, List.any_append, path_valid, legal, Bool.or_self, Bool.false_eq_true,
    if_false]
  exact normalizePath_path folder _

/-- Nothing behind the drive of a folder is refused. -/
theorem path_drop (folder : Folder) {u : WChar} (member : u ∈ folder.path.drop 2) :
    isRefused u = false := by
  rw [Folder.path, List.drop_succ_cons, List.drop_succ_cons, List.drop_zero, List.mem_cons,
    List.mem_flatMap] at member
  rcases member with rfl | ⟨name, here, inside⟩
  · decide
  · rcases List.mem_append.mp inside with char | last
    · exact ((folder.proper name here).chars char).2.2
    · rw [List.mem_singleton.mp last]
      decide

/-- `File.Create` refuses a path below a folder for what the name adds to it. -/
theorem refused_path (folder : Folder) (text : WString) :
    (isIllegalShare (folder.path ++ text) ||
        (folder.path ++ text).any (fun u => u = asterisk || u = questionMark) ||
        ((folder.path ++ text).drop 2).contains colon) = text.any isRefused := by
  have share : isIllegalShare (folder.path ++ text) = false := by
    simp [isIllegalShare, Folder.path, colon, backslash]
  have cut : folder.path = folder.drive :: colon :: folder.path.drop 2 := rfl
  have letter := folder.letter_plain.2.2.2
  rw [share, Bool.false_or, Bool.eq_iff_iff, Bool.or_eq_true, List.any_eq_true, List.any_eq_true,
    List.contains_iff_mem]
  constructor
  · rintro (⟨u, member, wild⟩ | member)
    · have refused : isRefused u = true := by
        rw [isRefused, wild, Bool.true_or]
      rw [cut, List.cons_append, List.cons_append, List.mem_cons, List.mem_cons,
        List.mem_append] at member
      rcases member with rfl | rfl | below | added
      · simp [letter] at refused
      · exact absurd wild (by decide)
      · simp [path_drop folder below] at refused
      · exact ⟨u, added, refused⟩
    · have refused : isRefused colon = true := by decide
      rw [cut] at member
      rcases List.mem_append.mp (member : colon ∈ folder.path.drop 2 ++ text) with below | added
      · simp [path_drop folder below] at refused
      · exact ⟨colon, added, refused⟩
  · rintro ⟨u, member, refused⟩
    rw [isRefused, Bool.or_eq_true, decide_eq_true_eq] at refused
    rcases refused with wild | rfl
    · exact .inl ⟨u, List.mem_append_right _ member, wild⟩
    · exact .inr (List.mem_append_right (folder.path.drop 2) member)

/-- What `File.Create` opens for a name put behind the path of a folder. -/
theorem createdPath_path (folder : Folder) {name : WString}
    (valid : name.any isInvalidPathChar = false) (full : WString) :
    createdPath (folder.path ++ name) = .ok full ↔ ∃ parts, added name = .ok parts ∧
      (assemble parts).any isRefused = false ∧ full = folder.path ++ assemble parts := by
  unfold createdPath
  rw [normalizeFullPath_path folder valid]
  cases mapped : added name with
  | error e => simp [Except.map, bind, Except.bind]
  | ok parts =>
    have refused := refused_path folder (assemble parts)
    simp only [Except.map, bind, Except.bind, Except.ok.injEq, exists_eq_left']
    rw [← refused]
    split
    · next early =>
      rw [early, Bool.true_or]
      simp
    · next legal =>
      rw [Bool.not_eq_true] at legal
      rw [legal, Bool.false_or]
      split
      · next late =>
        rw [late]
        simp
      · next clean =>
        rw [Bool.not_eq_true] at clean
        rw [clean]
        simp only [Except.ok.injEq, true_and]
        exact eq_comm

/-! ### The components of the created path -/

theorem components_plain {text part : WString} (member : part ∈ components text) :
    ∀ u ∈ part, isSeparator u = false := by
  induction text generalizing part with
  | nil =>
    rw [components, List.splitOnP_nil, List.mem_singleton] at member
    simp [member]
  | cons c text ih =>
    unfold components at member ih
    rw [List.splitOnP_cons_eq_if_modifyHead] at member
    split at member
    · rcases List.mem_cons.mp member with rfl | later
      · simp
      · exact ih later
    · next other =>
      cases cut : text.splitOnP isSeparator with
      | nil => exact absurd cut (List.splitOnP_ne_nil _ _)
      | cons first rest =>
        rw [cut, List.modifyHead_cons, List.mem_cons] at member
        rw [cut] at ih
        rcases member with rfl | later
        · rw [List.forall_mem_cons]
          exact ⟨by simpa using other, ih List.mem_cons_self⟩
        · exact ih (List.mem_cons_of_mem _ later)

theorem tidy_plain {component part : WString} (plain : ∀ u ∈ component, isSeparator u = false)
    (tidied : tidy component = .ok part) : ∀ u ∈ part, isSeparator u = false := by
  unfold tidy at tidied
  split at tidied
  · have dots : part = [] ∨ part = [dot] ∨ part = [dot, dot] := by
      unfold normalizeDots at tidied
      simp only [Bool.false_and, Bool.false_eq_true, if_false] at tidied
      split at tidied
      · cases tidied
        exact .inl rfl
      · split at tidied
        · cases tidied
        · split at tidied
          · cases tidied
            exact .inr (.inl rfl)
          · split at tidied
            · cases tidied
              exact .inr (.inr rfl)
            · cases tidied
    rcases dots with rfl | rfl | rfl <;> simp [isSeparator, dot, backslash, slash]
  · cases tidied
    exact fun u member => plain u ((List.rdropWhile_prefix _ _).subset member)

theorem added_plain {name : WString} {parts : List WString} (adds : added name = .ok parts)
    {part : WString} (member : part ∈ parts) : ∀ u ∈ part, isSeparator u = false := by
  obtain ⟨component, here, tidied⟩ := exists_of_mem_mapM adds member
  exact tidy_plain (components_plain here) tidied

/-- Between two separators of the created path there is something. -/
theorem components_assemble {init : List WString} {last : WString}
    (plain : ∀ part ∈ init ++ [last], ∀ u ∈ part, isSeparator u = false) :
    components (assemble (init ++ [last])) = init.filter (· ≠ []) ++ [last] := by
  induction init with
  | nil => exact List.splitOnP_eq_singleton (plain last (by simp))
  | cons part init ih =>
    rw [List.cons_append, List.forall_mem_cons] at plain
    rw [List.cons_append, assemble_cons part (by simp)]
    by_cases empty : part = []
    · simpa [empty] using ih plain.2
    · rw [if_neg empty, List.append_assoc, List.singleton_append, components_append plain.1,
        ih plain.2, List.filter_cons_of_pos (by simpa using empty)]
      rfl

end GuestAgent.Guarantees.CreatedPaths
