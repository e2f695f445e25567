import GuestAgent.Guarantees.CreatedPaths
import GuestAgent.Guarantees.FileTransfer

/-!
Where the downloaded file comes to lie.

`isValid` asks for a name without a directory, but an answer of `GetDirectoryName` that is null or
empty does not make one: roots have none, and `..` is a name to it. And the name it asks about is
trimmed, the one that is combined with the temporary folder is not: behind a blank the rest of a
root is a way up.
-/
namespace GuestAgent.Guarantees.TempFolder
open Library Library.Retry Source FileTransfer CreatedPaths

/-- Where components lead from the folder below the drive that `names` leads to. -/
def resolve (names : List WString) : List WString → List WString
  | [] => names
  | c :: rest =>
    if c = [] ∨ c = [dot] then resolve names rest
    else if c = [dot, dot] then resolve names.dropLast rest
    else resolve (names ++ [c]) rest

/-- The same for components that never lead out of the folder one starts in. -/
def within (names : List WString) : List WString → Option (List WString)
  | [] => some names
  | c :: rest =>
    if c = [] ∨ c = [dot] then within names rest
    else if c = [dot, dot] then if names = [] then none else within names.dropLast rest
    else within (names ++ [c]) rest

/-- `path` is that of a file in the folder itself. -/
def FileIn (folder : Folder) (path : WString) : Prop :=
  ∃ sep rest init name, isSeparator sep = true ∧ path = folder.drive :: colon :: sep :: rest ∧
    components rest = init ++ [name] ∧ IsName name ∧ resolve [] init = folder.names

/-- The framework's functions, with `temp` as the path of the temporary folder. -/
def framework (compareTo : WString → WString → Int) (temp : WString) : Naming where
  compareTo := compareTo
  trim := trim
  getDirectoryName := getDirectoryName
  inTempPath name :=
    match combine temp name with
    | .ok path => path
    | .error _ => []
  fullPath path :=
    match createdPath path with
    | .ok full => full
    | .error _ => []

/-- The path of the file that is opened for a name. -/
def opened (temp name : WString) : Except Exn WString := do createdPath (← combine temp name)

/-- `Path.Combine` and `File.Create` raise what they raise for the temporary folder and the name
received. -/
structure RaisesFor (io : Io) (temp : WString) (res : ResponseGetWork) : Prop where
  combining : ∀ name e, res.fileName = some name → combine temp name = .error e →
    io.raises .combine = some e
  creating : ∀ name path e, res.fileName = some name → combine temp name = .ok path →
    createdPath path = .error e → io.raises .create = some e

/-- Whatever folder is the temporary one, any file `AcquireWork` creates is in it. -/
def StaysInTemp (compareTo : WString → WString → Int) (res : ResponseGetWork) : Prop :=
  ∀ (temp : Folder) (io : Io) (fuel : Nat) (s₀ : NetworkStream) (result : Except Exn (Option Job))
    (s : Session), RaisesFor io temp.path res →
    acquireWork (framework compareTo temp.path) io fuel res ⟨s₀, []⟩ = some (result, s) →
    ∀ path, .createFile path ∈ s.log → FileIn temp path

/-- `isValid` accepts the response, and there is work. -/
def Accepted (compareTo : WString → WString → Int) (res : ResponseGetWork) : Prop :=
  res.isValid (framework compareTo []) = .ok none ∧ res.workId ≠ none

/-- The framework opens a file for the name: on its own if it is rooted, else for what it adds to
the path of a folder. -/
def Openable (name : WString) : Prop :=
  name.any isInvalidPathChar = false ∧
    if isPathRooted name then ∃ full, createdPath name = .ok full
    else ∃ parts, added name = .ok parts ∧ (assemble parts).any isRefused = false

/-- Not rooted, and with `.` and `..` resolved nothing but the name of a file. -/
def PlainName (name : WString) : Prop :=
  isPathRooted name = false ∧ ∃ init last, added name = .ok (init ++ [last]) ∧ IsName last ∧
    within [] init = some []

/-- A file name on its own is plain, if the framework trims nothing at its end. -/
theorem plainName_of_isName {name : WString} (file : IsName name)
    (kept : name.rdropWhile isTrimEndChar = name) : PlainName name := by
  have plain : ∀ u ∈ name, isSeparator u = false := fun u member => (file.chars member).1
  have single : components name = [name] := List.splitOnP_eq_singleton plain
  have adds : added name = .ok ([] ++ [name]) := by
    rw [added, kept, single, List.mapM_cons, file.tidy_eq, List.mapM_nil]
    rfl
  refine ⟨?_, [], name, adds, file, rfl⟩
  cases name with
  | nil => rfl
  | cons u rest =>
    have other : rest.head? ≠ some colon := by
      intro drive
      have inside : colon ∈ u :: rest := List.mem_cons_of_mem u (List.mem_of_head? drive)
      exact absurd (file.chars inside).2.2 (by decide)
    simp [isPathRooted, plain u List.mem_cons_self, other]

/-! ### What is created -/

/-- A transfer leaves the log it found, and creates nothing more. -/
def CreatesNoMore (s s' : Session) : Prop :=
  ∃ moved, s'.log = s.log ++ moved ∧ ∀ path, .createFile path ∉ moved

theorem CreatesNoMore.refl (s : Session) : CreatesNoMore s s := ⟨[], by simp, by simp⟩

theorem CreatesNoMore.trans {s s' s'' : Session} (first : CreatesNoMore s s')
    (second : CreatesNoMore s' s'') : CreatesNoMore s s'' := by
  obtain ⟨before, log, none⟩ := first
  obtain ⟨after, log', none'⟩ := second
  refine ⟨before ++ after, by rw [log', log, List.append_assoc], fun path member => ?_⟩
  rcases List.mem_append.mp member with old | new
  · exact none path old
  · exact none' path new

theorem CreatesNoMore.act {s s' : Session} (so : CreatesNoMore s s') {a : Action}
    (other : ∀ path, a ≠ .createFile path) : CreatesNoMore s (s'.act a) := by
  refine so.trans ⟨[a], rfl, fun path member => ?_⟩
  exact other path (List.mem_singleton.mp member).symm

theorem recvFile_createsNoMore {io : Io} {fuel : Nat} {dim : Int} {s s' : Session}
    {thrown : Option Exn} (ended : recvFile io fuel dim s = some (thrown, s')) :
    CreatesNoMore s s' := by
  refine retry_post (fun a : Receiving => CreatesNoMore s a.session)
    (fun b : Option Exn × Session => CreatesNoMore s b.2) ?_ ?_ (CreatesNoMore.refl s) ended
  · intro k a b so next
    obtain ⟨-, r, -, -, -, -, -, logged⟩ := recvFileRound_inl next
    exact so.trans ⟨_, logged, by simp⟩
  · intro k a b so last
    rcases recvFileRound_inr last with ⟨-, -, same⟩ | ⟨-, -, moved, logged, reads⟩
    · rw [same]
      exact so
    · refine so.trans ⟨moved, logged, fun path member => ?_⟩
      obtain ⟨data, same⟩ := reads _ member
      cases same

theorem transferFile_createsNoMore {io : Io} {fuel : Nat} {fileDim : Int} {s s' : Session}
    {thrown : Option Exn} (ended : transferFile io fuel fileDim s = some (thrown, s')) :
    CreatesNoMore s s' := by
  unfold transferFile at ended
  split at ended
  · cases ended
    exact CreatesNoMore.refl s
  · have sized : CreatesNoMore s (s.act (.setLength fileDim)) :=
      (CreatesNoMore.refl s).act (by simp)
    split at ended
    · cases ended
      exact sized
    · exact (sized.act (a := .sendMessage requestGetWorkFile) (by simp)).trans
        (recvFile_createsNoMore ended)

theorem startWork_createsNoMore (io : Io) (workId : Int) (path : WString) (s : Session) :
    CreatesNoMore s (startWork io workId path s).2 := by
  unfold startWork
  have same := CreatesNoMore.refl s
  split
  · exact same
  · have closed : CreatesNoMore s (s.act .close) := same.act (by simp)
    split
    · exact closed
    · simp only
      split <;> exact closed.act (by simp)

theorem dropFile_createsNoMore (io : Io) (file : WString) (e : Exn) (s : Session) :
    CreatesNoMore s (dropFile io file e s).2 := by
  obtain ⟨moved, log, short⟩ := dropFile_log io file e s
  refine ⟨moved, log, fun path member => ?_⟩
  simpa using short.subset member

theorem behindTransfer_createsNoMore (naming : Naming) (io : Io) (workId : Int) (path : WString)
    (thrown : Option Exn) (s : Session) :
    CreatesNoMore s (behindTransfer naming io workId path (thrown, s)).2 := by
  cases thrown with
  | none => exact startWork_createsNoMore io workId path s
  | some e =>
    rw [behindTransfer]
    split
    · exact dropFile_createsNoMore io (naming.fullPath path) e s
    · exact CreatesNoMore.refl s

/-- `AcquireWork` creates one file at most, after an accepted response with work. -/
theorem created_of_acquireWork {naming : Naming} {io : Io} {fuel : Nat} {res : ResponseGetWork}
    {ns : NetworkStream} {result : Except Exn (Option Job)} {s : Session} {path : WString}
    (ended : acquireWork naming io fuel res ⟨ns, []⟩ = some (result, s))
    (created : .createFile path ∈ s.log) :
    ∃ workId name, Creates naming io res workId name ∧
      path = naming.fullPath (naming.inTempPath name) := by
  rcases acquireWork_cases naming io res ⟨ns, []⟩ with ⟨workId, name, creates⟩ | ⟨-, result', stops⟩
  · refine ⟨workId, name, creates, ?_⟩
    rw [acquireWork_eq creates, Option.map_eq_some_iff] at ended
    obtain ⟨⟨thrown, s'⟩, transferred, ended⟩ := ended
    have later := behindTransfer_createsNoMore naming io workId (naming.inTempPath name) thrown s'
    rw [ended] at later
    -- what comes after the creation creates nothing more
    obtain ⟨moved, log, none⟩ := (transferFile_createsNoMore transferred).trans later
    rw [log] at created
    rcases List.mem_append.mp created with first | more
    · simpa [Session.act] using first
    · exact absurd more (none path)
  · rw [stops fuel] at ended
    cases ended
    cases created

/-- A run that breaks off right after the creation. -/
theorem creates (naming : Naming) {res : ResponseGetWork} (valid : res.isValid naming = .ok none)
    (work : res.workId ≠ none) {name : WString} (named : res.fileName = some name) (io : Io)
    (broken : ∀ p, io.raises p = if p = .setLength then some .argument else none)
    (ns : NetworkStream) :
    ∃ result s, acquireWork naming io 0 res ⟨ns, []⟩ = some (result, s) ∧
      .createFile (naming.fullPath (naming.inTempPath name)) ∈ s.log := by
  obtain ⟨workId, worked⟩ := Option.ne_none_iff_exists'.mp work
  refine ⟨.error .argument, ⟨ns, [.createFile (naming.fullPath (naming.inTempPath name))]⟩, ?_,
    by simp⟩
  have creates : Creates naming io res workId name :=
    ⟨valid, worked, named, by simp [broken], by simp [broken]⟩
  rw [acquireWork_eq creates]
  simp [transferFile, broken, behindTransfer, Session.act]

/-- The framework names the file that is opened for a name. -/
theorem fullPath_of_opened {compareTo : WString → WString → Int} {temp name full : WString}
    (opens : opened temp name = .ok full) :
    (framework compareTo temp).fullPath ((framework compareTo temp).inTempPath name) = full := by
  obtain ⟨path, combined, created⟩ := (bind_eq_ok _ _ _).mp opens
  simp [framework, combined, created]

/-- The files of all runs are in the folder, exactly if the one that is opened for the name is. -/
theorem staysInTemp_iff (compareTo : WString → WString → Int) (res : ResponseGetWork) :
    StaysInTemp compareTo res ↔ (Accepted compareTo res → ∀ name, res.fileName = some name →
      ∀ (temp : Folder) full, opened temp.path name = .ok full → FileIn temp full) := by
  constructor
  · rintro stays ⟨valid, work⟩ name named temp full opens
    obtain ⟨path, combined, created⟩ := (bind_eq_ok _ _ _).mp opens
    have raisesFor : RaisesFor ⟨fun p => if p = .setLength then some .argument else none,
        fun _ => 0⟩ temp.path res := by
      constructor
      · intro name' e named' failed
        rw [named, Option.some.injEq] at named'
        rw [← named', combined] at failed
        cases failed
      · intro name' path' e named' combined' failed
        rw [named, Option.some.injEq] at named'
        rw [← named', combined, Except.ok.injEq] at combined'
        rw [← combined', created] at failed
        cases failed
    obtain ⟨result, s, ended, logged⟩ := creates (framework compareTo temp.path) valid
      work named ⟨_, fun _ => 0⟩ (fun _ => rfl) ⟨0, []⟩
    rw [fullPath_of_opened opens] at logged
    exact stays temp _ 0 _ result s raisesFor ended full logged
  · intro all temp io fuel s₀ result s raisesFor ended path logged
    obtain ⟨workId, name, creates, rfl⟩ := created_of_acquireWork ended logged
    have accepted : Accepted compareTo res := ⟨creates.valid, by simp [creates.work]⟩
    cases opens : opened temp.path name with
    | error e =>
      rcases (bind_eq_error _ _ _).mp opens with combined | ⟨path, combined, created⟩
      · have quiet := creates.combine
        rw [raisesFor.combining name e creates.named combined] at quiet
        cases quiet
      · have quiet := creates.create
        rw [raisesFor.creating name path e creates.named combined created] at quiet
        cases quiet
    | ok full =>
      rw [fullPath_of_opened opens]
      exact all accepted name creates.named temp full opens

/-! ### Paths below a folder -/

theorem resolve_append (names first rest : List WString) :
    resolve names (first ++ rest) = resolve (resolve names first) rest := by
  induction first generalizing names with
  | nil => rfl
  | cons c first ih =>
    rw [List.cons_append, resolve, resolve]
    split
    · exact ih names
    · split
      · exact ih names.dropLast
      · exact ih (names ++ [c])

theorem resolve_names (names : List WString) {more : List WString}
    (proper : ∀ name ∈ more, IsName name) : resolve names more = names ++ more := by
  induction more generalizing names with
  | nil => rw [resolve, List.append_nil]
  | cons name more ih =>
    rw [List.forall_mem_cons] at proper
    obtain ⟨here, above⟩ := proper.1.ne_dots
    rw [resolve, if_neg (by simp [proper.1.ne_nil, here]), if_neg above, ih _ proper.2,
      List.append_assoc]
    rfl

/-- A path below that of the folder. -/
theorem fileIn_append_iff (folder : Folder) (name : WString) :
    FileIn folder (folder.path ++ name) ↔ ∃ init last, components name = init ++ [last] ∧
      IsName last ∧ resolve folder.names init = folder.names := by
  have split := components_names folder.proper name
  have start : resolve [] folder.names = folder.names := resolve_names [] folder.proper
  constructor
  · rintro ⟨sep, rest, init, last, -, same, parts, file, leads⟩
    have below : backslash = sep ∧
        (folder.names.flatMap fun name => name ++ [backslash]) ++ name = rest := by
      simpa [Folder.path] using same
    obtain ⟨before, final, cut⟩ :=
      (List.eq_nil_or_concat (components name)).resolve_left (List.splitOnP_ne_nil _ _)
    rw [← below.2, split, cut, List.concat_eq_append, ← List.append_assoc] at parts
    obtain ⟨rfl, final_last⟩ := List.append_inj' parts rfl
    obtain rfl : final = last := by simpa using final_last
    rw [resolve_append, start] at leads
    exact ⟨before, final, by rw [cut, List.concat_eq_append], file, leads⟩
  · rintro ⟨init, last, cut, file, leads⟩
    refine ⟨backslash, (folder.names.flatMap fun name => name ++ [backslash]) ++ name,
      folder.names ++ init, last, by decide, rfl, ?_, file, ?_⟩
    · rw [split, cut, List.append_assoc]
    · rw [resolve_append, start, leads]

/-! ### Over all folders -/

/-- What never leads out leads to the same place below any folder. -/
theorem resolve_of_within (names : List WString) {inner out init : List WString}
    (inside : within inner init = some out) : resolve (names ++ inner) init = names ++ out := by
  induction init generalizing inner with
  | nil =>
    cases inside
    rfl
  | cons c init ih =>
    rw [within] at inside
    rw [resolve]
    split at inside
    · next empty => rw [if_pos empty, ih inside]
    · next some =>
      rw [if_neg some]
      split at inside
      · next above =>
        rw [if_pos above]
        split at inside
        · cases inside
        · next below => rw [← ih inside, List.dropLast_append_of_ne_nil below]
      · next named => rw [if_neg named, List.append_assoc, ih inside]

/-- What disappeared from a path leads nowhere. -/
theorem within_filter (names init : List WString) :
    within names (init.filter (· ≠ [])) = within names init := by
  induction init generalizing names with
  | nil => rfl
  | cons c init ih =>
    by_cases empty : c = []
    · rw [List.filter_cons_of_neg (by simpa using empty), within, if_pos (.inl empty), ih]
    · rw [List.filter_cons_of_pos (by simpa using empty), within, within]
      simp only [ih]

theorem mem_of_mem_resolve {inner init : List WString} {name : WString}
    (member : name ∈ resolve inner init) : name ∈ inner ∨ name ∈ init := by
  induction init generalizing inner with
  | nil => exact .inl member
  | cons c init ih =>
    rw [List.mem_cons]
    rw [resolve] at member
    split at member
    · exact (ih member).imp_right .inr
    · split at member
      · exact (ih member).imp List.mem_of_mem_dropLast .inr
      · rcases ih member with old | later
        · rw [List.mem_append, List.mem_singleton] at old
          exact old.imp_right .inl
        · exact .inr (.inr later)

/-- A folder with a name that is used nowhere is only reached again by never leaving it. -/
theorem within_of_resolve {fresh : WString} {inner init : List WString} (unused : fresh ∉ init)
    (leads : resolve (fresh :: inner) init = [fresh]) : within inner init = some [] := by
  induction init generalizing inner with
  | nil =>
    obtain rfl : inner = [] := by simpa [resolve] using leads
    rfl
  | cons c init ih =>
    rw [List.mem_cons, not_or] at unused
    rw [resolve] at leads
    rw [within]
    split
    · next empty =>
      rw [if_pos empty] at leads
      exact ih unused.2 leads
    · next some =>
      rw [if_neg some] at leads
      split
      · next above =>
        rw [if_pos above] at leads
        split
        · next outside =>
          -- outside the folder its name would have to come from the components
          have reached : fresh ∈ resolve [] init := by
            rw [outside, List.dropLast_singleton] at leads
            rw [leads]
            exact List.mem_singleton_self fresh
          exact absurd ((mem_of_mem_resolve reached).resolve_left List.not_mem_nil) unused.2
        · next below =>
          rw [List.dropLast_cons_of_ne_nil below] at leads
          exact ih unused.2 leads
      · next named =>
        rw [if_neg named, List.cons_append] at leads
        exact ih unused.2 leads

/-- The name of a folder, longer than what is not to contain it. -/
def freshName (used : List WString) : WString := List.replicate (used.flatten.length + 1) 97

theorem freshName_proper (used : List WString) : IsName (freshName used) := by
  constructor
  · rw [freshName, List.getLast?_replicate, if_neg (Nat.succ_ne_zero _)]
    decide
  · rw [List.all_eq_true]
    intro u member
    rw [List.eq_of_mem_replicate member]
    decide

theorem freshName_unused (used : List WString) : freshName used ∉ used := by
  intro member
  have short := (List.sublist_flatten_of_mem member).length_le
  rw [freshName, List.length_replicate] at short
  omega

/-- A folder with one name below the drive `C:`. -/
def folderOf (name : WString) (proper : IsName name) : Folder where
  drive := 67
  names := [name]
  letter := by decide
  proper := by simpa using proper

theorem rooted_elsewhere (path : WString) : ∃ temp : Folder, ¬ FileIn temp path := by
  have proper : IsName [97] := by decide
  by_cases here : path.head? = some 67
  · refine ⟨⟨68, [[97]], by decide, by simpa using proper⟩, ?_⟩
    rintro ⟨sep, rest, _, _, -, rfl, -⟩
    simp at here
  · refine ⟨folderOf [97] proper, ?_⟩
    rintro ⟨sep, rest, _, _, -, rfl, -⟩
    simp [folderOf] at here

/-- What is opened for a name without a root. -/
theorem opened_relative (temp : Folder) {name : WString} (relative : isPathRooted name = false)
    (full : WString) : opened temp.path name = .ok full ↔ name.any isInvalidPathChar = false ∧
      ∃ parts, added name = .ok parts ∧ (assemble parts).any isRefused = false ∧
        full = temp.path ++ assemble parts := by
  unfold opened
  rw [bind_eq_ok, combine_path, relative, if_neg Bool.false_ne_true]
  cases valid : name.any isInvalidPathChar with
  | true => simp
  | false => simp [createdPath_path temp valid]

/-- What is opened for a name is a file of every folder, exactly for a plain name. -/
theorem fileIn_iff (name : WString) :
    (∀ (temp : Folder) full, opened temp.path name = .ok full → FileIn temp full) ↔
      (Openable name → PlainName name) := by
  constructor
  · rintro all ⟨valid, opens⟩
    cases rooted : isPathRooted name with
    | true =>
      rw [rooted, if_pos rfl] at opens
      obtain ⟨full, created⟩ := opens
      obtain ⟨temp, outside⟩ := rooted_elsewhere full
      refine absurd (all temp full ?_) outside
      simp [opened, combine_path, valid, rooted, bind_eq_ok, created]
    | false =>
      rw [rooted, if_neg Bool.false_ne_true] at opens
      obtain ⟨parts, adds, clean⟩ := opens
      have inside (temp : Folder) : FileIn temp (temp.path ++ assemble parts) :=
        all temp _ ((opened_relative temp rooted _).mpr ⟨valid, parts, adds, clean, rfl⟩)
      obtain ⟨init, last, cut⟩ := (List.eq_nil_or_concat parts).resolve_left (parts_ne_nil adds)
      rw [List.concat_eq_append] at cut
      subst cut
      obtain ⟨init', last', cut', file, leads⟩ := (fileIn_append_iff _ _).mp
        (inside (folderOf (freshName init) (freshName_proper init)))
      rw [components_assemble fun part member => added_plain adds member] at cut'
      obtain ⟨rfl, same⟩ := List.append_inj' cut' rfl
      obtain rfl : last = last' := by simpa using same
      have unused : freshName init ∉ init.filter (· ≠ []) :=
        fun member => freshName_unused init (List.mem_of_mem_filter member)
      exact ⟨rooted, init, last, adds, file, by
        rw [← within_filter]
        exact within_of_resolve unused leads⟩
  · intro plain temp full opens
    cases rooted : isPathRooted name with
    | true =>
      obtain ⟨path, combined, created⟩ := (bind_eq_ok _ _ _).mp opens
      rw [combine_path, rooted, if_pos rfl] at combined
      split at combined
      · cases combined
      · next valid =>
        cases combined
        have openable : Openable name := by
          refine ⟨by simpa using valid, ?_⟩
          rw [rooted, if_pos rfl]
          exact ⟨full, created⟩
        rw [(plain openable).1] at rooted
        cases rooted
    | false =>
      obtain ⟨valid, parts, adds, clean, rfl⟩ := (opened_relative temp rooted full).mp opens
      have openable : Openable name := by
        refine ⟨valid, ?_⟩
        rw [rooted, if_neg Bool.false_ne_true]
        exact ⟨parts, adds, clean⟩
      obtain ⟨-, init, last, adds', file, inside⟩ := plain openable
      obtain rfl : parts = init ++ [last] := Except.ok.inj (adds.symm.trans adds')
      refine (fileIn_append_iff temp _).mpr ⟨init.filter (· ≠ []), last,
        components_assemble fun part member => added_plain adds member, file, ?_⟩
      rw [← within_filter] at inside
      simpa using resolve_of_within temp.names inside

/-- An accepted file comes to lie in the folder itself, exactly if its name is plain. -/
theorem stays_iff (compareTo : WString → WString → Int) (res : ResponseGetWork) :
    StaysInTemp compareTo res ↔ (Accepted compareTo res → ∀ name, res.fileName = some name →
      Openable name → PlainName name) := by
  rw [staysInTemp_iff]
  refine forall_congr' fun _ => forall₂_congr fun name _ => ?_
  exact fileIn_iff name

/-- The file would be created in the folder above. -/
theorem parent_accepted :
    ¬ ∀ compareTo res, Accepted compareTo res → StaysInTemp compareTo res := by
  intro all
  have accepted : Accepted (fun _ _ => 0)
      ⟨wide "GET_WORK_RESP", some 7, some (wide " \\\\..\\x"), 5⟩ := ⟨by decide, by simp⟩
  have openable : Openable (wide " \\\\..\\x") := by
    refine ⟨by decide, ?_⟩
    rw [if_neg (by decide)]
    exact ⟨[[], [], wide "..", wide "x"], by decide, by decide⟩
  have inside := (staysInTemp_iff _ _).mp (all _ _ accepted) accepted _ rfl
  obtain ⟨-, init, last, adds, -, inside⟩ := (fileIn_iff _).mp inside openable
  have parts : added (wide " \\\\..\\x") = .ok ([[], [], wide ".."] ++ [wide "x"]) := by decide
  obtain ⟨rfl, -⟩ := List.append_inj' (Except.ok.inj (parts.symm.trans adds)) rfl
  exact absurd inside (by decide)

end GuestAgent.Guarantees.TempFolder
