import GuestAgent.Library.Runs
import GuestAgent.Guarantees.EventArrival
import GuestAgent.Guarantees.ServedThreads
import GuestAgent.Guarantees.WriteCoverage

/-!
The first record of a file shows it as it was before the monitored programs changed it.

Create and open hooks wait for the answer before the real call, and by then the
file has a record; but `MyNtDeleteFile` deletes first. So the property holds of a path in
every run in which a call takes effect there only once the path is recorded, or is a create or
open that asks for write access under a full name, and the event gives this name as it arrives.
The invariant follows one event from the queue of its hook through the server to the record;
renames are let run as long as their events name other paths.
-/
namespace GuestAgent.Guarantees.Baseline
open Library Library.Runs Source Source.FileTable WriteCoverage EventArrival ServedThreads

/-- The path has a record already. -/
def Recorded (files : FileTable) (path : WString) : Prop :=
  ∃ r, files.ref? path = some r ∧ (files.objects r).info ≠ []

/-- A create or open of the path that asks for write access and gives the full, terminated name,
with no unit in it that is lost on the way. -/
def NamedInFull (path : WString) : NtCall → Prop
  | .openFile _ p mask oa _ => Opens p oa path ∧ isRequestingWriteAccess p mask = true ∧
      oa.rootDirectory = none ∧ oa.objectName.behind = [] ∧ Plain path
  | .deleteFile .. | .renameFile .. => False

/-- A rename names other paths. -/
def Elsewhere (path : WString) : Handler → Prop
  | .notifyFileRename oPath nPath => path ≠ oPath ∧ path ≠ purge oPath ∧ path ≠ purge nPath
  | _ => True

/-- The event, as it arrives, is no rename of the path. -/
def Spares (path : WString) (e : Event) : Prop := Elsewhere path ((arrived e).handler .default)

variable {T S : Type}

/-- Calls that take effect on the path are announced in time, or it is recorded already. -/
def Announced (path : WString) (s : System T S) : Label T S → Prop
  | .real t (some changes) => ∀ call called events waiting,
      s.clients t = .sending call called events waiting →
      ((∃ content, (path, content) ∈ changes) → Recorded s.files path ∨ NamedInFull path call) ∧
      ∀ e ∈ call.after true, Spares path e
  | _ => True

/-- What has been read so far fits a file that holds `content`. -/
def Agrees (path : WString) (content : Option Content) : Reading → Prop
  | .start => True
  | .named name => name = path
  | .present name => name = path ∧ content.isSome = true
  | .sized name size => name = path ∧ ∃ c, content = some c ∧ size = c.size
  | .hashed name size hashes =>
    name = path ∧ ∃ c, content = some c ∧ size = c.size ∧ hashes = c.hashes
  | .done x => x = describe path content

/-- The entry of the path has its object under that path alone, and its first record shows the
disk `before`. -/
structure FilesOk (before : Disk) (path : WString) (files : FileTable) : Prop where
  named : ∀ r, files.ref? path = some r → (files.objects r).path = path
  live : ∀ r, files.ref? path = some r → (files.objects r).finalized = false
  first : ∀ r x, files.ref? path = some r → (files.objects r).info.head? = some x →
    x = describe path (before path)
  owned : ∀ k r, files.ref? k = some r → (files.objects r).path = path → k = path

/-- A server that has an event of the file in hand has its object to look at, or has done so. -/
def Served (files : FileTable) (path : WString) (e : Event) (pending : List Ref) : Prop :=
  (arrived e).handler .default = .notifyFileAccess (ntPrefix ++ path) → path ≠ [] →
    asterisk ∉ path → ∃ r, files.ref? path = some r ∧ (r ∈ pending ∨ (files.objects r).info ≠ [])

structure ServerOk (before : Disk) (path : WString) (files : FileTable) (v : Server T) : Prop where
  born : ∀ r ∈ v.pending, r < files.next
  served : ∀ t e, v.serves = some (t, e) → v ≠ .received t e → Served files path e v.pending
  agrees : ∀ t e r refs got, v = .reading t e r refs got → files.ref? path = some r →
    (files.objects r).info = [] → Agrees path (before path) got
  apart : ∀ t e r nPath, v = .notifying t e (.rename r nPath) →
    files.ref? path ≠ some r ∧ path ≠ nPath

/-- A thread in a create or open hook still has its event to send, or the path is recorded. -/
def ClientOk (files : FileTable) (path : WString) : Client → Prop
  | .idle => True
  | .sending call called events _ =>
    (called = false → events = call.before ∨
      (events = [] ∧ (NamedInFull path call → Recorded files path))) ∧
    ∀ e ∈ events, Spares path e

structure Inv (before : Disk) (path : WString) (s : System T S) : Prop where
  pristine : s.touched path = false → s.disk path = before path
  marked : s.touched path = true → Recorded s.files path
  files : FilesOk before path s.files
  server : ∀ sv, ServerOk before path s.files (s.servers sv)
  client : ∀ t, ClientOk s.files path (s.clients t)
  linked : Linked s.clients s.servers

theorem before_length (call : NtCall) : call.before.length ≤ 1 := by
  cases call with
  | openFile mode p mask oa targets =>
    simp only [NtCall.before, openEvents]
    split <;> simp
  | deleteFile | renameFile => simp [NtCall.before]

/-- No event in front of a real call is a rename. -/
theorem before_spares (path : WString) (call : NtCall) : ∀ e ∈ call.before, Spares path e := by
  cases call with
  | openFile mode p mask oa targets =>
    simp only [NtCall.before, openEvents]
    split
    · intro e sent
      rw [List.mem_singleton.mp sent]
      trivial
    · simp
  | deleteFile | renameFile => simp [NtCall.before]

/-- A call that fails sends no rename either. -/
theorem after_false_spares (path : WString) (call : NtCall) :
    ∀ e ∈ call.after false, Spares path e := by
  cases call with
  | openFile | renameFile => simp [NtCall.after]
  | deleteFile p oa targets =>
    intro e sent
    rw [List.mem_singleton.mp sent]
    trivial

theorem arrivedText_prefixed {path : WString} (plain : Plain path) :
    arrivedText (ntPrefix ++ path) = ntPrefix ++ path := by
  refine (arrivedText_eq_self_iff _).mpr fun c member => ?_
  rcases List.mem_append.mp member with inPrefix | inPath
  · have prefixed : Plain ntPrefix := by decide
    exact prefixed c inPrefix
  · exact plain c inPath

/-- The one event of such a call arrives with the full name of the file. -/
theorem before_of_namedInFull {path : WString} {call : NtCall} (full : NamedInFull path call) :
    ∃ e, call.before = [e] ∧ (arrived e).handler .default = .notifyFileAccess (ntPrefix ++ path) ∧
      path ≠ [] ∧ asterisk ∉ path := by
  cases call with
  | deleteFile | renameFile => exact full.elim
  | openFile mode p mask oa targets =>
    obtain ⟨opens, write, absolute, closed, plain⟩ := full
    have name := opens.name
    rw [absolute] at name
    have sent := fullPath_absolute (p := p) absolute name opens.plain.2
    rw [closed, List.append_nil] at sent
    refine ⟨.fileAccess (ntPrefix ++ path) mode, ?_, ?_, ?_, opens.plain.1⟩
    · simp only [NtCall.before, openEvents, write, if_true, sent]
    · simp [arrived, Event.handler, Settings.default, arrivedText_prefixed plain]
    · obtain ⟨letter, rest, _, drive⟩ := opens.drive
      simp [drive]

section Growth

/-- `files'` has the entry of the path `files` has, with the same object and a history that grew,
or has made it a new object. -/
structure Later (path : WString) (files files' : FileTable) : Prop where
  kept : ∀ r, files.ref? path = some r → files'.ref? path = some r
  back : ∀ r, r < files.next → files'.ref? path = some r → files.ref? path = some r
  info : ∀ r, files.ref? path = some r → (files.objects r).info <+: (files'.objects r).info
  next : files.next ≤ files'.next

variable {before : Disk} {path : WString} {files files' : FileTable}

theorem Later.refl (path : WString) (files : FileTable) : Later path files files :=
  ⟨fun _ h => h, fun _ _ h => h, fun _ _ => List.prefix_refl _, Nat.le_refl _⟩

theorem later_of_extends (h : Extends files files') : Later path files files' where
  kept := h.kept path
  back := by
    intro r born held
    rcases h.added path r held with old | ⟨new, _⟩
    · exact old
    · exact absurd born (Nat.not_lt.mpr new)
  info := by
    intro r held
    rw [h.same r (files.allocated path r held)]
  next := h.grown

theorem later_record (r : Ref) (x : AccessInfo) :
    Later path files (files.update r (·.record x)) where
  kept := fun _ h => h
  back := fun _ _ h => h
  info := by
    intro q _
    by_cases hit : q = r
    · subst hit
      rw [ObjectTable.objects_update_self]
      exact FileAccessInfo.record_prefix _ x
    · rw [files.objects_update_ne _ hit]
  next := Nat.le_refl _

theorem later_rekey {old new : WString} (apartOld : path ≠ old) (apartNew : path ≠ new) :
    Later path files (files.rekey old new) where
  kept := fun r h => by rw [ObjectTable.ref?_rekey_other apartOld apartNew, h]
  back := fun r _ h => by rw [← ObjectTable.ref?_rekey_other apartOld apartNew, h]
  info := fun r _ => by rw [ObjectTable.objects_rekey]
  next := by rw [ObjectTable.next_rekey]

theorem later_addNew {k : WString} (apart : path ≠ k) (a : FileAccessInfo) :
    Later path files (files.addNew k a) where
  kept := fun r h => by rw [files.ref?_addNew_ne a apart, h]
  back := fun r _ h => by rw [← files.ref?_addNew_ne a apart, h]
  info := by
    intro r held
    rw [files.objects_addNew_lt k a (files.allocated path r held)]
  next := Nat.le_succ _

theorem later_move {r : Ref} (apart : files.ref? path ≠ some r) (nPath : WString) :
    Later path files (files.update r fun a => { a with path := nPath }) where
  kept := fun _ h => h
  back := fun _ _ h => h
  info := by
    intro q held
    have other : q ≠ r := fun same => apart (same ▸ held)
    rw [files.objects_update_ne _ other]
  next := Nat.le_refl _

theorem Later.info_ne_nil (h : Later path files files') {r : Ref}
    (held : files.ref? path = some r) (some_ : (files.objects r).info ≠ []) :
    (files'.objects r).info ≠ [] := by
  intro none_
  have grown := h.info r held
  rw [none_, List.prefix_nil] at grown
  exact some_ grown

theorem Recorded.later (recorded : Recorded files path) (h : Later path files files') :
    Recorded files' path := by
  obtain ⟨r, held, some_⟩ := recorded
  exact ⟨r, h.kept _ held, h.info_ne_nil held some_⟩

theorem Served.later {e : Event} {pending : List Ref} (served : Served files path e pending)
    (h : Later path files files') : Served files' path e pending := by
  intro event named plain
  obtain ⟨r, held, todo⟩ := served event named plain
  exact ⟨r, h.kept _ held, todo.imp_right (h.info_ne_nil held)⟩

theorem ServerOk.later {v : Server T} (ok : ServerOk before path files v)
    (h : Later path files files') : ServerOk before path files' v where
  born := fun r member => Nat.lt_of_lt_of_le (ok.born r member) h.next
  served := fun t e serves busy => (ok.served t e serves busy).later h
  agrees := by
    intro t e r refs got phase held none_
    have old := h.back r (ok.born r (by rw [phase]; simp [Server.pending])) held
    have grown := h.info r old
    rw [none_, List.prefix_nil] at grown
    exact ok.agrees t e r refs got phase old grown
  apart := by
    intro t e r nPath phase
    obtain ⟨free, other⟩ := ok.apart t e r nPath phase
    refine ⟨fun held => free (h.back r (ok.born r ?_) held), other⟩
    rw [phase]
    simp [Server.pending, Todo.refs]

theorem ClientOk.later {c : Client} (ok : ClientOk files path c) (h : Later path files files') :
    ClientOk files' path c := by
  cases c with
  | idle => trivial
  | sending call called events waiting =>
    refine ⟨fun early => ?_, ok.2⟩
    exact (ok.1 early).imp_right (And.imp_right fun recorded full => (recorded full).later h)

theorem FilesOk.extends (ok : FilesOk before path files) (h : Extends files files') :
    FilesOk before path files' where
  named := by
    intro r held
    rcases h.added path r held with old | ⟨_, new⟩
    · rw [h.same r (files.allocated path r old)]
      exact ok.named r old
    · rw [new]
      rfl
  live := by
    intro r held
    rcases h.added path r held with old | ⟨_, new⟩
    · rw [h.same r (files.allocated path r old)]
      exact ok.live r old
    · rw [new]
      rfl
  first := by
    intro r x held head
    rcases h.added path r held with old | ⟨_, new⟩
    · rw [h.same r (files.allocated path r old)] at head
      exact ok.first r x old head
    · rw [new] at head
      cases head
  owned := by
    intro k r held same
    rcases h.added k r held with old | ⟨_, new⟩
    · rw [h.same r (files.allocated k r old)] at same
      exact ok.owned k r old same
    · rw [new] at same
      exact same

theorem FilesOk.rekey (ok : FilesOk before path files) {old new : WString} (apartOld : path ≠ old)
    (apartNew : path ≠ new) : FilesOk before path (files.rekey old new) where
  named := by
    rw [ObjectTable.ref?_rekey_other apartOld apartNew, ObjectTable.objects_rekey]
    exact ok.named
  live := by
    rw [ObjectTable.ref?_rekey_other apartOld apartNew, ObjectTable.objects_rekey]
    exact ok.live
  first := by
    rw [ObjectTable.ref?_rekey_other apartOld apartNew, ObjectTable.objects_rekey]
    exact ok.first
  owned := by
    intro k r held same
    rw [ObjectTable.objects_rekey] at same
    cases known : files.ref? old with
    | none =>
      rw [ObjectTable.rekey_of_none known] at held
      exact ok.owned k r held same
    | some q =>
      rcases (ObjectTable.ref?_rekey_iff known).mp held with ⟨_, rfl⟩ | ⟨_, _, kept⟩
      · exact absurd (ok.owned old r known same) (Ne.symm apartOld)
      · exact ok.owned k r kept same

theorem FilesOk.addNew (ok : FilesOk before path files) {k : WString} {a : FileAccessInfo}
    (apart : path ≠ k) (other : path ≠ a.path) : FilesOk before path (files.addNew k a) where
  named := by
    intro r held
    rw [files.ref?_addNew_ne a apart] at held
    rw [files.objects_addNew_lt k a (files.allocated path r held)]
    exact ok.named r held
  live := by
    intro r held
    rw [files.ref?_addNew_ne a apart] at held
    rw [files.objects_addNew_lt k a (files.allocated path r held)]
    exact ok.live r held
  first := by
    intro r x held head
    rw [files.ref?_addNew_ne a apart] at held
    rw [files.objects_addNew_lt k a (files.allocated path r held)] at head
    exact ok.first r x held head
  owned := by
    intro l r held same
    rcases (files.ref?_addNew_iff a).mp held with ⟨_, rfl⟩ | ⟨_, old⟩
    · rw [files.objects_addNew_next] at same
      exact absurd same.symm other
    · rw [files.objects_addNew_lt k a (files.allocated l r old)] at same
      exact ok.owned l r old same

/-- A change to another object, which does not get the path. -/
theorem FilesOk.update (ok : FilesOk before path files) {r : Ref}
    {f : FileAccessInfo → FileAccessInfo} (apart : files.ref? path ≠ some r)
    (other : path ≠ (f (files.objects r)).path) : FilesOk before path (files.update r f) := by
  have same : ∀ q, files.ref? path = some q → (files.update r f).objects q = files.objects q :=
    fun q held => files.objects_update_ne f fun hit => apart (hit ▸ held)
  refine ⟨fun q held => ?_, fun q held => ?_, fun q x held head => ?_, fun k q held named => ?_⟩
  · rw [same q held]
    exact ok.named q held
  · rw [same q held]
    exact ok.live q held
  · rw [same q held] at head
    exact ok.first q x held head
  · by_cases hit : q = r
    · subst hit
      rw [ObjectTable.objects_update_self] at named
      exact absurd named.symm other
    · rw [files.objects_update_ne f hit] at named
      exact ok.owned k q held named

end Growth

section Updates

variable {before : Disk} {path : WString} {s s' : System T S}

/-- A step that leaves disk and table alone. -/
theorem Inv.phases (inv : Inv before path s) (disk : s'.disk = s.disk)
    (touched : s'.touched = s.touched) (files : s'.files = s.files)
    (server : ∀ sv, ServerOk before path s.files (s'.servers sv))
    (client : ∀ t, ClientOk s.files path (s'.clients t))
    (linked : Linked s'.clients s'.servers) : Inv before path s' where
  pristine := by
    rw [disk, touched]
    exact inv.pristine
  marked := by
    rw [touched, files]
    exact inv.marked
  files := files ▸ inv.files
  server := files ▸ server
  client := files ▸ client
  linked := linked

/-- Changing a file; if it is this one, it is recorded. -/
theorem Inv.touch (inv : Inv before path s) {other : WString} (content : Option Content)
    (recorded : other = path → Recorded s.files path) : Inv before path (s.touch other content) where
  pristine := by
    intro untouched
    by_cases hit : path = other
    · subst hit
      simp [System.touch] at untouched
    · simp only [System.touch, Function.update_of_ne hit] at untouched ⊢
      exact inv.pristine untouched
  marked := by
    intro touched
    by_cases hit : path = other
    · exact recorded hit.symm
    · simp only [System.touch, Function.update_of_ne hit] at touched
      exact inv.marked touched
  files := inv.files
  server := inv.server
  client := inv.client
  linked := inv.linked

theorem Inv.touchAll {changes : List (WString × Option Content)} (inv : Inv before path s)
    (recorded : (∃ content, (path, content) ∈ changes) → Recorded s.files path) :
    Inv before path (s.touchAll changes) := by
  induction changes generalizing s with
  | nil => exact inv
  | cons c changes ih =>
    obtain ⟨other, content⟩ := c
    refine ih (s := s.touch other content) (inv.touch content ?_) ?_
    · rintro rfl
      exact recorded ⟨content, by simp⟩
    · intro later
      obtain ⟨content', member⟩ := later
      exact recorded ⟨content', List.mem_cons_of_mem _ member⟩

/-- The table changed, and nothing else. -/
theorem Inv.grow (inv : Inv before path s) {files' : FileTable} (later : Later path s.files files')
    (ok : FilesOk before path files') : Inv before path { s with files := files' } where
  pristine := inv.pristine
  marked := fun touched => (inv.marked touched).later later
  files := ok
  server := fun sv => (inv.server sv).later later
  client := fun t => (inv.client t).later later
  linked := inv.linked

/-- A path without a record has not been touched. -/
theorem Inv.untouched (inv : Inv before path s) {r : Ref} (held : s.files.ref? path = some r)
    (none_ : (s.files.objects r).info = []) : s.disk path = before path := by
  apply inv.pristine
  cases touched : s.touched path with
  | false => rfl
  | true =>
    obtain ⟨q, other, some_⟩ := inv.marked touched
    rw [held] at other
    cases other
    exact absurd none_ some_

/-- Recording a finished look keeps the first record right. -/
theorem filesOk_record (inv : Inv before path s) {sv : S} {t : T} {e : Event} {r : Ref}
    {refs : List Ref} {x : AccessInfo} (busy : s.servers sv = .reading t e r refs (.done x)) :
    FilesOk before path (s.files.update r (·.record x)) := by
  have same : ∀ q, ((s.files.update r (·.record x)).objects q).path = (s.files.objects q).path ∧
      ((s.files.update r (·.record x)).objects q).finalized = (s.files.objects q).finalized := by
    intro q
    by_cases hit : q = r
    · subst hit
      rw [ObjectTable.objects_update_self, FileAccessInfo.record_path,
        FileAccessInfo.record_finalized]
      exact ⟨rfl, rfl⟩
    · rw [s.files.objects_update_ne _ hit]
      exact ⟨rfl, rfl⟩
  refine ⟨fun q held => ?_, fun q held => ?_, fun q y held head => ?_, fun k q held named => ?_⟩
  · rw [(same q).1]
    exact inv.files.named q held
  · rw [(same q).2]
    exact inv.files.live q held
  · by_cases hit : q = r
    · subst hit
      rw [ObjectTable.objects_update_self, FileAccessInfo.record_head?] at head
      cases known : (s.files.objects q).info with
      | nil =>
        rw [known] at head
        obtain rfl : x = y := Option.some.inj head
        exact (inv.server sv).agrees _ _ _ _ _ busy held known
      | cons first rest =>
        rw [known] at head
        exact inv.files.first q y held (by rw [known]; exact head)
    · rw [s.files.objects_update_ne _ hit] at head
      exact inv.files.first q y held head
  · rw [(same q).1] at named
    exact inv.files.owned k q held named

theorem update_forall {α β : Type} [DecidableEq α] {P : β → Prop} {f : α → β}
    (all : ∀ a, P (f a)) (a : α) {b : β} (new : P b) : ∀ x, P (Function.update f a b x) :=
  (Function.forall_update_iff f (fun _ => P)).mpr ⟨new, fun x _ => all x⟩

theorem Inv.setClient [DecidableEq T] (inv : Inv before path s) {t : T}
    (free : ∀ call called events, s.clients t ≠ .sending call called events true) {c : Client}
    (ok : ClientOk s.files path c) : Inv before path (s.setClient t c) :=
  inv.phases rfl rfl rfl inv.server (update_forall inv.client t ok) (inv.linked.setClient free c)

theorem Inv.setServer [DecidableEq S] (inv : Inv before path s) (sv : S) {v : Server T}
    (ok : ServerOk before path s.files v) (same : v.serves = (s.servers sv).serves) :
    Inv before path (s.setServer sv v) :=
  inv.phases rfl rfl rfl (update_forall inv.server sv ok) inv.client (inv.linked.setServer same)

theorem Inv.setOwner (inv : Inv before path s) (r : Ref) (o : Option S) :
    Inv before path (s.setOwner r o) :=
  inv.phases rfl rfl rfl inv.server inv.client inv.linked

theorem serverOk_free (before : Disk) (path : WString) (files : FileTable) :
    ServerOk before path files (.free : Server T) :=
  ⟨by simp [Server.pending], by simp [Server.serves], by simp, by simp⟩

theorem serverOk_received (before : Disk) (path : WString) (files : FileTable) (t : T) (e : Event) :
    ServerOk before path files (.received t e) :=
  ⟨by simp [Server.pending], by simp [Server.serves], by simp, by simp⟩

/-- The event a server has in hand is no rename of the path. -/
theorem Inv.served_spares (inv : Inv before path s) {sv : S} {t : T} {e : Event}
    (serves : (s.servers sv).serves = some (t, e)) : Spares path e := by
  obtain ⟨call, called, events, waiting⟩ := inv.linked.waits sv t e serves
  have queue := inv.client t
  rw [waiting] at queue
  exact queue.2 e (by simp)

/-- The queue of a hook whose server left: unchanged, or without the event it answered. -/
theorem Inv.release [DecidableEq T] [DecidableEq S] (inv : Inv before path s) {sv : S} {t : T}
    {e : Event} (serves : (s.servers sv).serves = some (t, e)) (delivered : Bool)
    (done : delivered = true → Served s.files path e []) :
    Inv before path (s.release sv t delivered) := by
  refine inv.phases rfl rfl rfl (update_forall inv.server sv (serverOk_free ..)) ?_
    (inv.linked.release serves _)
  apply update_forall inv.client t
  obtain ⟨call, called, events, waiting⟩ := inv.linked.waits sv t e serves
  have queue := inv.client t
  rw [waiting] at queue ⊢
  cases delivered with
  | false => exact queue
  | true =>
    show ClientOk s.files path (.sending call called events false)
    refine ⟨fun early => ?_, fun d member => queue.2 d (List.mem_cons_of_mem _ member)⟩
    rcases queue.1 early with all | ⟨none_, _⟩
    · have only := before_length call
      rw [← all, List.length_cons] at only
      refine .inr ⟨List.length_eq_zero_iff.mp (by omega), fun full => ?_⟩
      obtain ⟨d, sent, handler, named, plain⟩ := before_of_namedInFull full
      rw [sent] at all
      obtain rfl : e = d := (List.cons.inj all).1
      obtain ⟨r, held, todo | some_⟩ := done rfl handler named plain
      · cases todo
      · exact ⟨r, held, some_⟩
    · cases none_

theorem inv_initial (before : Disk) (path : WString) :
    Inv before path (System.initial before : System T S) where
  pristine := fun _ => rfl
  marked := by simp [System.initial]
  files := ⟨by simp [System.initial, FileTable.empty], by simp [System.initial, FileTable.empty],
    by simp [System.initial, FileTable.empty], by simp [System.initial, FileTable.empty]⟩
  server := fun _ => serverOk_free ..
  client := fun _ => trivial
  linked := ⟨by simp [System.initial, Server.serves], by simp [System.initial, Server.serves]⟩

end Updates

section Handlers

variable {path : WString} {files : FileTable}

/-- What the part under `_filesLock` comes to, as far as the path is concerned. -/
structure Tracked (before : Disk) (path : WString) (files files' : FileTable) (handler : Handler)
    (todo : Todo) : Prop where
  later : Later path files files'
  ok : FilesOk before path files → FilesOk before path files'
  born : ∀ r ∈ todo.refs, r < files'.next
  apart : ∀ r nPath, todo = .rename r nPath → files'.ref? path ≠ some r ∧ path ≠ nPath
  reaches : handler = .notifyFileAccess (ntPrefix ++ path) → path ≠ [] → asterisk ∉ path →
    ∃ r ∈ todo.refs, files'.ref? path = some r

theorem tracked_unchanged (before : Disk) {handler : Handler}
    (other : handler = .notifyFileAccess (ntPrefix ++ path) → path ≠ [] → asterisk ∈ path) :
    Tracked before path files files handler (.look []) where
  later := Later.refl path files
  ok := id
  born := by simp [Todo.refs]
  apart := by simp
  reaches := fun event named plain => absurd (other event named) plain

theorem trackHandler_access (before : Disk) (fs : FileSystem) (ss : WString) :
    Tracked before path files (trackHandler fs files (.notifyFileAccess ss)).1
      (.notifyFileAccess ss) (trackHandler fs files (.notifyFileAccess ss)).2 := by
  have listed : ss = ntPrefix ++ path → path ≠ [] → asterisk ∉ path →
      ∃ names, filesNamed fs ss = some names ∧ path ∈ names := by
    rintro rfl named plain
    exact (mem_filesNamed fs (ntPrefix ++ path) named).mpr
      ⟨List.prefix_append .., by rw [purge_ntPrefix]; exact names_self plain⟩
  rw [trackHandler]
  cases found : filesNamed fs ss with
  | none =>
    refine tracked_unchanged before fun event named => ?_
    by_contra plain
    obtain ⟨names, some_, _⟩ := listed (Handler.notifyFileAccess.inj event) named plain
    rw [found] at some_
    cases some_
  | some names =>
    refine ⟨later_of_extends (track_extends files names), fun ok => ok.extends
      (track_extends files names), fun r member => ?_, by simp, fun event named plain => ?_⟩
    · obtain ⟨k, _, _, held⟩ := track_only files member
      exact (track files names).1.allocated k r held
    · obtain ⟨all, some_, member⟩ := listed (Handler.notifyFileAccess.inj event) named plain
      rw [found] at some_
      cases some_
      exact track_reaches files member named

theorem trackHandler_rename (before : Disk) (fs : FileSystem) {oPath nPath : WString}
    (elsewhere : Elsewhere path (.notifyFileRename oPath nPath)) :
    Tracked before path files (trackHandler fs files (.notifyFileRename oPath nPath)).1
      (.notifyFileRename oPath nPath) (trackHandler fs files (.notifyFileRename oPath nPath)).2 := by
  obtain ⟨other, apartOld, apartNew⟩ := elsewhere
  rw [trackHandler]
  split_ifs
  · exact tracked_unchanged before (by simp)
  · exact tracked_unchanged before (by simp)
  cases known : files.ref? (purge oPath) with
  | some r =>
    refine ⟨later_rekey apartOld apartNew, fun ok => ok.rekey apartOld apartNew, ?_, ?_, by simp⟩
    · simp only [Todo.refs, List.mem_singleton, ObjectTable.next_rekey, forall_eq]
      exact files.allocated _ r known
    · rintro q _ ⟨⟩
      refine ⟨fun held => ?_, apartNew⟩
      rw [ObjectTable.ref?_rekey_other apartOld apartNew] at held
      exact apartOld (files.single _ _ _ held known)
  | none =>
    refine ⟨later_addNew apartOld _, fun ok => ok.addNew apartOld other, ?_, ?_, by simp⟩
    · simp only [Todo.refs, List.mem_singleton, forall_eq]
      exact Nat.lt_succ_self _
    · rintro q _ ⟨⟩
      refine ⟨fun held => ?_, apartNew⟩
      rw [files.ref?_addNew_ne _ apartOld] at held
      exact absurd (files.allocated _ _ held) (Nat.lt_irrefl _)

theorem trackHandler_spec (before : Disk) (fs : FileSystem) (files : FileTable) {handler : Handler}
    (elsewhere : Elsewhere path handler) :
    Tracked before path files (trackHandler fs files handler).1 handler
      (trackHandler fs files handler).2 := by
  cases handler with
  | notifyFileAccess ss => exact trackHandler_access before fs ss
  | notifyFileRename oPath nPath => exact trackHandler_rename before fs elsewhere
  | addPid | removePid | notifyRegistryAccess | ignore => exact tracked_unchanged before (by simp)

end Handlers

section Steps

variable [DecidableEq T] [DecidableEq S] {before : Disk} {path : WString} {s s' : System T S}
  {receive : Event → Except Exn Handler}

theorem inv_enter (inv : Inv before path s) {t : T} {call : NtCall}
    (h : s.step receive (.enter t call) = some s') : Inv before path s' := by
  simp only [System.step] at h
  split at h
  · rename_i idle
    cases h
    exact inv.setClient (by simp [idle]) ⟨fun _ => .inl rfl, before_spares path call⟩
  · cases h

theorem inv_send (inv : Inv before path s) {t : T} {sv : S}
    (h : s.step receive (.send t sv) = some s') : Inv before path s' := by
  simp only [System.step] at h
  split at h
  · rename_i call called e events idle free
    cases h
    have queued := inv.client t
    rw [idle] at queued
    exact inv.phases rfl rfl rfl (update_forall inv.server sv (serverOk_received ..))
      (update_forall inv.client t (P := ClientOk s.files path) queued) (inv.linked.send idle free)
  · cases h

theorem inv_leave (inv : Inv before path s) {t : T}
    (h : s.step receive (.leave t) = some s') : Inv before path s' := by
  simp only [System.step] at h
  split at h
  · rename_i idle
    cases h
    exact inv.setClient (by simp [idle]) trivial
  · cases h

omit [DecidableEq T] [DecidableEq S] in
/-- When the real call is made, the event of such a call has been acknowledged. -/
theorem recorded_of_namedInFull (inv : Inv before path s) {t : T} {call : NtCall}
    (idle : s.clients t = .sending call false [] false) (full : NamedInFull path call) :
    Recorded s.files path := by
  have queue := inv.client t
  rw [idle] at queue
  rcases queue.1 rfl with unsent | ⟨_, recorded⟩
  · obtain ⟨e, sent, _⟩ := before_of_namedInFull full
    rw [sent] at unsent
    cases unsent
  · exact recorded full

theorem inv_real (inv : Inv before path s) {t : T}
    {changes : Option (List (WString × Option Content))}
    (announced : Announced path s (.real t changes))
    (h : s.step receive (.real t changes) = some s') : Inv before path s' := by
  simp only [System.step] at h
  split at h
  · rename_i call idle
    have called : ∀ succeeded, (∀ e ∈ call.after succeeded, Spares path e) →
        Inv before path (s.setClient t (.sending call true (call.after succeeded) false)) :=
      fun succeeded spares => inv.setClient (by simp [idle]) ⟨by simp, spares⟩
    cases changes with
    | none =>
      cases h
      exact called false (after_false_spares path call)
    | some changes =>
      obtain ⟨effect, spares⟩ := announced call false [] false idle
      simp only at h
      split at h
      · cases h
        refine (called true spares).touchAll fun hit => ?_
        show Recorded s.files path
        rcases effect hit with recorded | full
        · exact recorded
        · exact recorded_of_namedInFull inv idle full
      · cases h
  · cases h

theorem inv_modify (inv : Inv before path s) {other : WString} {content : Option Content}
    (h : s.step receive (.modify other content) = some s') : Inv before path s' := by
  simp only [System.step] at h
  split at h
  · rename_i touched
    cases h
    refine inv.touch content ?_
    rintro rfl
    exact inv.marked touched
  · cases h

theorem inv_track (inv : Inv before path s) {sv : S} {fs : FileSystem}
    (receives : ∀ e, receive e = .ok ((arrived e).handler .default))
    (h : s.step receive (.track sv fs) = some s') : Inv before path s' := by
  simp only [System.step, receives] at h
  split at h
  · rename_i t e busy
    cases h
    have serves : (s.servers sv).serves = some (t, e) := by simp [busy, Server.serves]
    have tracked := trackHandler_spec before fs s.files (inv.served_spares serves)
    have grown := inv.grow tracked.later (tracked.ok inv.files)
    refine grown.setServer sv (v := .notifying t e _) ⟨tracked.born, ?_, by simp, ?_⟩ serves.symm
    · rintro t' e' same _ event named plain
      cases same
      obtain ⟨r, member, held⟩ := tracked.reaches event named plain
      exact ⟨r, held, .inl member⟩
    · intro t' e' r nPath same
      exact tracked.apart r nPath (Server.notifying.inj same).2.2
  · cases h

theorem inv_move (inv : Inv before path s) {sv : S}
    (h : s.step receive (.move sv) = some s') : Inv before path s' := by
  simp only [System.step] at h
  split at h
  · rename_i t e r nPath busy
    cases h
    have ok := inv.server sv
    rw [busy] at ok
    obtain ⟨free, other⟩ := ok.apart t e r nPath rfl
    have later := later_move free nPath
    have grown := inv.grow later (inv.files.update free other)
    have moved := ok.later later
    refine grown.setServer sv (v := .notifying t e (.look [r]))
      ⟨moved.born, fun t' e' serves _ => ?_, by simp, by simp⟩ (by simp [busy, Server.serves])
    exact moved.served t' e' serves (by simp)
  · cases h

theorem inv_lock (inv : Inv before path s) {sv : S}
    (h : s.step receive (.lock sv) = some s') : Inv before path s' := by
  simp only [System.step] at h
  split at h
  · rename_i t e r refs busy
    have ok := inv.server sv
    rw [busy] at ok
    split at h
    · cases h
    · split at h
      -- a frozen object is skipped, which the one of the path is not
      · rename_i frozen
        cases h
        refine inv.setServer sv (v := .notifying t e (.look refs))
          ⟨fun q member => ok.born q (List.mem_cons_of_mem _ member), fun t' e' serves _ => ?_,
            by simp, by simp⟩ (by simp [busy, Server.serves])
        intro event named plain
        obtain ⟨q, held, todo⟩ := ok.served t' e' serves (by simp) event named plain
        refine ⟨q, held, todo.imp_left fun member => ?_⟩
        rcases List.mem_cons.mp member with rfl | later
        · rw [inv.files.live q held] at frozen
          cases frozen
        · exact later
      · cases h
        refine (inv.setServer sv (v := .reading t e r refs .start)
          ⟨ok.born, fun t' e' serves _ => ?_, ?_, by simp⟩
          (by simp [busy, Server.serves])).setOwner r _
        · exact ok.served t' e' serves (by simp)
        · intro _ _ _ _ _ same _ _
          cases same
          trivial
  · cases h

/-- A call on a file that stands still adds what the file holds. -/
theorem agrees_next {d : Disk} {got further : Reading}
    (agrees : Agrees path (d path) got) (h : got.next d.view path = .ok further) :
    Agrees path (d path) further := by
  cases got with
  | start =>
    cases h
    rfl
  | named name =>
    obtain rfl : name = path := agrees
    cases found : d name with
    | none =>
      simp only [Reading.next, Disk.view, found] at h
      cases h
      rfl
    | some c =>
      simp only [Reading.next, Disk.view, found] at h
      cases h
      exact ⟨rfl, rfl⟩
  | present name =>
    obtain ⟨rfl, there⟩ := agrees
    obtain ⟨c, found⟩ := Option.isSome_iff_exists.mp there
    simp only [Reading.next, Disk.view, found, bind, Except.bind, Except.ok.injEq] at h
    subst h
    exact ⟨rfl, c, found, rfl⟩
  | sized name size =>
    obtain ⟨rfl, c, found, rfl⟩ := agrees
    simp only [Reading.next, Disk.view, found, Except.ok.injEq] at h
    subst h
    exact ⟨rfl, c, found, rfl, rfl⟩
  | hashed name size hashes =>
    obtain ⟨rfl, c, found, rfl, rfl⟩ := agrees
    simp only [Reading.next, Disk.view, found, Except.ok.injEq] at h
    subst h
    simp [Agrees, found, describe]
  | done x =>
    cases h
    exact agrees

theorem inv_read (inv : Inv before path s) {sv : S}
    (h : s.step receive (.read sv) = some s') : Inv before path s' := by
  simp only [System.step] at h
  split at h
  · rename_i t e r refs got busy
    have ok := inv.server sv
    rw [busy] at ok
    split at h
    · rename_i further next
      cases h
      refine inv.setServer sv (v := .reading t e r refs further)
        ⟨ok.born, fun t' e' serves _ => ?_, ?_, by simp⟩ (by simp [busy, Server.serves])
      · exact ok.served t' e' serves (by simp)
      · intro _ _ _ _ _ same held none_
        cases same
        rw [inv.files.named r held] at next
        have agrees := ok.agrees _ _ _ _ _ rfl held none_
        rw [← inv.untouched held none_] at agrees ⊢
        exact agrees_next agrees next
    · cases h
      exact (inv.release (e := e) (by simp [busy, Server.serves]) false (by simp)).setOwner r none
  · cases h

theorem inv_record (inv : Inv before path s) {sv : S}
    (h : s.step receive (.record sv) = some s') : Inv before path s' := by
  simp only [System.step] at h
  split at h
  · rename_i t e r refs x busy
    cases h
    have grown := inv.grow (later_record r x) (filesOk_record inv busy)
    have ok := grown.server sv
    simp only [busy] at ok
    refine (grown.setServer sv (v := .notifying t e (.look refs))
      ⟨fun q member => ok.born q (List.mem_cons_of_mem _ member), fun t' e' serves _ => ?_,
        by simp, by simp⟩ (by simp [busy, Server.serves])).setOwner r none
    intro event named plain
    obtain ⟨q, held, todo⟩ := ok.served t' e' serves (by simp) event named plain
    refine ⟨q, held, ?_⟩
    rcases todo with todo | some_
    · rcases List.mem_cons.mp todo with rfl | later
      · refine .inr fun none_ => ?_
        have head := FileAccessInfo.record_head? (s.files.objects q) x
        rw [ObjectTable.objects_update_self] at none_
        rw [none_] at head
        cases head
      · exact .inl later
    · exact .inr some_
  · cases h

theorem inv_fail (inv : Inv before path s) {sv : S}
    (h : s.step receive (.fail sv) = some s') : Inv before path s' := by
  simp only [System.step] at h
  split at h
  · rename_i t e busy
    cases h
    exact inv.release (e := e) (by simp [busy, Server.serves]) false (by simp)
  · rename_i t e todo busy
    cases h
    exact inv.release (e := e) (by simp [busy, Server.serves]) false (by simp)
  · rename_i t e r refs got busy
    cases h
    exact (inv.release (e := e) (by simp [busy, Server.serves]) false (by simp)).setOwner r none
  · cases h

theorem inv_answer (inv : Inv before path s) {sv : S} {delivered : Bool}
    (h : s.step receive (.answer sv delivered) = some s') : Inv before path s' := by
  simp only [System.step] at h
  split at h
  · rename_i t e busy
    cases h
    have ok := inv.server sv
    rw [busy] at ok
    exact inv.release (e := e) (by simp [busy, Server.serves]) delivered
      fun _ => ok.served t e rfl (by simp)
  · cases h

theorem inv_step (receives : ∀ e, receive e = .ok ((arrived e).handler .default))
    (s : System T S) (l : Label T S) (s' : System T S) (inv : Inv before path s)
    (announced : Announced path s l) (h : s.step receive l = some s') : Inv before path s' := by
  cases l with
  | enter => exact inv_enter inv h
  | send => exact inv_send inv h
  | real => exact inv_real inv announced h
  | leave => exact inv_leave inv h
  | modify => exact inv_modify inv h
  | track => exact inv_track inv receives h
  | move => exact inv_move inv h
  | lock => exact inv_lock inv h
  | read => exact inv_read inv h
  | record => exact inv_record inv h
  | fail => exact inv_fail inv h
  | answer => exact inv_answer inv h

end Steps

/-- A disk with one file, `C:\d\f`. -/
def oneFile : Disk := fun path =>
  if path = wide "C:\\d\\f" then some ⟨3, ⟨none, none⟩, none⟩ else none

/-- The file is opened for writing; the real call, once acknowledged, removes it. -/
def announcedCall : NtCall := .openFile .opened inDirectory 0x2 absoluteName [wide "C:\\d\\f"]

def announcedSteps : List (Label Unit Unit) :=
  [.enter () announcedCall, .send () (), .track () .bare, .lock (), .read (), .read (), .read (),
    .read (), .read (), .record (), .answer () true]

/-- What arrives of an event, when its text can be loaded. -/
def arrives (e : Event) : Except Exn Handler := .ok ((arrived e).handler .default)

/-- The hook is about to make the real call. -/
def acknowledged : System Unit Unit :=
  (announcedSteps.foldlM (System.step arrives) (System.initial oneFile)).get rfl

end GuestAgent.Guarantees.Baseline
