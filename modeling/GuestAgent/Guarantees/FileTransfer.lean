import GuestAgent.Source.FileTransfer

/-!
Announced and transferred lengths, over any cutting of the stream and of the file into reads. Both
loops move as many bytes as their `int` bound says (the upload up to one buffer more), and the
bound is the announced length exactly below 2^31; above, the cast leaves less or nothing.
-/
namespace GuestAgent.Guarantees.FileTransfer
open Library Source Library.Retry

/-- The payload bytes the log has read from the connection. -/
def bytesRead : List Action → Nat
  | [] => 0
  | .read data :: log => data.length + bytesRead log
  | _ :: log => bytesRead log

/-- The bytes of the file the log has sent. -/
def bytesSent : List Action → Nat
  | [] => 0
  | .send data :: log => data.length + bytesSent log
  | _ :: log => bytesSent log

/-- Nothing in the environment raises. -/
def Undisturbed (io : Io) : Prop := ∀ p, io.raises p = none

/-- `AcquireWork` ends, sends its last message unless it is disturbed, and has then read as many
payload bytes as were announced. -/
def ReadsAnnounced (naming : Naming) (io : Io) (res : ResponseGetWork) (ns : NetworkStream) :
    Prop :=
  ∃ fuel result s, acquireWork naming io fuel res ⟨ns, []⟩ = some (result, s) ∧
    (Undisturbed io → .sendMessage requestGetWorkFileReceived ∈ s.log) ∧
    ∀ before after, s.log = before ++ .sendMessage requestGetWorkFileReceived :: after →
      bytesRead before = res.fileDim

/-- `ReportWork` ends, waits for the answer unless it is disturbed, and has then sent as many
bytes as it has announced: those of the report. -/
def SendsAnnounced (io : Io) (report : List UInt8) : Prop :=
  ∃ fuel thrown log, reportWork io fuel report = some (thrown, log) ∧
    (Undisturbed io → .waitReportAck ∈ log) ∧
    ∀ before after, log = before ++ .waitReportAck :: after →
      .announceReport report.length ∈ before ∧ bytesSent before = report.length

theorem toInt32_eq {n : Nat} (small : n < 0x80000000) : toInt32 n = n := by
  unfold toInt32
  rw [Int.bmod_def]
  split <;> omega

/-- From 2^31 on the cast loses at least 2^32. -/
theorem toInt32_le {n : Nat} (large : 0x80000000 ≤ n) : toInt32 n + 0x100000000 ≤ n := by
  unfold toInt32
  rw [Int.bmod_def]
  split <;> omega

@[simp] theorem bytesRead_append (first second : List Action) :
    bytesRead (first ++ second) = bytesRead first + bytesRead second := by
  induction first with
  | nil => simp [bytesRead]
  | cons a first ih => cases a <;> simp [bytesRead, ih, Nat.add_assoc]

@[simp] theorem bytesSent_append (first second : List Action) :
    bytesSent (first ++ second) = bytesSent first + bytesSent second := by
  induction first with
  | nil => simp [bytesSent]
  | cons a first ih => cases a <;> simp [bytesSent, ih, Nat.add_assoc]

/-! ### The loop of the download -/

theorem delivered_le (cut : Nat → Nat) (ns : NetworkStream) (requested : Nat) :
    ns.delivered cut requested ≤ requested ∧ ns.delivered cut requested ≤ ns.rest.length := by
  unfold NetworkStream.delivered
  omega

theorem delivered_pos (cut : Nat → Nat) {ns : NetworkStream} {requested : Nat}
    (asked : 0 < requested) (available : 0 < ns.rest.length) :
    0 < ns.delivered cut requested := by
  unfold NetworkStream.delivered
  omega

/-- What a turn moves that is not the last one. -/
theorem recvFileRound_inl {io : Io} {dim : Int} {k : Nat} {s s' : Receiving}
    (next : recvFileRound io dim k s = .inl s') :
    s.tot < dim ∧ ∃ r : Nat, (r : Int) ≤ dim - s.tot ∧ r ≤ s.session.ns.rest.length ∧
      (0 < s.session.ns.rest.length → 0 < r) ∧ s'.tot = s.tot + r ∧
      s'.session.ns.rest = s.session.ns.rest.drop r ∧
      s'.session.log = s.session.log ++
        [.read (s.session.ns.rest.take r), .write (s.session.ns.rest.take r)] := by
  unfold recvFileRound at next
  split at next
  · next more =>
    have asked := toread_bounds more
    generalize toread dim s.tot = requested at asked next
    have upper := delivered_le io.cut s.session.ns requested.toNat
    have lower : 0 < s.session.ns.rest.length →
        0 < s.session.ns.delivered io.cut requested.toNat := delivered_pos io.cut (by omega)
    split at next
    · cases next
    · split at next
      · cases next
      · cases next
        exact ⟨more, _, by omega, upper.2, lower, rfl, rfl, by simp [Session.act]⟩
  · cases next

/-- How the loop ends: with enough bytes, or because something was raised. -/
theorem recvFileRound_inr {io : Io} {dim : Int} {k : Nat} {s : Receiving} {thrown : Option Exn}
    {s' : Session} (last : recvFileRound io dim k s = .inr (thrown, s')) :
    thrown = none ∧ dim ≤ s.tot ∧ s' = s.session ∨
      thrown ≠ none ∧ ¬ Undisturbed io ∧ ∃ moved, s'.log = s.session.log ++ moved ∧
        ∀ a ∈ moved, ∃ data, a = .read data := by
  unfold recvFileRound at last
  split at last
  · split at last
    · next raised =>
      cases last
      refine .inr ⟨by simp, fun undisturbed => ?_, [], by simp, by simp⟩
      rw [undisturbed (.read k)] at raised
      cases raised
    · split at last
      · next raised =>
        cases last
        refine .inr ⟨by simp, fun undisturbed => ?_, [.read _], rfl, by simp⟩
        rw [undisturbed (.write k)] at raised
        cases raised
      · cases last
  · next full =>
    cases last
    exact .inl ⟨rfl, by omega, rfl⟩

/-- What the turns so far have moved, and that the rest is on its way. -/
structure Received (dim : Int) (s₀ : Session) (s : Receiving) : Prop where
  bounds : 0 ≤ s.tot ∧ s.tot ≤ max dim 0
  available : dim - s.tot ≤ s.session.ns.rest.length
  moved : ∃ moved, s.session.log = s₀.log ++ moved ∧ (bytesRead moved : Int) = s.tot ∧
    ∀ msg, .sendMessage msg ∉ moved

theorem recvFileRound_next {io : Io} {dim : Int} {k : Nat} {s₀ : Session} {s s' : Receiving}
    (inv : Received dim s₀ s) (next : recvFileRound io dim k s = .inl s') :
    Received dim s₀ s' ∧ (dim - s'.tot).toNat < (dim - s.tot).toNat := by
  obtain ⟨bounds, available, moved, log, read, silent⟩ := inv
  obtain ⟨more, r, asked, delivered, progress, tot, rest, logged⟩ := recvFileRound_inl next
  have some : 0 < r := progress (by omega)
  refine ⟨⟨by omega, by rw [rest, List.length_drop]; omega, ?_⟩, by omega⟩
  refine ⟨moved ++ [.read (s.session.ns.rest.take r), .write (s.session.ns.rest.take r)],
    by rw [logged, log, List.append_assoc], ?_, by simpa using silent⟩
  simp only [bytesRead_append, bytesRead, List.length_take]
  omega

theorem received_start {dim : Int} {s : Session} (available : dim ≤ s.ns.rest.length) :
    Received dim s ⟨0, s⟩ :=
  ⟨by simp only; omega, by simpa using available, [], by simp, rfl, by simp⟩

theorem recvFile_leaves (io : Io) {dim : Int} {s : Session} (available : dim ≤ s.ns.rest.length) :
    ∃ fuel thrown s', recvFile io fuel dim s = some (thrown, s') := by
  have leaves : Leaves (recvFileRound io dim) 0 ⟨0, s⟩ :=
    leaves_of_measure (fun s => (dim - s.tot).toNat) (fun k a b => recvFileRound_next) 0
      (received_start available)
  obtain ⟨fuel, ⟨thrown, s'⟩, ended⟩ := leaves
  exact ⟨fuel, thrown, s', ended⟩

/-- Unless something was raised, `__recvFile` has read `dim` bytes. -/
theorem recvFile_post {io : Io} {dim : Int} {s s' : Session} {fuel : Nat} {thrown : Option Exn}
    (available : dim ≤ s.ns.rest.length) (ended : recvFile io fuel dim s = some (thrown, s')) :
    (Undisturbed io → thrown = none) ∧ ∃ moved, s'.log = s.log ++ moved ∧
      (∀ msg, .sendMessage msg ∉ moved) ∧ (thrown = none → bytesRead moved = dim.toNat) := by
  apply retry_post (Received dim s)
    (fun b : Option Exn × Session => (Undisturbed io → b.1 = none) ∧ ∃ moved,
      b.2.log = s.log ++ moved ∧ (∀ msg, .sendMessage msg ∉ moved) ∧
      (b.1 = none → bytesRead moved = dim.toNat))
    (fun k a b inv next => (recvFileRound_next inv next).1) ?_ (received_start available) ended
  intro k a b inv last
  obtain ⟨bounds, -, moved, log, read, silent⟩ := inv
  rcases recvFileRound_inr last with ⟨returned, full, same⟩ | ⟨raised, disturbed, more, logged, reads⟩
  · rw [same]
    exact ⟨fun _ => returned, moved, log, silent, fun _ => by omega⟩
  · refine ⟨fun undisturbed => absurd undisturbed disturbed, moved ++ more,
      by rw [logged, log, List.append_assoc], fun msg member => ?_, fun none => absurd none raised⟩
    rcases List.mem_append.mp member with old | new
    · exact silent msg old
    · obtain ⟨data, same⟩ := reads _ new
      cases same

/-! ### The download -/

/-- The log ends with `mark` after actions with the property `P`, or it was cut off before. -/
def Finished (mark : Action) (P : List Action → Prop) (io : Io) (log : List Action) : Prop :=
  (mark ∉ log ∧ ¬ Undisturbed io) ∨ ∃ first, log = first ++ [mark] ∧ mark ∉ first ∧ P first

theorem Finished.mem {mark : Action} {P : List Action → Prop} {io : Io} {log : List Action}
    (finished : Finished mark P io log) (undisturbed : Undisturbed io) : mark ∈ log := by
  rcases finished with cut | ⟨first, rfl, -⟩
  · exact absurd undisturbed cut.2
  · simp

theorem Finished.before {mark : Action} {P : List Action → Prop} {io : Io} {log : List Action}
    (finished : Finished mark P io log) {before after : List Action}
    (split : log = before ++ mark :: after) : P before := by
  rcases finished with cut | ⟨first, rfl, fresh, holds⟩
  · exact absurd (by simp [split]) cut.1
  · obtain ⟨rfl, -, -⟩ := (List.append_cons_inj_of_notMem fresh (by simp)).mp split
    exact holds

theorem finished_of_raised {mark : Action} {P : List Action → Prop} {io : Io} {log : List Action}
    {point : IoPoint} {e : Exn} (raised : io.raises point = some e) (absent : mark ∉ log) :
    Finished mark P io log :=
  .inl ⟨absent, fun undisturbed => by simp [undisturbed point] at raised⟩

/-- The message behind the download. -/
abbrev received : Action := .sendMessage requestGetWorkFileReceived

theorem other_message : requestGetWorkFile ≠ requestGetWorkFileReceived := by decide

theorem transferFile_leaves (io : Io) (fileDim : Int) (s : Session)
    (available : toInt32 fileDim ≤ s.ns.rest.length) :
    ∃ fuel thrown s', transferFile io fuel fileDim s = some (thrown, s') := by
  unfold transferFile
  cases io.raises .setLength with
  | some e => exact ⟨0, _, _, rfl⟩
  | none =>
    cases io.raises .sendMessage with
    | some e => exact ⟨0, _, _, rfl⟩
    | none => exact recvFile_leaves io available

theorem transferFile_post {io : Io} {fileDim : Int} {s s' : Session} {fuel : Nat}
    {thrown : Option Exn} (available : toInt32 fileDim ≤ s.ns.rest.length)
    (ended : transferFile io fuel fileDim s = some (thrown, s')) :
    (Undisturbed io → thrown = none) ∧ ∃ moved, s'.log = s.log ++ moved ∧ received ∉ moved ∧
      (thrown = none → bytesRead moved = (toInt32 fileDim).toNat) := by
  unfold transferFile at ended
  split at ended
  · next raised =>
    cases ended
    refine ⟨fun undisturbed => ?_, [], by simp, by simp, nofun⟩
    exact absurd (undisturbed .setLength) (by simp [raised])
  · split at ended
    · next raised =>
      cases ended
      refine ⟨fun undisturbed => ?_, [.setLength fileDim], by simp [Session.act], by simp, nofun⟩
      exact absurd (undisturbed .sendMessage) (by simp [raised])
    · obtain ⟨fine, moved, log, silent, read⟩ := recvFile_post (by exact available) ended
      refine ⟨fine, [.setLength fileDim, .sendMessage requestGetWorkFile] ++ moved, ?_, ?_, ?_⟩
      · simp [log, Session.act]
      · simp [silent, other_message.symm]
      · intro none
        simp [bytesRead, read none]

/-- A valid response with work has a file name, and its length is not negative. -/
theorem isValid_fields {naming : Naming} {res : ResponseGetWork}
    (valid : res.isValid naming = .ok none) (work : res.workId ≠ none) :
    res.fileName ≠ none ∧ 0 ≤ res.fileDim := by
  obtain ⟨response, workId, fileName, fileDim⟩ := res
  unfold ResponseGetWork.isValid at valid
  simp only [work, if_false] at valid
  split at valid
  · cases valid
  · cases fileName with
    | none => cases valid
    | some fileName =>
      simp only at valid
      split at valid
      · cases valid
      · next sign => exact ⟨nofun, by simpa using sign⟩

/-- What `AcquireWork` does with the outcome of the transfer. -/
def behindTransfer (naming : Naming) (io : Io) (workId : Int) (path : WString) :
    Option Exn × Session → Except Exn (Option Job) × Session
  | (some e, s) => if e = .io then dropFile io (naming.fullPath path) e s else (.error e, s)
  | (none, s) => startWork io workId path s

/-- A response that leads to a file being created. -/
structure Creates (naming : Naming) (io : Io) (res : ResponseGetWork) (workId : Int)
    (name : WString) : Prop where
  valid : res.isValid naming = .ok none
  work : res.workId = some workId
  named : res.fileName = some name
  combine : io.raises .combine = none
  create : io.raises .create = none

theorem acquireWork_eq {naming : Naming} {io : Io} {res : ResponseGetWork} {workId : Int}
    {name : WString} (creates : Creates naming io res workId name) (fuel : Nat) (s : Session) :
    acquireWork naming io fuel res s =
      (transferFile io fuel res.fileDim
        (s.act (.createFile (naming.fullPath (naming.inTempPath name))))).map
          (behindTransfer naming io workId (naming.inTempPath name)) := by
  unfold acquireWork
  simp only [creates.valid, creates.work, creates.named, creates.combine, creates.create]
  cases transferFile io fuel res.fileDim
      (s.act (.createFile (naming.fullPath (naming.inTempPath name)))) with
  | none => rfl
  | some outcome =>
    obtain ⟨thrown, s'⟩ := outcome
    cases thrown with
    | none => rfl
    | some e =>
      rw [Option.map_some, behindTransfer]
      simp only
      split <;> rfl

/-- Otherwise `AcquireWork` ends at once, and for a valid response with work it was disturbed. -/
theorem acquireWork_cases (naming : Naming) (io : Io) (res : ResponseGetWork) (s : Session) :
    (∃ workId name, Creates naming io res workId name) ∨
      (res.isValid naming = .ok none → res.workId ≠ none → ¬ Undisturbed io) ∧
        ∃ result, ∀ fuel, acquireWork naming io fuel res s = some (result, s) := by
  unfold acquireWork
  cases valid : res.isValid naming with
  | error e => exact .inr ⟨nofun, _, fun _ => rfl⟩
  | ok reason =>
    cases reason with
    | some reason => exact .inr ⟨nofun, _, fun _ => rfl⟩
    | none =>
      cases work : res.workId with
      | none => exact .inr ⟨fun _ some => absurd rfl some, _, fun _ => rfl⟩
      | some workId =>
        cases named : res.fileName with
        | none => exact absurd named (isValid_fields valid (by simp [work])).1
        | some name =>
          cases combine : io.raises .combine with
          | some e =>
            refine .inr ⟨fun _ _ undisturbed => ?_, _, fun _ => rfl⟩
            rw [undisturbed .combine] at combine
            cases combine
          | none =>
            cases create : io.raises .create with
            | some e =>
              refine .inr ⟨fun _ _ undisturbed => ?_, _, fun _ => rfl⟩
              rw [undisturbed .create] at create
              cases create
            | none => exact .inl ⟨workId, name, valid, work, named, combine, create⟩

/-- What the handler of an `IOException` does, as far as it comes. -/
theorem dropFile_log (io : Io) (file : WString) (e : Exn) (s : Session) :
    ∃ moved, (dropFile io file e s).2.log = s.log ++ moved ∧
      moved <+: [.setLength 0, .close, .deleteFile file] := by
  unfold dropFile
  cases io.raises .dropLength with
  | some e' => exact ⟨[], by simp, List.nil_prefix⟩
  | none =>
    cases io.raises .dropClose with
    | some e' => exact ⟨[.setLength 0], rfl, by simp⟩
    | none =>
      cases io.raises .delete with
      | some e' => exact ⟨[.setLength 0, .close], by simp [Session.act], by simp⟩
      | none => exact ⟨_, by simp [Session.act], List.prefix_refl _⟩

theorem acquireWork_leaves (naming : Naming) (io : Io) (res : ResponseGetWork) (ns : NetworkStream)
    (available : toInt32 res.fileDim ≤ ns.rest.length) :
    ∃ fuel result s, acquireWork naming io fuel res ⟨ns, []⟩ = some (result, s) := by
  rcases acquireWork_cases naming io res ⟨ns, []⟩ with ⟨workId, name, creates⟩ | ⟨-, result, stops⟩
  · obtain ⟨fuel, thrown, s', ended⟩ := transferFile_leaves io res.fileDim
      ((Session.mk ns []).act (.createFile (naming.fullPath (naming.inTempPath name)))) available
    exact ⟨fuel, _, _, by rw [acquireWork_eq creates, ended, Option.map_some]⟩
  · exact ⟨0, result, _, stops 0⟩

theorem startWork_finished {io : Io} {n : Nat} (workId : Int) (path : WString) {s : Session}
    (fresh : received ∉ s.log) (read : bytesRead s.log = n) :
    Finished received (fun first => bytesRead first = n) io (startWork io workId path s).2.log := by
  unfold startWork
  split
  · next raised => exact finished_of_raised raised fresh
  · have closed : received ∉ (s.act .close).log := by simp [Session.act, fresh]
    split
    · next raised => exact finished_of_raised raised closed
    · refine .inr ⟨(s.act .close).log, ?_, closed, ?_⟩
      · split <;> rfl
      · simp [Session.act, bytesRead, read]

/-- However a valid response is handled, the log ends with the last message after `(int)FileDim`
payload bytes, or the method was disturbed before. -/
theorem acquireWork_post {naming : Naming} {io : Io} {res : ResponseGetWork} {ns : NetworkStream}
    {fuel : Nat} {result : Except Exn (Option Job)} {s : Session}
    (valid : res.isValid naming = .ok none) (work : res.workId ≠ none)
    (available : toInt32 res.fileDim ≤ ns.rest.length)
    (ended : acquireWork naming io fuel res ⟨ns, []⟩ = some (result, s)) :
    Finished received (fun first => bytesRead first = (toInt32 res.fileDim).toNat) io s.log := by
  rcases acquireWork_cases naming io res ⟨ns, []⟩ with
    ⟨workId, name, creates⟩ | ⟨disturbed, result', stops⟩
  · rw [acquireWork_eq creates, Option.map_eq_some_iff] at ended
    obtain ⟨⟨thrown, s'⟩, transferred, ended⟩ := ended
    obtain ⟨fine, moved, log, silent, read⟩ := transferFile_post available transferred
    have fresh : received ∉ s'.log := by
      rw [log]
      simpa [Session.act] using silent
    have last : s = (behindTransfer naming io workId (naming.inTempPath name) (thrown, s')).2 := by
      rw [ended]
    rw [last]
    cases thrown with
    | none =>
      apply startWork_finished workId (naming.inTempPath name) fresh
      rw [log]
      simpa [Session.act, bytesRead] using read rfl
    | some e =>
      refine .inl ⟨?_, fun undisturbed => absurd (fine undisturbed) nofun⟩
      rw [behindTransfer]
      split
      · obtain ⟨moved, dropped, short⟩ :=
          dropFile_log io (naming.fullPath (naming.inTempPath name)) e s'
        rw [dropped, List.mem_append, not_or]
        refine ⟨fresh, fun member => ?_⟩
        simpa using short.subset member
      · exact fresh
  · rw [stops fuel] at ended
    cases ended
    exact .inl ⟨by simp, disturbed valid work⟩

theorem available_of_announced {fileDim : Int} {length : Nat} (positive : 0 ≤ fileDim)
    (announced : fileDim ≤ length) : toInt32 fileDim ≤ length := by
  obtain ⟨n, same⟩ := Int.eq_ofNat_of_zero_le positive
  rw [same] at announced ⊢
  rcases Nat.lt_or_ge n 0x80000000 with small | large
  · rw [toInt32_eq small]
    exact announced
  · have less := toInt32_le large
    omega

/-- On an open connection the download is as long as announced for all cuts and disturbances,
exactly if the length is below 2^31. -/
theorem readsAnnounced_iff {naming : Naming} {res : ResponseGetWork}
    (valid : res.isValid naming = .ok none) (work : res.workId ≠ none) :
    (∀ io ns, res.fileDim ≤ ns.rest.length → ReadsAnnounced naming io res ns) ↔
      res.fileDim < 0x80000000 := by
  have positive := (isValid_fields valid work).2
  obtain ⟨n, same⟩ := Int.eq_ofNat_of_zero_le positive
  constructor
  · intro all
    -- an undisturbed run, the stream as long as announced, every read as large as it can be
    obtain ⟨fuel, result, s, ended, completes, announced⟩ :=
      all ⟨fun _ => none, fun _ => buffLength⟩ ⟨0, List.replicate n 0⟩ (by simp [same])
    have undisturbed : Undisturbed ⟨fun _ => none, fun _ => buffLength⟩ := fun _ => rfl
    have available : toInt32 res.fileDim ≤ (List.replicate n (0 : UInt8)).length :=
      available_of_announced positive (by simp [same])
    have finished := acquireWork_post valid work available ended
    obtain ⟨before, after, split⟩ := List.append_of_mem (completes undisturbed)
    have read := finished.before split
    have whole := announced before after split
    rw [same] at read whole ⊢
    rcases Nat.lt_or_ge n 0x80000000 with small | large
    · omega
    · have less := toInt32_le large
      omega
  · intro small io ns available
    have enough := available_of_announced positive available
    obtain ⟨fuel, result, s, ended⟩ := acquireWork_leaves naming io res ns enough
    have finished := acquireWork_post valid work enough ended
    refine ⟨fuel, result, s, ended, finished.mem, fun before after split => ?_⟩
    have read := finished.before split
    rw [read, same, toInt32_eq (by omega)]
    omega

/-! ### The upload -/

/-- What the turns so far have sent; the last buffer may go beyond `dim`. -/
structure Sent (dim : Int) (file : List UInt8) (log₀ : List Action) (s : Sending) : Prop where
  bounds : 0 ≤ s.written ∧ (s.written ≤ 0 ∨ s.written < dim + buffLength)
  left : s.written + s.fs.length = file.length
  moved : ∃ moved, s.log = log₀ ++ moved ∧ (bytesSent moved : Int) = s.written ∧
    .waitReportAck ∉ moved

theorem sent_start (dim : Int) (file : List UInt8) (log₀ : List Action) :
    Sent dim file log₀ ⟨0, file, log₀⟩ :=
  ⟨by simp, by simp, [], by simp, rfl, by simp⟩

theorem sendFileRound_next {io : Io} {dim : Int} {file : List UInt8} {log₀ : List Action} {k : Nat}
    {s s' : Sending} (fits : dim ≤ file.length) (inv : Sent dim file log₀ s)
    (next : sendFileRound io dim k s = .inl s') :
    Sent dim file log₀ s' ∧ s'.fs.length < s.fs.length := by
  obtain ⟨bounds, left, moved, log, count, silent⟩ := inv
  unfold sendFileRound at next
  split at next
  · next more =>
    split at next
    · cases next
    · generalize got : min (min buffLength s.fs.length) (max 1 (io.cut k)) = r at next
      have size : 0 < r ∧ r ≤ buffLength ∧ r ≤ s.fs.length := by
        unfold buffLength at got ⊢
        omega
      simp only at next
      split at next
      · cases next
      · cases next
        refine ⟨⟨by simp only; omega, by simp only [List.length_drop]; omega, ?_⟩, ?_⟩
        · refine ⟨moved ++ [.send (s.fs.take r)], by simp [log], ?_, by simp [silent]⟩
          simp only [bytesSent_append, bytesSent, List.length_take]
          omega
        · simp only [List.length_drop]
          omega
  · cases next

theorem sendFile_leaves (io : Io) {dim : Int} {file : List UInt8} (fits : dim ≤ file.length)
    (log₀ : List Action) : ∃ fuel thrown log, sendFile io fuel dim file log₀ = some (thrown, log) := by
  have leaves : Leaves (sendFileRound io dim) 0 ⟨0, file, log₀⟩ :=
    leaves_of_measure (fun s => s.fs.length) (fun k a b => sendFileRound_next fits) 0
      (sent_start dim file log₀)
  obtain ⟨fuel, ⟨thrown, log⟩, ended⟩ := leaves
  exact ⟨fuel, thrown, log, ended⟩

/-- Unless something was raised, `__sendFile` has sent `dim` bytes, and less than a buffer more. -/
theorem sendFile_post {io : Io} {dim : Int} {file : List UInt8} {log₀ log : List Action}
    {fuel : Nat} {thrown : Option Exn} (fits : dim ≤ file.length)
    (ended : sendFile io fuel dim file log₀ = some (thrown, log)) :
    (Undisturbed io → thrown = none) ∧ ∃ moved, log = log₀ ++ moved ∧ .waitReportAck ∉ moved ∧
      (thrown = none → dim ≤ bytesSent moved ∧ bytesSent moved ≤ file.length ∧
        (bytesSent moved = 0 ∨ (bytesSent moved : Int) < dim + buffLength)) := by
  apply retry_post (Sent dim file log₀)
    (fun b : Option Exn × List Action => (Undisturbed io → b.1 = none) ∧ ∃ moved,
      b.2 = log₀ ++ moved ∧ .waitReportAck ∉ moved ∧
      (b.1 = none → dim ≤ bytesSent moved ∧ bytesSent moved ≤ file.length ∧
        (bytesSent moved = 0 ∨ (bytesSent moved : Int) < dim + buffLength)))
    (fun k a b inv next => (sendFileRound_next fits inv next).1) ?_ (sent_start dim file log₀) ended
  intro k a b inv last
  obtain ⟨bounds, left, moved, log, count, silent⟩ := inv
  unfold sendFileRound at last
  split at last
  · split at last
    · next raised =>
      cases last
      refine ⟨fun undisturbed => ?_, moved, log, silent, nofun⟩
      exact absurd (undisturbed (.read k)) (by simp [raised])
    · simp only at last
      split at last
      · next raised =>
        cases last
        refine ⟨fun undisturbed => ?_, moved, log, silent, nofun⟩
        exact absurd (undisturbed (.write k)) (by simp [raised])
      · cases last
  · cases last
    refine ⟨fun _ => rfl, moved, log, silent, fun _ => ?_⟩
    omega

theorem toInt32_le_self (n : Nat) : toInt32 n ≤ n := by
  rcases Nat.lt_or_ge n 0x80000000 with small | large
  · rw [toInt32_eq small]
  · have less := toInt32_le large
    omega

theorem reportWork_leaves (io : Io) (report : List UInt8) :
    ∃ fuel thrown log, reportWork io fuel report = some (thrown, log) := by
  unfold reportWork
  cases io.raises .sendReport with
  | some e => exact ⟨0, _, _, rfl⟩
  | none =>
    cases io.raises .openRead with
    | some e => exact ⟨0, _, _, rfl⟩
    | none =>
      obtain ⟨fuel, thrown, log, ended⟩ := sendFile_leaves io (toInt32_le_self report.length)
        [.announceReport report.length]
      refine ⟨fuel, ?_⟩
      simp only [ended]
      cases thrown <;> exact ⟨_, _, rfl⟩

/-- However the upload goes, the log ends with the wait after `(int)f.Length` bytes and less than
a buffer more, or the method was disturbed before. -/
theorem reportWork_post {io : Io} {fuel : Nat} {report : List UInt8} {thrown : Option Exn}
    {log : List Action} (ended : reportWork io fuel report = some (thrown, log)) :
    Finished .waitReportAck (fun first => .announceReport report.length ∈ first ∧
      toInt32 report.length ≤ bytesSent first ∧ bytesSent first ≤ report.length ∧
      (bytesSent first = 0 ∨ (bytesSent first : Int) < toInt32 report.length + buffLength)) io
      log := by
  unfold reportWork at ended
  simp only at ended
  split at ended
  · next raised =>
    cases ended
    exact finished_of_raised raised (by simp)
  · split at ended
    · next raised =>
      cases ended
      exact finished_of_raised raised (by simp)
    · cases sent : sendFile io fuel (toInt32 report.length) report
          [.announceReport report.length] with
      | none =>
        rw [sent] at ended
        cases ended
      | some outcome =>
        obtain ⟨thrown', log'⟩ := outcome
        rw [sent] at ended
        obtain ⟨fine, moved, logged, silent, count⟩ :=
          sendFile_post (toInt32_le_self report.length) sent
        have fresh : .waitReportAck ∉ log' := by simp [logged, silent]
        cases thrown' with
        | some e =>
          cases ended
          exact .inl ⟨fresh, fun undisturbed => absurd (fine undisturbed) nofun⟩
        | none =>
          cases ended
          refine .inr ⟨log', rfl, fresh, by simp [logged], ?_⟩
          simpa [logged, bytesSent] using count rfl

/-- The upload is as long as announced for all cuts and disturbances, exactly if the length is
below 2^31. -/
theorem sendsAnnounced_iff (report : List UInt8) :
    (∀ io, SendsAnnounced io report) ↔ report.length < 0x80000000 := by
  constructor
  · intro all
    obtain ⟨fuel, thrown, log, ended, completes, announced⟩ :=
      all ⟨fun _ => none, fun _ => buffLength⟩
    have undisturbed : Undisturbed ⟨fun _ => none, fun _ => buffLength⟩ := fun _ => rfl
    obtain ⟨before, after, split⟩ := List.append_of_mem (completes undisturbed)
    have sent := (reportWork_post ended).before split
    have whole := (announced before after split).2
    rcases Nat.lt_or_ge report.length 0x80000000 with small | large
    · exact small
    · have less := toInt32_le large
      unfold buffLength at sent
      omega
  · intro small io
    obtain ⟨fuel, thrown, log, ended⟩ := reportWork_leaves io report
    have finished := reportWork_post ended
    refine ⟨fuel, thrown, log, ended, finished.mem, fun before after split => ?_⟩
    have sent := finished.before split
    rw [toInt32_eq small] at sent
    exact ⟨sent.1, by omega⟩

/-- For every length, download and upload. -/
theorem transferred_iff (n : Nat) :
    (∀ naming res, res.isValid naming = .ok none → res.workId ≠ none → res.fileDim = (n : Int) →
      ((∀ io ns, res.fileDim ≤ ns.rest.length → ReadsAnnounced naming io res ns) ↔
        n < 0x80000000)) ∧
    ∀ report : List UInt8, report.length = n →
      ((∀ io, SendsAnnounced io report) ↔ n < 0x80000000) := by
  refine ⟨fun naming res valid work announced => ?_, fun report length => ?_⟩
  · rw [readsAnnounced_iff valid work, announced]
    omega
  · rw [sendsAnnounced_iff, length]

/-- Names compared unit by unit, and a simple file name. -/
def plainNaming : Naming where
  compareTo s t := if s = t then 0 else 1
  trim s := s
  getDirectoryName _ := .ok (some [])
  inTempPath s := wide "C:\\Windows\\Temp\\" ++ s
  fullPath s := s

/-- Work with a file of `fileDim` bytes. -/
def workOf (fileDim : Int) : ResponseGetWork :=
  ⟨wide "GET_WORK_RESP", some 7, some (wide "setup.exe"), fileDim⟩

theorem workOf_valid (n : Nat) : (workOf n).isValid plainNaming = .ok none := by
  have sign : ¬ ((n : Int) < 0) := by omega
  have known : plainNaming.compareTo (workOf n).response (wide "GET_WORK_RESP") = 0 := by
    simp [plainNaming, workOf]
  simp [ResponseGetWork.isValid, known]
  simp [workOf, sign, plainNaming, bind, Except.bind, pure, Except.pure]

theorem transferred_iff_installer :
    ReadsAnnounced plainNaming ⟨fun _ => none, fun _ => 1⟩ (workOf (3 : Nat)) ⟨0, [1, 2, 3, 4]⟩ ∧
      SendsAnnounced ⟨fun _ => none, fun _ => 1⟩ [1, 2, 3] :=
  ⟨((transferred_iff 3).1 plainNaming (workOf (3 : Nat)) (workOf_valid 3) nofun rfl).mpr
      (by decide) _ _ (by decide),
    ((transferred_iff 3).2 [1, 2, 3] rfl).mpr (by decide) _⟩

/-- An installer of 2^31 bytes is accepted, and none of it is read. -/
theorem not_transferred : ¬ ∀ n : Nat, n < 0x8000000000000000 → ∀ naming res,
    res.isValid naming = .ok none → res.workId ≠ none → res.fileDim = (n : Int) →
      ∀ io ns, res.fileDim ≤ ns.rest.length → ReadsAnnounced naming io res ns := by
  intro all
  have here := all 0x80000000 (by decide) plainNaming (workOf (0x80000000 : Nat))
    (workOf_valid 0x80000000) nofun rfl
  have small := (readsAnnounced_iff (workOf_valid 0x80000000) nofun).mp here
  exact absurd small (by decide)

end GuestAgent.Guarantees.FileTransfer
