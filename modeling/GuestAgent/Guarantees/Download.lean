import GuestAgent.Guarantees.FileTransfer

/-!
The contents of the download, over any cutting of the stream into reads.

Whatever the stream, `__recvFile` returns only with the first `dim` bytes in the file and nothing
else read. But a `Read` that answers 0 changes nothing in its loop: on a stream that ends before
`dim` bytes it goes on reading, so `AcquireWork` never comes to the handler that deletes the file.
-/
namespace GuestAgent.Guarantees.Download
open Library Source Library.Retry FileTransfer

/-- The bytes the log has written to the file. -/
def written : List Action → List UInt8
  | [] => []
  | .write data :: log => data ++ written log
  | _ :: log => written log

/-- The contents of a file over whose beginning `data` is written. -/
def overwrite (file data : List UInt8) : List UInt8 := data ++ file.drop data.length

/-- `__recvFile` ends; if it returns, it has read the first `dim` bytes and written them to the
file, which is no longer than that; if the stream is shorter, it throws, and `AcquireWork` deletes
the file it made. -/
structure ExactAndTotal (io : Io) (dim : Int) (s : Session) : Prop where
  ends : ∃ fuel thrown s', recvFile io fuel dim s = some (thrown, s')
  contents : ∀ fuel s', recvFile io fuel dim s = some (none, s') →
    s'.ns.rest = s.ns.rest.drop dim.toNat ∧ ∃ moved, s'.log = s.log ++ moved ∧
      ∀ file : List UInt8, file.length ≤ dim.toNat →
        overwrite file (written moved) = s.ns.rest.take dim.toNat
  short : s.ns.rest.length < dim →
    ∀ fuel thrown s', recvFile io fuel dim s = some (thrown, s') → thrown ≠ none
  deleted : s.ns.rest.length < dim → ∀ naming res fileName, res.isValid naming = .ok none →
    res.workId ≠ none → res.fileName = some fileName → toInt32 res.fileDim = dim →
    (∀ p ∈ [.combine, .create, .dropLength, .dropClose, .delete], io.raises p = none) →
    ∃ fuel result s', acquireWork naming io fuel res ⟨s.ns, []⟩ = some (result, s') ∧
      .deleteFile (naming.fullPath (naming.inTempPath fileName)) ∈ s'.log

@[simp] theorem written_append (first second : List Action) :
    written (first ++ second) = written first ++ written second := by
  induction first with
  | nil => rfl
  | cons a first ih => cases a <;> simp [written, ih]

theorem overwrite_of_length_le {file data : List UInt8} (short : file.length ≤ data.length) :
    overwrite file data = data := by
  rw [overwrite, List.drop_eq_nil_of_le short, List.append_nil]

/-- After `n` bytes the file has the first `n` of the stream, and the stream the others. -/
def Copied (dim : Int) (s₀ : Session) (s : Receiving) : Prop :=
  ∃ n : Nat, s.tot = n ∧ n ≤ s₀.ns.rest.length ∧ (n : Int) ≤ max dim 0 ∧
    s.session.ns.rest = s₀.ns.rest.drop n ∧
    ∃ moved, s.session.log = s₀.log ++ moved ∧ written moved = s₀.ns.rest.take n

theorem copied_start (dim : Int) (s : Session) : Copied dim s ⟨0, s⟩ :=
  ⟨0, rfl, by omega, by omega, rfl, [], by simp, rfl⟩

theorem recvFileRound_copied {io : Io} {dim : Int} {k : Nat} {s₀ : Session} {s s' : Receiving}
    (copied : Copied dim s₀ s) (next : recvFileRound io dim k s = .inl s') : Copied dim s₀ s' := by
  obtain ⟨n, tot, inside, bound, rest, moved, log, bytes⟩ := copied
  obtain ⟨more, r, asked, delivered, -, tot', rest', logged⟩ := recvFileRound_inl next
  rw [rest, List.length_drop] at delivered
  refine ⟨n + r, by omega, by omega, by omega, by rw [rest', rest, List.drop_drop], ?_⟩
  refine ⟨moved ++ [.read (s.session.ns.rest.take r), .write (s.session.ns.rest.take r)],
    by rw [logged, log, List.append_assoc], ?_⟩
  simp [written, bytes, rest, List.take_add]

/-- A normal return comes after exactly `dim` bytes. -/
def Complete (dim : Int) (s : Session) (b : Option Exn × Session) : Prop :=
  b.1 = none → dim ≤ s.ns.rest.length ∧ b.2.ns.rest = s.ns.rest.drop dim.toNat ∧
    ∃ moved, b.2.log = s.log ++ moved ∧ written moved = s.ns.rest.take dim.toNat

theorem recvFile_complete {io : Io} {dim : Int} {s : Session} {fuel : Nat}
    {b : Option Exn × Session} (ended : recvFile io fuel dim s = some b) : Complete dim s b := by
  refine retry_post (Copied dim s) (Complete dim s) (fun k a b => recvFileRound_copied) ?_
    (copied_start dim s) ended
  intro k a b copied last returned
  obtain ⟨n, tot, inside, bound, rest, moved, log, bytes⟩ := copied
  rcases recvFileRound_inr last with ⟨-, full, same⟩ | ⟨raised, -⟩
  · have whole : n = dim.toNat := by omega
    subst whole
    rw [same]
    exact ⟨by omega, rest, moved, log, bytes⟩
  · exact absurd returned raised

/-- Nothing ends the loop on a stream that is too short, if nothing is raised. -/
theorem recvFile_endless {io : Io} {dim : Int} {s : Session} (undisturbed : Undisturbed io)
    (short : s.ns.rest.length < dim) (fuel : Nat) : recvFile io fuel dim s = none := by
  refine retry_none (Copied dim s) ?_ fuel 0 (copied_start dim s)
  intro k a copied
  have goes : ∃ a', recvFileRound io dim k a = .inl a' := by
    obtain ⟨n, tot, inside, -⟩ := copied
    have more : a.tot < dim := by omega
    simp only [recvFileRound, if_pos more, undisturbed (.read k), undisturbed (.write k)]
    exact ⟨_, rfl⟩
  obtain ⟨a', next⟩ := goes
  exact ⟨a', next, recvFileRound_copied copied next⟩

/-- The download is exact and total, whatever is raised, exactly if the stream has as many bytes
as asked for. -/
theorem exact_and_total_iff (cut : Nat → Nat) (dim : Int) (s : Session) :
    (∀ raises, ExactAndTotal ⟨raises, cut⟩ dim s) ↔ dim ≤ s.ns.rest.length := by
  constructor
  · intro all
    by_contra short
    obtain ⟨fuel, thrown, s', ended⟩ := (all fun _ => none).ends
    rw [recvFile_endless (fun _ => rfl) (by omega)] at ended
    cases ended
  · intro available raises
    refine ⟨recvFile_leaves _ available, fun fuel s' ended => ?_, fun short => ?_, fun short => ?_⟩
    · obtain ⟨-, rest, moved, log, bytes⟩ := recvFile_complete ended rfl
      refine ⟨rest, moved, log, fun file bound => ?_⟩
      rw [overwrite_of_length_le, bytes]
      rw [bytes, List.length_take]
      omega
    · omega
    · omega

/-- One byte arrives where two were announced, and the loop reads on. -/
theorem truncated_download_endless : ¬ ∀ (io : Io) (dim : Int) (s : Session), 0 ≤ dim →
    ExactAndTotal io dim s := by
  intro allTotal
  obtain ⟨fuel, thrown, s', ended⟩ := (allTotal ⟨fun _ => none, fun _ => 1⟩ 2 ⟨⟨0, [1]⟩, []⟩
    (by decide)).ends
  rw [recvFile_endless (fun _ => rfl) (by decide)] at ended
  cases ended

end GuestAgent.Guarantees.Download
