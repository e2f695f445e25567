import GuestAgent.Source.MitmTest

/-!
Which payloads are extracted from the end of the program's file.

Below 2 GB the offsets do not wrap where it matters: what the program accepts are exactly the files
that end in some data and the length of the data. But the data is read as one item, and an item of
no size is never counted: an empty payload is taken for a failing read, and nothing is written or
signalled.
-/
namespace GuestAgent.Guarantees.PayloadExtraction
open Library Source MitmTest

/-- A program with its payload, the length of which stands behind it. -/
structure PaddedProgram where
  program : List UInt8
  payload : List UInt8
  small : program.length + payload.length + 4 < 0x80000000

def PaddedProgram.bytes (p : PaddedProgram) : List UInt8 :=
  p.program ++ (p.payload ++ leBytes 4 p.payload.length)

/-- The system grants what the program asks for behind the opening of its own file. -/
structure Granted (v : MitmView) : Prop where
  allocates : v.allocates = true
  opensRequestFile : v.opensRequestFile = true
  opensLocalLog : v.opensLocalLog = true
  opensEvent : v.opensEvent = true
  setsEvent : v.setsEvent = true

/-- The payload and the information about the process are written, and the event is signalled. -/
structure Extracted (payload : List UInt8) (v : MitmView) (r : MitmRun) : Prop where
  request : r.temp requestFileName = some payload
  localLog : r.temp localLogFileName = some (narrow (localInfo v))
  signalled : r.signalled = true

/-! ### Reading backwards from the end -/

/-- The difference of the two unsigned numbers, as the `long` it is passed for. -/
theorem offset_eq (position length : UInt32) : (position - length).toInt32.toInt =
    Int.bmod ((position.toNat : ℤ) - length.toNat) 0x100000000 := by
  have bits : (position - length).toInt32.toInt = (position - length).toBitVec.toInt := rfl
  have value : (position - length).toBitVec.toNat = (position - length).toNat := rfl
  have highP := position.toNat_lt
  have highL := length.toNat_lt
  rw [bits, BitVec.toInt_eq_toNat_bmod, value, UInt32.toNat_sub, Int.bmod_def, Int.bmod_def]
  push_cast
  omega

theorem seek_back (bytes : List UInt8) : FileStream.seek ⟨bytes, 0⟩ (-4) .seekEnd =
    if 4 ≤ bytes.length then some ⟨bytes, bytes.length - 4⟩ else none := by
  have back : (-4 : Int32).toInt = -4 := rfl
  rw [FileStream.seek, back]
  simp only
  by_cases long : 4 ≤ bytes.length
  · rw [if_pos long, if_pos (by omega)]
    congr 2
    omega
  · rw [if_neg long, if_neg (by omega)]

section data

variable {bytes : List UInt8} {fileLen dataLen : UInt32}

/-- Data that fit in front of their length are sought where they begin. -/
theorem seek_data (small : bytes.length < 0x80000000) (before : fileLen.toNat + 4 = bytes.length)
    (fits : dataLen.toNat ≤ fileLen.toNat) :
    FileStream.seek ⟨bytes, bytes.length⟩ (fileLen - dataLen).toInt32 .seekSet =
      some ⟨bytes, fileLen.toNat - dataLen.toNat⟩ := by
  have offset := offset_eq fileLen dataLen
  rw [Int.bmod_eq_of_le (by omega) (by omega)] at offset
  rw [FileStream.seek, offset]
  simp only
  rw [if_pos (by omega)]
  congr 2
  omega

/-- Longer data are not read, wherever the offset leads. -/
theorem long_data_unread (small : bytes.length < 0x80000000)
    (before : fileLen.toNat + 4 = bytes.length) (long : fileLen.toNat < dataLen.toNat) :
    (((FileStream.seek ⟨bytes, bytes.length⟩ (fileLen - dataLen).toInt32 .seekSet).getD
      ⟨bytes, bytes.length⟩).read dataLen.toNat 1).items ≠ 1 := by
  have offset := offset_eq fileLen dataLen
  have high := dataLen.toNat_lt
  rw [Int.bmod_def] at offset
  intro one
  rw [FileStream.seek] at one
  simp only at one
  split at one
  · have read := ((FileStream.read_one_iff _ _).mp one).2
    simp only [Option.getD_some] at read
    omega
  · have read := ((FileStream.read_one_iff _ _).mp one).2
    simp only [Option.getD_none] at read
    omega

/-- The data are read as one item exactly if there are any and they fit. -/
theorem data_read_iff (small : bytes.length < 0x80000000)
    (before : fileLen.toNat + 4 = bytes.length) :
    (((FileStream.seek ⟨bytes, bytes.length⟩ (fileLen - dataLen).toInt32 .seekSet).getD
      ⟨bytes, bytes.length⟩).read dataLen.toNat 1).items = 1 ↔
      0 < dataLen.toNat ∧ dataLen.toNat ≤ fileLen.toNat := by
  by_cases fits : dataLen.toNat ≤ fileLen.toNat
  · rw [seek_data small before fits, Option.getD_some, FileStream.read_one_iff]
    simp only
    omega
  · have unread := long_data_unread small before (Nat.not_le.mp fits)
    exact iff_of_false unread fun holds => fits holds.2

end data

/-- The number at the end of a file. -/
def trailer (bytes : List UInt8) : Nat := leValue (bytes.drop (bytes.length - 4))

theorem trailer_lt (bytes : List UInt8) : trailer bytes < 0x100000000 := by
  have value := leValue_lt (bytes.drop (bytes.length - 4))
  have size : (bytes.drop (bytes.length - 4)).length ≤ 4 := by
    rw [List.length_drop]
    omega
  exact Nat.lt_of_lt_of_le value (Nat.pow_le_pow_right (by decide) size)

section trailer

variable {bytes : List UInt8}

/-- The length of the data is the number at the end. -/
theorem data_len_eq (enough : 4 ≤ bytes.length) :
    (leValue (FileStream.read ⟨bytes, bytes.length - 4⟩ 4 1).data).toUInt32.toNat =
      trailer bytes := by
  rw [(FileStream.read_rest (Nat.sub_add_cancel enough)).1]
  exact Nat.mod_eq_of_lt (trailer_lt bytes)

/-- `ftell` in front of the length. -/
theorem file_len_eq (small : bytes.length < 0x80000000) (enough : 4 ≤ bytes.length) :
    (FileStream.tell ⟨bytes, bytes.length - 4⟩).toUInt32.toNat + 4 = bytes.length := by
  rw [FileStream.tell, if_pos (by simp only; omega)]
  have position : (Int32.ofNat (bytes.length - 4)).toUInt32.toNat =
      (bytes.length - 4) % 0x100000000 := rfl
  rw [position, Nat.mod_eq_of_lt (by omega)]
  omega

end trailer

/-- What is read, in terms of the number at the end. -/
theorem readData_eq_ok_iff {v : MitmView} {bytes data : List UInt8} (self : v.moduleFile = some bytes)
    (small : bytes.length < 0x80000000) (room : v.allocates = true) :
    readData v = .ok data ↔ 4 ≤ bytes.length ∧ 0 < trailer bytes ∧
      trailer bytes ≤ bytes.length - 4 ∧
      data = (bytes.drop (bytes.length - 4 - trailer bytes)).take (trailer bytes) := by
  unfold readData
  rw [self]
  simp only [seek_back]
  by_cases enough : 4 ≤ bytes.length
  · rw [if_pos enough, and_iff_right enough]
    have number : (FileStream.read ⟨bytes, bytes.length - 4⟩ 4 1).items = 1 :=
      (FileStream.read_one_iff _ _).mpr ⟨by decide, by simp only; omega⟩
    have behind := (FileStream.read_rest (Nat.sub_add_cancel enough)).2
    simp only [number, room, behind, ne_eq, not_true_eq_false, if_false, Bool.not_true,
      Bool.false_eq_true]
    have file_len := file_len_eq small enough
    have data_len := data_len_eq enough
    by_cases fits : 0 < trailer bytes ∧ trailer bytes ≤ bytes.length - 4
    · have read := (data_read_iff small file_len).mpr (by rw [data_len]; omega)
      have start : (FileStream.tell ⟨bytes, bytes.length - 4⟩).toUInt32.toNat -
          trailer bytes = bytes.length - 4 - trailer bytes := by omega
      rw [if_neg (not_not_intro read), seek_data small file_len (by omega), Option.getD_some,
        data_len, start, and_iff_right fits.1, and_iff_right fits.2, Except.ok.injEq, eq_comm,
        FileStream.read, Nat.mul_one]
    · have unread := mt (data_read_iff small file_len).mp (by rw [data_len]; omega)
      rw [if_pos unread]
      exact iff_of_false (by simp) fun holds => fits ⟨holds.1, holds.2.1⟩
  · rw [if_neg enough]
    exact iff_of_false (by simp) fun holds => enough holds.1

theorem trailer_append (front : List UInt8) {n : Nat} (fits : n < 0x100000000) :
    trailer (front ++ leBytes 4 n) = n := by
  have start : (front ++ leBytes 4 n).length - 4 = front.length := by
    rw [List.length_append, leBytes_length, Nat.add_sub_cancel]
  rw [trailer, start, List.drop_left, leValue_leBytes fits]

/-- What is accepted are the files that end in some data and the length of the data; the data are
what is read. -/
theorem readData_eq_ok_iff_padded {v : MitmView} {bytes data : List UInt8}
    (self : v.moduleFile = some bytes) (small : bytes.length < 0x80000000)
    (room : v.allocates = true) :
    readData v = .ok data ↔
      data ≠ [] ∧ ∃ program, bytes = program ++ (data ++ leBytes 4 data.length) := by
  rw [readData_eq_ok_iff self small room]
  constructor
  · intro holds
    obtain ⟨enough, positive, fits, read⟩ := holds
    have length : data.length = trailer bytes := by
      rw [read, List.length_take, List.length_drop]
      omega
    have number : leBytes 4 data.length = bytes.drop (bytes.length - 4) := by
      have four : (bytes.drop (bytes.length - 4)).length = 4 := by
        rw [List.length_drop]
        omega
      have back := leBytes_leValue (bytes.drop (bytes.length - 4))
      rw [four] at back
      rw [length]
      exact back
    have tail : (bytes.drop (bytes.length - 4 - trailer bytes)).drop (trailer bytes) =
        bytes.drop (bytes.length - 4) := by
      rw [List.drop_drop, Nat.sub_add_cancel fits]
    refine ⟨fun none => ?_, bytes.take (bytes.length - 4 - trailer bytes), ?_⟩
    · rw [none] at length
      exact Nat.ne_of_lt positive length
    · rw [number, read, ← tail, List.take_append_drop, List.take_append_drop]
  · intro holds
    obtain ⟨nonempty, program, rfl⟩ := holds
    have size : (program ++ (data ++ leBytes 4 data.length)).length =
        program.length + data.length + 4 := by
      simp only [List.length_append, leBytes_length]
      omega
    have number : trailer (program ++ (data ++ leBytes 4 data.length)) = data.length := by
      rw [← List.append_assoc]
      exact trailer_append _ (by omega)
    have positive := List.length_pos_of_ne_nil nonempty
    rw [number, size]
    refine ⟨by omega, positive, by omega, ?_⟩
    have start : program.length + data.length + 4 - 4 - data.length = program.length := by omega
    rw [start, List.drop_left, List.take_left]

/-! ### The program -/

theorem readData_of_padded {v : MitmView} {p : PaddedProgram} (self : v.moduleFile = some p.bytes)
    (room : v.allocates = true) (data : List UInt8) :
    readData v = .ok data ↔ p.payload ≠ [] ∧ data = p.payload := by
  have small : p.bytes.length < 0x80000000 := by
    have small := p.small
    simp only [PaddedProgram.bytes, List.length_append, leBytes_length]
    omega
  rw [readData_eq_ok_iff_padded self small room]
  constructor
  · intro holds
    obtain ⟨nonempty, program, same⟩ := holds
    have sizes := congrArg List.length same
    simp only [PaddedProgram.bytes, List.length_append, leBytes_length] at sizes
    have payload_fits := p.small
    have numbers := congrArg trailer same
    rw [PaddedProgram.bytes, ← List.append_assoc, ← List.append_assoc,
      trailer_append _ (by omega), trailer_append _ (by omega)] at numbers
    obtain ⟨-, behind⟩ := List.append_inj same (by omega)
    obtain ⟨payload, -⟩ := List.append_inj behind numbers
    exact ⟨payload ▸ nonempty, payload.symm⟩
  · intro holds
    obtain ⟨nonempty, rfl⟩ := holds
    exact ⟨nonempty, p.program, rfl⟩

/-- It does not matter whether the file was created before. -/
theorem write_created (temp : TempFolder) (created : Bool) (name : WString) (bytes : List UInt8) :
    (if created then temp.write name [] else temp).write name bytes = temp.write name bytes := by
  cases created with
  | false => rfl
  | true =>
    funext other
    by_cases same : other = name
    · rw [same, TempFolder.write_self, TempFolder.write_self]
    · rw [if_pos rfl, TempFolder.write_other _ same, TempFolder.write_other _ same,
        TempFolder.write_other _ same]

/-- Without data nothing is signalled. -/
theorem not_signalled {argv : List WString} {v : MitmView} (full : simpleMode argv = false)
    (unread : ∀ data, readData v ≠ .ok data) (temp : TempFolder) :
    (tmain argv v temp).signalled = false := by
  rw [tmain, full, extract]
  cases read : readData v with
  | error failure => rfl
  | ok data => exact absurd read (unread data)

/-- With data that can be written the program comes to its end. -/
theorem tmain_of_data {argv : List WString} {v : MitmView} (full : simpleMode argv = false)
    (granted : Granted v) {data : List UInt8} (read : readData v = .ok data) (temp : TempFolder) :
    tmain argv v temp =
      ⟨(temp.write requestFileName data).write localLogFileName (narrow (localInfo v)), true,
        .ok 0⟩ := by
  rw [tmain, full, extract, read]
  simp only [granted.opensRequestFile, granted.opensLocalLog, granted.opensEvent,
    granted.setsEvent, Bool.false_eq_true, if_true, if_false, Bool.not_true, write_created]

/-- Outside of simple mode the payload is extracted exactly if it is not empty. -/
theorem payload_extracted_iff (p : PaddedProgram) (argv : List WString) (v : MitmView)
    (temp : TempFolder) (self : v.moduleFile = some p.bytes) (full : simpleMode argv = false)
    (granted : Granted v) : Extracted p.payload v (tmain argv v temp) ↔ p.payload ≠ [] := by
  have read := readData_of_padded self granted.allocates
  constructor
  · intro extracted empty
    have unread : ∀ data, readData v ≠ .ok data :=
      fun data done => ((read data).mp done).1 empty
    have signalled := extracted.signalled
    rw [not_signalled full unread] at signalled
    cases signalled
  · intro nonempty
    rw [tmain_of_data full granted ((read p.payload).mpr ⟨nonempty, rfl⟩)]
    refine ⟨?_, TempFolder.write_self (temp.write requestFileName p.payload) localLogFileName _, rfl⟩
    have kept := TempFolder.write_other (temp.write requestFileName p.payload)
      (show requestFileName ≠ localLogFileName by decide) (narrow (localInfo v))
    exact kept.trans (TempFolder.write_self temp requestFileName p.payload)

/-- A process that is granted everything. -/
def grantedProcess (p : PaddedProgram) : MitmView where
  modulePath := wide "C:\\setup.exe"
  moduleFile := some p.bytes
  lastError := 0
  allocates := true
  opensRequestFile := true
  createsLocalLog := true
  opensLocalLog := true
  processId := 1234
  tokenIsElevated := some 1
  opensEvent := true
  setsEvent := true

theorem grantedProcess_granted (p : PaddedProgram) : Granted (grantedProcess p) :=
  ⟨rfl, rfl, rfl, rfl, rfl⟩

/-- `MZ` with the payload `hi`. -/
def greeting : PaddedProgram := ⟨[77, 90], [104, 105], by decide⟩

theorem greeting_extracted :
    Extracted greeting.payload (grantedProcess greeting)
        (tmain [wide "setup.exe"] (grantedProcess greeting) fun _ => none) ↔
      greeting.payload ≠ [] :=
  payload_extracted_iff greeting [wide "setup.exe"] (grantedProcess greeting) (fun _ => none) rfl
    (by decide) (grantedProcess_granted greeting)

/-- `MZ` with the empty payload. -/
def silent : PaddedProgram := ⟨[77, 90], [], by decide⟩

/-- It is taken for a file that cannot be read. -/
theorem silent_fails : ¬ ∀ (p : PaddedProgram) argv v (temp : TempFolder),
    v.moduleFile = some p.bytes → simpleMode argv = false → Granted v →
      Extracted p.payload v (tmain argv v temp) := by
  intro extracted
  have signalled := (extracted silent [wide "setup.exe"] (grantedProcess silent) (fun _ => none) rfl
    (by decide) (grantedProcess_granted silent)).signalled
  exact absurd signalled (by decide)

end GuestAgent.Guarantees.PayloadExtraction
