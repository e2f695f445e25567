import Mathlib.Data.List.TakeWhile
import GuestAgent.Source.MitmReport

/-!
What of a successful attack reaches the report.

The replaced download writes about itself in the narrow texts of its locale, the agent reads UTF-8.
Both agree on ASCII, so the process id and the privileges arrive. The path of the image does if it is
ASCII; any other one arrives changed or cut off, and its file is not hashed.
-/
namespace GuestAgent.Guarantees.AttackReported
open Library Source MitmTest

/-- A line of ASCII characters. -/
def Plain (text : WString) : Prop := ∀ c ∈ text, c.toNat < 0x80 ∧ isLineEnd c = false

instance (text : WString) : Decidable (Plain text) := inferInstanceAs (Decidable (∀ _ ∈ _, _))

/-- What the report says of the program. -/
structure Reported (v : MitmView) (fs : FileSystem) (info : MitmInfo) : Prop where
  processId : info.processId = some (toWstring v.processId.toNat)
  elevated : info.elevated = some (boolText (isElevated v == 1))
  imagePath : info.imagePath = some v.modulePath ↔ Plain v.modulePath
  imageSha1 : Plain v.modulePath → info.imageSha1 =
    if fs.fileExists v.modulePath then (fs.calculateHash v.modulePath).sha1.map wide else none

/-! ### Numbers -/

/-- A digit or a sign. -/
def Ink (c : WChar) : Prop := isDigit c = true ∨ c = 45

theorem ink_shownInt (n : Int32) : ∀ c ∈ shownInt n, Ink c := by
  intro c member
  unfold shownInt at member
  split at member
  · rcases List.mem_cons.mp member with minus | digit
    · exact .inr minus
    · exact .inl ((toWstring_digits _).2 c digit)
  · exact .inl ((toWstring_digits _).2 c member)

theorem Ink.bounds {c : WChar} (ink : Ink c) : 45 ≤ c.toNat ∧ c.toNat ≤ 57 := by
  rcases ink with digit | rfl
  · have bounds := of_decide_eq_true digit
    omega
  · decide

theorem plain_of_ink {s : WString} (ink : ∀ c ∈ s, Ink c) : Plain s := by
  intro c member
  have bounds := (ink c member).bounds
  have notLf : c ≠ 10 := by
    rintro rfl
    exact absurd bounds (by decide)
  have notCr : c ≠ 13 := by
    rintro rfl
    exact absurd bounds (by decide)
  exact ⟨by omega, by simp [isLineEnd, notLf, notCr]⟩

theorem dropWhile_of_ink {s : WString} (p : WChar → Bool) (stays : ∀ c, Ink c → p c = false)
    (ink : ∀ c ∈ s, Ink c) : s.dropWhile p = s := by
  cases s with
  | nil => rfl
  | cons c rest =>
    have first := stays c (ink c List.mem_cons_self)
    rw [List.dropWhile_cons_of_neg (by simp [first])]

/-- There is nothing to trim from a number. -/
theorem trimmed_of_ink {s : WString} (ink : ∀ c ∈ s, Ink c) :
    (((s.dropWhile isWhite).reverse.dropWhile (· = 0)).dropWhile isWhite).reverse = s := by
  have white : ∀ c, Ink c → isWhite c = false := by
    intro c here
    have bounds := here.bounds
    simp only [isWhite, decide_eq_false_iff_not]
    omega
  have null : ∀ c, Ink c → decide (c = 0) = false := by
    intro c here
    have bounds := here.bounds
    simp only [decide_eq_false_iff_not]
    rintro rfl
    exact absurd bounds (by decide)
  have back : ∀ c ∈ s.reverse, Ink c := fun c member => ink c (List.mem_reverse.mp member)
  rw [dropWhile_of_ink _ white ink, dropWhile_of_ink _ null back, dropWhile_of_ink _ white back,
    List.reverse_reverse]

theorem intParse_toWstring (n : Nat) : intParse (toWstring n) = checkedInt n := by
  have digits := (toWstring_digits n).2
  have body := trimmed_of_ink fun c member => .inl (digits c member)
  have value := parseDigits_toWstring n
  rw [intParse, body]
  split
  next ds same => exact absurd (digits 43 (by rw [same]; simp)) (by decide)
  next ds same => exact absurd (digits 45 (by rw [same]; simp)) (by decide)
  next => rw [value, Except.bind]

theorem checkedInt_toInt (n : Int32) : checkedInt n.toInt = .ok n := by
  have low := n.le_toInt
  have high := n.toInt_lt
  rw [checkedInt, if_pos ⟨low, high⟩, Int32.ofInt_toInt]

theorem checkedInt_ofNat {n : Nat} (small : n < 2 ^ 31) :
    ∃ value : Int32, checkedInt n = .ok value ∧ value.toInt = n := by
  have bounds : -0x80000000 ≤ (n : Int) ∧ (n : Int) < 0x80000000 := by omega
  refine ⟨Int32.ofInt n, ?_, ?_⟩
  · rw [checkedInt, if_pos bounds]
  · exact Int32.toInt_ofInt_of_le bounds.1 bounds.2

theorem checkedInt_large {n : Nat} (large : ¬ n < 2 ^ 31) : checkedInt n = .error .overflow := by
  have bounds : ¬ (-0x80000000 ≤ (n : Int) ∧ (n : Int) < 0x80000000) := by omega
  rw [checkedInt, if_neg bounds]

theorem intParse_shownInt (n : Int32) : intParse (shownInt n) = .ok n := by
  have whole := checkedInt_toInt n
  unfold shownInt
  split
  · next negative =>
    have below := Int32.lt_iff_toInt_lt.mp negative
    have zero : (0 : Int32).toInt = 0 := rfl
    have value := parseDigits_toWstring n.toInt.natAbs
    have same : -(n.toInt.natAbs : Int) = n.toInt := by omega
    have ink : ∀ c ∈ (45 :: toWstring n.toInt.natAbs : WString), Ink c := by
      intro c member
      rcases List.mem_cons.mp member with minus | digit
      · exact .inr minus
      · exact .inl ((toWstring_digits _).2 c digit)
    rw [intParse, trimmed_of_ink ink]
    simp only [value, Except.bind, same, whole]
  · next positive =>
    have above := Int32.lt_iff_toInt_lt.not.mp positive
    have zero : (0 : Int32).toInt = 0 := rfl
    have same : (n.toInt.toNat : Int) = n.toInt := by omega
    rw [intParse_toWstring, same, whole]

/-! ### Lines -/

theorem narrow_cons (c : WChar) (byte : c < 256) (rest : WString) :
    narrow (c :: rest) = (if c = 10 then [13, 10] else [c.toUInt8]) ++ narrow rest := by
  simp [narrow, byte]

theorem narrow_append {text : WString} (bytes : ∀ c ∈ text, c < 256) (rest : WString) :
    narrow (text ++ rest) = narrow text ++ narrow rest := by
  induction text with
  | nil => rfl
  | cons c text ih =>
    have byte := bytes c List.mem_cons_self
    have later := ih fun x member => bytes x (List.mem_cons_of_mem c member)
    rw [List.cons_append, narrow_cons c byte, narrow_cons c byte, later, List.append_assoc]

/-- A text without line ends and without units that are no bytes. -/
theorem narrow_line {text : WString} (bytes : ∀ c ∈ text, c < 256)
    (line : ∀ c ∈ text, isLineEnd c = false) : narrow text = text.map UInt16.toUInt8 := by
  induction text with
  | nil => rfl
  | cons c text ih =>
    have inside : c ≠ 10 := by
      rintro rfl
      exact absurd (line 10 List.mem_cons_self) (by decide)
    have later := ih (fun x member => bytes x (List.mem_cons_of_mem c member))
      fun x member => line x (List.mem_cons_of_mem c member)
    rw [narrow_cons c (bytes c List.mem_cons_self), if_neg inside, later]
    rfl

theorem Plain.byte {text : WString} (plain : Plain text) : ∀ c ∈ text, c < 256 := by
  intro c member
  have low := (plain c member).1
  rw [UInt16.lt_iff_toNat_lt]
  exact Nat.lt_trans low (by decide)

theorem toUInt16_toUInt8 {c : WChar} (byte : c < 256) : c.toUInt8.toUInt16 = c := by
  have value := UInt16.lt_iff_toNat_lt.mp byte
  have bound : (256 : UInt16).toNat = 256 := rfl
  apply UInt16.toNat_inj.mp
  rw [UInt8.toNat_toUInt16, UInt16.toNat_toUInt8]
  omega

theorem map_toUInt16_toUInt8 {text : WString} (bytes : ∀ c ∈ text, c < 256) :
    (text.map UInt16.toUInt8).map UInt8.toUInt16 = text := by
  rw [List.map_map]
  conv_rhs => rw [← List.map_id text]
  exact List.map_congr_left fun c member => toUInt16_toUInt8 (bytes c member)

/-- A plain line in front of other text is written and read as it is. -/
theorem decode_narrow_line (d : Utf8.Decoder) {line : WString} (plain : Plain line) (rest : WString) :
    d.decode (narrow (line ++ 10 :: rest)) = line ++ 13 :: 10 :: d.decode (narrow rest) := by
  have low : ∀ b ∈ line.map UInt16.toUInt8, b.toNat < 0x80 := by
    intro b member
    obtain ⟨c, inside, rfl⟩ := List.mem_map.mp member
    have bound := (plain c inside).1
    rw [UInt16.toNat_toUInt8]
    omega
  rw [narrow_append plain.byte, narrow_line plain.byte fun c member => (plain c member).2,
    narrow_cons 10 (by decide), if_pos rfl, d.decode_append low, map_toUInt16_toUInt8 plain.byte]
  have ends : d.decode (13 :: 10 :: narrow rest) = 13 :: 10 :: d.decode (narrow rest) := by
    rw [d.decode_cons (by decide), d.decode_cons (by decide)]
    rfl
  exact congrArg (line ++ ·) ends

theorem takeWhile_line {line : WString} (inside : ∀ c ∈ line, isLineEnd c = false) (rest : WString) :
    (line ++ 13 :: rest).takeWhile (fun c => !isLineEnd c) = line ∧
      (line ++ 13 :: rest).dropWhile (fun c => !isLineEnd c) = 13 :: rest := by
  have stays : ∀ c ∈ line, (!isLineEnd c) = true := fun c member => by rw [inside c member]; rfl
  rw [List.takeWhile_append_of_pos stays, List.dropWhile_append_of_pos stays]
  exact ⟨List.append_nil line, rfl⟩

theorem readLine_line {line : WString} (inside : ∀ c ∈ line, isLineEnd c = false) (rest : WString) :
    readLine (line ++ 13 :: 10 :: rest) = (some line, rest) := by
  have some : line ++ 13 :: 10 :: rest ≠ [] := by simp
  obtain ⟨front, back⟩ := takeWhile_line inside (10 :: rest)
  rw [readLine, if_neg some, front, back]
  rfl

/-- A line that is read has no line ends in it, and is no longer than the text. -/
theorem line_of_readLine {text line : WString} (read : (readLine text).1 = some line) :
    line = text.takeWhile (fun c => !isLineEnd c) ∧ (∀ c ∈ line, isLineEnd c = false) ∧
      line.length ≤ text.length := by
  unfold readLine at read
  split at read
  · cases read
  · cases read
    refine ⟨rfl, fun c member => ?_, (List.takeWhile_sublist _).length_le⟩
    simpa using List.mem_takeWhile_imp member

/-- A text is written up to the first unit that is no byte. -/
theorem narrow_cut {text : WString} (line : ∀ c ∈ text, isLineEnd c = false)
    (other : ∃ c ∈ text, ¬ c < 256) (rest : WString) :
    (narrow (text ++ rest)).length < text.length := by
  induction text with
  | nil =>
    obtain ⟨c, inside, -⟩ := other
    cases inside
  | cons x text ih =>
    by_cases byte : x < 256
    · have later : ∃ c ∈ text, ¬ c < 256 := by
        obtain ⟨c, inside, above⟩ := other
        rcases List.mem_cons.mp inside with rfl | behind
        · exact absurd byte above
        · exact ⟨c, behind, above⟩
      have shorter := ih (fun c member => line c (List.mem_cons_of_mem x member)) later
      have inside : x ≠ 10 := by
        rintro rfl
        exact absurd (line 10 List.mem_cons_self) (by decide)
      rw [List.cons_append, narrow_cons x byte, if_neg inside, List.length_append]
      simp only [List.length_cons, List.length_nil]
      omega
    · have nothing : narrow (x :: (text ++ rest)) = [] := by simp [narrow, byte]
      rw [List.cons_append, nothing]
      exact Nat.succ_pos _

/-- A line that is no shorter than the text in front of a line end is that text. -/
theorem eq_of_line {text line rest : WString}
    (same : line = (text ++ 13 :: rest).takeWhile fun c => !isLineEnd c)
    (short : text.length ≤ line.length) : text = line := by
  rw [List.takeWhile_append] at same
  split at same
  · have ends : (13 :: rest).takeWhile (fun c => !isLineEnd c) = [] := rfl
    rw [same, ends, List.append_nil]
  · next cut =>
    have part : (text.takeWhile fun c => !isLineEnd c).length ≤ text.length :=
      (List.takeWhile_sublist _).length_le
    have lengths := congrArg List.length same
    omega

/-- The path arrives exactly if it is a line of ASCII. -/
theorem readLine_path (d : Utf8.Decoder) (path : WString) :
    (readLine (d.decode (narrow (path ++ [10])))).1 = some path ↔ Plain path := by
  constructor
  · intro read
    obtain ⟨same, line, short⟩ := line_of_readLine read
    by_cases bytes : ∀ c ∈ path, c < 256
    · have written : narrow (path ++ [10]) = path.map UInt16.toUInt8 ++ 13 :: [10] := by
        rw [narrow_append bytes, narrow_line bytes line]
        rfl
      rw [written, d.ascii _ 13 _ (by decide)] at same
      have front := d.length_le (path.map UInt16.toUInt8)
      rw [List.length_map] at front
      have arrived : d.decode (path.map UInt16.toUInt8) = path := eq_of_line same front
      have low := (d.decode_eq_iff _).mp (arrived.trans (map_toUInt16_toUInt8 bytes).symm)
      intro c member
      refine ⟨?_, line c member⟩
      have byte := low c.toUInt8 (List.mem_map_of_mem member)
      have same := toUInt16_toUInt8 (bytes c member)
      rw [← same, UInt8.toNat_toUInt16]
      exact byte
    · have other : ∃ c ∈ path, ¬ c < 256 := by
        by_contra none
        exact bytes fun c member => by_contra fun above => none ⟨c, member, above⟩
      have cut := narrow_cut line other [10]
      have whole := d.length_le (narrow (path ++ [10]))
      omega
  · intro plain
    have text := decode_narrow_line d plain []
    rw [text, readLine_line fun c member => (plain c member).2]

/-! ### The two files -/

/-- What is read of the file the program has written. -/
theorem readLocalInfo_written (files : TextFiles) (v : MitmView) :
    readLocalInfo (files.decode (narrow (localInfo v))) =
      (checkedInt v.processId.toNat).map fun processId => ⟨processId, isElevated v == 1,
        (readLine (files.utf8.decode (narrow (v.modulePath ++ [10])))).1⟩ := by
  have digits := toWstring_digits v.processId.toNat
  have idLine := plain_of_ink fun c member => .inl (digits.2 c member)
  have elevatedLine := plain_of_ink (ink_shownInt (isElevated v))
  have lines : localInfo v = toWstring v.processId.toNat ++ 10 ::
      (shownInt (isElevated v) ++ 10 :: (v.modulePath ++ [10])) := by
    simp [localInfo, wide]
  have text : files.decode (narrow (localInfo v)) = files.utf8.decode (narrow (localInfo v)) := by
    rw [lines]
    cases number : toWstring v.processId.toNat with
    | nil => exact absurd number digits.1
    | cons c rest =>
      have bounds := of_decide_eq_true (digits.2 c (by rw [number]; exact List.mem_cons_self))
      have byte : c < 256 := idLine.byte c (by rw [number]; exact List.mem_cons_self)
      have inside : c ≠ 10 := by
        rintro rfl
        exact absurd bounds (by decide)
      have value : c.toUInt8.toNat = c.toNat := by
        rw [UInt16.toNat_toUInt8]
        omega
      rw [List.cons_append, narrow_cons c byte, if_neg inside]
      exact if_pos (by omega)
  rw [text, lines, decode_narrow_line _ idLine, decode_narrow_line _ elevatedLine, readLocalInfo,
    readLine_line fun c member => (idLine c member).2]
  simp only [parseLine, intParse_toWstring]
  rw [readLine_line fun c member => (elevatedLine c member).2]
  simp only [intParse_shownInt]
  cases checkedInt v.processId.toNat with
  | error e => rfl
  | ok processId => rfl

section files

variable {files : TextFiles} {load : WString → Except Exn (List XmlNode)} {fs : FileSystem}
  {temp : TempFolder}

theorem localLog_of_text {text : WString}
    (opened : files.openText temp localLogFileName = .ok (some text)) :
    localLog files true temp = (readLocalInfo text).map some := by
  simp only [localLog, opened]
  change (readLocalInfo text >>= fun info => pure (some info)) = _
  cases readLocalInfo text <;> rfl

theorem mitmInfo_of_error {e : Exn} (failed : localLog files true temp = .error e) :
    mitmInfo files load fs true temp = .error e := by
  simp only [mitmInfo, failed]
  rfl

/-- With the first file read, it depends on the second one whether there is a report. -/
theorem mitmInfo_eq_ok_iff {localInfo : LocalInfo}
    (read : localLog files true temp = .ok (some localInfo)) (info : MitmInfo) :
    mitmInfo files load fs true temp = .ok info ↔ ∃ log, networkLog files load temp = .ok log ∧
      info = {
        succeeded := true
        processId := some (intText localInfo.processId.toInt)
        elevated := some (boolText localInfo.elevated)
        imagePath := localInfo.imagePath
        imageSha1 := localInfo.imagePath.bind fun path =>
          if fs.fileExists path then (fs.calculateHash path).sha1.map wide else none
        log := log } := by
  simp only [mitmInfo, read]
  cases networkLog files load temp with
  | error e => exact ⟨nofun, fun ⟨_, same, _⟩ => nomatch same⟩
  | ok log =>
    constructor
    · intro same
      cases same
      exact ⟨log, rfl, rfl⟩
    · rintro ⟨_, same, rfl⟩
      cases same
      rfl

end files

/-- The files behind the program's own one. -/
theorem temp_of_signalled {argv : List WString} {v : MitmView} {temp : TempFolder}
    (signalled : (tmain argv v temp).signalled = true) : ∃ left : TempFolder,
    (tmain argv v temp).temp =
      let left := if v.createsLocalLog then left.write localLogFileName [] else left
      if v.opensLocalLog then left.write localLogFileName (narrow (localInfo v)) else left := by
  unfold tmain at signalled ⊢
  split at signalled
  · cases signalled
  · next left ran =>
    refine ⟨left, ?_⟩
    simp only
    split
    · rfl
    · split <;> rfl

/-- Where the program has signalled, its second file is written, or empty. -/
theorem localLog_of_signalled {argv : List WString} {v : MitmView} {temp : TempFolder}
    (signalled : (tmain argv v temp).signalled = true) :
    (v.opensLocalLog = true →
      (tmain argv v temp).temp localLogFileName = some (narrow (localInfo v))) ∧
    (v.opensLocalLog = false → v.createsLocalLog = true →
      (tmain argv v temp).temp localLogFileName = some []) := by
  obtain ⟨left, same⟩ := temp_of_signalled signalled
  rw [same]
  constructor
  · intro writes
    simp only [writes, if_true]
    rw [TempFolder.write_self]
  · intro silent creates
    simp only [silent, creates, if_true, Bool.false_eq_true, if_false]
    rw [TempFolder.write_self]

/-- What the agent makes of a signalled attack once the thread that waits for the signal has set
`MitmSucceded`: if the program could write its second file, the report has the number of its process
and its privileges, and its path exactly if that is ASCII; it cannot be made with a process id above
the range of an int, or with a payload that is no XML. If the file was only created, it cannot be
made at all. -/
theorem attack_reported (files : TextFiles) (load : WString → Except Exn (List XmlNode))
    (fs : FileSystem) (argv : List WString) (v : MitmView) (temp : TempFolder)
    (signalled : (tmain argv v temp).signalled = true)
    (closed : files.fails localLogFileName = none) :
    (v.opensLocalLog = true →
      (∀ info, mitmInfo files load fs true (tmain argv v temp).temp = .ok info → Reported v fs info) ∧
      ((∃ info, mitmInfo files load fs true (tmain argv v temp).temp = .ok info) ↔
        v.processId.toNat < 2 ^ 31 ∧ ∃ log, networkLog files load (tmain argv v temp).temp = .ok log)) ∧
    (v.opensLocalLog = false → v.createsLocalLog = true →
      mitmInfo files load fs true (tmain argv v temp).temp = .error .argumentNull) := by
  obtain ⟨written, created⟩ := localLog_of_signalled signalled
  generalize (tmain argv v temp).temp = left at written created
  constructor
  · intro writes
    have text : files.openText left localLogFileName =
        .ok (some (files.decode (narrow (localInfo v)))) := by
      simp only [TextFiles.openText, written writes, closed]
    have path := readLine_path files.utf8 v.modulePath
    have read := readLocalInfo_written files v
    generalize (readLine (files.utf8.decode (narrow (v.modulePath ++ [10])))).1 = line at path read
    have opened := localLog_of_text text
    rw [read] at opened
    by_cases small : v.processId.toNat < 2 ^ 31
    · obtain ⟨number, value, same⟩ := checkedInt_ofNat small
      have shown : intText number.toInt = toWstring v.processId.toNat := by
        rw [same, intText, if_neg (by omega), Int.natAbs_natCast]
      rw [value] at opened
      constructor
      · intro info made
        obtain ⟨log, -, rfl⟩ := (mitmInfo_eq_ok_iff opened info).mp made
        refine ⟨congrArg some shown, rfl, path, fun plain => ?_⟩
        rw [path.mpr plain]
        rfl
      · constructor
        · rintro ⟨info, made⟩
          obtain ⟨log, loaded, -⟩ := (mitmInfo_eq_ok_iff opened info).mp made
          exact ⟨small, log, loaded⟩
        · rintro ⟨-, log, loaded⟩
          exact ⟨_, (mitmInfo_eq_ok_iff opened _).mpr ⟨log, loaded, rfl⟩⟩
    · rw [checkedInt_large small] at opened
      rw [mitmInfo_of_error opened]
      exact ⟨nofun, nofun, fun ⟨bound, _⟩ => absurd bound small⟩
  · intro silent creates
    have text : files.openText left localLogFileName = .ok (some []) := by
      simp only [TextFiles.openText, created silent creates, closed]
      rfl
    exact mitmInfo_of_error (localLog_of_text text)

/-- The program at this path, run with privileges and without a payload. -/
def launched (modulePath : WString) : MitmView where
  modulePath := modulePath
  moduleFile := none
  lastError := 0
  allocates := true
  opensRequestFile := true
  createsLocalLog := true
  opensLocalLog := true
  processId := 4242
  tokenIsElevated := some 1
  opensEvent := true
  setsEvent := true

/-- Files that are not open elsewhere. -/
def standardFiles : TextFiles := ⟨Utf8.standard, fun _ => none, fun _ => none⟩

/-- What it leaves in an empty folder. -/
def leftBy (modulePath : WString) : TempFolder :=
  (tmain [wide "setup.exe", simpleModeSwitch] (launched modulePath) fun _ => none).temp

theorem attack_reported_setup : ∃ info,
    mitmInfo standardFiles (fun _ => .ok []) .bare true (leftBy (wide "C:\\setup.exe")) = .ok info ∧
      Reported (launched (wide "C:\\setup.exe")) .bare info := by
  have reported := (attack_reported standardFiles (fun _ => .ok []) .bare
    [wide "setup.exe", simpleModeSwitch] (launched (wide "C:\\setup.exe")) (fun _ => none) rfl rfl).1 rfl
  obtain ⟨info, made⟩ := reported.2.mpr ⟨by decide, none, rfl⟩
  exact ⟨info, made, reported.1 info made⟩

/-- A letter that is not ASCII is replaced, and the path ends in front of one of another script. -/
example : localLog standardFiles true (leftBy (wide "C:\\" ++ [0xE9, 0x78])) =
    .ok (some ⟨4242, true, some (wide "C:\\" ++ [0xFFFD, 0x78])⟩) ∧
    localLog standardFiles true (leftBy (wide "C:\\" ++ [0x444, 0x78])) =
      .ok (some ⟨4242, true, some (wide "C:\\")⟩) := by decide

end GuestAgent.Guarantees.AttackReported
