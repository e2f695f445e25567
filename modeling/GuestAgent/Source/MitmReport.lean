import GuestAgent.Library.Utf8
import GuestAgent.Source.MitmTest
import GuestAgent.Source.Report

/-!
What the report says of a successful attack: LogicThread.cs, the part of `PrepareReport` that reads
the two files the replaced download has left in the temporary folder.

`int.Parse`, `File.OpenText` and `ReadLine` are the framework's. A text file is UTF-8 unless it
begins with a byte order mark of another encoding. Loading a text as the inner XML of an element is
a parameter.
-/
namespace GuestAgent.Source
open Library MitmTest

/-- A number as an `int`. -/
def checkedInt (value : Int) : Except Exn Int32 :=
  if -0x80000000 ≤ value ∧ value < 0x80000000 then .ok (Int32.ofInt value) else .error .overflow

/-- `int.Parse`: white space around and null characters behind it, an optional sign, digits. -/
def intParse (s : WString) : Except Exn Int32 :=
  match (((s.dropWhile isWhite).reverse.dropWhile (· = 0)).dropWhile isWhite).reverse with
  | 43 :: digits => (parseDigits digits).bind fun n => checkedInt n
  | 45 :: digits => (parseDigits digits).bind fun n => checkedInt (-n)
  | digits => (parseDigits digits).bind fun n => checkedInt n

/-- What the framework makes of the files of the temporary folder. -/
structure TextFiles where
  utf8 : Utf8.Decoder
  /-- The text behind a byte order mark, if the bytes begin with one. -/
  marked : List UInt8 → Option WString
  /-- What opening the file of this name throws, as while somebody has it open for writing. -/
  fails : WString → Option Exn

/-- The text of a file. No byte order mark begins with an ASCII character. -/
def TextFiles.decode (files : TextFiles) : List UInt8 → WString
  | [] => []
  | b :: rest =>
    if 0 < b.toNat ∧ b.toNat < 0x80 then files.utf8.decode (b :: rest)
    else (files.marked (b :: rest)).getD (files.utf8.decode (b :: rest))

/-- `File.OpenText`, if `File.Exists`, read to the end. -/
def TextFiles.openText (files : TextFiles) (temp : TempFolder) (name : WString) :
    Except Exn (Option WString) :=
  match temp name with
  | none => .ok none
  | some bytes =>
    match files.fails name with
    | some e => .error e
    | none => .ok (some (files.decode bytes))

def isLineEnd (c : WChar) : Bool := c = 10 || c = 13

/-- What follows the end of a line. -/
def behindLine : WString → WString
  | 13 :: 10 :: rest => rest
  | _ :: rest => rest
  | [] => []

/-- `ReadLine`, `null` at the end of the text, and what is left to read. -/
def readLine (text : WString) : Option WString × WString :=
  if text = [] then (none, [])
  else (some (text.takeWhile fun c => !isLineEnd c),
    behindLine (text.dropWhile fun c => !isLineEnd c))

/-- `int.Parse(s.ReadLine())`. -/
def parseLine (line : Option WString) : Except Exn Int32 :=
  match line with
  | none => .error .argumentNull
  | some s => intParse s

/-- The contents of local_info.log. -/
structure LocalInfo where
  processId : Int32
  elevated : Bool
  imagePath : Option WString
  deriving DecidableEq, Repr

def readLocalInfo (text : WString) : Except Exn LocalInfo := do
  let processId ← parseLine (readLine text).1
  let text := (readLine text).2
  let elevated := (← parseLine (readLine text).1) == 1
  let text := (readLine text).2
  return ⟨processId, elevated, (readLine text).1⟩

/-- What local_info.log says, if the attack succeeded and the file exists. -/
def localLog (files : TextFiles) (mitmSucceded : Bool) (temp : TempFolder) :
    Except Exn (Option LocalInfo) := do
  if !mitmSucceded then return none
  match ← files.openText temp localLogFileName with
  | none => return none
  | some text => return some (← readLocalInfo text)

/-- The inner XML of `NetworkInfo`, if mitm.log exists. -/
def networkLog (files : TextFiles) (load : WString → Except Exn (List XmlNode))
    (temp : TempFolder) : Except Exn (Option (List XmlNode)) := do
  match ← files.openText temp requestFileName with
  | none => return none
  | some text => return some (← load text)

/-- The element `MitmAttack`, from the files of the temporary folder. -/
def mitmInfo (files : TextFiles) (load : WString → Except Exn (List XmlNode)) (fs : FileSystem)
    (mitmSucceded : Bool) (temp : TempFolder) : Except Exn MitmInfo := do
  let localInfo ← localLog files mitmSucceded temp
  let imagePath := localInfo.bind (·.imagePath)
  let imageSha1 := imagePath.bind fun path =>
    if fs.fileExists path then (fs.calculateHash path).sha1.map wide else none
  let log ← networkLog files load temp
  return {
    succeeded := mitmSucceded
    processId := localInfo.map fun info => intText info.processId.toInt
    elevated := localInfo.map fun info => boolText info.elevated
    imagePath := imagePath
    imageSha1 := imageSha1
    log := log }

end GuestAgent.Source
