import GuestAgent.Library.Bytes
import GuestAgent.Library.FileStream
import GuestAgent.Source.Events

/-!
The program an attacker's download is replaced with: MITM Test.cpp, `_tmain` and `IsElevated`.

Its file ends in data and their length. It leaves the data in a file for the guest, a second file
about itself, and signals an event. Names are those of files in the folder `GetTempPath` answers;
what the other calls answer is data.
-/
namespace GuestAgent.Source
open Library

namespace MitmTest

def requestFileName : WString := wide "mitm.log"
def localLogFileName : WString := wide "local_info.log"
def simpleModeSwitch : WString := wide "--WK_SIMPLE_MODE"

/-- The files in the temporary folder. -/
abbrev TempFolder := WString → Option (List UInt8)

def TempFolder.write (temp : TempFolder) (name : WString) (bytes : List UInt8) : TempFolder :=
  fun n => if n = name then some bytes else temp n

theorem TempFolder.write_self (temp : TempFolder) (name : WString) (bytes : List UInt8) :
    temp.write name bytes name = some bytes := if_pos rfl

/-- Writing one file leaves the others alone. -/
theorem TempFolder.write_other (temp : TempFolder) {name other : WString} (differ : other ≠ name)
    (bytes : List UInt8) : temp.write name bytes other = temp other := if_neg differ

structure MitmView where
  modulePath : WString
  /-- The file at that path; `none` if it cannot be opened. -/
  moduleFile : Option (List UInt8)
  /-- `GetLastError` when a message is printed. -/
  lastError : UInt32
  /-- `new char[data_len + 1]`. -/
  allocates : Bool
  opensRequestFile : Bool
  /-- `_tfopen` of the file about the process; nothing is written through it. -/
  createsLocalLog : Bool
  /-- The stream that is opened for the same file. -/
  opensLocalLog : Bool
  processId : Pid
  /-- `TokenIsElevated`; `none` if the token cannot be opened or asked. -/
  tokenIsElevated : Option Int32
  opensEvent : Bool
  setsEvent : Bool

/-- What ends the program early. -/
inductive MitmFailure where
  /-- A message, the last error printed with it, and what `_tmain` returns. -/
  | printed (message : String) (code : UInt32) (result : Int32)
  /-- An exception nobody handles, or a write through a null pointer. -/
  | terminated
  deriving DecidableEq, Repr

/-- What is left by the program. -/
structure MitmRun where
  temp : TempFolder
  signalled : Bool
  ended : Except MitmFailure Int32

/-- Reading the data behind the executable. -/
def readData (v : MitmView) : Except MitmFailure (List UInt8) :=
  match v.moduleFile with
  | none => .error (.printed "Error, cannot open myself. Code %i" v.lastError (-1))
  | some bytes =>
    match FileStream.seek ⟨bytes, 0⟩ (-4) .seekEnd with
    | none => .error (.printed "Error, seek to last 4 bytes of file. Code %i" v.lastError (-1))
    | some f =>
      let file_len := f.tell.toUInt32
      let r := f.read 4 1
      if r.items ≠ 1 then .error (.printed "Error, cannot read data_len. Code %i" v.lastError (-1))
      else
        let data_len := (leValue r.data).toUInt32
        if !v.allocates then .error .terminated
        else
          -- a seek that fails goes unnoticed
          let f := (r.file.seek (file_len - data_len).toInt32 .seekSet).getD r.file
          let r := f.read data_len.toNat 1
          if r.items ≠ 1 then .error (.printed "Error, cannot read data. Code %i" v.lastError (-1))
          else .ok r.data

def isElevated (v : MitmView) : Int32 := v.tokenIsElevated.getD 0

/-- An `int` in an output stream. -/
def shownInt (n : Int32) : WString :=
  if n < 0 then 45 :: toWstring n.toInt.natAbs else toWstring n.toInt.toNat

/-- A wide text in a file opened for text, in the locale a program starts with: the output ends at a
unit that is no byte. -/
def narrow (text : WString) : List UInt8 :=
  (text.takeWhile (· < 256)).flatMap fun c => if c = 10 then [13, 10] else [c.toUInt8]

/-- The three lines about the process. -/
def localInfo (v : MitmView) : WString :=
  toWstring v.processId.toNat ++ wide "\n" ++ shownInt (isElevated v) ++ wide "\n" ++
    v.modulePath ++ wide "\n"

/-- The block that is left out in simple mode. -/
def extract (v : MitmView) (temp : TempFolder) : Except MitmFailure TempFolder :=
  match readData v with
  | .error failure => .error failure
  | .ok data =>
    if v.opensRequestFile then .ok (temp.write requestFileName data) else .error .terminated

def simpleMode (argv : List WString) : Bool := (argv.drop 1).any fun a => a == simpleModeSwitch

/-- `_tmain`. -/
def tmain (argv : List WString) (v : MitmView) (temp : TempFolder) : MitmRun :=
  match if simpleMode argv then .ok temp else extract v temp with
  | .error failure => ⟨temp, false, .error failure⟩
  | .ok temp =>
    let temp := if v.createsLocalLog then temp.write localLogFileName [] else temp
    let temp := if v.opensLocalLog then temp.write localLogFileName (narrow (localInfo v)) else temp
    if !v.opensEvent then
      ⟨temp, false, .error (.printed "Error OpenEvent, code %i" v.lastError (-1))⟩
    else if !v.setsEvent then
      ⟨temp, false, .error (.printed "Error SetEvent, code %i" v.lastError (-2))⟩
    else ⟨temp, true, .ok 0⟩

end MitmTest

end GuestAgent.Source
