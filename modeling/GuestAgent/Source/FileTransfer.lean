import GuestAgent.Library.Retry
import GuestAgent.Source.JobExecution
import GuestAgent.Source.TcpFraming

/-!
The installer and the report on the wire: LogicThread.cs, `__recvFile`, `__sendFile`, `AcquireWork`
behind the answer to its first request and `ReportWork`; ResponseGetWork.cs.

A method keeps a log of what it does; the calls that may raise are the points of an `Io`, which
also says how much one `Read` hands over at most. `int` and `long` are integers, and the casts to
`int` wrap. Inside the loops nothing wraps, as the counters stay between zero and the bound.
-/
namespace GuestAgent.Source
open Library Library.Retry

/-- `(int)value` of a `long`, unchecked. -/
def toInt32 (value : Int) : Int := Int.bmod value 0x100000000

/-- `buff.Length`. -/
def buffLength : Nat := 8192

structure ResponseGetWork where
  response : WString
  workId : Option Int
  fileName : Option WString
  fileDim : Int
  deriving DecidableEq, Repr

/-- What the framework does with names: `String.CompareTo`, `Trim`, `Path.GetDirectoryName`,
`Path.Combine` with the directory for temporary files, and the path of the file that `File.Create`
and `File.Delete` mean by a path. -/
structure Naming where
  compareTo : WString → WString → Int
  trim : WString → WString
  getDirectoryName : WString → Except Exn (Option WString)
  inTempPath : WString → WString
  fullPath : WString → WString

/-- `isValid`: `none` if the response is valid, else the reason. -/
def ResponseGetWork.isValid (naming : Naming) (res : ResponseGetWork) :
    Except Exn (Option WString) := do
  if naming.compareTo res.response (wide "GET_WORK_RESP") ≠ 0 then
    return some (wide "command field should be GET_WORK_RESP.")
  else if res.workId = none then return none
  else
    match res.fileName with
    | none => return some (wide "The filename received is null.")
    | some fileName =>
      if res.fileDim < 0 then return some (wide "File dimension is less than 0.")
      else
        match ← naming.getDirectoryName (naming.trim fileName) with
        | none => return none
        | some directory =>
          if directory = [] then return none
          else return some (wide
            "The filename received was composed with directory names. Simple filename was expected.")

/-- The calls that may raise; reads and writes of a loop are counted. -/
inductive IoPoint where
  | combine
  | create
  | setLength
  | sendMessage
  | read (k : Nat)
  | write (k : Nat)
  | close
  | sendReceived
  | start
  | dropLength
  | dropClose
  | sendReport
  | openRead
  | reportAck
  | delete
  deriving DecidableEq, Repr

structure Io where
  raises : IoPoint → Option Exn
  cut : Nat → Nat

/-- What a transfer does, in its order. -/
inductive Action where
  | createFile (path : WString)
  | setLength (value : Int)
  | sendMessage (msg : String)
  | read (data : List UInt8)
  | write (data : List UInt8)
  | close
  | deleteFile (path : WString)
  | announceReport (reportLenInBytes : Int)
  | send (data : List UInt8)
  | waitReportAck
  deriving DecidableEq, Repr

/-- The connection, and what has been done. -/
structure Session where
  ns : NetworkStream
  log : List Action
  deriving DecidableEq, Repr

def Session.act (s : Session) (a : Action) : Session := { s with log := s.log ++ [a] }

/-- `JsonConvert.SerializeObject` of a `RequestGetWorkFile`. -/
def requestGetWorkFile : String := "\x7b\"command\":\"GET_WORK_FILE\"\x7d"

/-- `JsonConvert.SerializeObject` of a `RequestGetWorkFileReceived`. -/
def requestGetWorkFileReceived : String := "\x7b\"command\":\"GET_WORK_FILE_RECEIVED\"\x7d"

/-! ### The download -/

structure Receiving where
  tot : Int
  session : Session

/-- `toread`, how much of `dim` bytes the next `Read` asks for. -/
def toread (dim tot : Int) : Int := if dim - tot > buffLength then buffLength else dim - tot

theorem toread_bounds {dim tot : Int} (more : tot < dim) :
    0 < toread dim tot ∧ toread dim tot ≤ dim - tot := by
  unfold toread buffLength
  split <;> omega

/-- One turn of `__recvFile`; it ends with what was raised, if anything. -/
def recvFileRound (io : Io) (dim : Int) (k : Nat) (s : Receiving) :
    Receiving ⊕ (Option Exn × Session) :=
  if s.tot < dim then
    match io.raises (.read k) with
    | some e => .inr (some e, s.session)
    | none =>
      let ns := s.session.ns
      let r := ns.delivered io.cut (toread dim s.tot).toNat
      let data := ns.rest.take r
      let session : Session := ⟨⟨ns.reads + 1, ns.rest.drop r⟩, s.session.log ++ [.read data]⟩
      match io.raises (.write k) with
      | some e => .inr (some e, session)
      | none => .inl ⟨s.tot + r, session.act (.write data)⟩
  else .inr (none, s.session)

/-- `__recvFile`, watched for `fuel` turns. -/
def recvFile (io : Io) (fuel : Nat) (dim : Int) (s : Session) : Option (Option Exn × Session) :=
  retry (recvFileRound io dim) fuel 0 ⟨0, s⟩

/-- The `try` of `AcquireWork` around the transfer. -/
def transferFile (io : Io) (fuel : Nat) (fileDim : Int) (s : Session) :
    Option (Option Exn × Session) :=
  match io.raises .setLength with
  | some e => some (some e, s)
  | none =>
    let s := s.act (.setLength fileDim)
    match io.raises .sendMessage with
    | some e => some (some e, s)
    | none => recvFile io fuel (toInt32 fileDim) (s.act (.sendMessage requestGetWorkFile))

/-- The handler of an `IOException` there, which throws it again. -/
def dropFile (io : Io) (file : WString) (e : Exn) (s : Session) :
    Except Exn (Option Job) × Session :=
  match io.raises .dropLength with
  | some e' => (.error e', s)
  | none =>
    let s := s.act (.setLength 0)
    match io.raises .dropClose with
    | some e' => (.error e', s)
    | none =>
      let s := s.act .close
      match io.raises .delete with
      | some e' => (.error e', s)
      | none => (.error e, s.act (.deleteFile file))

/-- The rest of `AcquireWork` once the file was received. -/
def startWork (io : Io) (workId : Int) (path : WString) (s : Session) :
    Except Exn (Option Job) × Session :=
  match io.raises .close with
  | some e => (.error e, s)
  | none =>
    let s := s.act .close
    match io.raises .sendReceived with
    | some e => (.error e, s)
    | none =>
      let s := s.act (.sendMessage requestGetWorkFileReceived)
      match io.raises .start with
      | some e => (.error e, s)
      | none => (.ok (some ⟨workId, path⟩), s)

/-- `AcquireWork` from the response `res` on. -/
def acquireWork (naming : Naming) (io : Io) (fuel : Nat) (res : ResponseGetWork) (s : Session) :
    Option (Except Exn (Option Job) × Session) :=
  match res.isValid naming with
  | .error e => some (.error e, s)
  | .ok (some _) => some (.error .protocol, s)
  | .ok none =>
    match res.workId, res.fileName with
    | none, _ => some (.ok none, s)
    | some _, none => some (.error .argumentNull, s)
    | some workId, some fileName =>
      match io.raises .combine, io.raises .create with
      | some e, _ => some (.error e, s)
      | none, some e => some (.error e, s)
      | none, none =>
        let path := naming.inTempPath fileName
        let file := naming.fullPath path
        match transferFile io fuel res.fileDim (s.act (.createFile file)) with
        | none => none
        | some (some e, s) => if e = .io then some (dropFile io file e s) else some (.error e, s)
        | some (none, s) => some (startWork io workId path s)

/-! ### The upload -/

/-- `written`, the bytes of the file not read yet, and what has been done. -/
structure Sending where
  written : Int
  fs : List UInt8
  log : List Action

/-- One turn of `__sendFile`. `fs.Read` hands over at least one byte before the end of the file. -/
def sendFileRound (io : Io) (dim : Int) (k : Nat) (s : Sending) :
    Sending ⊕ (Option Exn × List Action) :=
  if s.written < dim then
    match io.raises (.read k) with
    | some e => .inr (some e, s.log)
    | none =>
      let read := min (min buffLength s.fs.length) (max 1 (io.cut k))
      match io.raises (.write k) with
      | some e => .inr (some e, s.log)
      | none => .inl ⟨s.written + read, s.fs.drop read, s.log ++ [.send (s.fs.take read)]⟩
  else .inr (none, s.log)

/-- `__sendFile`, watched for `fuel` turns. -/
def sendFile (io : Io) (fuel : Nat) (dim : Int) (file : List UInt8) (log : List Action) :
    Option (Option Exn × List Action) :=
  retry (sendFileRound io dim) fuel 0 ⟨0, file, log⟩

/-- `ReportWork` on a connection: the exception it throws again, if any, and what it did. -/
def reportWork (io : Io) (fuel : Nat) (report : List UInt8) : Option (Option Exn × List Action) :=
  let log : List Action := [.announceReport report.length]
  match io.raises .sendReport with
  | some e => some (some e, log)
  | none =>
    match io.raises .openRead with
    | some e => some (some e, log)
    | none =>
      match sendFile io fuel (toInt32 report.length) report log with
      | none => none
      | some (some e, log) => some (some e, log)
      | some (none, log) => some (io.raises .reportAck, log ++ [.waitReportAck])

end GuestAgent.Source
