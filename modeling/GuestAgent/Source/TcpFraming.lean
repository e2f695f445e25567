import GuestAgent.Library.Bytes
import GuestAgent.Source.Runtime

/-!
The messages to and from the Host Controller: LogicThread.cs, `__send`, `__recv`,
`_send_message` and `_recv_message`. A message is its UTF-8 bytes behind their number as a
32-bit integer in network byte order.

`NetworkStream.Read` returns any positive number of the available bytes up to the requested
one; `cut n` is how many the n-th `Read` would hand over at most. A 32-bit integer is its bit
pattern, so the negative ones are those from 2^31 on. The messages considered are strings of
Unicode scalar values, as Lean's are.
-/
namespace GuestAgent.Source
open Library

/-- The receiving end: the reads made so far, and the bytes sent and not yet read. -/
@[ext]
structure NetworkStream where
  reads : Nat
  rest : List UInt8
  deriving DecidableEq, Repr

/-- `__send`: `ns.Write(data, 0, data.Length)`. -/
def NetworkStream.send (ns : NetworkStream) (data : List UInt8) : NetworkStream :=
  { ns with rest := ns.rest ++ data }

/-- The number of bytes one `Read` of `requested` bytes returns. -/
def NetworkStream.delivered (cut : Nat → Nat) (ns : NetworkStream) (requested : Nat) : Nat :=
  min (min requested ns.rest.length) (max 1 (cut ns.reads))

/-- `__recv`: one `ns.Read(buf, 0, buf.Length)`, whose result is not looked at. -/
def NetworkStream.recv (cut : Nat → Nat) (ns : NetworkStream) (buf : List UInt8) :
    List UInt8 × NetworkStream :=
  let r := ns.delivered cut buf.length
  (ns.rest.take r ++ buf.drop r, ⟨ns.reads + 1, ns.rest.drop r⟩)

/-- `utf8.GetBytes(msg)`. -/
def getBytes (msg : String) : List UInt8 := msg.toByteArray.data.toList

/-- `utf8.GetString(raw)`. Which replacement characters stand for an ill-formed sequence
differs between versions of the framework, so that text is a parameter. -/
def getString (replaced : List UInt8 → String) (raw : List UInt8) : String :=
  (String.fromUTF8? ⟨raw.toArray⟩).getD (replaced raw)

/-- `IPAddress.HostToNetworkOrder`, and `NetworkToHostOrder`, on a little-endian machine. -/
def hostToNetworkOrder (value : Nat) : Nat := byteSwap 4 value

/-- `_send_message`. -/
def NetworkStream.sendMessage (ns : NetworkStream) (msg : String) : NetworkStream :=
  let utfBytes := getBytes msg
  let len := hostToNetworkOrder utfBytes.length
  (ns.send (leBytes 4 len)).send utfBytes

/-- `_recv_message`; `new byte[len]` throws for a negative `len`. -/
def NetworkStream.recvMessage (replaced : List UInt8 → String) (cut : Nat → Nat)
    (ns : NetworkStream) : Except Exn (String × NetworkStream) :=
  let (i, ns) := ns.recv cut (List.replicate 4 0)
  let nlen := leValue i
  let len := hostToNetworkOrder nlen
  if 2 ^ 31 ≤ len then .error .overflow
  else
    let (raw, ns) := ns.recv cut (List.replicate len 0)
    .ok (getString replaced raw, ns)

/-- `_recv_message` called `n` times. -/
def NetworkStream.recvMessages (replaced : List UInt8 → String) (cut : Nat → Nat) :
    Nat → NetworkStream → Except Exn (List String × NetworkStream)
  | 0, ns => .ok ([], ns)
  | n + 1, ns =>
    match ns.recvMessage replaced cut with
    | .error e => .error e
    | .ok (msg, ns) =>
      match ns.recvMessages replaced cut n with
      | .error e => .error e
      | .ok (msgs, ns) => .ok (msg :: msgs, ns)

/-- The UTF-8 length fits in an `Int32`. -/
def Fits (msg : String) : Prop := (getBytes msg).length < 2 ^ 31

instance (msg : String) : Decidable (Fits msg) := inferInstanceAs (Decidable (_ < _))

/-- The bytes of the length `_send_message` sends first. -/
def lengthBytes (msg : String) : List UInt8 := leBytes 4 (hostToNetworkOrder (getBytes msg).length)

/-- What one message adds to the stream. -/
def frame (msg : String) : List UInt8 := lengthBytes msg ++ getBytes msg

/-- The stream after the messages were sent, nothing of it read. -/
def sent (msgs : List String) : NetworkStream := msgs.foldl NetworkStream.sendMessage ⟨0, []⟩

@[simp] theorem lengthBytes_length (msg : String) : (lengthBytes msg).length = 4 :=
  leBytes_length 4 _

theorem hostToNetworkOrder_length {msg : String} (fits : Fits msg) :
    hostToNetworkOrder (hostToNetworkOrder (getBytes msg).length) = (getBytes msg).length := by
  have below : (getBytes msg).length < 256 ^ 4 := by
    have := fits
    simp only [Fits] at this
    omega
  exact byteSwap_byteSwap below

/-- The receiver's arithmetic on all four bytes gives the length back. -/
theorem hostToNetworkOrder_lengthBytes {msg : String} (fits : Fits msg) :
    hostToNetworkOrder (leValue (lengthBytes msg)) = (getBytes msg).length := by
  have sentLength : leValue (lengthBytes msg) = hostToNetworkOrder (getBytes msg).length :=
    leValue_leBytes (byteSwap_lt 4 _)
  rw [sentLength, hostToNetworkOrder_length fits]

theorem NetworkStream.sendMessage_eq (ns : NetworkStream) (msg : String) :
    ns.sendMessage msg = ⟨ns.reads, ns.rest ++ frame msg⟩ := by
  simp [sendMessage, send, frame, lengthBytes]

example : frame "{}" = [0, 0, 0, 2, 123, 125] := by decide

theorem foldl_sendMessage (msgs : List String) (ns : NetworkStream) :
    msgs.foldl NetworkStream.sendMessage ns = ⟨ns.reads, ns.rest ++ msgs.flatMap frame⟩ := by
  induction msgs generalizing ns with
  | nil => simp
  | cons msg msgs ih => simp [ih, NetworkStream.sendMessage_eq]

theorem sent_eq (msgs : List String) : sent msgs = ⟨0, msgs.flatMap frame⟩ := by
  simp [sent, foldl_sendMessage]

@[simp] theorem getString_getBytes (replaced : List UInt8 → String) (msg : String) :
    getString replaced (getBytes msg) = msg := by
  have valid : msg.toByteArray.IsValidUTF8 := msg.isValidUTF8
  have whole : String.fromUTF8? msg.toByteArray = some msg := by
    rw [String.fromUTF8?, dif_pos valid]
    rfl
  simp [getString, getBytes, whole]

end GuestAgent.Source
