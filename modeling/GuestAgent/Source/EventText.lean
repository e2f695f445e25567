import GuestAgent.Library.Bytes
import GuestAgent.Library.Utf16
import GuestAgent.Source.EventServer

/-!
The text of an event on the pipe: pugixml.cpp, `node_output` in the format `format_raw`,
`node_output_attributes` and `text_output_escaped`; dllmain.cpp, `sendMessageToPipe`; and
NamedPipeServer.cs, `ProcessSingleReceivedMessage` and `ProcessEvent`.

`wchar_t` is a UTF-16 unit, and the stream takes units as they are. The pipe is in message mode, so
`Read` hands over two bytes of the message at a time. Loading the received text into an
`XmlDocument` is the framework's; here it is a parameter.
-/
namespace GuestAgent.Source
open Library

/-- The entry of `chartypex_table` has the bit `ctx_special_attr`. -/
def specialAttr (c : WChar) : Bool :=
  decide (c.toNat < 32 ∧ c.toNat ≠ 9 ∨ c = 34 ∨ c = 38 ∨ c = 60 ∨ c = 62)

/-- One unit as `text_output_escaped` writes it. -/
def escapedUnit (c : WChar) : WString :=
  if specialAttr c then
    if c = 38 then wide "&amp;"
    else if c = 60 then wide "&lt;"
    else if c = 62 then wide "&gt;"
    else if c = 34 then wide "&quot;"
    else [38, 35, c / 10 + 48, c % 10 + 48, 59]
  else [c]

/-- `text_output_escaped` in an attribute; the text ends where a zero unit does. -/
def textOutputEscaped (s : WString) : WString := (s.takeWhile (· ≠ 0)).flatMap escapedUnit

/-- `a.name()[0] ? a.name() : default_name`. -/
def nameOrDefault (name : WString) : WString := if name = [] then wide ":anonymous" else name

def nodeOutputAttributes (attributes : List (WString × WString)) : WString :=
  attributes.flatMap fun a =>
    wide " " ++ nameOrDefault a.1 ++ wide "=\"" ++ textOutputEscaped a.2 ++ wide "\""

/-- `node_output` of an element without children. -/
def nodeOutput (node : XmlElement) : WString :=
  wide "<" ++ nameOrDefault node.name ++ nodeOutputAttributes node.attributes ++ wide " />"

/-- The bytes `WriteFile` gets. -/
def messageBytes (msg : WString) : List UInt8 := msg.flatMap fun c => leBytes 2 c.toNat

/-- `XmlConvert.IsXmlChar`. -/
def isXmlChar (c : WChar) : Bool :=
  decide (c.toNat = 9 ∨ c.toNat = 10 ∨ c.toNat = 13 ∨ 0x20 ≤ c.toNat ∧ c.toNat ≤ 0xD7FF ∨
    0xE000 ≤ c.toNat ∧ c.toNat ≤ 0xFFFD)

/-- `Encoding.Unicode.GetChars` of two bytes: a surrogate on its own is replaced. -/
def getChars (low high : UInt8) : WString := [Utf16.decodeUnit (leValue [low, high]).toUInt16]

/-- The loop of `ProcessSingleReceivedMessage`, with the buffer and the rest of the message. The
body runs at least once; what a `Read` does not fill keeps its old value. -/
def processSingleReceivedMessage (messageBuffer : UInt8 × UInt8) : List UInt8 → WString
  | [] => (getChars messageBuffer.1 messageBuffer.2).filter isXmlChar
  | [low] => (getChars low messageBuffer.2).filter isXmlChar
  | [low, high] => (getChars low high).filter isXmlChar
  | low :: high :: rest =>
    (getChars low high).filter isXmlChar ++ processSingleReceivedMessage (low, high) rest

/-- `ProcessEvent` up to the call its switch decides on. -/
def receivedHandler (load : WString → Except Exn XmlElement) (settings : Settings)
    (message : List UInt8) : Except Exn Handler := do
  let xml ← load (processSingleReceivedMessage (0, 0) message)
  selectHandler settings xml

/-! ### What the receiver makes of a text -/

/-- The two bytes of a unit are read as that unit. -/
theorem getChars_leBytes (c : WChar) : ∃ low high, leBytes 2 c.toNat = [low, high] ∧
    getChars low high = [Utf16.decodeUnit c] := by
  refine ⟨_, _, rfl, ?_⟩
  have back : leValue (leBytes 2 c.toNat) = c.toNat := leValue_leBytes c.toNat_lt
  have unit : (leValue (leBytes 2 c.toNat)).toUInt16 = c := by
    rw [back]
    exact UInt16.ofNat_toNat
  exact congrArg (fun u => [Utf16.decodeUnit u]) unit

/-- The receiver decodes and filters a message unit by unit. -/
theorem processSingleReceivedMessage_messageBytes {msg : WString} (nonempty : msg ≠ [])
    (buffer : UInt8 × UInt8) : processSingleReceivedMessage buffer (messageBytes msg) =
      (msg.map Utf16.decodeUnit).filter isXmlChar := by
  induction msg generalizing buffer with
  | nil => exact absurd rfl nonempty
  | cons c msg ih =>
    obtain ⟨low, high, bytes, chars⟩ := getChars_leBytes c
    have split : messageBytes (c :: msg) = low :: high :: messageBytes msg := by
      rw [messageBytes, List.flatMap_cons, bytes]
      rfl
    rw [split]
    cases msg with
    | nil => simp [messageBytes, processSingleReceivedMessage, chars]
    | cons d msg =>
      obtain ⟨low', high', bytes', -⟩ := getChars_leBytes d
      have more : messageBytes (d :: msg) = low' :: high' :: messageBytes msg := by
        rw [messageBytes, List.flatMap_cons, bytes']
        rfl
      have rest := ih (List.cons_ne_nil d msg) (low, high)
      rw [more] at rest ⊢
      rw [processSingleReceivedMessage, rest, chars, ← List.filter_append]
      · rfl
      · nofun

end GuestAgent.Source
