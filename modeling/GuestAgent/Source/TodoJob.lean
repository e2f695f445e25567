import GuestAgent.Library.Split

/-!
A stored path of actions: TodoJob.cs, `NetworkWorker.BuildPaths` and the constants of Protocol.cs
it uses, and the conversions between `int` and text of the framework (for the invariant culture).
Texts come from `BinaryReader.ReadString` and are lists of characters.
-/
namespace GuestAgent.Source.Host
open Library

abbrev Text := List Char

inductive Exn where
  | application | argument | db | endOfStream | format | guestCommandFailed | indexOutOfRange
  | invalidOperation | io | loop | notSupported | nullReference | overflow | protocol | xml
  | jobAlreadySubmitted (jobId : Nat)
  deriving DecidableEq, Repr

/-! ### Integers as text -/

/-- `int.ToString`. -/
def intToString (n : Int32) : Text :=
  match n.toInt with
  | .ofNat m => Nat.toDigits 10 m
  | .negSucc m => '-' :: Nat.toDigits 10 (m + 1)

def isWhite (c : Char) : Bool := c = ' ' || (9 ≤ c.toNat && c.toNat ≤ 13)

/-- The number a run of digits stands for. -/
def digits (text : Text) : Option Nat :=
  if text ≠ [] ∧ text.all Char.isDigit = true then some (Nat.ofDigitChars 10 text 0) else none

/-- An optional sign and digits. -/
def signed : Text → Option Int
  | '-' :: text => (digits text).map fun n => -(n : Int)
  | '+' :: text => (digits text).map Int.ofNat
  | text => (digits text).map Int.ofNat

/-- White space around the number, and null characters behind it. -/
def trimNumber (text : Text) : Text :=
  (((text.dropWhile isWhite).reverse.dropWhile (· = '\x00')).dropWhile isWhite).reverse

/-- `int.Parse`. -/
def intParse (text : Text) : Except Exn Int32 :=
  match signed (trimNumber text) with
  | none => .error .format
  | some n => if -0x80000000 ≤ n ∧ n < 0x80000000 then .ok (Int32.ofInt n) else .error .overflow

/-! ### TodoJob.cs -/

/-- `URI_APP_START`. -/
def uriAppStart : Text := "APPSTART://".toList

/-- `URI_PATH_SEP`. -/
def uriPathSep : Char := '/'

structure TodoJob.Action where
  controlId : Text
  interactionType : Int32
  relativePath : Text
  deriving DecidableEq, Repr

structure TodoJob where
  id : Nat
  actionPath : Text
  actions : List Text
  currentAction : Nat
  deriving DecidableEq, Repr

namespace TodoJob

/-- The constructor. -/
def new (id : Nat) (actionPath : Text) : TodoJob where
  id := id
  actionPath := actionPath
  actions :=
    match (Split.cut uriAppStart actionPath).filter fun p => !p.isEmpty with
    | [] => []
    | first :: _ => Split.pieces uriPathSep first
  currentAction := 0

def hasNextAction (t : TodoJob) : Bool := t.currentAction < t.actions.length

/-- What `NextAction` reads from one entry. -/
def parseAction (current : Text) : Except Exn Action :=
  match current.splitOn '=' with
  | controlId :: interactionType :: _ => do
    return ⟨controlId, ← intParse interactionType, current⟩
  | _ => .error .indexOutOfRange

/-- `NextAction`, with what it leaves in `currentAction`. -/
def nextAction (t : TodoJob) : Except Exn Action × TodoJob :=
  match t.actions[t.currentAction]? with
  | none => (.error .indexOutOfRange, t)
  | some current => (parseAction current, { t with currentAction := t.currentAction + 1 })

end TodoJob

/-! ### Building paths -/

/-- A control the guest offers, with the interaction it allows. -/
structure Control where
  id : Text
  interactionId : Int32
  deriving DecidableEq, Repr

/-- `followedPath` with one more action. -/
def extendPath (followedPath : Text) (c : Control) : Text :=
  followedPath ++ c.id ++ '=' :: intToString c.interactionId ++ [uriPathSep]

/-- `BuildPaths`. -/
def buildPaths (followedPath : Text) (controls : List Control) : List Text :=
  controls.map (extendPath followedPath)

/-- `cId` and `cType`, cut out of a full path. -/
def lastAction (fullPathToPerform : Text) : Except Exn Control :=
  match (Split.pieces uriPathSep fullPathToPerform).getLast? with
  | none => .error .invalidOperation
  | some tmp =>
    match Split.pieces '=' tmp with
    | cId :: cType :: _ => do return ⟨cId, ← intParse cType⟩
    | _ => .error .indexOutOfRange

end GuestAgent.Source.Host
