import GuestAgent.Library.Patch
import GuestAgent.Source.Registry
import GuestAgent.Source.Report

/-!
The registry part of the report: ProgramStatus.cs, `UpdateDifferences`, `IsNew`, `IsModified` and
`IsDeleted` of `RegAccessInfo`, and LogicThread.cs, the loop over `RegAccessLog` in
`PrepareReport`.

A dictionary is the list of its entries in enumeration order. The properties read the registry
each time they are read, so one key is compared up to three times for its element; the
differences listed are those of the last comparison.
-/
namespace GuestAgent.Source
open Library

/-- `ToString` of a value. -/
def RegValue.text : RegValue → WString
  | .string s => s
  | .strings _ => wide "System.String[]"
  | .bytes _ => wide "System.Byte[]"
  | .dword n => intText n.toInt
  | .qword n => intText n.toInt

/-- The anonymous object of `ModifiedValues`; neither side is null. -/
structure Modification where
  originalValue : RegValue
  currentValue : RegValue
  deriving DecidableEq, Repr

structure Differences where
  newSubeys : List WString
  deletedSubkeys : List WString
  deletedValues : List (WString × Option RegValue)
  newValues : List (WString × Option RegValue)
  modifiedValues : List (WString × Modification)
  deriving DecidableEq, Repr

/-- What `UpdateDifferences` returns. -/
def Differences.any (d : Differences) : Bool :=
  !d.newSubeys.isEmpty || !d.deletedSubkeys.isEmpty || !d.deletedValues.isEmpty ||
    !d.newValues.isEmpty || !d.modifiedValues.isEmpty

/-- The test for a modified value: both sides there, with different texts. -/
def modification (original current : Option RegValue) : Option Modification :=
  match current, original with
  | some new, some old => if new.text ≠ old.text then some ⟨old, new⟩ else none
  | _, _ => none

/-- The five loops of `UpdateDifferences`. -/
def differences (originalValues : List (WString × Option RegValue)) (originalSubkeys : List WString)
    (newKeyValues : List (WString × Option RegValue)) (newSubs : List WString) : Differences where
  newSubeys := newSubs.filter fun newsub => !originalSubkeys.contains newsub
  deletedSubkeys := originalSubkeys.filter fun oldsub => !newSubs.contains oldsub
  deletedValues := Patch.missing originalValues newKeyValues
  newValues := Patch.missing newKeyValues originalValues
  modifiedValues := Patch.changes modification originalValues newKeyValues

namespace RegAccessInfo

def updateDifferences (c : Casing) (reg : Registry) (t : RegAccessInfo) :
    Except Exn Differences := do
  let newKeyValues ← t.getCurrentKeyValues c reg
  let newSubs ← t.getCurrentKeySubkeys c reg
  .ok (differences t.originalKeyValues t.originalSubkeys newKeyValues newSubs)

/-- `present` is what `Registry.GetValue(FullName, "test", "test") != null` comes to. -/
def isNew (present : Except Exn Bool) (t : RegAccessInfo) : Except Exn Bool :=
  if t.originalExisted then .ok false else present

def isDeleted (present : Except Exn Bool) (t : RegAccessInfo) : Except Exn Bool := do
  let present ← present
  .ok (!present && t.originalExisted)

end RegAccessInfo

/-! ### The element of a key -/

/-- One entry of `NewValues` or `DeletedValues`; `ToString` of a null is a null reference. -/
def valueElement (kv : WString × Option RegValue) : Except Exn XmlNode :=
  match kv.2 with
  | none => .error .nullReference
  | some value =>
    .ok (.element (wide "KeyValue") [] [.leaf (wide "Name") kv.1, .leaf (wide "Value") value.text])

def subkeyElement (subkey : WString) : XmlNode := .leaf (wide "Key") subkey

def editedElement (kv : WString × Modification) : XmlNode :=
  .element (wide "KeyValue") []
    [.leaf (wide "Name") kv.1, .leaf (wide "OriginalValue") kv.2.originalValue.text,
      .leaf (wide "NewValue") kv.2.currentValue.text]

/-- The `Key` element; the second loop appends to `new_values` too. -/
def keyElement (t : RegAccessInfo) (deleted modified new : Bool) (d : Differences) :
    Except Exn XmlNode := do
  let newValues ← d.newValues.mapM valueElement
  let oldValues ← d.deletedValues.mapM valueElement
  .ok (.element (wide "Key")
    [(wide "Path", t.fullName), (wide "Deleted", boolText deleted),
      (wide "Modified", boolText modified), (wide "New", boolText new)]
    [.element (wide "NewValues") [] (newValues ++ d.newSubeys.map subkeyElement),
      .element (wide "NewSubKeys") [] [],
      .element (wide "OldValues") [] oldValues,
      .element (wide "OldSubKeys") [] (d.deletedSubkeys.map subkeyElement),
      .element (wide "EditedValues") [] (d.modifiedValues.map editedElement),
      .element (wide "EditedSubKeys") [] []])

/-- What one turn of the loop meets, in the order it looks: the registry for each comparison, and
whether the key is there for each other look. -/
structure KeyLooks where
  compared : Registry
  presentForDeleted : Except Exn Bool
  comparedForModified : Registry
  presentForNew : Except Exn Bool
  presentAgainForNew : Except Exn Bool
  comparedAgainForModified : Registry
  presentAgainForDeleted : Except Exn Bool

/-- One turn of the loop, with the element it appends. -/
def keyTurn (c : Casing) (t : RegAccessInfo) (looks : KeyLooks) :
    Except Exn (Option XmlNode) := do
  let _ ← t.updateDifferences c looks.compared
  let deleted ← t.isDeleted looks.presentForDeleted
  let d ← t.updateDifferences c looks.comparedForModified
  let modified := d.any
  let new ← t.isNew looks.presentForNew
  if ← t.isNew looks.presentAgainForNew then
    return some (← keyElement t deleted modified new d)
  let d ← t.updateDifferences c looks.comparedAgainForModified
  if d.any then
    return some (← keyElement t deleted modified new d)
  if ← t.isDeleted looks.presentAgainForDeleted then
    return some (← keyElement t deleted modified new d)
  return none

/-- The loop; an exception of one turn leaves `PrepareReport`. -/
def registryWriteAccess (c : Casing) (log : List (RegAccessInfo × KeyLooks)) : Except Exn XmlNode := do
  let keys ← log.mapM fun (t, looks) => keyTurn c t looks
  .ok (.element (wide "RegistryWriteAccess") [] keys.reduceOption)

end GuestAgent.Source
