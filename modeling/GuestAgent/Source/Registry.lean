import Mathlib.Data.List.AList
import GuestAgent.Library.Outcome
import GuestAgent.Source.Runtime

/-!
Registry keys seen by the monitored programs: ProgramStatus.cs,
`NotifyRegistryAccess` and the part of `RegAccessInfo` it uses.

`Registry` is what the guest sees of the registry during one call. `OpenSubKey`
answers null for a missing key and throws for a key it may not open or a name it
refuses; enumerating an open key may throw as well. Upper and lower case follow
the culture of the guest, unit by unit.
-/
namespace GuestAgent.Source
open Library

structure Casing where
  lower : WChar → WChar
  upper : WChar → WChar

def Casing.toLower (c : Casing) (s : WString) : WString := s.map c.lower
def Casing.toUpper (c : Casing) (s : WString) : WString := s.map c.upper

/-- The pieces between non-overlapping occurrences of `sep`, found from the left;
`skip` counts the units of the current occurrence still to be passed over. -/
def pieces (sep : WString) : WString → (skip : Nat) → (piece : WString) → List WString
  | [], _, piece => [piece]
  | _ :: rest, skip + 1, piece => pieces sep rest skip piece
  | c :: rest, 0, piece =>
    if sep.isPrefixOf (c :: rest) then piece :: pieces sep rest (sep.length - 1) []
    else pieces sep rest 0 (piece ++ [c])

/-- `s.Split(new string[] { sep }, StringSplitOptions.RemoveEmptyEntries)`. -/
def splitRemoveEmpty (sep s : WString) : List WString :=
  (pieces sep s 0 []).filter (fun p => !p.isEmpty)

inductive RootKey where
  | currentUser | localMachine | classesRoot | users | performanceData | currentConfig | dynData
  deriving DecidableEq, Repr

inductive RegValue where
  | string (s : WString) | strings (l : List WString) | bytes (b : List UInt8)
  | dword (n : Int32) | qword (n : Int64)
  deriving DecidableEq, Repr

/-- An open key; `getValue` answers `none` for null. -/
structure RegistryKey where
  getValueNames : Except Exn (List WString)
  getValue : WString → Except Exn (Option RegValue)
  getSubKeyNames : Except Exn (List WString)

structure Registry where
  openSubKey : RootKey → WString → Except Exn (Option RegistryKey)

/-- The fields `NotifyRegistryAccess` fills; the difference lists are filled by the report. -/
structure RegAccessInfo where
  fullName : WString
  root : WString
  originalKeyValues : List (WString × Option RegValue)
  originalSubkeys : List WString
  originalExisted : Bool
  deriving DecidableEq, Repr

namespace RegAccessInfo

def registryPrefix : WString := wide "\\registry"

/-- `new RegAccessInfo(fullName)`. -/
def new (c : Casing) (fullName : WString) : Except Exn RegAccessInfo :=
  match splitRemoveEmpty [backslash] fullName with
  | [] => .error .application
  | first :: _ =>
    let root := c.toUpper first
    if root = wide "HKEY_CURRENT_USER" ∨ root = wide "HKEY_LOCAL_MACHINE" ∨
        root = wide "HKEY_CLASSES_ROOT" ∨ root = wide "HKEY_USERS" ∨
        root = wide "HKEY_PERFORMANCE_DATA" ∨ root = wide "HKEY_CURRENT_CONFIG" ∨
        root = wide "HKEY_DYN_DATA"
    then .ok ⟨fullName, root, [], [], false⟩
    else .error .application

def subkeyPath (c : Casing) (t : RegAccessInfo) : Except Exn WString :=
  match splitRemoveEmpty (c.toLower t.root ++ [backslash]) (c.toLower t.fullName) with
  | [] => .error .indexOutOfRange
  | first :: _ => .ok first

/-- `HKEY_DYN_DATA` is answered with the current configuration, as in the source. -/
def getRootKey (t : RegAccessInfo) : Except Exn RootKey :=
  if t.root = wide "HKEY_CURRENT_USER" then .ok .currentUser
  else if t.root = wide "HKEY_LOCAL_MACHINE" then .ok .localMachine
  else if t.root = wide "HKEY_CLASSES_ROOT" then .ok .classesRoot
  else if t.root = wide "HKEY_USERS" then .ok .users
  else if t.root = wide "HKEY_PERFORMANCE_DATA" then .ok .performanceData
  else if t.root = wide "HKEY_CURRENT_CONFIG" then .ok .currentConfig
  else if t.root = wide "HKEY_DYN_DATA" then .ok .currentConfig
  else .error .argument

def convertToFullName (c : Casing) (regPath : WString) : Option WString :=
  let path := c.toLower regPath
  if !registryPrefix.isPrefixOf path then none
  else match splitRemoveEmpty [backslash] (path.drop registryPrefix.length) with
    | [] => none
    | first :: rest =>
      let root :=
        if first = wide "user" then some (wide "hkey_current_user")
        else if first = wide "machine" then some (wide "hkey_local_machine")
        else if first = wide "root" then some (wide "hkey_classes_root")
        else if first = wide "users" then some (wide "hkey_users")
        else none
      root.map (fun root => root ++ (rest.map (fun part => backslash :: part)).flatten)

/-- The root named by the first part of a full name, compared in lower case. -/
def namedRoot (first : WString) : Option RootKey :=
  if first = wide "hkey_current_user" then some .currentUser
  else if first = wide "hkey_local_machine" then some .localMachine
  else if first = wide "hkey_classes_root" then some .classesRoot
  else if first = wide "hkey_users" then some .users
  else if first = wide "hkey_performance_data" then some .performanceData
  else if first = wide "hkey_current_config" then some .currentConfig
  else if first = wide "hkey_dyn_data" then some .dynData
  else none

def keyExists (reg : Registry) (fullPath : WString) : Except Exn Bool :=
  match splitRemoveEmpty [backslash] fullPath with
  | [] => .error .indexOutOfRange
  | first :: rest =>
    match namedRoot first with
    | none => .ok false
    | some root => do
      let key ← reg.openSubKey root (List.intercalate [backslash] rest)
      .ok key.isSome

/-- `res.Add(name, key.GetValue(name))` for each name; a name listed twice makes `Add` throw. -/
def readValues (key : RegistryKey) :
    List WString → List (WString × Option RegValue) → Except Exn (List (WString × Option RegValue))
  | [], res => .ok res
  | name :: names, res => do
    let value ← key.getValue name
    if (res.map Prod.fst).contains name then .error .argument
    else readValues key names (res ++ [(name, value)])

def getCurrentKeyValues (c : Casing) (reg : Registry) (t : RegAccessInfo) :
    Except Exn (List (WString × Option RegValue)) := do
  let rootkey ← t.getRootKey
  let subpath ← t.subkeyPath c
  match ← reg.openSubKey rootkey subpath with
  | none => .ok []
  | some key => readValues key (← key.getValueNames) []

def getCurrentKeySubkeys (c : Casing) (reg : Registry) (t : RegAccessInfo) :
    Except Exn (List WString) := do
  let rootkey ← t.getRootKey
  let subpath ← t.subkeyPath c
  match ← reg.openSubKey rootkey subpath with
  | none => .ok []
  | some key => key.getSubKeyNames

def populateOriginalValues (c : Casing) (reg : Registry) (t : RegAccessInfo) :
    Except Exn RegAccessInfo := do
  let values ← t.getCurrentKeyValues c reg
  let subkeys ← t.getCurrentKeySubkeys c reg
  .ok { t with originalKeyValues := values, originalSubkeys := subkeys }

end RegAccessInfo

/-- `_regMap`. -/
abbrev RegMap := AList (fun _ : WString => RegAccessInfo)

namespace RegMap
open RegAccessInfo

/-- The entry a first notification adds; the two branches of the source differ in `OriginalExisted`. -/
def firstEntry (c : Casing) (reg : Registry) (fullname : WString) (keyExists : Bool) :
    Except Exn RegAccessInfo := do
  let t ← RegAccessInfo.new c fullname
  let t ← t.populateOriginalValues c reg
  .ok { t with originalExisted := keyExists }

def notifyRegistryAccess (c : Casing) (reg : Registry) (regPath : WString) (m : RegMap) :
    Outcome RegMap Exn :=
  let path := c.toLower regPath
  if !registryPrefix.isPrefixOf path then .ok m
  else match convertToFullName c regPath with
    | none => .ok m
    | some fullname =>
      match keyExists reg fullname with
      | .error e => .fail m e
      | .ok keyExists =>
        if path ∈ m then .ok m
        else match firstEntry c reg fullname keyExists with
          | .error e => .fail m e
          | .ok t => .ok (m.insert path t)

/-- Everything that can come of a registry notification, in terms of what the registry answers. -/
theorem notifyRegistryAccess_cases (c : Casing) (reg : Registry) (regPath : WString) (m : RegMap) :
    (convertToFullName c regPath = none ∧ notifyRegistryAccess c reg regPath m = .ok m) ∨
    ∃ fullname, convertToFullName c regPath = some fullname ∧
      ((∃ e, keyExists reg fullname = .error e ∧ notifyRegistryAccess c reg regPath m = .fail m e) ∨
      ∃ existed, keyExists reg fullname = .ok existed ∧
        ((c.toLower regPath ∈ m ∧ notifyRegistryAccess c reg regPath m = .ok m) ∨
        (c.toLower regPath ∉ m ∧
          ((∃ e, firstEntry c reg fullname existed = .error e ∧
            notifyRegistryAccess c reg regPath m = .fail m e) ∨
          ∃ t, firstEntry c reg fullname existed = .ok t ∧
            notifyRegistryAccess c reg regPath m = .ok (m.insert (c.toLower regPath) t))))) := by
  cases under : registryPrefix.isPrefixOf (c.toLower regPath) with
  | false =>
    refine .inl ⟨?_, by simp only [notifyRegistryAccess, under, Bool.not_false, if_true]⟩
    simp only [convertToFullName, under, Bool.not_false, if_true]
  | true =>
    simp only [notifyRegistryAccess, under, Bool.not_true, Bool.false_eq_true, if_false]
    cases name : convertToFullName c regPath with
    | none => exact .inl ⟨rfl, rfl⟩
    | some fullname =>
      refine .inr ⟨fullname, rfl, ?_⟩
      cases known : keyExists reg fullname with
      | error e => exact .inl ⟨e, rfl, by simp only [known]⟩
      | ok existed =>
        refine .inr ⟨existed, rfl, ?_⟩
        by_cases seen : c.toLower regPath ∈ m
        · exact .inl ⟨seen, by simp only [known, if_pos seen]⟩
        · refine .inr ⟨seen, ?_⟩
          cases entry : firstEntry c reg fullname existed with
          | error e => exact .inl ⟨e, rfl, by simp only [known, if_neg seen, entry]⟩
          | ok t => exact .inr ⟨t, rfl, by simp only [known, if_neg seen, entry]⟩

theorem prefix_of_convertToFullName {c : Casing} {regPath fullname : WString}
    (name : convertToFullName c regPath = some fullname) :
    registryPrefix.isPrefixOf (c.toLower regPath) = true := by
  cases under : registryPrefix.isPrefixOf (c.toLower regPath) with
  | true => rfl
  | false =>
    simp only [convertToFullName, under, Bool.not_false, if_true] at name
    cases name

/-- The notification goes through unless the registry refuses one of the questions it asks. -/
theorem notifyRegistryAccess_completes_iff (c : Casing) (reg : Registry) (regPath : WString)
    (m : RegMap) : (notifyRegistryAccess c reg regPath m).thrown = none ↔
      ∀ fullname, convertToFullName c regPath = some fullname →
        ∃ existed, keyExists reg fullname = .ok existed ∧
          (c.toLower regPath ∈ m ∨ ∃ t, firstEntry c reg fullname existed = .ok t) := by
  rcases notifyRegistryAccess_cases c reg regPath m with
    ⟨invalid, h⟩ | ⟨fullname, name, ⟨e, refused, h⟩ |
      ⟨existed, known, ⟨seen, h⟩ | ⟨unseen, ⟨e, refused, h⟩ | ⟨t, entry, h⟩⟩⟩⟩
  · simp [h, invalid]
  · simp [h, name, refused]
  · simp [h, name, known, seen]
  · rw [h]
    refine iff_of_false (by simp) fun goes => ?_
    obtain ⟨_, same, member | ⟨t, entry⟩⟩ := goes fullname name
    · exact unseen member
    · rw [known] at same
      cases same
      rw [refused] at entry
      cases entry
  · rw [h]
    refine iff_of_true rfl fun other same => ?_
    rw [name] at same
    cases same
    exact ⟨existed, known, .inr ⟨t, entry⟩⟩

/-- A repeated notification over an unchanged registry adds nothing and ends the same way. -/
theorem notifyRegistryAccess_again (c : Casing) (reg : Registry) (regPath : WString) (m : RegMap) :
    notifyRegistryAccess c reg regPath (notifyRegistryAccess c reg regPath m).state =
      notifyRegistryAccess c reg regPath m := by
  rcases notifyRegistryAccess_cases c reg regPath m with
    ⟨_, h⟩ | ⟨fullname, name, ⟨e, _, h⟩ | ⟨existed, known, ⟨_, h⟩ | ⟨_, ⟨e, _, h⟩ | ⟨t, _, h⟩⟩⟩⟩
  · rw [h]
    exact h
  · rw [h]
    exact h
  · rw [h]
    exact h
  · rw [h]
    exact h
  · rw [h]
    have again : c.toLower regPath ∈ m.insert (c.toLower regPath) t :=
      (AList.mem_insert m).mpr (.inl rfl)
    simp only [notifyRegistryAccess, prefix_of_convertToFullName name, name, known,
      Outcome.ok_state, Bool.not_true, Bool.false_eq_true, if_false]
    exact if_pos again

end RegMap

end GuestAgent.Source
