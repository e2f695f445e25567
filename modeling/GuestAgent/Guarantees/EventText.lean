import Mathlib.Data.List.TakeWhile
import GuestAgent.Source.EventText

/-!
The path of a file event from the hook to `ProgramStatus.NotifyFileAccess`. Escaping leaves
surrogates alone, and the receiver drops none of the units pugixml writes, so what arrives is the
event of the path with each surrogate replaced: the path that was sent, exactly if all its
characters are in the Basic Multilingual Plane.
-/
namespace GuestAgent.Guarantees.EventText
open Library Source Utf16

/-- XML 1.0, `Char`. -/
def IsXml (c : Char) : Prop := c.toNat = 9 ∨ c.toNat = 10 ∨ c.toNat = 13 ∨
  0x20 ≤ c.toNat ∧ c.toNat ≤ 0xFFFD ∨ 0x10000 ≤ c.toNat

instance (c : Char) : Decidable (IsXml c) := inferInstanceAs (Decidable (_ ∨ _))

theorem isXml_of_all {path : List Char} (all : path.all (fun c => decide (IsXml c)) = true) :
    ∀ c ∈ path, IsXml c := by
  simpa using all

/-- The hook's notification for a path. -/
def accessEvent (path : List Char) (mode : FileMode) : Event := .fileAccess (encode path) mode

/-- The reader gives back the element pugixml wrote, for all paths allowed in XML. -/
def ReadsBack (load : WString → Except Exn XmlElement) : Prop :=
  ∀ path mode, (∀ c ∈ path, IsXml c) →
    load (nodeOutput (accessEvent path mode).element) = .ok (accessEvent path mode).element

/-! ### Escaping, unit by unit -/

/-- What the receiver lets through: XML characters, and surrogates, which it has replaced. -/
def passes (c : WChar) : Bool := isXmlChar c || isSurrogate c

theorem specialAttr_small {c : WChar} (special : specialAttr c = true) :
    ∃ n : Fin 64, c = n.val.toUInt16 := by
  have small : c.toNat < 64 := by
    rcases of_decide_eq_true special with control | rfl | rfl | rfl | rfl
    · omega
    all_goals decide
  exact ⟨⟨c.toNat, small⟩, UInt16.ofNat_toNat.symm⟩

theorem escapedUnit_plain {c : WChar} (plain : specialAttr c = false) : escapedUnit c = [c] := by
  rw [escapedUnit, if_neg (by simp [plain])]

theorem map_decodeUnit_escapedUnit (c : WChar) :
    (escapedUnit c).map decodeUnit = escapedUnit (decodeUnit c) := by
  cases special : specialAttr c with
  | true =>
    have ascii : ∀ n : Fin 64, (escapedUnit n.val.toUInt16).map decodeUnit =
        escapedUnit (decodeUnit n.val.toUInt16) := by decide
    obtain ⟨n, rfl⟩ := specialAttr_small special
    exact ascii n
  | false =>
    rw [escapedUnit_plain special, List.map_singleton]
    cases surrogate : isSurrogate c with
    | true =>
      rw [decodeUnit, if_pos surrogate]
      decide
    | false => rw [decodeUnit, if_neg (by simp [surrogate]), escapedUnit_plain special]

theorem passes_escapedUnit {c : WChar} (pass : passes c = true) :
    ∀ d ∈ escapedUnit c, passes d = true := by
  cases special : specialAttr c with
  | true =>
    have ascii : ∀ n : Fin 64, passes n.val.toUInt16 = true →
        (escapedUnit n.val.toUInt16).all passes = true := by decide
    obtain ⟨n, rfl⟩ := specialAttr_small special
    exact List.all_eq_true.mp (ascii n pass)
  | false =>
    rw [escapedUnit_plain special]
    intro d member
    rwa [List.mem_singleton.mp member]

theorem isXmlChar_decodeUnit {u : WChar} (pass : passes u = true) :
    isXmlChar (decodeUnit u) = true := by
  cases surrogate : isSurrogate u with
  | true =>
    rw [decodeUnit, if_pos surrogate]
    decide
  | false =>
    rw [decodeUnit, if_neg (by simp [surrogate])]
    simpa [passes, surrogate] using pass

theorem encodeChar_units {c : Char} (xml : IsXml c) :
    ∀ u ∈ encodeChar c, passes u = true ∧ u ≠ 0 := by
  intro u member
  have positive : passes u = true ∧ u.toNat ≠ 0 → passes u = true ∧ u ≠ 0 := by
    intro holds
    refine ⟨holds.1, fun zero => ?_⟩
    simp [zero] at holds
  apply positive
  cases plane : basic c with
  | true =>
    obtain ⟨single, value⟩ := encodeChar_basic plane
    rw [single, List.mem_singleton] at member
    subst member
    have small : c.toNat < 0x10000 := of_decide_eq_true plane
    have notSurrogate := not_surrogate c
    unfold IsXml at xml
    simp only [passes, isXmlChar, isSurrogate, value, Bool.or_eq_true, decide_eq_true_eq]
    omega
  | false =>
    obtain ⟨high, low, pair, first, second⟩ := encodeChar_pair plane
    have surrogate : isSurrogate u = true := by
      rw [pair] at member
      rcases List.mem_pair.mp member with rfl | rfl
      · exact first
      · exact second
    refine ⟨by simp [passes, surrogate], ?_⟩
    simp only [isSurrogate, decide_eq_true_eq] at surrogate
    omega

theorem encode_units {path : List Char} (xml : ∀ c ∈ path, IsXml c) :
    ∀ u ∈ encode path, passes u = true ∧ u ≠ 0 := by
  intro u member
  obtain ⟨c, here, unit⟩ := List.mem_flatMap.mp member
  exact encodeChar_units (xml c here) u unit

theorem textOutputEscaped_encode {path : List Char} (xml : ∀ c ∈ path, IsXml c) :
    textOutputEscaped (encode path) = (encode path).flatMap escapedUnit := by
  have whole : (encode path).takeWhile (· ≠ 0) = encode path := by
    apply List.takeWhile_eq_self_iff.mpr
    intro u member
    simpa using (encode_units xml u member).2
  rw [textOutputEscaped, whole]

/-! ### The text of a file event -/

/-- The text of the event up to its path. -/
def front (mode : FileMode) : WString :=
  wide "<FileEvent Mode=\"" ++ mode.text ++ wide "\" Path=\""

def back : WString := wide "\" />"

theorem nodeOutput_accessEvent {path : List Char} (xml : ∀ c ∈ path, IsXml c) (mode : FileMode) :
    nodeOutput (accessEvent path mode).element =
      front mode ++ (encode path).flatMap escapedUnit ++ back := by
  have start : wide "<" ++ nameOrDefault wkFileEvent ++ wide " " ++ nameOrDefault wkFileEventMode ++
      wide "=\"" ++ textOutputEscaped mode.text ++ wide "\"" ++ wide " " ++
      nameOrDefault wkFileEventPath ++ wide "=\"" = front mode := by cases mode <;> decide
  have finish : wide "\"" ++ wide " />" = back := by decide
  rw [← textOutputEscaped_encode xml, ← start, ← finish]
  simp only [nodeOutput, nodeOutputAttributes, accessEvent, Event.element, List.flatMap_cons,
    List.flatMap_nil, List.append_nil, List.append_assoc]

theorem isXml_lossy {path : List Char} (xml : ∀ c ∈ path, IsXml c) : ∀ c ∈ lossy path, IsXml c := by
  intro d member
  obtain ⟨c, here, among⟩ := List.mem_flatMap.mp member
  unfold lossyChar at among
  split at among
  · obtain rfl := List.mem_singleton.mp among
    exact xml d here
  · have replaced : d = Char.ofNat 0xFFFD := by simpa using among
    rw [replaced]
    decide

/-- The receiver reads the text of the event of the lossy path. -/
theorem received_accessEvent {path : List Char} (xml : ∀ c ∈ path, IsXml c) (mode : FileMode) :
    processSingleReceivedMessage (0, 0) (messageBytes (nodeOutput (accessEvent path mode).element)) =
      nodeOutput (accessEvent (lossy path) mode).element := by
  have intact (text : WString) (all : text.all (fun u => decodeUnit u = u && passes u) = true) :
      ∀ u ∈ text, decodeUnit u = u ∧ passes u = true := by
    simpa using all
  have ends : (∀ u ∈ front mode, decodeUnit u = u ∧ passes u = true) ∧
      ∀ u ∈ back, decodeUnit u = u ∧ passes u = true :=
    ⟨intact _ (by cases mode <;> decide), intact _ (by decide)⟩
  have replaced : ((encode path).flatMap escapedUnit).map decodeUnit =
      (encode (lossy path)).flatMap escapedUnit := by
    rw [← map_decodeUnit_encode, List.map_flatMap, List.flatMap_map]
    simp only [map_decodeUnit_escapedUnit]
  have kept : ∀ u ∈ (encode path).flatMap escapedUnit, passes u = true := by
    intro u member
    obtain ⟨c, here, unit⟩ := List.mem_flatMap.mp member
    exact passes_escapedUnit (encode_units xml c here).1 u unit
  have all : ∀ u ∈ front mode ++ (encode path).flatMap escapedUnit ++ back, passes u = true := by
    intro u member
    simp only [List.mem_append] at member
    rcases member with (here | here) | here
    · exact (ends.1 u here).2
    · exact kept u here
    · exact (ends.2 u here).2
  have sameFront : (front mode).map decodeUnit = front mode :=
    (List.map_congr_left fun u here => (ends.1 u here).1).trans (List.map_id _)
  have sameBack : back.map decodeUnit = back :=
    (List.map_congr_left fun u here => (ends.2 u here).1).trans (List.map_id _)
  rw [nodeOutput_accessEvent xml, nodeOutput_accessEvent (isXml_lossy xml),
    processSingleReceivedMessage_messageBytes (by simp [back, wide]), List.filter_eq_self.mpr]
  · simp only [List.map_append, sameFront, sameBack, replaced]
  · intro d member
    obtain ⟨u, here, rfl⟩ := List.mem_map.mp member
    exact isXmlChar_decodeUnit (all u here)

/-- The call the guest makes is the one for the lossy path. -/
theorem receivedHandler_accessEvent {load : WString → Except Exn XmlElement}
    (reads : ReadsBack load) (settings : Settings) {path : List Char} (xml : ∀ c ∈ path, IsXml c)
    (mode : FileMode) :
    receivedHandler load settings (messageBytes (nodeOutput (accessEvent path mode).element)) =
      .ok ((accessEvent (lossy path) mode).handler settings) := by
  simp only [receivedHandler, received_accessEvent xml, reads _ mode (isXml_lossy xml), bind,
    Except.bind, selectHandler_element]

/-- For every path allowed in XML: what arrives is what was sent, unless file events are looked at
and the path has a character outside the Basic Multilingual Plane. -/
theorem receivedHandler_iff {load : WString → Except Exn XmlElement} (reads : ReadsBack load)
    (settings : Settings) (path : List Char) (xml : ∀ c ∈ path, IsXml c) (mode : FileMode) :
    receivedHandler load settings (messageBytes (nodeOutput (accessEvent path mode).element)) =
        .ok ((accessEvent path mode).handler settings) ↔
      (settings.logFs = true → ∀ c ∈ path, basic c = true) := by
  rw [receivedHandler_accessEvent reads settings xml mode]
  cases looked : settings.logFs with
  | false => simp [accessEvent, Event.handler, looked]
  | true => simp [accessEvent, Event.handler, looked, encode_lossy_iff]

/-! ### A reader -/

/-- The units an entity or a character reference stands for. -/
def entity (name : WString) : WString :=
  if name = wide "amp" then [38]
  else if name = wide "lt" then [60]
  else if name = wide "gt" then [62]
  else if name = wide "quot" then [34]
  else match name with
    | [35, tens, ones] => [(tens - 48) * 10 + (ones - 48)]
    | _ => []

/-- The value of an attribute, with the name of the entity being read. -/
def unescape : Option WString → WString → WString
  | _, [] => []
  | none, c :: rest => if c = 38 then unescape (some []) rest else c :: unescape none rest
  | some name, c :: rest =>
    if c = 59 then entity name ++ unescape none rest else unescape (some (name ++ [c])) rest

/-- The markup before a value ends with a blank, the name of the attribute and an equals sign. -/
def attributeName (markup : WString) : WString :=
  (markup.dropLast.reverse.takeWhile (· ≠ 32)).reverse

/-- The attributes, from the markup before a value and the pieces behind the quote. -/
def attributesOf : WString → List WString → List (WString × WString)
  | markup, value :: next :: rest =>
    (attributeName markup, unescape none value) :: attributesOf next rest
  | _, _ => []

/-- A reader for one element without children, as pugixml writes it. -/
def readElement (text : WString) : Except Exn XmlElement :=
  match text.splitOn 34 with
  | markup :: rest =>
    if rest.getLast? = some (wide " />") then
      .ok ⟨(markup.drop 1).takeWhile (· ≠ 32), attributesOf markup rest⟩
    else .error .xml
  | [] => .error .xml

theorem unescape_entity {name : WString} (open_ : 59 ∉ name) (before rest : WString) :
    unescape (some before) (name ++ 59 :: rest) = entity (before ++ name) ++ unescape none rest := by
  induction name generalizing before with
  | nil => simp [unescape]
  | cons c name ih =>
    have other : c ≠ 59 := fun same => open_ (by simp [same])
    have later := ih (fun inside => open_ (by simp [inside])) (before ++ [c])
    rw [List.cons_append, unescape, if_neg other, later, List.append_assoc, List.singleton_append]

theorem unescape_escapedUnit (c : WChar) (rest : WString) :
    unescape none (escapedUnit c ++ rest) = c :: unescape none rest := by
  cases special : specialAttr c with
  | true =>
    have shape : ∀ n : Fin 64, specialAttr n.val.toUInt16 = true →
        escapedUnit n.val.toUInt16 =
          38 :: (escapedUnit n.val.toUInt16).tail.dropLast ++ [59] ∧
        59 ∉ (escapedUnit n.val.toUInt16).tail.dropLast ∧
        entity (escapedUnit n.val.toUInt16).tail.dropLast = [n.val.toUInt16] := by decide
    obtain ⟨n, rfl⟩ := specialAttr_small special
    obtain ⟨written, inside, meant⟩ := shape n special
    rw [written, List.append_assoc, List.cons_append, unescape, if_pos rfl, List.singleton_append,
      unescape_entity inside, List.nil_append, meant, List.singleton_append]
  | false =>
    have other : c ≠ 38 := by
      rintro rfl
      exact absurd special (by decide)
    rw [escapedUnit_plain special, List.singleton_append, unescape, if_neg other]

theorem unescape_flatMap (s : WString) : unescape none (s.flatMap escapedUnit) = s := by
  induction s with
  | nil => rfl
  | cons c s ih => rw [List.flatMap_cons, unescape_escapedUnit, ih]

theorem quote_notMem (s : WString) : 34 ∉ s.flatMap escapedUnit := by
  intro member
  obtain ⟨c, -, unit⟩ := List.mem_flatMap.mp member
  cases special : specialAttr c with
  | true =>
    have ascii : ∀ n : Fin 64, specialAttr n.val.toUInt16 = true →
        34 ∉ escapedUnit n.val.toUInt16 := by decide
    obtain ⟨n, rfl⟩ := specialAttr_small special
    exact ascii n special unit
  | false =>
    rw [escapedUnit_plain special, List.mem_singleton] at unit
    subst unit
    exact absurd special (by decide)

theorem readsBack_readElement : ReadsBack readElement := by
  intro path mode xml
  have quotes : (front mode ++ (encode path).flatMap escapedUnit ++ back).splitOn 34 =
      [wide "<FileEvent Mode=", mode.text, wide " Path=", (encode path).flatMap escapedUnit,
        wide " />"] := by
    have start : front mode ++ (encode path).flatMap escapedUnit ++ back =
        wide "<FileEvent Mode=" ++ 34 :: (mode.text ++ 34 :: (wide " Path=" ++ 34 ::
          ((encode path).flatMap escapedUnit ++ 34 :: wide " />"))) := by
      cases mode <;> rfl
    rw [start, List.splitOn_append_cons_self_of_not_mem (by decide),
      List.splitOn_append_cons_self_of_not_mem (by cases mode <;> decide),
      List.splitOn_append_cons_self_of_not_mem (by decide),
      List.splitOn_append_cons_self_of_not_mem (quote_notMem _),
      List.splitOn_eq_singleton (by decide)]
  have known : unescape none mode.text = mode.text := by cases mode <;> decide
  have ended : [mode.text, wide " Path=", (encode path).flatMap escapedUnit,
      wide " />"].getLast? = some (wide " />") := rfl
  have name : ((wide "<FileEvent Mode=").drop 1).takeWhile (· ≠ 32) = wkFileEvent := by decide
  have first : attributeName (wide "<FileEvent Mode=") = wkFileEventMode := by decide
  have second : attributeName (wide " Path=") = wkFileEventPath := by decide
  rw [nodeOutput_accessEvent xml, readElement, quotes]
  simp only [ended, if_true, attributesOf, unescape_flatMap, known, name, first, second]
  rfl

/-- A path with a character that is escaped. -/
def plainPath : List Char := "C:\\R&D\\a.txt".toList

theorem receivedHandler_iff_plainPath :
    receivedHandler readElement .default
        (messageBytes (nodeOutput (accessEvent plainPath .created).element)) =
      .ok (.notifyFileAccess (encode plainPath)) :=
  (receivedHandler_iff readsBack_readElement .default plainPath (isXml_of_all (by decide))
    .created).mpr fun _ => List.all_eq_true.mp (by decide)

/-- A name outside the Basic Multilingual Plane. -/
def emojiPath : List Char := ['C', ':', '\\', Char.ofNat 0x1F600]

theorem not_received : ¬ ∀ load, ReadsBack load → ∀ settings : Settings, settings.logFs = true →
    ∀ path mode, (∀ c ∈ path, IsXml c) →
      receivedHandler load settings (messageBytes (nodeOutput (accessEvent path mode).element)) =
        .ok (.notifyFileAccess (encode path)) := by
  intro all
  have xml : ∀ c ∈ emojiPath, IsXml c := isXml_of_all (by decide)
  have here := all readElement readsBack_readElement .default rfl emojiPath .created xml
  rw [receivedHandler_accessEvent readsBack_readElement _ xml] at here
  exact absurd here (by decide)

end GuestAgent.Guarantees.EventText
