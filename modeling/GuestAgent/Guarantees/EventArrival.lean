import GuestAgent.Guarantees.EventText
import GuestAgent.Library.XmlTag

/-!
Any event, with any texts, from `sendMessageToPipe` to the switch of `ProcessEvent`.

Three things change a text on its way. pugixml ends it at a zero unit and writes a tabulator
as it is, which the reader of the guest takes for a blank; the receiver replaces surrogates
and drops the two units that are no characters. Control characters pass: they are sent as
references, and the reader is told not to check them.
-/
namespace GuestAgent.Guarantees.EventArrival
open Library Library.XmlTag Source Utf16 EventText

/-- What becomes of one unit of a text. -/
def arrivedUnit (c : WChar) : WString :=
  if c = 9 then [32]
  else if c.toNat < 32 then [c]
  else [decodeUnit c].filter isXmlChar

def arrivedText (s : WString) : WString := (s.takeWhile (· ≠ 0)).flatMap arrivedUnit

/-- The event the guest takes an event for. -/
def arrived : Event → Event
  | .newPid parentPid childPid => .newPid parentPid childPid
  | .removedPid pid => .removedPid pid
  | .fileAccess fullPath mode => .fileAccess (arrivedText fullPath) mode
  | .fileRename oldPath newPath => .fileRename (arrivedText oldPath) (arrivedText newPath)
  | .registryAccess fullPath mode => .registryAccess (arrivedText fullPath) mode

/-- The texts of an event the guest looks at. -/
def texts (settings : Settings) : Event → List WString
  | .newPid .. => []
  | .removedPid .. => []
  | .fileAccess fullPath _ => if settings.logFs then [fullPath] else []
  | .fileRename oldPath newPath => if settings.logFs then [oldPath, newPath] else []
  | .registryAccess fullPath _ => if settings.logReg then [fullPath] else []

/-- No zero, no tabulator, no surrogate, and neither of the two units that are no characters. -/
def Plain (s : WString) : Prop :=
  ∀ c ∈ s, c ≠ 0 ∧ c ≠ 9 ∧ isSurrogate c = false ∧ c ≠ 0xFFFE ∧ c ≠ 0xFFFF

instance (s : WString) : Decidable (Plain s) := List.decidableBAll _ s

/-- `XmlDocument.Load` reads tags as XML 1.0 does. -/
def ReadsTags (load : WString → Except Exn XmlElement) : Prop :=
  ∀ text el given, readTag text = some (el, given) → load text = .ok ⟨el, given⟩

/-! ### What the receiver lets through -/

/-- The loop of `ProcessSingleReceivedMessage`, as a function of the units sent. -/
def through (text : WString) : WString := (text.map decodeUnit).filter isXmlChar

theorem through_append (first second : WString) :
    through (first ++ second) = through first ++ through second := by
  rw [through, List.map_append, List.filter_append, through, through]

theorem through_flatMap {α : Type} (l : List α) (f : α → WString) :
    through (l.flatMap f) = l.flatMap (fun a => through (f a)) := by
  induction l with
  | nil => rfl
  | cons a l ih => rw [List.flatMap_cons, through_append, ih, List.flatMap_cons]

theorem through_letters {name : WString} (all : ∀ c ∈ name, isLetter c = true) :
    through name = name := by
  have kept : ∀ c, isLetter c = true → decodeUnit c = c ∧ isXmlChar c = true := by
    intro c letter
    simp only [isLetter, decide_eq_true_eq] at letter
    refine ⟨if_neg ?_, ?_⟩
    · simp only [isSurrogate, decide_eq_true_eq]
      omega
    · simp only [isXmlChar, decide_eq_true_eq]
      omega
  have same : name.map decodeUnit = name :=
    (List.map_congr_left fun c member => (kept c (all c member)).1).trans (List.map_id _)
  rw [through, same]
  exact List.filter_eq_self.mpr fun c member => (kept c (all c member)).2

/-- A unit that is escaped is written as a reference to itself, in units that all arrive. -/
theorem through_special {c : WChar} (special : specialAttr c = true) : ∃ open_,
    through (escapedUnit c) = 38 :: open_ ++ [59] ∧ 59 ∉ open_ ∧ 13 ∉ open_ ∧
      expand open_ = some [c] := by
  have shape : ∀ n : Fin 64, specialAttr n.val.toUInt16 = true →
      through (escapedUnit n.val.toUInt16) =
        38 :: (escapedUnit n.val.toUInt16).tail.dropLast ++ [59] ∧
      59 ∉ (escapedUnit n.val.toUInt16).tail.dropLast ∧
      13 ∉ (escapedUnit n.val.toUInt16).tail.dropLast ∧
      expand (escapedUnit n.val.toUInt16).tail.dropLast = some [n.val.toUInt16] := by decide
  obtain ⟨n, rfl⟩ := specialAttr_small special
  exact ⟨_, shape n special⟩

theorem arrivedUnit_special {c : WChar} (special : specialAttr c = true) : arrivedUnit c = [c] := by
  have shape : ∀ n : Fin 64, specialAttr n.val.toUInt16 = true →
      arrivedUnit n.val.toUInt16 = [n.val.toUInt16] := by decide
  obtain ⟨n, rfl⟩ := specialAttr_small special
  exact shape n special

/-- Any other unit but the tabulator is sent as it is, and is no markup when it arrives. -/
theorem through_plain {c : WChar} (plain : specialAttr c = false) (noTab : c ≠ 9) :
    through (escapedUnit c) = arrivedUnit c ∧
      ∀ d ∈ arrivedUnit c, d ≠ 34 ∧ d ≠ 38 ∧ d ≠ 60 ∧ d ≠ 13 ∧ (isSpace d = true → d = 32) := by
  have sent := escapedUnit_plain plain
  simp only [specialAttr, decide_eq_false_iff_not, not_or, not_and, not_not] at plain
  obtain ⟨low, quote, ampersand, less, _⟩ := plain
  have high : ¬ c.toNat < 32 := fun small => noTab (UInt16.toNat_inj.mp (low small))
  have unit : arrivedUnit c = [decodeUnit c].filter isXmlChar := by
    rw [arrivedUnit, if_neg noTab, if_neg high]
  refine ⟨?_, ?_⟩
  · rw [unit, sent]
    rfl
  · intro d member
    rw [unit] at member
    obtain rfl := List.mem_singleton.mp (List.mem_of_mem_filter member)
    unfold decodeUnit
    split
    · decide
    · refine ⟨quote, ampersand, less, ?_, fun space => ?_⟩
      · rintro rfl
        exact high (by decide)
      · rcases of_decide_eq_true space with rfl | rfl | rfl | same
        · exact absurd rfl noTab
        · exact absurd (by decide) high
        · exact absurd (by decide) high
        · exact same

/-! ### What the reader makes of it -/

variable {el : WString} {given : List (WString × WString)}

theorem feed_unit {key : WString} (c : WChar) (read : WString) :
    (Reader.value el given key 34 read).feed (through (escapedUnit c)) =
      some (.value el given key 34 (read ++ arrivedUnit c)) := by
  cases special : specialAttr c with
  | true =>
    obtain ⟨open_, written, ends, _, known⟩ := through_special special
    rw [written, arrivedUnit_special special, Reader.feed_reference ends known (by decide)]
  | false =>
    by_cases tab : c = 9
    · subst tab
      rfl
    obtain ⟨written, markup⟩ := through_plain special tab
    have single : arrivedUnit c = [] ∨ ∃ d, arrivedUnit c = [d] := by
      unfold arrivedUnit
      rw [if_neg tab]
      split
      · exact .inr ⟨c, rfl⟩
      · rw [List.filter_singleton]
        cases isXmlChar (decodeUnit c) with
        | true => exact .inr ⟨_, rfl⟩
        | false => exact .inl rfl
    rw [written]
    rcases single with none_ | ⟨d, one⟩
    · simp [none_]
    · obtain ⟨quote, ampersand, less, _, blank⟩ := markup d (by simp [one])
      rw [one, Reader.feed_cons, Reader.step, if_neg quote, if_neg less, if_neg ampersand]
      split
      next space =>
        rw [blank space]
        rfl
      · rfl

theorem feed_text {key : WString} (s read : WString) :
    (Reader.value el given key 34 read).feed (through (textOutputEscaped s)) =
      some (.value el given key 34 (read ++ arrivedText s)) := by
  rw [textOutputEscaped, arrivedText, through_flatMap]
  induction s.takeWhile (· ≠ 0) generalizing read with
  | nil => simp
  | cons c rest ih =>
    rw [List.flatMap_cons, List.flatMap_cons, ← List.append_assoc]
    exact Reader.feed_trans (feed_unit c read) (ih _)

/-- The names pugixml writes for the events: letters, and at least one. -/
def Named (name : WString) : Prop := name ≠ [] ∧ ∀ c ∈ name, isLetter c = true

instance (name : WString) : Decidable (Named name) :=
  decidable_of_iff (name.isEmpty = false ∧ name.all isLetter = true) (by simp [Named])

theorem nameOrDefault_named {name : WString} (named : Named name) : nameOrDefault name = name :=
  if_neg named.1

/-- One attribute as it arrives. -/
def attributeText (a : WString × WString) : WString :=
  (32 :: a.1 ++ [61, 34]) ++ through (textOutputEscaped a.2) ++ [34]

theorem feed_attribute {a : WString × WString} (named : Named a.1)
    (new : a.1 ∉ given.map Prod.fst) :
    (Reader.gap el given false).feed (attributeText a) =
      some (.gap el (given ++ [(a.1, arrivedText a.2)]) false) := by
  refine Reader.feed_trans (Reader.feed_trans (Reader.feed_opening named.1 named.2 false)
    (feed_text a.2 [])) ?_
  exact Reader.feed_closing new

theorem feed_attributes {attributes : List (WString × WString)}
    (named : ∀ a ∈ attributes, Named a.1)
    (distinct : (given.map Prod.fst ++ attributes.map Prod.fst).Nodup) :
    (Reader.gap el given false).feed (attributes.flatMap attributeText) =
      some (.gap el (given ++ attributes.map fun a => (a.1, arrivedText a.2)) false) := by
  induction attributes generalizing given with
  | nil => simp
  | cons a attributes ih =>
    have new : a.1 ∉ given.map Prod.fst := by
      intro old
      exact (List.nodup_append.mp distinct).2.2 _ old _ (by simp) rfl
    have named' : ∀ b ∈ attributes, Named b.1 := fun b member => named b (by simp [member])
    have distinct' : ((given ++ [(a.1, arrivedText a.2)]).map Prod.fst ++
        attributes.map Prod.fst).Nodup := by simpa using distinct
    have rest := ih named' distinct'
    rw [List.flatMap_cons, List.map_cons]
    rw [List.append_assoc, List.singleton_append] at rest
    exact Reader.feed_trans (feed_attribute (named a (by simp)) new) rest

/-- The text of an element as it arrives. -/
theorem through_nodeOutput {node : XmlElement} (named : Named node.name)
    (attributes : ∀ a ∈ node.attributes, Named a.1) : through (nodeOutput node) =
      60 :: node.name ++ node.attributes.flatMap attributeText ++ [32, 47, 62] := by
  have written : nodeOutputAttributes node.attributes = node.attributes.flatMap fun a =>
      wide " " ++ a.1 ++ wide "=\"" ++ textOutputEscaped a.2 ++ wide "\"" := by
    refine List.flatMap_congr fun a member => ?_
    rw [nameOrDefault_named (attributes a member)]
  have each : (node.attributes.flatMap fun a => through
      (wide " " ++ a.1 ++ wide "=\"" ++ textOutputEscaped a.2 ++ wide "\"")) =
      node.attributes.flatMap attributeText := by
    refine List.flatMap_congr fun a member => ?_
    have ends : through (wide " ") = [32] ∧ through (wide "=\"") = [61, 34] ∧
        through (wide "\"") = [34] := by decide
    simp only [through_append, ends.1, ends.2.1, ends.2.2,
      through_letters (attributes a member).2, attributeText, List.singleton_append]
  have ends : through (wide "<") = [60] ∧ through (wide " />") = [32, 47, 62] := by decide
  rw [nodeOutput, nameOrDefault_named named, written, through_append, through_append,
    through_append, through_flatMap, each, ends.1, ends.2, through_letters named.2]
  rfl

/-- No carriage return arrives: pugixml writes a reference for it. -/
theorem return_notMem {node : XmlElement} (named : Named node.name)
    (attributes : ∀ a ∈ node.attributes, Named a.1) : 13 ∉ through (nodeOutput node) := by
  have letters : ∀ name : WString, Named name → 13 ∉ name := by
    intro name named member
    exact absurd (named.2 13 member) (by decide)
  have unit : ∀ c : WChar, 13 ∉ through (escapedUnit c) := by
    intro c
    cases special : specialAttr c with
    | true =>
      obtain ⟨open_, written, _, free, _⟩ := through_special special
      simp [written, free]
    | false =>
      by_cases tab : c = 9
      · subst tab
        decide
      · obtain ⟨written, markup⟩ := through_plain special tab
        rw [written]
        exact fun member => (markup 13 member).2.2.2.1 rfl
  have text : ∀ s : WString, 13 ∉ through (textOutputEscaped s) := by
    intro s member
    rw [textOutputEscaped, through_flatMap] at member
    obtain ⟨c, _, inside⟩ := List.mem_flatMap.mp member
    exact unit c inside
  have piece : ∀ a ∈ node.attributes, 13 ∉ attributeText a := by
    intro a member
    simp [attributeText, letters _ (attributes a member), text]
  rw [through_nodeOutput named attributes]
  simpa [letters _ named] using piece

/-- The reader gives back the element with its texts as they arrive. -/
theorem readTag_through {node : XmlElement} (named : Named node.name)
    (attributes : ∀ a ∈ node.attributes, Named a.1)
    (distinct : (node.attributes.map Prod.fst).Nodup) :
    readTag (through (nodeOutput node)) =
      some (node.name, node.attributes.map fun a => (a.1, arrivedText a.2)) := by
  have blank : ∀ rest : WString, (Reader.element node.name).feed (32 :: rest) =
      (Reader.gap node.name [] false).feed (32 :: rest) := by
    intro rest
    have step : (Reader.element node.name).step 32 = some (.gap node.name [] true) := by
      rw [Reader.step, if_neg (by decide), if_neg named.1]
      rfl
    rw [Reader.feed_cons, step, Reader.feed_cons]
    rfl
  have inner : (Reader.element node.name).feed
      (node.attributes.flatMap attributeText ++ [32, 47, 62]) =
      some (.closed node.name (node.attributes.map fun a => (a.1, arrivedText a.2))) := by
    have read : (Reader.gap node.name [] false).feed (node.attributes.flatMap attributeText) =
        some (.gap node.name (node.attributes.map fun a => (a.1, arrivedText a.2)) false) :=
      feed_attributes attributes distinct
    have close : (Reader.gap node.name (node.attributes.map fun a => (a.1, arrivedText a.2))
        false).feed [32, 47, 62] =
          some (.closed node.name (node.attributes.map fun a => (a.1, arrivedText a.2))) := rfl
    have whole := Reader.feed_trans read close
    cases rows : node.attributes with
    | nil =>
      rw [rows] at whole
      rw [← whole]
      exact blank _
    | cons a attributes =>
      rw [rows] at whole
      rw [← whole]
      exact blank _
  have opened : Reader.start.feed (60 :: node.name) = some (.element node.name) := by
    rw [Reader.feed_cons]
    exact Reader.feed_element named.2 []
  rw [readTag, lineEnds_of_notMem (return_notMem named attributes),
    through_nodeOutput named attributes, List.append_assoc, Reader.feed_trans opened inner]

/-! ### Events -/

theorem digits_arrive {s : WString} (digits : ∀ c ∈ s, isDigit c = true) : arrivedText s = s := by
  have kept : ∀ c, isDigit c = true → c ≠ 0 ∧ arrivedUnit c = [c] := by
    intro c digit
    simp only [isDigit, decide_eq_true_eq] at digit
    have small : ∃ n : Fin 64, c = n.val.toUInt16 :=
      ⟨⟨c.toNat, by omega⟩, UInt16.ofNat_toNat.symm⟩
    have ascii : ∀ n : Fin 64, isDigit n.val.toUInt16 = true →
        n.val.toUInt16 ≠ 0 ∧ arrivedUnit n.val.toUInt16 = [n.val.toUInt16] := by decide
    obtain ⟨n, rfl⟩ := small
    exact ascii n (by simpa [isDigit] using digit)
  have whole : s.takeWhile (· ≠ 0) = s :=
    List.takeWhile_eq_self_iff.mpr fun c member => by simpa using (kept c (digits c member)).1
  rw [arrivedText, whole]
  refine (List.flatMap_congr fun c member => (kept c (digits c member)).2).trans ?_
  exact List.flatMap_singleton' s

/-- The element of an event, read back, is the element of the event that arrives. -/
theorem element_arrived (e : Event) :
    (⟨e.element.name, e.element.attributes.map fun a => (a.1, arrivedText a.2)⟩ : XmlElement) =
      (arrived e).element := by
  have number : ∀ n, arrivedText (toWstring n) = toWstring n :=
    fun n => digits_arrive (toWstring_digits n).2
  have fileMode : ∀ mode : FileMode, arrivedText mode.text = mode.text := by
    intro mode
    cases mode <;> decide
  have keyMode : ∀ mode : KeyMode, arrivedText mode.text = mode.text := by
    intro mode
    cases mode <;> decide
  have fixed : arrivedText wkProcessEventTypeSpawned = wkProcessEventTypeSpawned ∧
      arrivedText wkProcessEventTypeDead = wkProcessEventTypeDead ∧
      arrivedText wkFileRenamed = wkFileRenamed := by decide
  cases e <;> simp [Event.element, arrived, number, fileMode, keyMode, fixed]

theorem element_named (e : Event) : Named e.element.name ∧
    (∀ a ∈ e.element.attributes, Named a.1) ∧ (e.element.attributes.map Prod.fst).Nodup := by
  cases e <;> simp only [Event.element, List.forall_mem_cons, List.map_cons, List.map_nil] <;>
    exact ⟨by decide, by decide, by decide⟩

/-- The text of an event arrives as the element of another event. -/
theorem load_received {load : WString → Except Exn XmlElement} (reads : ReadsTags load)
    (e : Event) :
    load (processSingleReceivedMessage (0, 0) (messageBytes (nodeOutput e.element))) =
      .ok (arrived e).element := by
  obtain ⟨named, attributes, distinct⟩ := element_named e
  rw [processSingleReceivedMessage_messageBytes (by simp [nodeOutput, wide]), ← element_arrived e]
  exact reads _ _ _ (readTag_through named attributes distinct)

/-! ### Texts that arrive as they were sent -/

theorem length_flatMap_le {f : WChar → WString} (short : ∀ c, (f c).length ≤ 1) (s : WString) :
    (s.flatMap f).length ≤ s.length := by
  induction s with
  | nil => simp
  | cons c s ih =>
    have here := short c
    rw [List.flatMap_cons, List.length_append, List.length_cons]
    omega

/-- A map that makes at most one unit of each keeps a text exactly if it keeps each unit. -/
theorem flatMap_eq_self {f : WChar → WString} (short : ∀ c, (f c).length ≤ 1) (s : WString) :
    s.flatMap f = s ↔ ∀ c ∈ s, f c = [c] := by
  constructor
  · intro same
    induction s with
    | nil => simp
    | cons c s ih =>
      rw [List.flatMap_cons] at same
      cases unit : f c with
      | nil =>
        rw [unit, List.nil_append] at same
        have bound := length_flatMap_le short s
        rw [same, List.length_cons] at bound
        omega
      | cons d rest =>
        have here := short c
        rw [unit] at here same
        have none_ : rest = [] := List.length_eq_zero_iff.mp (by simpa using here)
        subst none_
        obtain ⟨rfl, later⟩ := List.cons.inj same
        exact List.forall_mem_cons.mpr ⟨unit, ih later⟩
  · intro each
    exact (List.flatMap_congr each).trans (List.flatMap_singleton' s)

theorem arrivedUnit_length (c : WChar) : (arrivedUnit c).length ≤ 1 := by
  unfold arrivedUnit
  split
  · simp
  · split
    · simp
    · exact List.length_filter_le ..

theorem arrivedUnit_eq_self_iff (c : WChar) : arrivedUnit c = [c] ↔
    c ≠ 9 ∧ isSurrogate c = false ∧ c ≠ 0xFFFE ∧ c ≠ 0xFFFF := by
  have last : c = 0xFFFE ∨ c = 0xFFFF ↔ 0xFFFD < c.toNat := by
    have bound : c.toNat < 0x10000 := c.toNat_lt
    have values : (0xFFFE : WChar).toNat = 0xFFFE ∧ (0xFFFF : WChar).toNat = 0xFFFF := by decide
    rw [← UInt16.toNat_inj, ← UInt16.toNat_inj, values.1, values.2]
    omega
  rw [← not_or (p := c = 0xFFFE), last]
  unfold arrivedUnit
  by_cases tab : c = 9
  · subst tab
    decide
  rw [if_neg tab]
  by_cases control : c.toNat < 32
  · rw [if_pos control, isSurrogate, decide_eq_false_iff_not]
    refine iff_of_true rfl ⟨tab, ?_, ?_⟩ <;> omega
  rw [if_neg control]
  cases surrogate : isSurrogate c with
  | true =>
    have replaced : decodeUnit c = 0xFFFD := if_pos surrogate
    have other : (0xFFFD : WChar) ≠ c := by
      rintro rfl
      exact absurd surrogate (by decide)
    simp only [replaced]
    constructor
    · intro same
      exact absurd (List.cons.inj ((by decide : [0xFFFD] = [0xFFFD].filter isXmlChar).trans same)).1
        other
    · rintro ⟨_, surrogate', _⟩
      cases surrogate'
  | false =>
    have kept : decodeUnit c = c := if_neg (by simp [surrogate])
    simp only [isSurrogate, decide_eq_false_iff_not] at surrogate
    have xml : isXmlChar c = true ↔ ¬ 0xFFFD < c.toNat := by
      simp only [isXmlChar, decide_eq_true_eq]
      omega
    rw [kept, List.filter_singleton, ← xml]
    cases isXmlChar c <;> simp [tab]

/-- A text arrives as it was sent exactly if it is plain. -/
theorem arrivedText_eq_self_iff (s : WString) : arrivedText s = s ↔ Plain s := by
  have units := flatMap_eq_self arrivedUnit_length
  constructor
  · intro same
    have whole : s.takeWhile (· ≠ 0) = s := by
      refine (List.takeWhile_prefix _).eq_of_length_le ?_
      have bound := length_flatMap_le arrivedUnit_length (s.takeWhile (· ≠ 0))
      rwa [show (s.takeWhile (· ≠ 0)).flatMap arrivedUnit = s from same] at bound
    rw [arrivedText, whole, units] at same
    intro c member
    have unit := (arrivedUnit_eq_self_iff c).mp (same c member)
    have positive := List.takeWhile_eq_self_iff.mp whole c member
    exact ⟨by simpa using positive, unit⟩
  · intro plain
    have whole : s.takeWhile (· ≠ 0) = s :=
      List.takeWhile_eq_self_iff.mpr fun c member => by simpa using (plain c member).1
    rw [arrivedText, whole, units]
    exact fun c member => (arrivedUnit_eq_self_iff c).mpr (plain c member).2

theorem handler_arrived_iff (settings : Settings) (e : Event) :
    (arrived e).handler settings = e.handler settings ↔ ∀ s ∈ texts settings e, Plain s := by
  cases e with
  | newPid parentPid childPid => simp [arrived, texts]
  | removedPid pid => simp [arrived, texts]
  | fileAccess fullPath mode =>
    cases looked : settings.logFs <;>
      simp [arrived, texts, Event.handler, looked, arrivedText_eq_self_iff]
  | fileRename oldPath newPath =>
    cases looked : settings.logFs <;>
      simp [arrived, texts, Event.handler, looked, arrivedText_eq_self_iff]
  | registryAccess fullPath mode =>
    cases looked : settings.logReg <;>
      simp [arrived, texts, Event.handler, looked, arrivedText_eq_self_iff]

/-- The receiver decides on the call for the event that arrives. -/
theorem received_element {load : WString → Except Exn XmlElement} (reads : ReadsTags load)
    (settings : Settings) (e : Event) :
    receivedHandler load settings (messageBytes (nodeOutput e.element)) =
      .ok ((arrived e).handler settings) := by
  simp only [receivedHandler, load_received reads, bind, Except.bind, selectHandler_element]

/-- Every event is answered, with the call for the event that arrives; this is the call for the
event that was sent exactly if the texts the guest looks at are plain. -/
theorem event_arrives (load : WString → Except Exn XmlElement) (reads : ReadsTags load)
    (settings : Settings) (e : Event) :
    receivedHandler load settings (messageBytes (nodeOutput e.element)) =
        .ok ((arrived e).handler settings) ∧
      ((arrived e).handler settings = e.handler settings ↔ ∀ s ∈ texts settings e, Plain s) :=
  ⟨received_element reads settings e, handler_arrived_iff settings e⟩

/-- A reader for tags alone. -/
def loadTag (text : WString) : Except Exn XmlElement :=
  match readTag text with
  | some (el, given) => .ok ⟨el, given⟩
  | none => .error .xml

theorem readsTags_loadTag : ReadsTags loadTag := by
  intro text el given read
  rw [loadTag, read]

/-- A new name with a tabulator, a line feed, an ampersand and a surrogate in it. -/
def oddRename : Event := .fileRename (wide "C:\\a") (wide "C:\\b" ++ [9, 10, 38, 0xD83D])

theorem event_arrives_oddRename :
    receivedHandler loadTag .default (messageBytes (nodeOutput oddRename.element)) =
      .ok (.notifyFileRename (wide "C:\\a") (wide "C:\\b" ++ [32, 10, 38, 0xFFFD])) := by
  rw [(event_arrives loadTag readsTags_loadTag .default oddRename).1]
  decide

end GuestAgent.Guarantees.EventArrival
