import Mathlib.Data.List.Basic

/-!
XML documents that are a single empty-element tag, as XML 1.0 reads them: a reader over UTF-16
units that takes one unit at a time.

A value is normalized: white space written out becomes a blank, white space written as a
character reference stays, and the predefined entities stand for their characters. Characters
are not checked against `Char`. Names are kept to letters of ASCII; other documents, well-formed
or not, are left to other readers.
-/
namespace GuestAgent.Library.XmlTag

abbrev Text := List UInt16

/-- How much of the tag has been read: the name `el` and the attributes `given` so far. -/
inductive Reader where
  | start
  | element (el : Text)
  | gap (el : Text) (given : List (Text × Text)) (blank : Bool)
  | name (el : Text) (given : List (Text × Text)) (key : Text)
  | equals (el : Text) (given : List (Text × Text)) (key : Text)
  | quote (el : Text) (given : List (Text × Text)) (key : Text)
  | value (el : Text) (given : List (Text × Text)) (key : Text) (delim : UInt16) (read : Text)
  | reference (el : Text) (given : List (Text × Text)) (key : Text) (delim : UInt16)
      (read : Text) (open_ : Text)
  | slash (el : Text) (given : List (Text × Text))
  | closed (el : Text) (given : List (Text × Text))
  deriving DecidableEq, Repr

def isLetter (c : UInt16) : Bool :=
  decide (65 ≤ c.toNat ∧ c.toNat ≤ 90 ∨ 97 ≤ c.toNat ∧ c.toNat ≤ 122)

/-- `S` of the grammar. -/
def isSpace (c : UInt16) : Bool := decide (c = 9 ∨ c = 10 ∨ c = 13 ∨ c = 32)

/-- A digit in the base, `none` for any other unit. -/
def digit (base : Nat) (c : UInt16) : Option Nat :=
  let n := c.toNat
  let d := if n ≤ 57 then n - 48 else if n ≤ 70 then n - 55 else n - 87
  if (48 ≤ n ∧ n ≤ 57 ∨ 65 ≤ n ∧ n ≤ 70 ∨ 97 ≤ n ∧ n ≤ 102) ∧ d < base then some d else none

def number (base : Nat) (digits : Text) : Option Nat :=
  if digits = [] then none
  else digits.foldlM (fun n c => (digit base c).map (base * n + ·)) 0

/-- The units of a code point. -/
def units (n : Nat) : Option Text :=
  if n < 0x10000 then some [n.toUInt16]
  else if n < 0x110000 then
    some [(0xD800 + (n - 0x10000) / 0x400).toUInt16, (0xDC00 + (n - 0x10000) % 0x400).toUInt16]
  else none

/-- What the text between `&` and `;` stands for. -/
def expand : Text → Option Text
  | [97, 109, 112] => some [38]
  | [108, 116] => some [60]
  | [103, 116] => some [62]
  | [113, 117, 111, 116] => some [34]
  | [97, 112, 111, 115] => some [39]
  | 35 :: 120 :: digits => (number 16 digits).bind units
  | 35 :: digits => (number 10 digits).bind units
  | _ => none

/-- One unit; `none` when the document is not of this form. -/
def Reader.step : Reader → UInt16 → Option Reader
  | .start, c => if c = 60 then some (.element []) else if isSpace c then some .start else none
  | .element el, c =>
    if isLetter c then some (.element (el ++ [c]))
    else if el = [] then none
    else if isSpace c then some (.gap el [] true)
    else if c = 47 then some (.slash el []) else none
  | .gap el given blank, c =>
    if isSpace c then some (.gap el given true)
    else if c = 47 then some (.slash el given)
    else if blank ∧ isLetter c then some (.name el given [c]) else none
  | .name el given key, c =>
    if isLetter c then some (.name el given (key ++ [c]))
    else if isSpace c then some (.equals el given key)
    else if c = 61 then some (.quote el given key) else none
  | .equals el given key, c =>
    if isSpace c then some (.equals el given key)
    else if c = 61 then some (.quote el given key) else none
  | .quote el given key, c =>
    if isSpace c then some (.quote el given key)
    else if c = 34 ∨ c = 39 then some (.value el given key c []) else none
  | .value el given key delim read, c =>
    if c = delim then
      -- an attribute may not be given twice
      if key ∈ given.map Prod.fst then none
      else some (.gap el (given ++ [(key, read)]) false)
    else if c = 60 then none
    else if c = 38 then some (.reference el given key delim read [])
    else if isSpace c then some (.value el given key delim (read ++ [32]))
    else some (.value el given key delim (read ++ [c]))
  | .reference el given key delim read open_, c =>
    if c = 59 then (expand open_).map fun meant => .value el given key delim (read ++ meant)
    else some (.reference el given key delim read (open_ ++ [c]))
  | .slash el given, c => if c = 62 then some (.closed el given) else none
  | .closed el given, c => if isSpace c then some (.closed el given) else none

/-- Line ends are one line feed each before anything else is looked at. -/
def lineEnds : Text → Text
  | 13 :: 10 :: rest => 10 :: lineEnds rest
  | 13 :: rest => 10 :: lineEnds rest
  | c :: rest => c :: lineEnds rest
  | [] => []

def Reader.feed (r : Reader) (text : Text) : Option Reader := text.foldlM Reader.step r

/-- The name and the attributes of the tag that is the whole document. -/
def readTag (text : Text) : Option (Text × List (Text × Text)) :=
  match Reader.start.feed (lineEnds text) with
  | some (.closed el given) => some (el, given)
  | _ => none

theorem lineEnds_of_notMem {text : Text} (free : 13 ∉ text) : lineEnds text = text := by
  induction text with
  | nil => rfl
  | cons c rest ih =>
    have other : c ≠ 13 := fun same => free (by simp [same])
    have later := ih fun inside => free (List.mem_cons_of_mem c inside)
    rw [lineEnds, later]
    · rintro tail rfl _
      exact other rfl
    · exact other

namespace Reader

@[simp] theorem feed_nil (r : Reader) : r.feed [] = some r := rfl

theorem feed_cons (r : Reader) (c : UInt16) (text : Text) :
    r.feed (c :: text) = (r.step c).bind (·.feed text) := rfl

theorem feed_append (r : Reader) (first second : Text) :
    r.feed (first ++ second) = (r.feed first).bind (·.feed second) :=
  List.foldlM_append ..

/-- A text that takes the reader from one point to the next. -/
theorem feed_trans {r s t : Reader} {first second : Text} (one : r.feed first = some s)
    (two : s.feed second = some t) : r.feed (first ++ second) = some t := by
  rw [feed_append, one]
  exact two

variable {el : Text} {given : List (Text × Text)}

theorem feed_element {letters : Text} (all : ∀ c ∈ letters, isLetter c = true) (before : Text) :
    (Reader.element before).feed letters = some (.element (before ++ letters)) := by
  induction letters generalizing before with
  | nil => simp
  | cons c letters ih =>
    have here : (Reader.element before).step c = some (.element (before ++ [c])) :=
      if_pos (all c (by simp))
    rw [feed_cons, here, Option.bind_some, ih fun d member => all d (by simp [member])]
    simp

theorem feed_name {letters : Text} (all : ∀ c ∈ letters, isLetter c = true) (before : Text) :
    (Reader.name el given before).feed letters = some (.name el given (before ++ letters)) := by
  induction letters generalizing before with
  | nil => simp
  | cons c letters ih =>
    have here : (Reader.name el given before).step c = some (.name el given (before ++ [c])) :=
      if_pos (all c (by simp))
    rw [feed_cons, here, Option.bind_some, ih fun d member => all d (by simp [member])]
    simp

theorem isLetter_plain {c : UInt16} (letter : isLetter c = true) : isSpace c = false ∧ c ≠ 47 := by
  constructor
  · cases space : isSpace c with
    | false => rfl
    | true =>
      rcases of_decide_eq_true space with rfl | rfl | rfl | rfl <;>
        exact absurd letter (by decide)
  · rintro rfl
    exact absurd letter (by decide)

/-- The blank, the name, the equals sign and the opening quote. -/
theorem feed_opening {key : Text} (named : key ≠ []) (all : ∀ c ∈ key, isLetter c = true)
    (blank : Bool) :
    (Reader.gap el given blank).feed (32 :: key ++ [61, 34]) =
      some (.value el given key 34 []) := by
  obtain ⟨first, rest, rfl⟩ := List.exists_cons_of_ne_nil named
  have letter := all first (by simp)
  obtain ⟨ink, notSlash⟩ := isLetter_plain letter
  have begun : (Reader.gap el given true).step first = some (.name el given [first]) := by
    simp [step, ink, notSlash, letter]
  have white : (Reader.gap el given blank).step 32 = some (.gap el given true) := rfl
  rw [List.cons_append, List.cons_append, feed_cons, white, Option.bind_some, feed_cons, begun,
    Option.bind_some]
  exact feed_trans (feed_name (fun c member => all c (by simp [member])) [first]) rfl

/-- A reference, from the ampersand to the semicolon. -/
theorem feed_reference {key read open_ meant : Text} {delim : UInt16} (ends : 59 ∉ open_)
    (known : expand open_ = some meant) (other : delim ≠ 38) :
    (Reader.value el given key delim read).feed (38 :: open_ ++ [59]) =
      some (.value el given key delim (read ++ meant)) := by
  have inside : ∀ (rest before : Text), 59 ∉ rest →
      (Reader.reference el given key delim read before).feed rest =
        some (.reference el given key delim read (before ++ rest)) := by
    intro rest
    induction rest with
    | nil => simp
    | cons c rest ih =>
      intro before ends
      have here : (Reader.reference el given key delim read before).step c =
          some (.reference el given key delim read (before ++ [c])) :=
        if_neg fun same => ends (by simp [same])
      rw [feed_cons, here, Option.bind_some, ih _ fun member => ends (by simp [member])]
      simp
  have begun : (Reader.value el given key delim read).step 38 =
      some (.reference el given key delim read []) := by
    simp [step, other.symm]
  rw [List.cons_append, feed_cons, begun, Option.bind_some]
  refine feed_trans (inside open_ [] ends) ?_
  simp [feed_cons, step, known]

/-- The closing quote of an attribute that was not given before. -/
theorem feed_closing {key read : Text} (new : key ∉ given.map Prod.fst) :
    (Reader.value el given key 34 read).feed [34] =
      some (.gap el (given ++ [(key, read)]) false) := by
  rw [feed_cons, step, if_pos rfl, if_neg new]
  rfl

end Reader

end GuestAgent.Library.XmlTag
