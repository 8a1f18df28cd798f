import LocaleScript.Yaml.Class
import LocaleScript.Json.Reader

/-!
# Names, tags and directives

Nodes may carry a name, by which they are referred to, and a tag, which says what they are. A tag is
written with a handle that a directive or the language itself gives a meaning to, or as it is
between angles.

## Termination

Every step of `tagText` leaves less text, which it makes sure of before it goes on.
-/

namespace LocaleScript.Yaml

/-! ## Names -/

/-- The name behind `&` or `*`, with what may follow it. -/
def readNodeName (cs : List Char) : Option (String × List Char) :=
  let name := cs.takeWhile isNameChar
  let rest := cs.dropWhile isNameChar
  if name.isEmpty then none
  else if endsWord rest || rest.head?.any ("?:,]\x7d%@\x60".toList.contains ·) then
    some (String.ofList name, rest)
  else none

/-! ## Text of tags -/

/-- The byte that `%` and two digits stand for. -/
def readByte : List Char → Option (Nat × List Char)
  | '%' :: a :: b :: cs =>
    match Json.hexValue? a, Json.hexValue? b with
    | some a, some b => some (16 * a + b, cs)
    | _, _ => none
  | _ => none

/-- Adds the bits of `n` more bytes of a character. -/
def readMoreBytes : Nat → Nat → List Char → Option (Nat × List Char)
  | 0, code, cs => some (code, cs)
  | n + 1, code, cs =>
    match readByte cs with
    | none => none
    | some (byte, rest) =>
      if byte / 64 = 2 then readMoreBytes n (64 * code + byte % 64) rest else none

/-- The character that a row of escaped bytes stands for in UTF-8. -/
def readEscapedChar (cs : List Char) : Option (Char × List Char) :=
  match readByte cs with
  | none => none
  | some (byte, rest) =>
    let code? :=
      if byte < 0x80 then some (byte, rest)
      else if byte / 32 = 6 then readMoreBytes 1 (byte % 32) rest
      else if byte / 16 = 14 then readMoreBytes 2 (byte % 16) rest
      else if byte / 8 = 30 then readMoreBytes 3 (byte % 8) rest
      else none
    code?.map fun (code, rest) => (Char.ofNat code, rest)

/-- The longest text of a tag from here on. -/
def tagText (angled : Bool) : List Char → Option (List Char × List Char)
  | [] => some ([], [])
  | c :: cs =>
    if c = '%' then
      match readEscapedChar (c :: cs) with
      | none => none
      | some (d, rest) =>
        if rest.length < (c :: cs).length then
          (tagText angled rest).map fun p => (d :: p.1, p.2)
        else none
    else if isTagChar angled c then (tagText angled cs).map fun p => (c :: p.1, p.2)
    else some ([], c :: cs)
termination_by cs => cs.length
decreasing_by
  · assumption
  · exact Nat.lt_succ_self _

/-- The text of a tag, which must not be empty. -/
def readTagText (angled : Bool) (cs : List Char) : Option (String × List Char) :=
  match tagText angled cs with
  | some (d :: ds, rest) => some (String.ofList (d :: ds), rest)
  | _ => none

/-! ## Tags -/

/-- A tag as it is written: the handle, none if the tag stands between angles or is a lone `!`, and
the text behind it. -/
structure WrittenTag where
  handle : Option String
  text : String
deriving DecidableEq, Repr

/-- Splits off a handle: `!`, a name, and a second `!`, the last two of which may be missing. -/
def splitHandle (cs : List Char) : List Char × List Char :=
  let name := (cs.drop 1).takeWhile isNameChar
  match (cs.drop 1).dropWhile isNameChar with
  | '!' :: rest => ('!' :: (name ++ ['!']), rest)
  | rest => ('!' :: name, rest)

/-- The tag behind which nothing is checked yet; the text begins with `!`. -/
def tagParts (cs : List Char) : Option (WrittenTag × List Char) :=
  match cs with
  | '!' :: '<' :: rest =>
    match readTagText true rest with
    | some (text, '>' :: rest) => some (⟨none, text⟩, rest)
    | _ => none
  | _ =>
    let (handle, rest) := splitHandle cs
    if handle.length ≥ 2 ∧ handle.getLast? = some '!' then
      (readTagText false rest).map fun (text, rest) => (⟨some (String.ofList handle), text⟩, rest)
    else
      match tagText false rest with
      | none => none
      | some (more, rest) =>
        let text := String.ofList (handle.drop 1 ++ more)
        some (if text = "" then ⟨none, "!"⟩ else ⟨some "!", text⟩, rest)

/-- Reads a tag; a blank must follow, or a comma inside a flow collection. -/
def readTag (inFlow : Bool) (cs : List Char) : Option (WrittenTag × List Char) :=
  match tagParts cs with
  | some (tag, rest) =>
    if endsWord rest || (inFlow && rest.head? == some ',') then some (tag, rest) else none
  | none => none

/-! ## Directives -/

/-- A line that says how a document is to be read. -/
inductive Directive where
  | version (major minor : Nat)
  /-- Tags with this handle begin with this text. -/
  | handle (name start : String)
deriving DecidableEq, Repr

/-- A number of at most nine digits. -/
def readVersionPart (cs : List Char) : Option (Nat × List Char) :=
  let digits := cs.takeWhile Char.isDigit
  if digits.isEmpty ∨ 9 < digits.length then none
  else some (Decimal.ofDigits digits, cs.dropWhile Char.isDigit)

/-- Reads a directive behind its `%`. -/
def readDirective (cs : List Char) : Option (Directive × List Char) :=
  let name := cs.takeWhile isNameChar
  let rest := cs.dropWhile isNameChar
  let value := rest.dropWhile isSpace
  if !endsWord rest then none
  else if name = "YAML".toList then
    match readVersionPart value with
    | some (major, '.' :: rest) =>
      (readVersionPart rest).map fun (minor, rest) => (.version major minor, rest)
    | _ => none
  else if name = "TAG".toList then
    if value.head? ≠ some '!' then none
    else
      let (handle, rest) := splitHandle value
      if handle ≠ ['!'] ∧ (handle.length < 2 ∨ handle.getLast? ≠ some '!') then none
      else if !rest.head?.any isSpace then none
      else
        match readTagText true (rest.dropWhile isSpace) with
        | some (start, rest) =>
          if endsWord rest then some (.handle (String.ofList handle) start, rest) else none
        | none => none
  else none

/-- The handles that have a meaning in every document. -/
def standardHandles : List (String × String) :=
  [("!", "!"), ("!!", "tag:yaml.org,2002:")]

/-- The full text of a tag; a handle without a meaning is refused. -/
def WrittenTag.resolve? (handles : List (String × String)) (tag : WrittenTag) : Option String :=
  match tag.handle with
  | none => some tag.text
  | some handle => (handles.lookup handle).map (· ++ tag.text)

end LocaleScript.Yaml
