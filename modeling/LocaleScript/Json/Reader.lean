import LocaleScript.Json.Value
import LocaleScript.Decimal.Layout

/-!
# Reading JSON

The JSON grammar without a limit on nesting. A number without fraction and exponent is an integer if
64 bits hold it, signed or unsigned; every other number is a double, minus zero included.

The functions that read nested values take the number of steps they may use; `parse` passes the
length of the text, and no value has more parts than characters.

Who wants only some members of an object can have the others skipped (`parseWanted`). A skipped
value is checked for its form alone, so the surrogates in its strings need not come in pairs.
-/

namespace LocaleScript.Json

/-- The blanks of the JSON grammar. -/
def isSpace (c : Char) : Bool :=
  c == ' ' || c == '\t' || c == '\n' || c == '\r'

/-- Drops leading blanks. -/
def skipSpaces (cs : List Char) : List Char :=
  cs.dropWhile isSpace

/-! ## Strings -/

/-- The value of a hexadecimal digit in either case. -/
def hexValue? (c : Char) : Option Nat :=
  let n := c.toNat
  if 0x30 ≤ n ∧ n ≤ 0x39 then some (n - 0x30)
  else if 0x61 ≤ n ∧ n ≤ 0x66 then some (n - 0x61 + 10)
  else if 0x41 ≤ n ∧ n ≤ 0x46 then some (n - 0x41 + 10)
  else none

/-- The value of four hexadecimal digits. -/
def hexValue4? (a b c d : Char) : Option Nat := do
  let a ← hexValue? a
  let b ← hexValue? b
  let c ← hexValue? c
  let d ← hexValue? d
  return ((a * 16 + b) * 16 + c) * 16 + d

/-- What a character behind a backslash stands for, `u` apart. -/
def unescape? (c : Char) : Option Char :=
  if c = '"' ∨ c = '\\' ∨ c = '/' then some c
  else if c = 'b' then some '\x08'
  else if c = 'f' then some '\x0c'
  else if c = 'n' then some '\n'
  else if c = 'r' then some '\r'
  else if c = 't' then some '\t'
  else none

/-- The character of two surrogates. -/
def surrogatePair (high low : Nat) : Char :=
  Char.ofNat (0x10000 + (high - 0xD800) * 0x400 + (low - 0xDC00))

/-- Puts a character in front of what was read. -/
def push (c : Char) (r : Option (List Char × List Char)) : Option (List Char × List Char) :=
  r.map fun p => (c :: p.1, p.2)

/-- Reads a string behind its opening quote, to behind its closing one. Surrogates must come in
pairs, controls must be escaped. -/
def readString : List Char → Option (List Char × List Char)
  | [] => none
  | '"' :: cs => some ([], cs)
  | '\\' :: 'u' :: a :: b :: c :: d :: cs =>
    match hexValue4? a b c d with
    | none => none
    | some unit =>
      if unit < 0xD800 ∨ 0xDFFF < unit then push (Char.ofNat unit) (readString cs)
      else if 0xDC00 ≤ unit then none
      else
        match cs with
        | '\\' :: 'u' :: e :: f :: g :: h :: ds =>
          match hexValue4? e f g h with
          | none => none
          | some low =>
            if 0xDC00 ≤ low ∧ low ≤ 0xDFFF then push (surrogatePair unit low) (readString ds)
            else none
        | _ => none
  | '\\' :: c :: cs =>
    match unescape? c with
    | none => none
    | some e => push e (readString cs)
  | c :: cs => if c.toNat < 0x20 ∨ c = '\\' then none else push c (readString cs)

/-! ## Numbers -/

/-- Splits off the leading digits. -/
def takeDigits (cs : List Char) : List Char × List Char :=
  (cs.takeWhile Char.isDigit, cs.dropWhile Char.isDigit)

/-- Reads an exponent, if one follows: `e`, an optional sign and at least one digit. -/
def readExponent : List Char → Option (Option Int × List Char)
  | c :: cs =>
    if c = 'e' ∨ c = 'E' then
      let (negative, cs) := match cs with
        | '-' :: ds => (true, ds)
        | '+' :: ds => (false, ds)
        | _ => (false, cs)
      match takeDigits cs with
      | ([], _) => none
      | (ds, rest) =>
        let n : Int := Decimal.ofDigits ds
        some (some (if negative then -n else n), rest)
    else some (none, c :: cs)
  | [] => some (none, [])

/-- Reads the fraction digits, if a point follows: at least one digit. -/
def readFraction : List Char → Option (List Char × List Char)
  | '.' :: cs =>
    match takeDigits cs with
    | ([], _) => none
    | (ds, rest) => some (ds, rest)
  | cs => some ([], cs)

/-- Signed integers of 64 bits lie below this number and not below its opposite. -/
def signedLimit : Nat := Decimal.twoTo 63

/-- Unsigned integers of 64 bits lie below this number. -/
def unsignedLimit : Nat := Decimal.twoTo 64

/-- A number without fraction and exponent. -/
def ofWhole (negative : Bool) (n : Nat) : Json :=
  if negative then
    if n = 0 ∨ signedLimit < n then .float (-(Decimal.toFloat n 0)) else .int (-n)
  else if n < unsignedLimit then .int n
  else .float (Decimal.toFloat n 0)

/-- Reads a number behind its sign: no superfluous leading zero. -/
def readNumber (negative : Bool) (cs : List Char) : Option (Json × List Char) :=
  match takeDigits cs with
  | ([], _) => none
  | ('0' :: _ :: _, _) => none
  | (whole, rest) =>
    match readFraction rest with
    | none => none
    | some (fraction, rest') =>
      match readExponent rest' with
      | none => none
      | some (exponent, rest'') =>
        if fraction.isEmpty ∧ exponent.isNone then
          some (ofWhole negative (Decimal.ofDigits whole), rest'')
        else
          let x := Decimal.toFloat (Decimal.ofDigits (whole ++ fraction))
            (exponent.getD 0 - fraction.length)
          some (.float (if negative then -x else x), rest'')

/-! ## Values -/

/-- Drops the given beginning. -/
def expect (word cs : List Char) : Option (List Char) :=
  if word.isPrefixOf cs then some (cs.drop word.length) else none

mutual

/-- Reads a value; blanks may stand before it. -/
def readValue : Nat → List Char → Option (Json × List Char)
  | 0, _ => none
  | steps + 1, cs =>
    match skipSpaces cs with
    | [] => none
    | c :: rest =>
      if c = '"' then (readString rest).map fun p => (.str (String.ofList p.1), p.2)
      else if c = '[' then
        match skipSpaces rest with
        | ']' :: rest' => some (.arr [], rest')
        | _ => (readItems steps rest).map fun p => (.arr p.1, p.2)
      else if c = '{' then
        match skipSpaces rest with
        | '}' :: rest' => some (.obj [], rest')
        | _ => (readMembers steps rest).map fun p => (.obj p.1, p.2)
      else if c = 'n' then (expect ['u', 'l', 'l'] rest).map (.null, ·)
      else if c = 't' then (expect ['r', 'u', 'e'] rest).map (.bool true, ·)
      else if c = 'f' then (expect ['a', 'l', 's', 'e'] rest).map (.bool false, ·)
      else if c = '-' then readNumber true rest
      else readNumber false (c :: rest)

/-- Reads the items of an array and its closing bracket; there is at least one. -/
def readItems : Nat → List Char → Option (List Json × List Char)
  | 0, _ => none
  | steps + 1, cs =>
    match readValue steps cs with
    | none => none
    | some (item, rest) =>
      match skipSpaces rest with
      | ']' :: rest' => some ([item], rest')
      | ',' :: rest' => (readItems steps rest').map fun p => (item :: p.1, p.2)
      | _ => none

/-- Reads the members of an object and its closing brace; there is at least one. -/
def readMembers : Nat → List Char → Option (List (String × Json) × List Char)
  | 0, _ => none
  | steps + 1, cs =>
    match skipSpaces cs with
    | '"' :: rest =>
      match readString rest with
      | none => none
      | some (key, rest₁) =>
        match skipSpaces rest₁ with
        | ':' :: rest₂ =>
          match readValue steps rest₂ with
          | none => none
          | some (value, rest₃) =>
            match skipSpaces rest₃ with
            | '}' :: rest₄ => some ([(String.ofList key, value)], rest₄)
            | ',' :: rest₄ =>
              (readMembers steps rest₄).map fun p => ((String.ofList key, value) :: p.1, p.2)
            | _ => none
        | _ => none
    | _ => none

end

/-! ## Skipped values -/

/-- Goes over a string behind its opening quote, to behind its closing one. -/
def skipString : List Char → Option (List Char)
  | [] => none
  | '"' :: cs => some cs
  | '\\' :: 'u' :: a :: b :: c :: d :: cs =>
    match hexValue4? a b c d with
    | none => none
    | some _ => skipString cs
  | '\\' :: c :: cs =>
    match unescape? c with
    | none => none
    | some _ => skipString cs
  | c :: cs => if c.toNat < 0x20 ∨ c = '\\' then none else skipString cs

mutual

/-- Goes over a value; blanks may stand before it. -/
def skipValue : Nat → List Char → Option (List Char)
  | 0, _ => none
  | steps + 1, cs =>
    match skipSpaces cs with
    | [] => none
    | c :: rest =>
      if c = '"' then skipString rest
      else if c = '[' then
        match skipSpaces rest with
        | ']' :: rest' => some rest'
        | _ => skipItems steps rest
      else if c = '{' then
        match skipSpaces rest with
        | '}' :: rest' => some rest'
        | _ => skipMembers steps rest
      else (readValue 1 (c :: rest)).map (·.2)

/-- Goes over the items of an array and its closing bracket; there is at least one. -/
def skipItems : Nat → List Char → Option (List Char)
  | 0, _ => none
  | steps + 1, cs =>
    match skipValue steps cs with
    | none => none
    | some rest =>
      match skipSpaces rest with
      | ']' :: rest' => some rest'
      | ',' :: rest' => skipItems steps rest'
      | _ => none

/-- Goes over the members of an object and its closing brace; there is at least one. -/
def skipMembers : Nat → List Char → Option (List Char)
  | 0, _ => none
  | steps + 1, cs =>
    match skipSpaces cs with
    | '"' :: rest =>
      match skipString rest with
      | none => none
      | some rest₁ =>
        match skipSpaces rest₁ with
        | ':' :: rest₂ =>
          match skipValue steps rest₂ with
          | none => none
          | some rest₃ =>
            match skipSpaces rest₃ with
            | '}' :: rest₄ => some rest₄
            | ',' :: rest₄ => skipMembers steps rest₄
            | _ => none
        | _ => none
    | _ => none

end

/-- Reads the value of a member, or goes over it. -/
def readIfWanted (wanted : Bool) (steps : Nat) (cs : List Char) :
    Option (Option Json × List Char) :=
  if wanted then (readValue steps cs).map fun p => (some p.1, p.2)
  else (skipValue steps cs).map fun rest => (none, rest)

/-- Reads the members of an object whose keys are wanted, goes over the others, and reads its
closing brace; there is at least one member. -/
def readWanted (wanted : String → Bool) :
    Nat → List Char → Option (List (String × Json) × List Char)
  | 0, _ => none
  | steps + 1, cs =>
    match skipSpaces cs with
    | '"' :: rest =>
      match readString rest with
      | none => none
      | some (key, rest₁) =>
        match skipSpaces rest₁ with
        | ':' :: rest₂ =>
          match readIfWanted (wanted (String.ofList key)) steps rest₂ with
          | none => none
          | some (value, rest₃) =>
            let member := value.toList.map (String.ofList key, ·)
            match skipSpaces rest₃ with
            | '}' :: rest₄ => some (member, rest₄)
            | ',' :: rest₄ => (readWanted wanted steps rest₄).map fun p => (member ++ p.1, p.2)
            | _ => none
        | _ => none
    | _ => none

/-! ## Texts -/

/-- What was read, if nothing but blanks follows. -/
def atEnd (read : Option (Json × List Char)) : Option Json :=
  match read with
  | some (j, rest) => if (skipSpaces rest).isEmpty then some j else none
  | none => none

/-- Reads a text that holds one value and nothing else but blanks. -/
def parseChars (cs : List Char) : Option Json :=
  atEnd (readValue (cs.length + 1) cs)

/-- Reads a text that holds one value and nothing else but blanks. -/
def parse (text : String) : Option Json :=
  parseChars text.toList

/-- Reads a text like `parse`; of an object only the members whose keys are wanted are kept. -/
def parseWanted (wanted : String → Bool) (text : String) : Option Json :=
  match skipSpaces text.toList with
  | '{' :: rest =>
    match skipSpaces rest with
    | '}' :: rest' => atEnd (some (.obj [], rest'))
    | _ => atEnd ((readWanted wanted (rest.length + 1) rest).map fun p => (.obj p.1, p.2))
  | cs => parseChars cs

end LocaleScript.Json
