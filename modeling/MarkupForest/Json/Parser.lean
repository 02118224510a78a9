import MarkupForest.Json.Basic
import MarkupForest.Text.Hexadecimal

/-!
# Reading JSON

The grammar is the strict one: no comments, no trailing commas, no leading
zeros, no raw control characters in strings, nothing but space around the
value.  Every reader takes the characters ahead and answers with what it read
and the characters behind it.

A value contains values, so the readers of values take a number of steps as
well.  Two nested readers pass at least one character, hence twice the length
of the document is enough.
-/

namespace MarkupForest

namespace Json

def isSpace (c : Char) : Bool :=
  c == ' ' || c == '\n' || c == '\t' || c == '\r'

def skipSpaces (cs : List Char) : List Char :=
  cs.dropWhile isSpace

/-! ## Numbers -/

/-- The digits ahead, at least one. -/
def readDigits? (cs : List Char) : Option (List Char × List Char) :=
  match cs.takeWhile Char.isDigit with
  | [] => none
  | digits => some (digits, cs.dropWhile Char.isDigit)

/-- The digits ahead, without a zero in front of others. -/
def readWhole? (cs : List Char) : Option (List Char × List Char) :=
  match readDigits? cs with
  | some ('0' :: _ :: _, _) => none
  | answer => answer

/-- The digits behind a point, none if there is no point. -/
def readFraction? : List Char → Option (List Char × List Char)
  | '.' :: rest => readDigits? rest
  | cs => some ([], cs)

def readExponentSign : List Char → Bool × List Char
  | '+' :: rest => (false, rest)
  | '-' :: rest => (true, rest)
  | cs => (false, cs)

def readExponent? : List Char → Option (Int × List Char)
  | c :: rest =>
      if c = 'e' ∨ c = 'E' then
        let signed := readExponentSign rest
        (readDigits? signed.2).map fun answer =>
          let value : Int := Nat.ofDigitChars 10 answer.1 0
          (if signed.1 then -value else value, answer.2)
      else
        some (0, c :: rest)
  | [] => some (0, [])

def readMagnitude? (negative : Bool) (cs : List Char) :
    Option (Decimal × List Char) := do
  let (whole, cs) ← readWhole? cs
  let (fraction, cs) ← readFraction? cs
  let (exponent, cs) ← readExponent? cs
  return (⟨negative, Nat.ofDigitChars 10 (whole ++ fraction) 0,
    exponent - fraction.length⟩, cs)

def readNumber? : List Char → Option (Decimal × List Char)
  | '-' :: rest => readMagnitude? true rest
  | cs => readMagnitude? false cs

/-! ## Strings -/

/-- A piece of a string literal: a character, or a code unit given by number. -/
inductive Piece where
  | char (c : Char)
  | unit (n : Nat)

def letterEscape? (c : Char) : Option Char :=
  match c with
  | '"' => some '"'
  | '\\' => some '\\'
  | '/' => some '/'
  | 'b' => some '\x08'
  | 'f' => some '\x0c'
  | 'n' => some '\n'
  | 'r' => some '\r'
  | 't' => some '\t'
  | _ => none

/-- The pieces of a string literal whose opening quotation mark was read. -/
def readPieces? : List Char → Option (List Piece × List Char)
  | [] => none
  | '"' :: rest => some ([], rest)
  | '\\' :: 'u' :: a :: b :: c :: d :: rest => do
      let n ← Text.readHexadecimal? [a, b, c, d]
      let (pieces, rest) ← readPieces? rest
      return (.unit n :: pieces, rest)
  | '\\' :: letter :: rest => do
      let c ← letterEscape? letter
      let (pieces, rest) ← readPieces? rest
      return (.char c :: pieces, rest)
  | c :: rest =>
      if c.toNat < 0x20 then
        none
      else do
        let (pieces, rest) ← readPieces? rest
        return (.char c :: pieces, rest)

def isHighSurrogate (n : Nat) : Bool := 0xD800 ≤ n && n < 0xDC00

def isLowSurrogate (n : Nat) : Bool := 0xDC00 ≤ n && n < 0xE000

/-- The characters of a literal; none if a surrogate stands alone. -/
def joinPieces? : List Piece → Option (List Char)
  | [] => some []
  | .char c :: rest => (joinPieces? rest).map (c :: ·)
  | .unit high :: .unit low :: rest =>
      if isHighSurrogate high then
        if isLowSurrogate low then
          let code := 0x10000 + (high - 0xD800) * 0x400 + (low - 0xDC00)
          (joinPieces? rest).map (Char.ofNat code :: ·)
        else
          none
      else if isLowSurrogate high then
        none
      else
        (joinPieces? (.unit low :: rest)).map (Char.ofNat high :: ·)
  | .unit n :: rest =>
      if isHighSurrogate n || isLowSurrogate n then
        none
      else
        (joinPieces? rest).map (Char.ofNat n :: ·)

def readString? (cs : List Char) : Option (Option String × List Char) :=
  (readPieces? cs).map fun answer =>
    ((joinPieces? answer.1).map String.ofList, answer.2)

/-! ## Values -/

mutual

/-- A value with space in front. -/
def readValue? : Nat → List Char → Option (Json × List Char)
  | 0, _ => none
  | steps + 1, cs =>
      match skipSpaces cs with
      | 'n' :: 'u' :: 'l' :: 'l' :: rest => some (null, rest)
      | 't' :: 'r' :: 'u' :: 'e' :: rest => some (bool true, rest)
      | 'f' :: 'a' :: 'l' :: 's' :: 'e' :: rest => some (bool false, rest)
      | '"' :: rest =>
          (readString? rest).map fun answer => (string answer.1, answer.2)
      | '[' :: rest =>
          match skipSpaces rest with
          | ']' :: rest => some (array [], rest)
          | _ =>
              (readItems? steps rest).map fun answer => (array answer.1, answer.2)
      | '\x7b' :: rest =>
          match skipSpaces rest with
          | '\x7d' :: rest => some (object [], rest)
          | _ =>
              (readMembers? steps rest).map fun answer =>
                (object answer.1, answer.2)
      | cs => (readNumber? cs).map fun answer => (number answer.1, answer.2)

/-- At least one item, up to the closing bracket. -/
def readItems? : Nat → List Char → Option (List Json × List Char)
  | 0, _ => none
  | steps + 1, cs => do
      let (item, rest) ← readValue? steps cs
      match skipSpaces rest with
      | ']' :: rest => return ([item], rest)
      | ',' :: rest =>
          let (items, rest) ← readItems? steps rest
          return (item :: items, rest)
      | _ => none

/-- At least one member, up to the closing brace. -/
def readMembers? : Nat → List Char →
    Option (List (Option String × Json) × List Char)
  | 0, _ => none
  | steps + 1, cs =>
      match skipSpaces cs with
      | '"' :: rest => do
          let (name, rest) ← readString? rest
          match skipSpaces rest with
          | ':' :: rest =>
              let (value, rest) ← readValue? steps rest
              match skipSpaces rest with
              | '\x7d' :: rest => return ([(name, value)], rest)
              | ',' :: rest =>
                  let (members, rest) ← readMembers? steps rest
                  return ((name, value) :: members, rest)
              | _ => none
          | _ => none
      | _ => none

end

def parse? (s : String) : Option Json :=
  let cs := s.toList
  match readValue? (2 * cs.length + 2) cs with
  | some (value, rest) => if (skipSpaces rest).isEmpty then some value else none
  | none => none

end Json

end MarkupForest
