/-!
# The tokens of JSON

A configuration is a JSON text.  This module cuts it into tokens; `BranchCoverage.Json.Value` puts
the tokens together.

Two things about tokens are looser than one might expect, because most of a text may be of no
interest to its reader.  A number has no value here, only a form.  A string whose escapes name half
of a surrogate pair is a token without a text: it is legal where the string is passed over, and the
reader that needs its text has to refuse it.

Only the four blanks of JSON separate tokens, and a string cannot hold a control character.
-/

namespace BranchCoverage.Json

inductive Token where
  | openBrace
  | closeBrace
  | openBracket
  | closeBracket
  | colon
  | comma
  /-- A string, with its text if it has one. -/
  | string (text : Option String)
  /-- A number of whatever value. -/
  | number
  | bool (value : Bool)
  | null
  deriving DecidableEq, Repr

/-! ## Strings -/

/-- A part of a string: a character, or a 16-bit unit that an escape gives by its number. -/
inductive Piece where
  /-- A character, as it stands or by a short escape. -/
  | char (c : Char)
  /-- A unit of an escape in hexadecimal. -/
  | unit (value : Nat)
  deriving DecidableEq, Repr

def hexDigit? (c : Char) : Option Nat :=
  if c.isDigit then some (c.toNat - '0'.toNat)
  else if 'a' ≤ c ∧ c ≤ 'f' then some (c.toNat - 'a'.toNat + 10)
  else if 'A' ≤ c ∧ c ≤ 'F' then some (c.toNat - 'A'.toNat + 10)
  else none

def hexValue? (digits : List Char) : Option Nat :=
  digits.foldlM (fun value c => (hexDigit? c).map (16 * value + ·)) 0

def shortEscape? : Char → Option Char
  | '"' => some '"'
  | '\\' => some '\\'
  | '/' => some '/'
  | 'b' => some '\x08'
  | 'f' => some '\x0c'
  | 'n' => some '\n'
  | 'r' => some '\r'
  | 't' => some '\t'
  | _ => none

/-- The pieces of a string behind its opening quote, and the text behind its closing quote. -/
def pieces? : List Char → Option (List Piece × List Char)
  | [] => none
  | '"' :: rest => some ([], rest)
  | '\\' :: 'u' :: a :: b :: c :: d :: rest => do
    let value ← hexValue? [a, b, c, d]
    let (more, rest) ← pieces? rest
    return (.unit value :: more, rest)
  | '\\' :: c :: rest => do
    let meaning ← shortEscape? c
    let (more, rest) ← pieces? rest
    return (.char meaning :: more, rest)
  | c :: rest =>
    if c.toNat < 0x20 then none
    else do
      let (more, rest) ← pieces? rest
      return (.char c :: more, rest)

/-- Whether a unit is the first half of a surrogate pair. -/
def isHighSurrogate (unit : Nat) : Bool :=
  0xD800 ≤ unit && unit < 0xDC00

/-- Whether a unit is the second half of a surrogate pair. -/
def isLowSurrogate (unit : Nat) : Bool :=
  0xDC00 ≤ unit && unit < 0xE000

/-- The characters of the pieces of a string, if every surrogate has its other half. -/
def characters? : List Piece → Option (List Char)
  | [] => some []
  | .char c :: rest => (characters? rest).map (c :: ·)
  | .unit high :: .unit low :: rest =>
    if isHighSurrogate high && isLowSurrogate low then
      let c := Char.ofNat (0x10000 + 0x400 * (high - 0xD800) + (low - 0xDC00))
      (characters? rest).map (c :: ·)
    else if isHighSurrogate high || isLowSurrogate high then none
    else (characters? (.unit low :: rest)).map (Char.ofNat high :: ·)
  | .unit value :: rest =>
    if isHighSurrogate value || isLowSurrogate value then none
    else (characters? rest).map (Char.ofNat value :: ·)

/-! ## Numbers -/

def afterDigits? (text : List Char) : Option (List Char) :=
  match text with
  | c :: _ => if c.isDigit then some (text.dropWhile Char.isDigit) else none
  | [] => none

/-- The text behind the whole part of a number.  A zero in front ends it. -/
def afterWhole? : List Char → Option (List Char)
  | '0' :: rest => some rest
  | text => afterDigits? text

def afterFraction? : List Char → Option (List Char)
  | '.' :: rest => afterDigits? rest
  | text => some text

def afterExponent? : List Char → Option (List Char)
  | c :: rest =>
    if c = 'e' ∨ c = 'E' then
      match rest with
      | sign :: digits => afterDigits? (if sign = '+' ∨ sign = '-' then digits else rest)
      | [] => none
    else some (c :: rest)
  | [] => some []

def afterNumber? (text : List Char) : Option (List Char) := do
  let unsigned := match text with
    | '-' :: rest => rest
    | _ => text
  afterWhole? unsigned >>= afterFraction? >>= afterExponent?

/-! ## Tokens -/

def isSpace (c : Char) : Bool :=
  c = ' ' || c = '\t' || c = '\n' || c = '\r'

/-- The token at the start of a text that begins with no blank, and the text behind it. -/
def token? : List Char → Option (Token × List Char)
  | '\x7b' :: rest => some (.openBrace, rest)
  | '\x7d' :: rest => some (.closeBrace, rest)
  | '[' :: rest => some (.openBracket, rest)
  | ']' :: rest => some (.closeBracket, rest)
  | ':' :: rest => some (.colon, rest)
  | ',' :: rest => some (.comma, rest)
  | '"' :: rest => do
    let (found, rest) ← pieces? rest
    return (.string ((characters? found).map String.ofList), rest)
  | 't' :: 'r' :: 'u' :: 'e' :: rest => some (.bool true, rest)
  | 'f' :: 'a' :: 'l' :: 's' :: 'e' :: rest => some (.bool false, rest)
  | 'n' :: 'u' :: 'l' :: 'l' :: rest => some (.null, rest)
  | text => (afterNumber? text).map (.number, ·)

/-- The tokens of a text, in at most `steps` steps of one token or blank each. -/
def tokensWithin : Nat → List Char → Option (List Token)
  | _, [] => some []
  | 0, _ :: _ => none
  | steps + 1, c :: rest =>
    if isSpace c then tokensWithin steps rest
    else do
      let (found, rest) ← token? (c :: rest)
      return found :: (← tokensWithin steps rest)

/-- The tokens of a text.  Every step takes at least one character, so the length of the text is a
bound on their number. -/
def tokens (text : List Char) : Option (List Token) :=
  tokensWithin text.length text

end BranchCoverage.Json
