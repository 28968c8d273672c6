/-!
# Writing JSON

A document is written with one item or member to a line and two spaces for every level of nesting;
an empty array is written in place.  Strings escape the quote, the backslash and the control
characters, and nothing else.

Numbers are given as text, because each has the digits that its own rule asks for.
-/

namespace BranchCoverage.Json

inductive Document where
  | number (digits : String)
  | text (characters : String)
  | array (items : List Document)
  | object (members : List (String × Document))
  deriving Repr, Inhabited

namespace Document

def nat (n : Nat) : Document :=
  .number (toString n)

def hexDigit (n : Nat) : Char :=
  Nat.digitChar n

def escapeChar (c : Char) : List Char :=
  match c with
  | '"' => ['\\', '"']
  | '\\' => ['\\', '\\']
  | '\x08' => ['\\', 'b']
  | '\x0c' => ['\\', 'f']
  | '\n' => ['\\', 'n']
  | '\r' => ['\\', 'r']
  | '\t' => ['\\', 't']
  | c =>
    if c.toNat < 0x20 then
      ['\\', 'u', '0', '0', hexDigit (c.toNat / 16), hexDigit (c.toNat % 16)]
    else [c]

def quote (text : String) : String :=
  String.ofList ('"' :: text.toList.flatMap escapeChar ++ ['"'])

def newline (level : Nat) : String :=
  String.ofList ('\n' :: List.replicate (2 * level) ' ')

/-- Writes texts on a line each, one level below `level`, between an opening and a closing
character. -/
def block (level : Nat) (opening closing : String) (texts : List String) : String :=
  opening ++ newline (level + 1) ++ ("," ++ newline (level + 1)).intercalate texts
    ++ newline level ++ closing

mutual

/-- The text of a document that stands at a level of nesting. -/
def write (level : Nat) : Document → String
  | .number digits => digits
  | .text characters => quote characters
  | .array [] => "[]"
  | .array (item :: items) =>
    block level "[" "]" (write (level + 1) item :: writeItems (level + 1) items)
  | .object [] => "\x7b\x7d"
  | .object (member :: members) =>
    block level "\x7b" "\x7d" (writeMember (level + 1) member :: writeMembers (level + 1) members)

def writeMember (level : Nat) : String × Document → String
  | (key, value) => quote key ++ ": " ++ write level value

def writeItems (level : Nat) : List Document → List String
  | [] => []
  | item :: items => write level item :: writeItems level items

def writeMembers (level : Nat) : List (String × Document) → List String
  | [] => []
  | member :: members => writeMember level member :: writeMembers level members

end

def pretty (document : Document) : String :=
  document.write 0

end Document

end BranchCoverage.Json
