import BranchCoverage.Json.Token

/-!
# JSON values

A value is read by a machine that takes one token at a time.  Its state says what may come next; a
container that is not finished yet waits on a stack, with what has been read of it, the latest part
first.  Since the stack is part of the state, nesting is limited by nothing.

Members of an object keep their order and are not merged: whether a key may occur twice is for the
reader of the object to decide.
-/

namespace BranchCoverage.Json

/-- A JSON value.  A key or a string without a text is one with half of a surrogate pair. -/
inductive Value where
  | null
  | bool (value : Bool)
  /-- A number of whatever value. -/
  | number
  | string (text : Option String)
  | array (items : List Value)
  | object (members : List (Option String × Value))
  deriving Repr, Inhabited

/-- A container that waits for a value. -/
inductive Frame where
  | array (items : List Value)
  /-- An object, with its members so far and the key of the value it waits for. -/
  | member (members : List (Option String × Value)) (key : Option String)

inductive State where
  | needValue (outer : List Frame)
  | needFirstItem (outer : List Frame)
  | needFirstKey (outer : List Frame)
  | needKey (members : List (Option String × Value)) (outer : List Frame)
  | needColon (members : List (Option String × Value)) (key : Option String) (outer : List Frame)
  | afterItem (items : List Value) (outer : List Frame)
  | afterMember (members : List (Option String × Value)) (outer : List Frame)
  | finished (value : Value)

namespace State

def put (value : Value) : List Frame → State
  | [] => .finished value
  | .array items :: outer => .afterItem (value :: items) outer
  | .member members key :: outer => .afterMember ((key, value) :: members) outer

def start (token : Token) (outer : List Frame) : Option State :=
  match token with
  | .null => some (put .null outer)
  | .bool value => some (put (.bool value) outer)
  | .number => some (put .number outer)
  | .string text => some (put (.string text) outer)
  | .openBracket => some (.needFirstItem outer)
  | .openBrace => some (.needFirstKey outer)
  | _ => none

/-- The state after one more token, if the token may come. -/
def next (state : State) (token : Token) : Option State :=
  match state, token with
  | .needValue outer, _ => start token outer
  | .needFirstItem outer, .closeBracket => some (put (.array []) outer)
  | .needFirstItem outer, _ => start token (.array [] :: outer)
  | .needFirstKey outer, .closeBrace => some (put (.object []) outer)
  | .needFirstKey outer, .string key => some (.needColon [] key outer)
  | .needKey members outer, .string key => some (.needColon members key outer)
  | .needColon members key outer, .colon => some (.needValue (.member members key :: outer))
  | .afterItem items outer, .comma => some (.needValue (.array items :: outer))
  | .afterItem items outer, .closeBracket => some (put (.array items.reverse) outer)
  | .afterMember members outer, .comma => some (.needKey members outer)
  | .afterMember members outer, .closeBrace => some (put (.object members.reverse) outer)
  | _, _ => none

end State

/-- The value that a text writes, if it writes exactly one. -/
def Value.ofText? (text : String) : Option Value := do
  let found ← tokens text.toList
  match ← found.foldlM State.next (.needValue []) with
  | .finished value => some value
  | _ => none

end BranchCoverage.Json
