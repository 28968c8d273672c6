/-!
# UTF-8

Artifacts are read as octets.  A dump and a configuration have to be well-formed UTF-8
(`decode?`); the files of a run directory are decoded whatever they hold (`decodeLossy`), each
ill-formed part standing for one replacement character.

Both readings come from one machine that takes an octet at a time.  Between characters it is at
`State.start`; inside a character it remembers how many octets are still owed, the range that the
next one has to lie in, and the bits seen so far.  Only the second octet of a character has a range
other than `80..BF`, which is what rules out overlong forms, surrogates and numbers above
`10FFFF`.  An octet outside its range ends the ill-formed part before it, and is read again as the
first octet of a new character; so an ill-formed part is the longest run of octets that some
well-formed character starts with, or a single octet that starts none.
-/

namespace BranchCoverage.Text.Utf8

/-- Where the decoder stands between two octets. -/
inductive State where
  | start
  /-- Inside a character: `owed` octets are missing, the next of them lies in `low..high`, and
  `bits` is the number read so far. -/
  | inside (owed : Nat) (low high : UInt8) (bits : Nat)
  deriving DecidableEq, Repr

/-- What the decoder has found so far, the last find first: characters, and `none` for each
ill-formed part. -/
abbrev Found := List (Option Char)

/-- The effect of an octet that stands where a character may begin. -/
def first (octet : UInt8) (found : Found) : State × Found :=
  let bits (mask : UInt8) : Nat := (octet &&& mask).toNat
  if octet < 0x80 then (.start, some (Char.ofNat octet.toNat) :: found)
  else if octet < 0xC2 then (.start, none :: found)
  else if octet < 0xE0 then (.inside 1 0x80 0xBF (bits 0x1F), found)
  else if octet = 0xE0 then (.inside 2 0xA0 0xBF (bits 0x0F), found)
  else if octet = 0xED then (.inside 2 0x80 0x9F (bits 0x0F), found)
  else if octet < 0xF0 then (.inside 2 0x80 0xBF (bits 0x0F), found)
  else if octet = 0xF0 then (.inside 3 0x90 0xBF (bits 0x07), found)
  else if octet < 0xF4 then (.inside 3 0x80 0xBF (bits 0x07), found)
  else if octet = 0xF4 then (.inside 3 0x80 0x8F (bits 0x07), found)
  else (.start, none :: found)

/-- The effect of one octet. -/
def step : State × Found → UInt8 → State × Found
  | (.start, found), octet => first octet found
  | (.inside owed low high bits, found), octet =>
    if low ≤ octet && octet ≤ high then
      let bits := 64 * bits + (octet &&& 0x3F).toNat
      if owed ≤ 1 then (.start, some (Char.ofNat bits) :: found)
      else (.inside (owed - 1) 0x80 0xBF bits, found)
    else first octet (none :: found)

/-- The characters and ill-formed parts of a sequence of octets, in order.  A character that the
sequence breaks off in is an ill-formed part. -/
def decodeParts (octets : List UInt8) : List (Option Char) :=
  match octets.foldl step (.start, []) with
  | (.start, found) => found.reverse
  | (.inside .., found) => (none :: found).reverse

/-- The text that octets write, with U+FFFD for each ill-formed part. -/
def decodeLossy (octets : List UInt8) : List Char :=
  (decodeParts octets).map (·.getD '\uFFFD')

/-- The text that octets write, if all of it is well-formed. -/
def decode? (octets : List UInt8) : Option (List Char) :=
  let parts := decodeParts octets
  if parts.all Option.isSome then some (parts.filterMap id) else none

end BranchCoverage.Text.Utf8
