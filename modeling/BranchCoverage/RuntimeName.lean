import BranchCoverage.Name
import BranchCoverage.Text.Digit

/-!
# Runtime names

The back end writes a function under a name of its own making, its *runtime name*.  Attribution
finds a function in a profile by computing that name, so the two schemes by which the back end
makes names are reproduced here to the character.

Both schemes write a letter, a digit or an underscore, of ASCII, as it is, and any other character
as an *escape*: `C-` and the decimal code point.  The uniform scheme escapes the dots of a qualified
name like any other character.  The namespace-hyphen scheme encodes the parts between the dots and
puts a hyphen between every two of them; the parts of the module and the function name are told
apart by the last dot.

An escape has no end mark.  Two names can therefore have one runtime name, but only where the code
point of one escaped character continues that of another.
-/

namespace BranchCoverage.RuntimeName

/-- Whether a character stands for itself in a runtime name. -/
def isPlain (c : Char) : Bool :=
  c.isAlphanum || c = '_'

def encodeChar (c : Char) : List Char :=
  if isPlain c then [c] else 'C' :: '-' :: Text.decimal c.toNat

/-- A text in a runtime name, each character encoded on its own. -/
def encode (text : List Char) : List Char :=
  text.flatMap encodeChar

theorem encodeChar_of_isPlain {c : Char} (h : isPlain c = true) : encodeChar c = [c] :=
  if_pos h

theorem encodeChar_of_not_isPlain {c : Char} (h : isPlain c = false) :
    encodeChar c = 'C' :: '-' :: Text.decimal c.toNat :=
  if_neg (by simp [h])

@[simp] theorem encode_nil : encode [] = [] := rfl

@[simp] theorem encode_cons (c : Char) (text : List Char) :
    encode (c :: text) = encodeChar c ++ encode text := rfl

@[simp] theorem encode_append (front back : List Char) :
    encode (front ++ back) = encode front ++ encode back :=
  List.flatMap_append

inductive Scheme where
  /-- Dots are escaped like any other character. -/
  | uniform
  /-- Dots become hyphens. -/
  | namespaceHyphen
  deriving DecidableEq, Repr, Inhabited

namespace Scheme

/-- The word by which a user chooses a scheme. -/
def label : Scheme → String
  | uniform => "uniform"
  | namespaceHyphen => "namespace-hyphen"

def all : List Scheme := [uniform, namespaceHyphen]

def ofLabel? (word : String) : Option Scheme :=
  all.find? fun scheme => scheme.label = word

/-- The parts that a module name contributes to a runtime name, each with its hyphen.  The nameless
module contributes nothing. -/
def hyphenated (moduleName : String) : List Char :=
  if moduleName.isEmpty then []
  else (Text.segments '.' moduleName.toList).flatMap fun part => encode part ++ ['-']

def encodeName (scheme : Scheme) (name : String) : List Char :=
  match scheme with
  | uniform => encode name.toList
  | namespaceHyphen =>
    hyphenated (Name.moduleName name) ++ encode (Name.functionName name).toList

def runtimeName (scheme : Scheme) (name : String) : String :=
  String.ofList (scheme.encodeName name)

end Scheme

end BranchCoverage.RuntimeName
