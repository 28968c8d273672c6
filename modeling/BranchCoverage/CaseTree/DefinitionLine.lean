import BranchCoverage.CaseTree.Function
import BranchCoverage.Text.Blank

/-!
# Reading a definition line

A line of the dump defines one function:

```text
Main.f = [{arg:0}]: (%case !{arg:0} [(%concase Main.A 0 [] 1)] Just (CRASH "Unhandled input"))
```

The body is not parsed structurally.  It is searched for the marks of constructor alternatives,
for those of constant alternatives, and for the crash of a fallback, and the branches are numbered
in that order.

Two rules need care.

* **Where the name ends.**  An operator may end in equals signs, and the body may hold any number
  of them.  The first run of equals signs decides: when the next visible character behind it is
  another equals sign, the run belongs to the name and that other sign separates; otherwise the
  last sign of the run separates.
* **What a pattern is.**  It is the first word behind the mark, after a tag in square brackets if
  there is one, and a word ends at a blank or a closing or opening bracket.

Branches are numbered by natural numbers, without a bound.  Numbers of 32 bits are the same on every
line with at most `2 ^ 32` branches; a line with more of them is outside what this module describes.
-/

namespace BranchCoverage.CaseTree

open Text

/-! ## The name and the body -/

/-- The texts in front of the separator of a definition line and behind it. -/
def nameAndBody? (line : List Char) : Option (List Char × List Char) :=
  match line.dropWhile (· ≠ '=') with
  | [] => none
  | fromSign =>
    let before := line.takeWhile (· ≠ '=')
    let run := fromSign.takeWhile (· = '=')
    let rest := fromSign.dropWhile (· = '=')
    match trimStart rest with
    | '=' :: body => some (before ++ run, body)
    | _ => some (before ++ run.dropLast, rest)

/-! ## Alternatives -/

def constructorMark : List Char := "%concase".toList

def constantMark : List Char := "%constcase".toList

/-- The text behind a tag in square brackets, or the whole text when there is no such tag. -/
def skipTag (text : List Char) : List Char :=
  match text with
  | '[' :: _ => ((afterFirst? [']'] text).map trimStart).getD text
  | _ => text

def isPatternChar (c : Char) : Bool :=
  !isBlank c && c ≠ ')' && c ≠ ']' && c ≠ '['

/-- The pattern of an alternative, given the text behind its mark.  An alternative without one has
the pattern `?`. -/
def patternOf (rest : List Char) : String :=
  match (skipTag (trimStart rest)).takeWhile isPatternChar with
  | [] => "?"
  | word => String.ofList word

/-- The patterns of all alternatives of a body: constructors first, then constants. -/
def patterns (body : List Char) : List String :=
  (afterEach constructorMark body ++ afterEach constantMark body).map patternOf

/-! ## The fallback -/

/-- The mark of a fallback.  Its message begins directly behind it. -/
def crashMark : List Char := "(CRASH \"".toList

/-- The text up to the closing quote.  A backslash stands for the character behind it, whatever
that is, and for nothing at the end of the text.  A text without a closing quote is taken whole. -/
def quoted : List Char → List Char
  | [] => []
  | '"' :: _ => []
  | ['\\'] => []
  | '\\' :: c :: rest => c :: quoted rest
  | c :: rest => c :: quoted rest

/-- The message of the fallback of a body: that of the first crash in it. -/
def crashMessage? (body : List Char) : Option String :=
  (afterFirst? crashMark body).map fun rest => String.ofList (quoted rest)

/-! ## The function -/

namespace Function

/-- The identity of the branch with an index in the function called `name`.  All branches of a
line belong to one case expression. -/
def branchId (name : String) (index : Nat) : Branch.Id :=
  { moduleName := Name.moduleName name
    functionName := Name.functionName name
    caseIndex := 0
    branchIndex := index }

/-- The kind of every reachable branch in the function called `name`. -/
def reachableKind (name : String) : Branch.Kind :=
  if Name.isGenerated (Name.moduleName name) (Name.functionName name) then .compilerGenerated
  else .canonical

def alternatives (name : String) (body : List Char) : List Branch :=
  (patterns body).mapIdx fun index pattern =>
    { id := branchId name index, kind := reachableKind name, pattern }

/-- The fallback of the function called `name`, which has the number behind the last reachable
branch. -/
def fallback? (name : String) (body : List Char) : Option Branch :=
  (crashMessage? body).map fun message =>
    { id := branchId name (patterns body).length
      kind := .ofCrashMessage message
      pattern := "_" }

def ofBody (name : String) (body : List Char) : Function :=
  let fallback := fallback? name body
  { name
    branches := alternatives name body ++ fallback.toList
    hasFallback := fallback.isSome }

/-- The function that a line defines.  A line without a separator, or without a name in front of
it, defines none. -/
def ofLine? (line : List Char) : Option Function :=
  match nameAndBody? line with
  | none => none
  | some (front, body) =>
    match trim front with
    | [] => none
    | name => some (ofBody (String.ofList name) body)

/-- A line defines the function of the trimmed text in front of its separator, if that text names
anything. -/
theorem ofLine?_eq_some_iff {line : List Char} {function : Function} :
    ofLine? line = some function ↔
      ∃ front body, nameAndBody? line = some (front, body) ∧ trim front ≠ [] ∧
        function = ofBody (String.ofList (trim front)) body := by
  unfold ofLine?
  cases nameAndBody? line with
  | none => simp
  | some parts =>
    obtain ⟨front, body⟩ := parts
    constructor
    · intro read
      refine ⟨front, body, rfl, ?_⟩
      cases named : trim front with
      | nil => simp [named] at read
      | cons c name =>
        simp only [named, Option.some.injEq] at read
        exact ⟨List.cons_ne_nil c name, read.symm⟩
    · rintro ⟨_, _, same, named, rfl⟩
      obtain ⟨rfl, rfl⟩ := Prod.mk.inj (Option.some.inj same)
      cases trimmed : trim front with
      | nil => exact absurd trimmed named
      | cons c name => simp only [trimmed]

theorem name_ne_empty_of_ofLine? {line : List Char} {function : Function}
    (h : ofLine? line = some function) : function.name ≠ "" := by
  obtain ⟨front, body, -, visible, rfl⟩ := ofLine?_eq_some_iff.1 h
  intro empty
  exact visible (String.ofList_eq_empty_iff.1 empty)

end Function

end BranchCoverage.CaseTree
