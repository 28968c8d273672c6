import BranchCoverage.Branch.Id
import BranchCoverage.Text.Search

/-!
# Branches and their kinds

Each branch of a compiled function has a kind, and only the branches of kind `canonical` count
towards coverage.  A branch that some input can reach is `canonical`, or `compilerGenerated` when
the compiler made its function up.  The remaining four kinds belong to the fallback that the
compiler adds where a case expression names no alternative: it crashes with a message, and
`Kind.ofCrashMessage` tells from the message why the fallback is there.

Messages are searched for three texts.  One message can hold several of them, so the order in
which they are looked for is part of the rule.
-/

namespace BranchCoverage.Branch

inductive Kind where
  /-- A reachable alternative of a user's function. -/
  | canonical
  /-- The fallback of a function without clauses: no input reaches it. -/
  | noClauses
  /-- The fallback of a partial function: reaching it is a defect. -/
  | unhandledInput
  /-- A fallback that an optimisation put there. -/
  | optimizerArtifact
  /-- A fallback whose message gives no reason. -/
  | unknownCrash (message : String)
  /-- A reachable alternative of a function that the compiler made up. -/
  | compilerGenerated
  deriving DecidableEq, Repr, Inhabited

namespace Kind

/-- The kind of the fallback that crashes with `message`. -/
def ofCrashMessage (message : String) : Kind :=
  let mentions (mark : String) : Bool := Text.contains mark.toList message.toList
  if mentions "No clauses" then .noClauses
  else if mentions "Unhandled input" then .unhandledInput
  else if mentions "Nat case not covered" then .optimizerArtifact
  else .unknownCrash message

def isCanonical : Kind → Bool
  | canonical => true
  | _ => false

theorem isCanonical_iff {kind : Kind} : kind.isCanonical = true ↔ kind = canonical := by
  cases kind <;> simp [isCanonical]

/-- Whether branches of this kind are left out of every ratio, because no input reaches them or
because they mean nothing in the user's program. -/
def isExcluded : Kind → Bool
  | noClauses | optimizerArtifact => true
  | _ => false

theorem isExcluded_iff {kind : Kind} :
    kind.isExcluded = true ↔ kind = noClauses ∨ kind = optimizerArtifact := by
  cases kind <;> simp [isExcluded]

def isUnhandledInput : Kind → Bool
  | unhandledInput => true
  | _ => false

theorem isUnhandledInput_iff {kind : Kind} :
    kind.isUnhandledInput = true ↔ kind = unhandledInput := by
  cases kind <;> simp [isUnhandledInput]

def isUnknownCrash : Kind → Bool
  | unknownCrash _ => true
  | _ => false

def isCompilerGenerated : Kind → Bool
  | compilerGenerated => true
  | _ => false

theorem isCompilerGenerated_iff {kind : Kind} :
    kind.isCompilerGenerated = true ↔ kind = compilerGenerated := by
  cases kind <;> simp [isCompilerGenerated]

/-- The name of a kind in the serialised form of a branch. -/
def label : Kind → String
  | canonical => "canonical"
  | noClauses => "excluded_no_clauses"
  | unhandledInput => "bug_unhandled_input"
  | optimizerArtifact => "optimizer_artifact"
  | unknownCrash _ => "unknown_crash"
  | compilerGenerated => "compiler_generated"

end Kind

end Branch

structure Branch where
  id : Branch.Id
  kind : Branch.Kind
  /-- The text that selects it: a constructor, a constant, or `_` for a fallback. -/
  pattern : String
  deriving DecidableEq, Repr, Inhabited

namespace Branch

def isCanonical (branch : Branch) : Bool :=
  branch.kind.isCanonical

end Branch

end BranchCoverage
