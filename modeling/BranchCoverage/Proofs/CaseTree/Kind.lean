import BranchCoverage.CaseTree.Analysis
import Mathlib.Tactic.Common

/-!
# Kinds go with names

Whether a reachable branch counts towards coverage depends on nothing but the name of its function,
and the name is part of the identity of the branch.  So the identity of a branch of a dump tells
apart the branches that count from those of functions that the compiler made up
(`Branch.KindFitsName`, `kindFitsName_of_mem_readDump`), also where functions of one name share
identities.

A line has two sources of branches, and they never give the same kind: its alternatives are all of
the kind that the name asks for, and its fallback is of neither of the two (`kind_of_mem_ofBody`).
-/

namespace BranchCoverage

open CaseTree

/-- A branch that counts has a name from the source, and a branch of a function that the compiler
made up has a name of that sort. -/
structure Branch.KindFitsName (branch : Branch) : Prop where
  canonical : branch.kind = .canonical →
    Name.isGenerated branch.id.moduleName branch.id.functionName = false
  compilerGenerated : branch.kind = .compilerGenerated →
    Name.isGenerated branch.id.moduleName branch.id.functionName = true

/-- No message makes a fallback a branch that an alternative could be. -/
lemma Branch.Kind.ofCrashMessage_ne (message : String) :
    ofCrashMessage message ≠ .canonical ∧ ofCrashMessage message ≠ .compilerGenerated := by
  simp only [ofCrashMessage]
  split_ifs <;> exact ⟨nofun, nofun⟩

namespace CaseTree.Function

variable {name : String} {body line : List Char} {function : Function} {branch : Branch}

/-- A branch of a line is an alternative, of the kind for the name, or the fallback. -/
lemma kind_of_mem_ofBody (h : branch ∈ (ofBody name body).branches) :
    (∃ index, branch.id = branchId name index) ∧
      (branch.kind = reachableKind name ∨ ∃ message, branch.kind = .ofCrashMessage message) := by
  rcases List.mem_append.1 h with reachable | fallback
  · obtain ⟨index, _, rfl⟩ := List.mem_mapIdx.1 reachable
    exact ⟨⟨index, rfl⟩, .inl rfl⟩
  · obtain ⟨message, -, rfl⟩ := Option.map_eq_some_iff.1 (Option.mem_toList.1 fallback)
    exact ⟨⟨_, rfl⟩, .inr ⟨message, rfl⟩⟩

lemma kindFitsName_of_mem_ofBody (h : branch ∈ (ofBody name body).branches) :
    branch.KindFitsName := by
  obtain ⟨⟨index, identity⟩, kind⟩ := kind_of_mem_ofBody h
  have named : Name.isGenerated branch.id.moduleName branch.id.functionName =
      Name.isGenerated (Name.moduleName name) (Name.functionName name) := by
    rw [identity]
    rfl
  rcases kind with kind | ⟨message, kind⟩
  · unfold reachableKind at kind
    by_cases generated : Name.isGenerated (Name.moduleName name) (Name.functionName name) = true
    · rw [if_pos generated] at kind
      exact ⟨fun other => by simp [kind] at other, fun _ => named.trans generated⟩
    · rw [if_neg generated] at kind
      exact ⟨fun _ => named.trans (by simpa using generated), fun other => by simp [kind] at other⟩
  · obtain ⟨notCanonical, notGenerated⟩ := Branch.Kind.ofCrashMessage_ne message
    exact ⟨fun other => absurd (kind.symm.trans other) notCanonical,
      fun other => absurd (kind.symm.trans other) notGenerated⟩

/-- The kind of every branch of a dump fits its name. -/
theorem kindFitsName_of_mem_readDump {text : String} (hf : function ∈ (readDump text).1)
    (hb : branch ∈ function.branches) : branch.KindFitsName := by
  obtain ⟨line, -, read⟩ := List.mem_filterMap.1 hf
  obtain ⟨front, body, -, -, rfl⟩ := ofLine?_eq_some_iff.1 read
  exact kindFitsName_of_mem_ofBody hb

end CaseTree.Function

end BranchCoverage
