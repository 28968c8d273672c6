import BranchCoverage.Name
import Mathlib.Tactic.Common

/-!
# The last dot of a name

A fully qualified name is taken apart at its last dot, and everything about a branch is filed under
the two parts.  What makes that safe is that the parts can be put together again.  A separator that
the back part does not hold is found as the last one (`splitAtLast?_append`), so a module name and a
function name without a dot are the parts of the name that they make (`split_qualified`); and the
parts of a name make that name (`qualify_split`), unless the name begins with a dot.  `.f` has the
parts of `f`, the nameless module and `f`.
-/

namespace BranchCoverage

namespace Text

variable {sep : Char} {text before behind : List Char}

lemma splitAtLast?_eq_none_iff : splitAtLast? sep text = none ↔ sep ∉ text := by
  induction text with
  | nil => simp [splitAtLast?]
  | cons c rest ih =>
    rw [splitAtLast?, List.mem_cons, not_or, ← ih]
    cases splitAtLast? sep rest with
    | none => simp [eq_comm]
    | some parts => simp

/-- A separator that does not come again is the last one. -/
lemma splitAtLast?_append (h : sep ∉ behind) :
    splitAtLast? sep (before ++ sep :: behind) = some (before, behind) := by
  induction before with
  | nil =>
    rw [List.nil_append, splitAtLast?, splitAtLast?_eq_none_iff.2 h]
    exact if_pos rfl
  | cons c before ih => rw [List.cons_append, splitAtLast?, ih]

/-- What is found is the last separator, with the two parts around it. -/
theorem splitAtLast?_eq_some_iff :
    splitAtLast? sep text = some (before, behind) ↔
      text = before ++ sep :: behind ∧ sep ∉ behind := by
  constructor
  · intro h
    induction text generalizing before with
    | nil => cases h
    | cons c rest ih =>
      rw [splitAtLast?] at h
      cases found : splitAtLast? sep rest with
      | some parts =>
        rw [found] at h
        obtain ⟨rfl, rfl⟩ := Prod.mk.inj (Option.some.inj h)
        obtain ⟨same, last⟩ := ih found
        exact ⟨by rw [same, List.cons_append], last⟩
      | none =>
        rw [found] at h
        obtain ⟨rfl, parts⟩ := Option.ite_none_right_eq_some.1 h
        obtain ⟨rfl, rfl⟩ := Prod.mk.inj (Option.some.inj parts)
        exact ⟨rfl, splitAtLast?_eq_none_iff.1 found⟩
  · rintro ⟨rfl, last⟩
    exact splitAtLast?_append last

end Text

namespace Name

/-- The name of a function in a module.  In the nameless module it is the function name alone. -/
def qualify (moduleName functionName : String) : String :=
  if moduleName.isEmpty then functionName else moduleName ++ "." ++ functionName

/-- A module name and a function name without a dot are the parts of the name with a dot between
them. -/
lemma split_qualified (before : List Char) {behind : List Char} (h : '.' ∉ behind) :
    split (String.ofList (before ++ '.' :: behind)) =
      (String.ofList before, String.ofList behind) := by
  rw [split, String.toList_ofList, Text.splitAtLast?_append h]

/-- The parts of a name that does not begin with a dot make that name. -/
theorem qualify_split {name : String} (h : name.toList.head? ≠ some '.') :
    qualify (moduleName name) (functionName name) = name := by
  rw [qualify, moduleName, functionName, split]
  cases found : Text.splitAtLast? '.' name.toList with
  | none => rfl
  | some parts =>
    obtain ⟨before, behind⟩ := parts
    have whole := (Text.splitAtLast?_eq_some_iff.1 found).1
    have named : ¬ (String.ofList before).isEmpty = true := by
      rw [String.isEmpty_iff]
      rintro nameless
      obtain rfl : before = [] := by simpa using congrArg String.toList nameless
      exact h (by rw [whole]; rfl)
    rw [if_neg named]
    apply String.toList_injective
    simp [whole]

/-- Only the empty name and the dot have two empty parts. -/
lemma eq_empty_or_dot {name : String} (hmodule : moduleName name = "")
    (hfunction : functionName name = "") : name = "" ∨ name = "." := by
  rw [moduleName, split] at hmodule
  rw [functionName, split] at hfunction
  cases found : Text.splitAtLast? '.' name.toList with
  | none =>
    rw [found] at hfunction
    exact .inl hfunction
  | some parts =>
    obtain ⟨before, behind⟩ := parts
    rw [found] at hmodule hfunction
    obtain rfl : before = [] := by simpa using congrArg String.toList hmodule
    obtain rfl : behind = [] := by simpa using congrArg String.toList hfunction
    refine .inr (String.toList_injective ?_)
    exact (Text.splitAtLast?_eq_some_iff.1 found).1

end Name

end BranchCoverage
