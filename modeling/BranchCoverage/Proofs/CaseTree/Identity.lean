import BranchCoverage.CaseTree.Analysis
import BranchCoverage.Proofs.Name
import BranchCoverage.Text.Digit
import Mathlib.Data.List.Nodup

/-!
# What identifies a branch

The runs of a measurement are merged by the identities of branches, so two branches with one
identity would be counted as one.  The identities of a dump are told apart by two things.

* **Within a function** the branches are numbered from zero on, whatever they come from: the
  constructors, the constants and the fallback of a line share one numbering (`Function.Numbered`).
* **Between functions** the two parts of the name differ when the names differ, because they make
  the name (`Name.qualify_split`).  This needs names that do not begin with a dot.

Both are read off the text of an identity: it is the name, `#0:` and the number (`text_branchId`), a
number holds no `#`, and so the last `#` of the text separates the name from the number
(`text_branchId_inj`).  `nodup_branches_ofDump` puts the two together for a whole dump.
-/

namespace BranchCoverage.CaseTree

namespace Function

/-! ## The text of an identity -/

lemma text_branchId {name : String} (h : name.toList.head? ≠ some '.') (index : Nat) :
    (branchId name index).text.toList = name.toList ++ '#' :: '0' :: ':' :: Text.decimal index := by
  have whole : (branchId name index).text =
      Name.qualify (Name.moduleName name) (Name.functionName name) ++ "#" ++ toString 0 ++ ":" ++
        toString index := rfl
  rw [whole, Name.qualify_split h]
  simp [Text.decimal]

/-- The text of an identity tells the name of the function and the number of the branch. -/
theorem text_branchId_inj {name other : String} {index place : Nat}
    (hname : name.toList.head? ≠ some '.') (hother : other.toList.head? ≠ some '.')
    (h : (branchId name index).text = (branchId other place).text) :
    name = other ∧ index = place := by
  have unmarked : ∀ n, '#' ∉ '0' :: ':' :: Text.decimal n := by
    intro n
    simp only [List.mem_cons, not_or]
    refine ⟨by decide, by decide, fun hmem => ?_⟩
    exact absurd (Text.isDigit_of_mem_decimal hmem) (by decide)
  have texts := congrArg String.toList h
  rw [text_branchId hname, text_branchId hother] at texts
  have parts := congrArg (Text.splitAtLast? '#') texts
  rw [Text.splitAtLast?_append (unmarked index), Text.splitAtLast?_append (unmarked place)] at parts
  obtain ⟨names, numbers⟩ := Prod.mk.inj (Option.some.inj parts)
  refine ⟨String.toList_injective names, Text.decimal_inj.1 ?_⟩
  simpa using numbers

/-! ## The numbering of a function -/

/-- The branches of a function have its name and are numbered from zero on, in order. -/
def Numbered (function : Function) : Prop :=
  function.branches.map Branch.id =
    (List.range function.branches.length).map (branchId function.name)

/-- The constructors, the constants and the fallback of a body share one numbering. -/
lemma numbered_ofBody (name : String) (body : List Char) : (ofBody name body).Numbered := by
  have reachable : (alternatives name body).map Branch.id =
      (List.range (patterns body).length).map (branchId name) := by
    refine List.ext_getElem (by simp [alternatives]) fun index _ _ => ?_
    simp [alternatives]
  have count : (alternatives name body).length = (patterns body).length := List.length_mapIdx
  rw [Numbered, ofBody, fallback?]
  simp only
  cases crashMessage? body with
  | none => simp [reachable, count]
  | some message => simp [reachable, count, List.range_succ]

lemma numbered_of_ofLine? {line : List Char} {function : Function}
    (h : ofLine? line = some function) : function.Numbered := by
  obtain ⟨front, body, -, -, rfl⟩ := ofLine?_eq_some_iff.1 h
  exact numbered_ofBody _ body

lemma numbered_of_mem_readDump {text : String} {function : Function}
    (h : function ∈ (readDump text).1) : function.Numbered := by
  obtain ⟨line, -, read⟩ := List.mem_filterMap.1 h
  exact numbered_of_ofLine? read

/-- The branch on a place of a function has that place for its number. -/
lemma Numbered.id_eq {function : Function} (numbered : function.Numbered) {index : Nat}
    {branch : Branch} (h : function.branches[index]? = some branch) :
    branch.id = branchId function.name index := by
  obtain ⟨bound, rfl⟩ := List.getElem?_eq_some_iff.1 h
  have here := congrArg (fun ids : List Branch.Id => ids[index]?) numbered
  simpa [bound] using here

lemma Numbered.exists_id_eq {function : Function} (numbered : function.Numbered) {branch : Branch}
    (h : branch ∈ function.branches) : ∃ index, branch.id = branchId function.name index := by
  obtain ⟨index, here⟩ := List.mem_iff_getElem?.1 h
  exact ⟨index, numbered.id_eq here⟩

/-- Branches are listed by number, and no number comes twice. -/
lemma Numbered.pairwise_branchIndex {function : Function} (numbered : function.Numbered) :
    (function.branches.map Branch.id).Pairwise fun a b => a.branchIndex < b.branchIndex := by
  rw [numbered, List.pairwise_map]
  exact List.pairwise_lt_range

end Function

/-! ## The branches of a dump -/

section Dump

variable {functions : List Function}

/-- Functions with names of their own have branches with texts of their own. -/
lemma nodup_texts (numbered : ∀ function ∈ functions, function.Numbered)
    (hnames : (functions.map Function.name).Nodup)
    (hdot : ∀ function ∈ functions, function.name.toList.head? ≠ some '.') :
    ((functions.flatMap Function.branches).map fun branch => branch.id.text).Nodup := by
  have texts : ∀ function ∈ functions, function.branches.map (fun branch => branch.id.text) =
      (List.range function.branches.length).map fun index =>
        (Function.branchId function.name index).text := by
    intro function hf
    have ids := congrArg (List.map Branch.Id.text) (numbered function hf)
    rwa [List.map_map, List.map_map] at ids
  rw [List.map_flatMap, List.nodup_flatMap]
  refine ⟨?_, ?_⟩
  · intro function hf
    rw [texts function hf]
    refine List.Nodup.map_on ?_ List.nodup_range
    intro index _ place _ same
    exact (Function.text_branchId_inj (hdot function hf) (hdot function hf) same).2
  · rw [List.Nodup, List.pairwise_map] at hnames
    refine hnames.imp_of_mem ?_
    intro f g hf hg different text hmem hmem'
    obtain ⟨branch, hbranch, rfl⟩ := List.mem_map.1 hmem
    obtain ⟨twin, htwin, same⟩ := List.mem_map.1 hmem'
    obtain ⟨index, hindex⟩ := (numbered f hf).exists_id_eq hbranch
    obtain ⟨place, hplace⟩ := (numbered g hg).exists_id_eq htwin
    rw [hindex, hplace] at same
    exact different (Function.text_branchId_inj (hdot g hg) (hdot f hf) same).1.symm

/-- **A dump tells its branches apart.**  If the functions of a dump have names of their own, of
which none begins with a dot, then no two branches have one identity, nor one text.  The branches of
the analysis are those of the functions in dump order, and those of a function are numbered from
zero on. -/
theorem nodup_branches_ofDump {text : String} {analysis : Analysis}
    (hdump : (Analysis.ofDump text).result = .ok analysis)
    (hnames : (analysis.functions.map Function.name).Nodup)
    (hdot : ∀ function ∈ analysis.functions, function.name.toList.head? ≠ some '.') :
    (analysis.branches.map Branch.id).Nodup ∧
    (analysis.branches.map fun branch => branch.id.text).Nodup ∧
    analysis.branches =
      ((definitionLines text.toList).filterMap Function.ofLine?).flatMap Function.branches ∧
    ∀ function ∈ analysis.functions, ∀ (index : Nat) (branch : Branch),
      function.branches[index]? = some branch →
        branch.id = ⟨function.moduleName, function.functionName, 0, index⟩ := by
  obtain ⟨-, rfl⟩ := Analysis.result_ofDump_eq_ok_iff.1 hdump
  have numbered : ∀ function ∈ (readDump text).1, function.Numbered :=
    fun _ => Function.numbered_of_mem_readDump
  have texts := nodup_texts numbered hnames hdot
  refine ⟨?_, texts, rfl, fun function hf index branch here => (numbered function hf).id_eq here⟩
  refine List.Nodup.of_map Branch.Id.text ?_
  rwa [List.map_map]

/-- Two functions of one function name, in a module and in the nameless module, with branches from
all three sources. -/
theorem nodup_branches_ofDump_one_function_name :
    let text := "A.f = [] (%concase X 0) (%constcase 1 2) (CRASH \"m\")\nnoise\n" ++
      "f = [] (%concase Y 0) (%concase Z 0)"
    ∃ analysis, (Analysis.ofDump text).result = .ok analysis ∧
      (analysis.branches.map fun branch => branch.id.text) =
        ["A.f#0:0", "A.f#0:1", "A.f#0:2", "f#0:0", "f#0:1"] ∧
      (analysis.branches.map Branch.id).Nodup := by
  intro text
  have dump : (Analysis.ofDump text).result = .ok { functions := (readDump text).1 } :=
    Analysis.result_ofDump_eq_ok_iff.2 ⟨by decide +kernel, rfl⟩
  have distinct := nodup_branches_ofDump dump (by decide +kernel) (by decide +kernel)
  exact ⟨_, dump, by decide +kernel, distinct.1⟩

/-- A name that begins with a dot has the parts of the name behind the dot. -/
example : Function.branchId ".f" 0 = Function.branchId "f" 0 := by decide

end Dump

end BranchCoverage.CaseTree
