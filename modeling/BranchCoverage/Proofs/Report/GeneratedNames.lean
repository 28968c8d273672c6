import BranchCoverage.Config
import BranchCoverage.Proofs.CaseTree.Identity
import BranchCoverage.Proofs.CaseTree.Kind
import BranchCoverage.Proofs.Coverage.Targets
import BranchCoverage.Proofs.Report.Exclusion

/-!
# Which names of the compiler are hidden

What the compiler made up is said twice.  The analysis looks at the two parts of a name: a function
name that begins with a brace or with `prim__`, or a module that is `_builtin` or below it
(`Name.isGenerated`).  A report that hides made-up functions looks for beginnings, of the whole name
and of the function name (`Config.builtinBeginnings`).

The two agree on modules and primitives.  A name in the module `_builtin`, or in one below it,
begins with `_builtin.` as a whole, because it is its module, a dot and its function name
(`Name.begins_of_moduleName`); and a `prim__` name begins so itself.  They differ on braces.  Any
function name that begins with a brace is made up, and only `{csegen` and `{eta` are hidden.  So a
report shows exactly the other names in braces, as long as the whole name does not begin like one
that is hidden (`Name.unlisted_iff`), and as long as no pattern of the user's matches
(`Config.visible_generated_iff`).
-/

namespace BranchCoverage

open CaseTree

/-! ## Beginnings of names -/

namespace Name

variable {name start : String}

/-- A name begins with a text. -/
def Begins (start name : String) : Prop :=
  start.toList <+: name.toList

instance (start name : String) : Decidable (Begins start name) :=
  inferInstanceAs (Decidable (_ <+: _))

/-- A text of which the first character is another one is not the beginning. -/
lemma Begins.not_of_head?_ne {other : String} (h : Begins start name) (hstart : start ≠ "")
    (hother : other ≠ "") (different : start.toList.head? ≠ other.toList.head?) :
    ¬ Begins other name := by
  have first : ∀ {text : String}, text ≠ "" → Begins text name →
      name.toList.head? = text.toList.head? := by
    rintro text named ⟨rest, whole⟩
    rw [← whole, List.head?_append_of_ne_nil]
    simpa using named
  intro begins
  exact different ((first hstart h).symm.trans (first hother begins))

/-- The compiler made a function up for its function name, or for its module. -/
lemma isGenerated_iff {moduleName functionName : String} :
    isGenerated moduleName functionName = true ↔
      Begins "\x7b" functionName ∨ Begins "prim__" functionName ∨
        moduleName = "_builtin" ∨ Begins "_builtin." moduleName := by
  simp only [isGenerated, Begins, Bool.or_eq_true, String.startsWith_string_iff, beq_iff_eq,
    or_assoc]

/-- A name in a named module is the module name, a dot and the function name. -/
lemma toList_of_moduleName_ne (h : moduleName name ≠ "") :
    name.toList = (moduleName name).toList ++ '.' :: (functionName name).toList := by
  rw [moduleName, functionName, split] at *
  cases found : Text.splitAtLast? '.' name.toList with
  | none =>
    rw [found] at h
    exact absurd rfl h
  | some parts =>
    simpa using (Text.splitAtLast?_eq_some_iff.1 found).1

/-- A name in the builtin module, or in a module below it, begins with the builtin module. -/
lemma begins_of_moduleName
    (h : moduleName name = "_builtin" ∨ Begins "_builtin." (moduleName name)) :
    Begins "_builtin." name := by
  have named : moduleName name ≠ "" := by
    rintro nameless
    rw [nameless] at h
    revert h
    decide
  rw [Begins, toList_of_moduleName_ne named]
  rcases h with builtin | below
  · rw [builtin]
    exact ⟨(functionName name).toList, rfl⟩
  · exact below.trans (List.prefix_append _ _)

/-- The compiler made the name up, and it is none of those that are hidden: the function name begins
with a brace. -/
theorem unlisted_iff (generated : isGenerated (moduleName name) (functionName name) = true) :
    (∀ start ∈ Config.builtinBeginnings,
        ¬ Begins start name ∧ ¬ Begins start (functionName name)) ↔
      Begins "\x7b" (functionName name) ∧
      ¬ Begins "\x7bcsegen" (functionName name) ∧ ¬ Begins "\x7beta" (functionName name) ∧
      ¬ Begins "\x7bcsegen" name ∧ ¬ Begins "\x7beta" name ∧ ¬ Begins "prim__" name ∧
      ¬ Begins "_builtin." name := by
  simp only [Config.builtinBeginnings, List.forall_mem_cons, List.not_mem_nil, false_implies,
    implies_true, and_true]
  constructor
  · rintro ⟨⟨csegen, csegen'⟩, ⟨eta, eta'⟩, ⟨prim, prim'⟩, ⟨builtin, -⟩⟩
    refine ⟨?_, csegen', eta', csegen, eta, prim, builtin⟩
    rcases isGenerated_iff.1 generated with brace | primitive | inBuiltin
    · exact brace
    · exact absurd primitive prim'
    · exact absurd (begins_of_moduleName inBuiltin) builtin
  · rintro ⟨brace, csegen', eta', csegen, eta, prim, builtin⟩
    have other : ∀ start : String, start ≠ "" → start.toList.head? ≠ some '\x7b' →
        ¬ Begins start (functionName name) :=
      fun start named different => brace.not_of_head?_ne (by decide) named different.symm
    exact ⟨⟨csegen, csegen'⟩, ⟨eta, eta'⟩, ⟨prim, other _ (by decide) (by decide)⟩,
      ⟨builtin, other _ (by decide) (by decide)⟩⟩

end Name

/-! ## The patterns that are in force -/

lemma Pattern.matchesFunction_beginning_iff {start name : String} :
    (beginning start).matchesFunction name = true ↔
      Name.Begins start name ∨ Name.Begins start (Name.functionName name) := by
  simp only [matchesFunction, matchesName, Bool.or_eq_true, String.startsWith_string_iff,
    Name.Begins]

/-- No pattern in force matches a name exactly if it has no beginning of the compiler's and no
pattern of the user's matches it. -/
lemma Config.not_exists_exclusions_iff {config : Config} {name : String}
    (hbuiltin : config.builtinExclusions = true) :
    (¬ ∃ pattern ∈ config.exclusions, pattern.matchesFunction name = true) ↔
      (∀ start ∈ builtinBeginnings,
        ¬ Name.Begins start name ∧ ¬ Name.Begins start (Name.functionName name)) ∧
      ∀ pattern ∈ config.exclude, pattern.matchesName name = false ∧
        pattern.matchesName (Name.functionName name) = false := by
  have inForce : config.exclusions = builtinBeginnings.map .beginning ++ config.exclude := by
    rw [exclusions, if_pos hbuiltin]
  simp only [inForce, List.mem_append, or_and_right, exists_or, not_or, List.mem_map,
    exists_exists_and_eq_and, Pattern.matchesFunction_beginning_iff, not_exists, not_and]
  simp only [Pattern.matchesFunction, Bool.or_eq_true, not_or, Bool.not_eq_true]

/-! ## Targets of functions that the compiler made up -/

/-- A target for functions that the compiler made up has such a name. -/
lemma Target.isGenerated_of_mem_targets {text : String} {analysis : Analysis}
    {runs : List Run.Hits} {target : Target} (hdump : (Analysis.ofDump text).result = .ok analysis)
    (htarget : target ∈ (Coverage.ofRuns analysis runs).targets)
    (generated : target.reason = .compilerGenerated) :
    Name.isGenerated (Name.moduleName target.function) (Name.functionName target.function) =
      true := by
  obtain ⟨-, rfl⟩ := Analysis.result_ofDump_eq_ok_iff.1 hdump
  obtain ⟨function, hf, listed⟩ := List.mem_flatMap.1 htarget
  rw [mem_ofFunction_iff, generated, of?_eq_ite] at listed
  split at listed
  · cases listed
  · rename_i some
    obtain rfl := Option.some.inj listed
    obtain ⟨branch, others, first⟩ := List.exists_cons_of_ne_nil some
    have concerned : branch ∈ concerned _ .compilerGenerated function.branches :=
      first ▸ List.mem_cons_self
    obtain ⟨hb, concerns⟩ := List.mem_filter.1 concerned
    rw [Reason.concerns, Bool.and_eq_true] at concerns
    have kind := Branch.Kind.isCompilerGenerated_iff.1 concerns.1
    have fits := (Function.kindFitsName_of_mem_readDump hf hb).compilerGenerated kind
    obtain ⟨index, identity⟩ := (Function.numbered_of_mem_readDump hf).exists_id_eq hb
    rwa [identity] at fits

namespace Config

/-- **The hidden names are the names of the compiler, but for other names in braces.**  Of the
targets for functions that the compiler made up, for any runs of a dump, a report with the built-in
exclusions shows those that have a function name with a brace in front, though neither `csegen` nor
`eta` behind it, and a whole name without any of the hidden beginnings, unless a pattern of the
user's matches one of the two names.  So it shows none in the builtin module or below it, and none
with the name of a primitive. -/
theorem visible_generated_iff {text : String} {analysis : Analysis} {config : Config}
    (runs : List Run.Hits) (hdump : (Analysis.ofDump text).result = .ok analysis)
    (hbuiltin : config.builtinExclusions = true) :
    let targets := (Coverage.ofRuns analysis runs).targets
    (∀ target ∈ targets, target.reason = .compilerGenerated →
      (target ∈ Target.visible config.exclusions targets ↔
        Name.Begins "\x7b" (Name.functionName target.function) ∧
        ¬ Name.Begins "\x7bcsegen" (Name.functionName target.function) ∧
        ¬ Name.Begins "\x7beta" (Name.functionName target.function) ∧
        ¬ Name.Begins "\x7bcsegen" target.function ∧ ¬ Name.Begins "\x7beta" target.function ∧
        ¬ Name.Begins "prim__" target.function ∧ ¬ Name.Begins "_builtin." target.function ∧
        ∀ pattern ∈ config.exclude, pattern.matchesName target.function = false ∧
          pattern.matchesName (Name.functionName target.function) = false)) ∧
    ∀ target ∈ targets, target.reason = .compilerGenerated →
      Name.moduleName target.function = "_builtin" ∨
        Name.Begins "_builtin." (Name.moduleName target.function) ∨
        Name.Begins "prim__" (Name.functionName target.function) →
      target ∉ Target.visible config.exclusions targets := by
  intro targets
  -- nothing but the names decides, as soon as the target is one for the compiler's functions
  have shown : ∀ target ∈ targets, target.reason = .compilerGenerated →
      (target ∈ Target.visible config.exclusions targets ↔
        (∀ start ∈ builtinBeginnings, ¬ Name.Begins start target.function ∧
          ¬ Name.Begins start (Name.functionName target.function)) ∧
        ∀ pattern ∈ config.exclude, pattern.matchesName target.function = false ∧
          pattern.matchesName (Name.functionName target.function) = false) := by
    intro target htarget generated
    rw [Target.mem_visible_iff, ← not_exists_exclusions_iff hbuiltin]
    simp only [htarget, generated, true_and]
  refine ⟨fun target htarget generated => ?_, fun target htarget generated names visible => ?_⟩
  · rw [shown target htarget generated,
      Name.unlisted_iff (Target.isGenerated_of_mem_targets hdump htarget generated)]
    simp only [and_assoc]
  · have unlisted := ((shown target htarget generated).1 visible).1
    rw [← or_assoc] at names
    rcases names with inBuiltin | primitive
    · exact (unlisted "_builtin." (by decide)).1 (Name.begins_of_moduleName inBuiltin)
    · exact (unlisted "prim__" (by decide)).2 primitive

/-- Four functions of the compiler's: one of the builtin module, a primitive of another module, one
that a pattern of the user's matches, and one that is left. -/
theorem visible_generated_iff_lifted :
    let text := "_builtin.\x7blift:1\x7d = [] (%concase X 0)\nMain.prim__x = [] (%concase X 0)\n" ++
      "Main.\x7bcase:2\x7d = [] (%concase X 0)\nMain.\x7blift:3\x7d = [] (%concase X 0)"
    let config : Config := { exclude := [.beginning "\x7bcase"] }
    ∃ analysis, (Analysis.ofDump text).result = .ok analysis ∧
      let targets := (Coverage.ofRuns analysis []).targets
      targets.map Target.function =
        ["_builtin.\x7blift:1\x7d", "Main.prim__x", "Main.\x7bcase:2\x7d", "Main.\x7blift:3\x7d"] ∧
      ∀ target ∈ targets, (target ∈ Target.visible config.exclusions targets ↔
        target.function = "Main.\x7blift:3\x7d") := by
  intro text config
  let names :=
    ["_builtin.\x7blift:1\x7d", "Main.prim__x", "Main.\x7bcase:2\x7d", "Main.\x7blift:3\x7d"]
  let functions := names.map fun name => Function.ofBody name " [] (%concase X 0)".toList
  have read : (readDump text).1 = functions := by decide +kernel
  have dump : (Analysis.ofDump text).result = .ok { functions } :=
    Analysis.result_ofDump_eq_ok_iff.2 ⟨by decide +kernel, by rw [read]⟩
  have builtin : config.builtinExclusions = true := rfl
  obtain ⟨shown, -⟩ := visible_generated_iff [] dump builtin
  refine ⟨_, dump, by decide +kernel, fun target htarget => ?_⟩
  have generated : ∀ target ∈ (Coverage.ofRuns { functions } []).targets,
      target.reason = .compilerGenerated := by decide +kernel
  rw [shown target htarget (generated target htarget)]
  revert target
  decide +kernel

end Config

end BranchCoverage
