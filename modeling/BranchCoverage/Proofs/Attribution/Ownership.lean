import BranchCoverage.Proofs.Coverage.Share

/-!
# Definitions that belong to another function

The back end may put something in front of a runtime name.  So a function whose runtime name is
missing from a profile is attributed to the first definition that ends in it, and this may be the
definition of another function of the same dump: `MainC-46go` ends `NsC-46MainC-46go`, and where the
back end has eliminated `Main.go`, its branches are counted from the lines of `Ns.Main.go`.

`selects_owned_iff` says when a function borrows the definition of another one in this way.  Equal
runtime names are out of the question, because distinct printable names have distinct ones, so what
is left is the end of a runtime name; and unless the function begins with a digit, that is the end
of a name.

A function that ends no definition is unmapped (`of?_eq_none_iff`).  Nothing is counted for it: the
run contributes the same hits without it (`Run.Hits.hits_without`), and none on a branch of it as
long as branches have identities of their own (`Run.Hits.notMem_branches_of_unmapped`).
-/

namespace BranchCoverage

open CaseTree RuntimeName

/-! ## Functions that no definition carries -/

namespace Attribution

/-- A function is attributed to nothing exactly when no definition ends in its runtime name. -/
theorem of?_eq_none_iff {profile : Profile} {scheme : Scheme} {function : Function} :
    of? profile scheme function = none ↔
      ∀ definition ∈ profile.definitions,
        ¬ (scheme.runtimeName function.name).toList <:+ definition.runtimeName.toList := by
  rw [← Option.not_isSome_iff_eq_none, of?_isSome_iff, find?_isSome_iff]
  simp

end Attribution

namespace Run.Hits

variable {analysis : Analysis} {profile : Profile} {scheme : Scheme} {function : Function}
  {hit : Hit}

/-- The unmapped functions of a run are those that are attributed to nothing. -/
theorem mem_unmapped_iff {name : String} (run : String) :
    name ∈ (ofProfile analysis run profile scheme).unmapped ↔
      ∃ function ∈ analysis.functions, Attribution.of? profile scheme function = none ∧
        function.name = name := by
  simp [ofProfile]

/-- A hit is one of a function, on one of its branches. -/
lemma exists_branch_of_mem_hits (run : String)
    (h : hit ∈ (ofProfile analysis run profile scheme).hits) :
    ∃ function ∈ analysis.functions, Attribution.of? profile scheme function ≠ none ∧
      ∃ branch ∈ function.branches, branch.id = hit.id := by
  rw [hits_ofProfile] at h
  obtain ⟨function, hf, h⟩ := List.mem_flatMap.1 h
  cases found : Attribution.of? profile scheme function with
  | none => simp [found] at h
  | some attribution =>
    rw [found, Option.map_some, Option.getD_some, ofAttribution] at h
    obtain ⟨branch, taken, rfl⟩ := List.mem_map.1 h
    have canonical := List.mem_of_mem_take taken
    have hb := (canonicalBranches_sublist function).mem canonical
    exact ⟨function, hf, by simp [found], branch, hb, rfl⟩

/-- A function that is attributed to nothing adds nothing to the hits. -/
lemma hits_without (run : String) (unmapped : Attribution.of? profile scheme function = none) :
    (ofProfile { functions := analysis.functions.erase function } run profile scheme).hits =
      (ofProfile analysis run profile scheme).hits := by
  rw [hits_ofProfile, hits_ofProfile]
  induction analysis.functions with
  | nil => rfl
  | cons first rest ih =>
    by_cases same : first = function
    · subst same
      simp [unmapped]
    · rw [List.erase_cons_tail (by simpa using same), List.flatMap_cons, List.flatMap_cons, ih]

/-- No hit is on a branch of a function that is attributed to nothing. -/
lemma notMem_branches_of_unmapped (run : String) (distinct : analysis.Distinct)
    (hf : function ∈ analysis.functions)
    (unmapped : Attribution.of? profile scheme function = none)
    (h : hit ∈ (ofProfile analysis run profile scheme).hits) :
    hit.id ∉ function.branches.map Branch.id := by
  intro own
  obtain ⟨other, ho, mapped, branch, hb, same⟩ := exists_branch_of_mem_hits run h
  obtain ⟨twin, ht, same'⟩ := List.mem_map.1 own
  obtain ⟨rfl, -⟩ := branch_unique distinct ho hf hb ht (same.trans same'.symm)
  exact mapped unmapped

end Run.Hits

/-! ## Borrowed definitions -/

namespace Attribution

/-- A place is the first one if it has a wanted name and none in front of it has. -/
lemma isFirst_iff_take {wanted : String → Prop} {names : List String} {place : Nat} {name : String}
    (here : names[place]? = some name) :
    IsFirst wanted names place ↔ wanted name ∧ ∀ earlier ∈ names.take place, ¬ wanted earlier := by
  constructor
  · rintro ⟨⟨other, there, hwanted⟩, before⟩
    obtain rfl := Option.some.inj (there.symm.trans here)
    refine ⟨hwanted, fun earlier hmem => ?_⟩
    obtain ⟨i, hi, rfl⟩ := List.mem_take_iff_getElem.1 hmem
    exact before i (by omega) _ (List.getElem?_eq_getElem _)
  · rintro ⟨hwanted, before⟩
    refine ⟨⟨name, here, hwanted⟩, fun i hlt earlier hi => before earlier ?_⟩
    exact List.mem_of_getElem? ((List.getElem?_take_of_lt hlt).trans hi)

section Owned

variable {analysis : Analysis} {profile : Profile} {f g : Function} {place : Nat}
  {definition : Definition}

/-- Two printable functions of a dump have different runtime names. -/
lemma runtimeName_ne (hnames : (analysis.functions.map Function.name).Nodup)
    (hprintable : ∀ function ∈ analysis.functions, function.name ∈ namesOver printable)
    (hf : f ∈ analysis.functions) (hg : g ∈ analysis.functions) (different : f ≠ g) :
    Scheme.uniform.runtimeName g.name ≠ Scheme.uniform.runtimeName f.name := by
  intro same
  have names : g.name = f.name :=
    runtimeName_uniform_injOn unambiguous_printable (hprintable g hg) (hprintable f hf) same
  exact different (List.inj_on_of_nodup_map hnames hf hg names.symm)

/-- **Who gets the definition of a function.**  Of the functions of a dump with distinct printable
names, one that is not the owner of a definition is attributed to it exactly when its own runtime
name is missing from the profile, ends the owner's, and ends no earlier definition.  A function that
ends no definition is unmapped, and the run hits nothing on its account. -/
theorem selects_owned_iff (hnames : (analysis.functions.map Function.name).Nodup)
    (hprintable : ∀ function ∈ analysis.functions, function.name ∈ namesOver printable)
    (hf : f ∈ analysis.functions) (hg : g ∈ analysis.functions) (different : f ≠ g)
    (hd : profile.definitions[place]? = some definition)
    (owned : definition.runtimeName = Scheme.uniform.runtimeName g.name) :
    (Selects profile .uniform f place ↔
      Scheme.uniform.runtimeName f.name ∉ profile.definitions.map Definition.runtimeName ∧
        (Scheme.uniform.runtimeName f.name).toList <:+
          (Scheme.uniform.runtimeName g.name).toList ∧
        ∀ earlier ∈ profile.definitions.take place,
          ¬ (Scheme.uniform.runtimeName f.name).toList <:+ earlier.runtimeName.toList) ∧
    ((∀ first, f.name.toList.head? = some first → first.isDigit = false) →
      ((Scheme.uniform.runtimeName f.name).toList <:+ (Scheme.uniform.runtimeName g.name).toList ↔
        f.name.toList <:+ g.name.toList)) ∧
    (of? profile .uniform f = none ↔
      ∀ other ∈ profile.definitions,
        ¬ (Scheme.uniform.runtimeName f.name).toList <:+ other.runtimeName.toList) ∧
    (of? profile .uniform f = none → ∀ run,
      f.name ∈ (Run.Hits.ofProfile analysis run profile .uniform).unmapped ∧
        (Run.Hits.ofProfile analysis run profile .uniform).hits =
          (Run.Hits.ofProfile { functions := analysis.functions.erase f } run profile
            .uniform).hits ∧
        (analysis.Distinct → ∀ hit ∈ (Run.Hits.ofProfile analysis run profile .uniform).hits,
          hit.id ∉ f.branches.map Branch.id)) := by
  have here : (profile.definitions.map Definition.runtimeName)[place]? =
      some (Scheme.uniform.runtimeName g.name) := by
    rw [List.getElem?_map, hd, Option.map_some, owned]
  refine ⟨?_, ?_, of?_eq_none_iff, fun unmapped run => ⟨?_, ?_, ?_⟩⟩
  · -- the exact match is not on this place, so what is left is the second half of the search
    have notExact : ¬ IsFirst (· = Scheme.uniform.runtimeName f.name)
        (profile.definitions.map Definition.runtimeName) place := by
      rw [isFirst_iff_take here]
      exact fun exact => runtimeName_ne hnames hprintable hf hg different exact.1
    rw [selects_iff_find?, find?_eq_some_iff, or_iff_right notExact, isFirst_iff_take here,
      ← List.map_take, List.forall_mem_map]
  · intro hdigit
    exact runtimeName_uniform_isSuffix_iff (hprintable f hf) hdigit (hprintable g hg)
  · exact (Run.Hits.mem_unmapped_iff run).2 ⟨f, hf, unmapped, rfl⟩
  · exact (Run.Hits.hits_without run unmapped).symm
  · exact fun distinct hit h =>
      Run.Hits.notMem_branches_of_unmapped run distinct hf unmapped h

/-- The only definition of a profile belongs to the first of three functions.  The second one
borrows it, and the third one is unmapped. -/
theorem selects_owned_iff_one_definition :
    let body := "[] (%concase A 0)".toList
    let owner := Function.ofBody "Ns.Main.go" body
    let borrower := Function.ofBody "Main.go" body
    let other := Function.ofBody "Main.run" body
    let analysis : Analysis := { functions := [owner, borrower, other] }
    let profile := Profile.ofTexts "title=\"line 1 char 1 count 1\"" "(define NsC-46MainC-46go 0)"
    Selects profile .uniform borrower 0 ∧ of? profile .uniform other = none ∧
      ∀ hit ∈ (Run.Hits.ofProfile analysis "unit" profile .uniform).hits,
        hit.id ∉ other.branches.map Branch.id := by
  intro body owner borrower other analysis profile
  have hnames : (analysis.functions.map Function.name).Nodup := by decide
  have hprintable : ∀ function ∈ analysis.functions, function.name ∈ namesOver printable := by
    simp [namesOver, printable, analysis, owner, borrower, other, Function.ofBody]
  have ho : owner ∈ analysis.functions := List.mem_cons_self
  have hb : borrower ∈ analysis.functions := List.mem_cons_of_mem _ List.mem_cons_self
  have hu : other ∈ analysis.functions :=
    List.mem_cons_of_mem _ (List.mem_cons_of_mem _ List.mem_cons_self)
  have hd : profile.definitions[0]? = some ⟨"NsC-46MainC-46go", 1⟩ := by decide +kernel
  have borrows := selects_owned_iff hnames hprintable hb ho (by decide +kernel) hd (by decide)
  have apart := selects_owned_iff hnames hprintable hu ho (by decide +kernel) hd (by decide)
  have unmapped : of? profile .uniform other = none := apart.2.2.1.2 (by decide +kernel)
  exact ⟨borrows.1.2 (by decide +kernel), unmapped,
    (apart.2.2.2 unmapped "unit").2.2 (by decide +kernel)⟩

/-- A definition that belongs to one function of a dump may be attributed to another one as well. -/
theorem not_forall_owned_not_selects :
    ¬ ∀ (text : String) (analysis : Analysis) (profile : Profile) (f g : Function) (place : Nat)
        (definition : Definition), (Analysis.ofDump text).result = .ok analysis →
      (analysis.functions.map Function.name).Nodup →
      (∀ function ∈ analysis.functions, function.name ∈ namesOver printable) →
      f ∈ analysis.functions → g ∈ analysis.functions → f ≠ g →
      profile.definitions[place]? = some definition →
      definition.runtimeName = Scheme.uniform.runtimeName g.name →
      ¬ Selects profile .uniform f place := by
  intro alone
  let text := "Ns.Main.go = [] (%concase A 0)\nMain.go = [] (%concase A 0)"
  let body := " [] (%concase A 0)".toList
  let owner := Function.ofBody "Ns.Main.go" body
  let borrower := Function.ofBody "Main.go" body
  let profile := Profile.ofTexts "title=\"line 1 char 1 count 1\"" "(define NsC-46MainC-46go 0)"
  have functions : (readDump text).1 = [owner, borrower] := by decide +kernel
  have dump : (Analysis.ofDump text).result = .ok ⟨[owner, borrower]⟩ :=
    Analysis.result_ofDump_eq_ok_iff.2 ⟨by decide +kernel, by rw [functions]⟩
  have hprintable : ∀ function ∈ [owner, borrower], function.name ∈ namesOver printable := by
    simp [namesOver, printable, owner, borrower, Function.ofBody]
  have hd : profile.definitions[0]? = some ⟨"NsC-46MainC-46go", 1⟩ := by decide +kernel
  have selected : Selects profile .uniform borrower 0 :=
    selects_iff_find?.2 (by decide +kernel)
  exact alone text ⟨[owner, borrower]⟩ profile borrower owner 0 _ dump (by decide) hprintable
    (List.mem_cons_of_mem _ List.mem_cons_self) List.mem_cons_self (by decide +kernel) hd
    (by decide) selected

end Owned

end Attribution

end BranchCoverage
