import BranchCoverage.Attribution
import BranchCoverage.Proofs.RuntimeName.Injective

/-!
# Which definition a function is attributed to

Attribution compares runtime names, but what it is meant to find is a name.  This module says what
the two-stage search of `Attribution.find?` finds, first in terms of runtime names
(`find?_eq_some_iff`) and then, for the uniform scheme, in terms of the names that were encoded
(`uniform_selects_iff`): the first definition with the name of the function, and if there is none,
the first definition whose name ends in it.

The step between the two is `RuntimeName.encode_isSuffix_iff`, and it needs a name that does not
begin with a digit.  `6` has the runtime name `6`, which ends the runtime name `C-46` of the dot.
-/

namespace BranchCoverage.Attribution

open CaseTree RuntimeName

/-! ## First places -/

/-- `place` is the first place of a list with a wanted name. -/
def IsFirst (wanted : String → Prop) (names : List String) (place : Nat) : Prop :=
  (∃ name, names[place]? = some name ∧ wanted name) ∧
    ∀ earlier < place, ∀ name, names[earlier]? = some name → ¬ wanted name

lemma findIdx?_eq_some_iff_isFirst {wanted : String → Prop} {p : String → Bool}
    (hp : ∀ name, p name = true ↔ wanted name) {names : List String} {place : Nat} :
    names.findIdx? p = some place ↔ IsFirst wanted names place := by
  rw [List.findIdx?_eq_some_iff_getElem]
  constructor
  · rintro ⟨bound, here, before⟩
    refine ⟨⟨names[place], List.getElem?_eq_getElem bound, (hp _).1 here⟩, ?_⟩
    intro earlier hlt name hname hwanted
    obtain ⟨hbound, rfl⟩ := List.getElem?_eq_some_iff.1 hname
    exact before earlier hlt ((hp _).2 hwanted)
  · rintro ⟨⟨name, hname, hwanted⟩, before⟩
    obtain ⟨bound, rfl⟩ := List.getElem?_eq_some_iff.1 hname
    refine ⟨bound, (hp _).2 hwanted, ?_⟩
    intro earlier hlt here
    exact before earlier hlt _ (List.getElem?_eq_getElem _) ((hp _).1 here)

/-- A first place among encoded names is one among the names, if the two ask for the same names. -/
lemma isFirst_map_iff {wanted wanted' : String → Prop} {f : String → String} {names : List String}
    (same : ∀ name ∈ names, wanted' (f name) ↔ wanted name) {place : Nat} :
    IsFirst wanted' (names.map f) place ↔ IsFirst wanted names place := by
  have transfer : ∀ (i : Nat) (name : String),
      names[i]? = some name → (wanted' (f name) ↔ wanted name) := by
    intro i name h
    exact same name (List.mem_of_getElem? h)
  constructor
  · rintro ⟨⟨_, hname, hwanted⟩, before⟩
    rw [List.getElem?_map, Option.map_eq_some_iff] at hname
    obtain ⟨name, hname, rfl⟩ := hname
    refine ⟨⟨name, hname, (transfer place name hname).1 hwanted⟩, ?_⟩
    intro earlier hlt name' hname' hwanted'
    refine before earlier hlt (f name') ?_ ((transfer earlier name' hname').2 hwanted')
    rw [List.getElem?_map, hname', Option.map_some]
  · rintro ⟨⟨name, hname, hwanted⟩, before⟩
    refine ⟨⟨f name, ?_, (transfer place name hname).2 hwanted⟩, ?_⟩
    · rw [List.getElem?_map, hname, Option.map_some]
    · intro earlier hlt _ hname' hwanted'
      rw [List.getElem?_map, Option.map_eq_some_iff] at hname'
      obtain ⟨name', hname', rfl⟩ := hname'
      exact before earlier hlt name' hname' ((transfer earlier name' hname').1 hwanted')

/-! ## The search among runtime names -/

section Search

variable {runtimeName : String} {definitions : List Definition} {place : Nat}

lemma endsWith_iff {text ending : String} :
    text.endsWith ending = true ↔ ending.toList <:+ text.toList := by
  rw [String.endsWith, String.Slice.endsWith_string_iff, String.copy_toSlice]

/-- The search finds the first definition with the runtime name, and only where there is none the
first one whose runtime name ends in it. -/
theorem find?_eq_some_iff :
    find? runtimeName definitions = some place ↔
      IsFirst (· = runtimeName) (definitions.map Definition.runtimeName) place ∨
        runtimeName ∉ definitions.map Definition.runtimeName ∧
          IsFirst (fun name => runtimeName.toList <:+ name.toList)
            (definitions.map Definition.runtimeName) place := by
  have exact : (definitions.findIdx? fun definition => definition.runtimeName = runtimeName) =
      (definitions.map Definition.runtimeName).findIdx? fun name => name = runtimeName := by
    rw [List.findIdx?_map]
    rfl
  have ending : (definitions.findIdx? fun definition =>
      definition.runtimeName.endsWith runtimeName) =
      (definitions.map Definition.runtimeName).findIdx? fun name => name.endsWith runtimeName := by
    rw [List.findIdx?_map]
    rfl
  have equal : ∀ name, decide (name = runtimeName) = true ↔ name = runtimeName := by simp
  have ends : ∀ name : String,
      name.endsWith runtimeName = true ↔ runtimeName.toList <:+ name.toList :=
    fun _ => endsWith_iff
  rw [find?, exact, ending, Option.or_eq_some_iff, findIdx?_eq_some_iff_isFirst equal,
    findIdx?_eq_some_iff_isFirst ends, List.findIdx?_eq_none_iff]
  simp

/-- The definition that the search finds has the runtime name, or no definition has it and this one
ends in it. -/
lemma runtimeName_of_find? {definition : Definition}
    (h : find? runtimeName definitions = some place)
    (hd : definitions[place]? = some definition) :
    definition.runtimeName = runtimeName ∨
      runtimeName ∉ definitions.map Definition.runtimeName ∧
        runtimeName.toList <:+ definition.runtimeName.toList := by
  have listed : (definitions.map Definition.runtimeName)[place]? =
      some definition.runtimeName := by
    rw [List.getElem?_map, hd, Option.map_some]
  rcases find?_eq_some_iff.1 h with ⟨⟨name, hname, same⟩, -⟩ | ⟨absent, ⟨name, hname, ends⟩, -⟩
  · obtain rfl := Option.some.inj (hname.symm.trans listed)
    exact .inl same
  · obtain rfl := Option.some.inj (hname.symm.trans listed)
    exact .inr ⟨absent, ends⟩

lemma find?_isSome_iff :
    (find? runtimeName definitions).isSome = true ↔
      ∃ other ∈ definitions.map Definition.runtimeName, runtimeName.toList <:+ other.toList := by
  rw [find?, Option.isSome_or, List.findIdx?_isSome, List.findIdx?_isSome, Bool.or_eq_true,
    List.any_eq_true, List.any_eq_true]
  constructor
  · rintro (⟨definition, hmem, here⟩ | ⟨definition, hmem, here⟩)
    · have same : definition.runtimeName = runtimeName := by simpa using here
      exact ⟨_, List.mem_map_of_mem hmem, same ▸ List.suffix_refl _⟩
    · exact ⟨_, List.mem_map_of_mem hmem, endsWith_iff.1 here⟩
  · rintro ⟨_, hother, here⟩
    obtain ⟨definition, hmem, rfl⟩ := List.mem_map.1 hother
    exact .inr ⟨definition, hmem, endsWith_iff.2 here⟩

lemma lt_length_of_find? (h : find? runtimeName definitions = some place) :
    place < definitions.length := by
  rw [find?, Option.or_eq_some_iff] at h
  rcases h with h | ⟨-, h⟩
  · exact (List.findIdx?_eq_some_iff_getElem.1 h).1
  · exact (List.findIdx?_eq_some_iff_getElem.1 h).1

end Search

/-! ## The search among names -/

/-- The function is attributed to the definition on a place of the profile. -/
def Selects (profile : Profile) (scheme : Scheme) (function : Function) (place : Nat) : Prop :=
  find? (scheme.runtimeName function.name) profile.definitions = some place ∧
    ∃ definition, profile.definitions[place]? = some definition ∧
      of? profile scheme function = some (toDefinition profile definition)

section Names

variable {profile : Profile} {scheme : Scheme} {function : Function} {place : Nat}

lemma of?_eq_some_of_find? {definition : Definition}
    (h : find? (scheme.runtimeName function.name) profile.definitions = some place)
    (hd : profile.definitions[place]? = some definition) :
    of? profile scheme function = some (toDefinition profile definition) := by
  rw [of?, h]
  simp [hd]

lemma selects_iff_find? :
    Selects profile scheme function place ↔
      find? (scheme.runtimeName function.name) profile.definitions = some place := by
  constructor
  · exact fun h => h.1
  · intro h
    have hd := List.getElem?_eq_getElem (lt_length_of_find? h)
    exact ⟨h, _, hd, of?_eq_some_of_find? h hd⟩

lemma of?_isSome_iff :
    (of? profile scheme function).isSome = true ↔
      (find? (scheme.runtimeName function.name) profile.definitions).isSome = true := by
  cases h : find? (scheme.runtimeName function.name) profile.definitions with
  | none => simp [of?, h]
  | some place =>
    have hd := List.getElem?_eq_getElem (lt_length_of_find? h)
    simp [of?_eq_some_of_find? h hd]

end Names

section Uniform

variable {name : String} {names : List String}

/-- A printable name that does not begin with a digit ends another exactly when its runtime name
ends the other's. -/
lemma runtimeName_uniform_isSuffix_iff (hname : name ∈ namesOver printable)
    (hdigit : ∀ first, name.toList.head? = some first → first.isDigit = false) {other : String}
    (hother : other ∈ namesOver printable) :
    (Scheme.uniform.runtimeName name).toList <:+ (Scheme.uniform.runtimeName other).toList ↔
      name.toList <:+ other.toList := by
  rw [toList_runtimeName, toList_runtimeName]
  exact encode_isSuffix_iff unambiguous_printable hname hother hdigit

lemma isFirst_runtimeName_iff (hname : name ∈ namesOver printable)
    (hnames : ∀ other ∈ names, other ∈ namesOver printable) {place : Nat} :
    IsFirst (· = Scheme.uniform.runtimeName name) (names.map Scheme.uniform.runtimeName) place ↔
      IsFirst (· = name) names place := by
  apply isFirst_map_iff
  intro other hother
  constructor
  · exact runtimeName_uniform_injOn unambiguous_printable (hnames other hother) hname
  · rintro rfl
    rfl

lemma runtimeName_mem_map_iff (hname : name ∈ namesOver printable)
    (hnames : ∀ other ∈ names, other ∈ namesOver printable) :
    Scheme.uniform.runtimeName name ∈ names.map Scheme.uniform.runtimeName ↔ name ∈ names := by
  constructor
  · intro h
    obtain ⟨other, hother, same⟩ := List.mem_map.1 h
    have eq : other = name :=
      runtimeName_uniform_injOn unambiguous_printable (hnames other hother) hname same
    exact eq ▸ hother
  · exact List.mem_map_of_mem

/-- **Runtime names stand for names.**  In a profile whose definitions carry the uniform runtime
names of printable names, a function whose name is printable and does not begin with a digit is
attributed to the first definition with its name, and if there is none, to the first whose name ends
in it; it is attributed at all exactly when some name ends in it. -/
theorem uniform_selects_iff (profile : Profile) (function : Function) (names : List String)
    (hname : function.name ∈ namesOver printable)
    (hdigit : ∀ first, function.name.toList.head? = some first → first.isDigit = false)
    (hnames : ∀ other ∈ names, other ∈ namesOver printable)
    (hdefinitions : profile.definitions.map Definition.runtimeName =
      names.map Scheme.uniform.runtimeName) :
    ((of? profile .uniform function).isSome = true ↔
      ∃ other ∈ names, function.name.toList <:+ other.toList) ∧
    (∀ place, Selects profile .uniform function place ↔
      IsFirst (· = function.name) names place ∨
        function.name ∉ names ∧
          IsFirst (fun other => function.name.toList <:+ other.toList) names place) ∧
    ∀ other ∈ namesOver printable,
      (Scheme.uniform.runtimeName function.name).toList <:+
          (Scheme.uniform.runtimeName other).toList ↔
        function.name.toList <:+ other.toList := by
  have suffixes : ∀ other ∈ namesOver printable,
      (Scheme.uniform.runtimeName function.name).toList <:+
          (Scheme.uniform.runtimeName other).toList ↔
        function.name.toList <:+ other.toList :=
    fun other hother => runtimeName_uniform_isSuffix_iff hname hdigit hother
  refine ⟨?_, ?_, suffixes⟩
  · rw [of?_isSome_iff, find?_isSome_iff, hdefinitions]
    constructor
    · rintro ⟨_, hmem, h⟩
      obtain ⟨other, hother, rfl⟩ := List.mem_map.1 hmem
      exact ⟨other, hother, (suffixes other (hnames other hother)).1 h⟩
    · rintro ⟨other, hother, h⟩
      exact ⟨_, List.mem_map_of_mem hother, (suffixes other (hnames other hother)).2 h⟩
  · intro place
    have ending : IsFirst (fun other =>
          (Scheme.uniform.runtimeName function.name).toList <:+ other.toList)
          (names.map Scheme.uniform.runtimeName) place ↔
        IsFirst (fun other => function.name.toList <:+ other.toList) names place :=
      isFirst_map_iff fun other hother => suffixes other (hnames other hother)
    rw [selects_iff_find?, find?_eq_some_iff, hdefinitions, isFirst_runtimeName_iff hname hnames,
      runtimeName_mem_map_iff hname hnames, ending]

/-- Of three definitions, the second one has the name of the function, although a definition before
it ends in the name. -/
theorem uniform_selects_second :
    Selects
      { lines := .empty
        definitions := [⟨"NsC-46MainC-46go", 1⟩, ⟨"MainC-46go", 4⟩, ⟨"MainC-46goC-33", 9⟩]
        tally := ⟨0, 0⟩ }
      .uniform { name := "Main.go", branches := [], hasFallback := false } 1 := by
  have printables :
      ∀ other ∈ ["Ns.Main.go", "Main.go", "Main.go!"], other ∈ namesOver printable := by
    simp [namesOver, printable]
  refine ((uniform_selects_iff _ _ ["Ns.Main.go", "Main.go", "Main.go!"] (printables _ (by simp))
    (by simp) printables (by decide +kernel)).2.1 1).2 (.inl ⟨⟨_, rfl, rfl⟩, ?_⟩)
  intro earlier hlt name hname
  obtain rfl : earlier = 0 := by omega
  have other : name = "Ns.Main.go" := by simpa using hname.symm
  rw [other]
  decide

end Uniform

end BranchCoverage.Attribution
