import BranchCoverage.Proofs.Attribution.Share
import Mathlib.Data.List.Pairwise

/-!
# Every line belongs to one definition

The definitions of a profile cut its file into pieces: each extent begins on the line of a
definition and ends in front of the next one, and the last has no end.  A line above the first
definition belongs to none of them, and every other line to exactly one, so the statistics of all
definitions add up to those of the markers that are not above the first definition.

Attribution relies on this.  Functions with different runtime names that have definitions of their
own are attributed to different definitions, these have no line in common, and no marker is counted
for two of the functions (`definitions_partition`).

Everything follows from the order of the definitions (`Definition.ascending_scan`).  The induction
over an ascending list takes one definition off its front: a line that is not above the first
definition is either a line of the first definition or not above the rest, and never both
(`Definition.reaches_cons`, `Definition.not_reaches_of_contains`).
-/

namespace BranchCoverage

open CaseTree RuntimeName

namespace Definition

/-! ## Definitions in ascending order -/

/-- Every definition stands on a larger line than the definitions in front of it. -/
def Ascending (definitions : List Definition) : Prop :=
  definitions.Pairwise fun a b => a.line < b.line

/-- Definitions are listed by line, and no line has two of them. -/
theorem ascending_scan (source : String) : Ascending (scan source) := by
  have numbered : ((Text.lines source.toList).zipIdx 1).Pairwise fun a b => a.2 < b.2 := by
    have numbers := List.pairwise_lt_range' (s := 1) (n := (Text.lines source.toList).length) 1
    rwa [← List.zipIdx_map_snd, List.pairwise_map] at numbers
  rw [Ascending, scan, List.pairwise_filterMap]
  apply numbered.imp
  rintro ⟨text, line⟩ ⟨text', line'⟩ before a ha b hb
  obtain ⟨name, -, rfl⟩ := Option.map_eq_some_iff.1 ha
  obtain ⟨name', -, rfl⟩ := Option.map_eq_some_iff.1 hb
  exact before

section Extents

variable {first definition other : Definition} {definitions rest : List Definition} {line : Nat}

lemma Ascending.line_ne (ascending : Ascending definitions) (hd : definition ∈ definitions)
    (ho : other ∈ definitions) (different : definition ≠ other) :
    definition.line ≠ other.line := by
  have symmetric : Std.Symm fun a b : Definition => a.line ≠ b.line := ⟨fun _ _ h => h.symm⟩
  have apart : definitions.Pairwise fun a b => a.line ≠ b.line :=
    ascending.imp fun before => Nat.ne_of_lt before
  exact List.Pairwise.forall apart hd ho different

/-! ## The extents of ascending definitions -/

/-- The lines of a definition among others. -/
def extent (definitions : List Definition) (definition : Definition) : Extent :=
  .ofDefinition definition.line (definitions.map Definition.line)

lemma contains_extent :
    (extent definitions definition).contains line = true ↔
      definition.line ≤ line ∧ ∀ other ∈ definitions, definition.line < other.line →
        line < other.line := by
  rw [extent, Extent.contains_ofDefinition]
  simp

/-- Two definitions on different lines have no line in common. -/
lemma not_contains_of_contains (hd : definition ∈ definitions) (ho : other ∈ definitions)
    (different : definition.line ≠ other.line)
    (h : (extent definitions definition).contains line = true) :
    ¬ (extent definitions other).contains line = true := by
  intro h'
  obtain ⟨start, stop⟩ := contains_extent.1 h
  obtain ⟨start', stop'⟩ := contains_extent.1 h'
  rcases Nat.lt_or_gt_of_ne different with before | behind
  · have above : line < other.line := stop other ho before
    omega
  · have above : line < definition.line := stop' definition hd behind
    omega

/-- A definition in front does not change the extents behind it. -/
lemma contains_extent_cons (ascending : Ascending (first :: rest)) (hd : definition ∈ rest) :
    (extent (first :: rest) definition).contains line =
      (extent rest definition).contains line := by
  have before : first.line < definition.line := (List.pairwise_cons.1 ascending).1 definition hd
  rw [Bool.eq_iff_iff, contains_extent, contains_extent, List.forall_mem_cons]
  have behind : ¬ definition.line < first.line := by omega
  simp [behind]

/-- Whether a line is not above the first definition. -/
def reaches (definitions : List Definition) (line : Nat) : Bool :=
  definitions.head?.any fun first => first.line ≤ line

lemma reaches_iff_exists (ascending : Ascending definitions) :
    reaches definitions line = true ↔ ∃ definition ∈ definitions, definition.line ≤ line := by
  cases definitions with
  | nil => simp [reaches]
  | cons first rest =>
    obtain ⟨above, -⟩ := List.pairwise_cons.1 ascending
    simp only [reaches, List.head?_cons, Option.any_some, decide_eq_true_eq]
    constructor
    · intro h
      exact ⟨first, List.mem_cons_self, h⟩
    · rintro ⟨definition, hd, h⟩
      rcases List.mem_cons.1 hd with rfl | hd
      · exact h
      · have before := above definition hd
        omega

/-- A line that is not above the first definition is a line of that definition, or it is not above
the next one. -/
lemma reaches_cons (ascending : Ascending (first :: rest)) :
    reaches (first :: rest) line = true ↔
      (extent (first :: rest) first).contains line = true ∨ reaches rest line = true := by
  obtain ⟨above, tail⟩ := List.pairwise_cons.1 ascending
  rw [reaches_iff_exists tail, contains_extent]
  simp only [reaches, List.head?_cons, Option.any_some, decide_eq_true_eq]
  constructor
  · intro start
    by_cases later : ∃ definition ∈ rest, definition.line ≤ line
    · exact .inr later
    · refine .inl ⟨start, ?_⟩
      intro other ho before
      rcases List.mem_cons.1 ho with rfl | ho
      · omega
      · by_contra reached
        exact later ⟨other, ho, by omega⟩
  · rintro (⟨start, -⟩ | ⟨definition, hd, reached⟩)
    · exact start
    · have before := above definition hd
      omega

lemma not_reaches_of_contains (ascending : Ascending (first :: rest))
    (h : (extent (first :: rest) first).contains line = true) : ¬ reaches rest line = true := by
  obtain ⟨above, tail⟩ := List.pairwise_cons.1 ascending
  rw [reaches_iff_exists tail]
  rintro ⟨definition, hd, reached⟩
  have stop := (contains_extent.1 h).2 definition (.tail _ hd) (above definition hd)
  omega

lemma exists_contains (ascending : Ascending definitions) (h : reaches definitions line = true) :
    ∃ definition ∈ definitions, (extent definitions definition).contains line = true := by
  induction definitions with
  | nil => simp [reaches] at h
  | cons first rest ih =>
    rcases (reaches_cons ascending).1 h with here | later
    · exact ⟨first, List.mem_cons_self, here⟩
    · obtain ⟨definition, hd, here⟩ := ih (List.pairwise_cons.1 ascending).2 later
      refine ⟨definition, .tail _ hd, ?_⟩
      rwa [contains_extent_cons ascending hd]

/-- A line that is not above the first definition belongs to exactly one definition. -/
theorem existsUnique_contains (ascending : Ascending definitions)
    (h : reaches definitions line = true) :
    ∃! definition, definition ∈ definitions ∧
      (extent definitions definition).contains line = true := by
  obtain ⟨definition, hd, here⟩ := exists_contains ascending h
  refine ⟨definition, ⟨hd, here⟩, ?_⟩
  rintro other ⟨ho, here'⟩
  by_contra different
  exact not_contains_of_contains ho hd (ascending.line_ne ho hd different) here' here

end Extents

end Definition

/-! ## The markers of all definitions together -/

section Sums

variable {definitions : List Definition} {markers : List Marker}

/-- The markers of all definitions together are those that are not above the first one. -/
theorem Definition.sum_ofList_extents (ascending : Ascending definitions) :
    LineStats.sum (definitions.map fun definition =>
      .ofList (markers.filter fun marker =>
        (extent definitions definition).contains marker.line)) =
      .ofList (markers.filter fun marker => reaches definitions marker.line) := by
  induction definitions with
  | nil =>
    have none : markers.filter (fun marker => reaches [] marker.line) = [] :=
      List.filter_eq_nil_iff.2 (by simp [reaches])
    rw [none]
    rfl
  | cons first rest ih =>
    have behind : ∀ definition ∈ rest,
        LineStats.ofList (markers.filter fun marker =>
          (extent (first :: rest) definition).contains marker.line) =
        .ofList (markers.filter fun marker => (extent rest definition).contains marker.line) := by
      intro definition hd
      simp only [contains_extent_cons ascending hd]
    have front : LineStats.ofList (markers.filter fun marker =>
          reaches (first :: rest) marker.line) =
        .add (.ofList (markers.filter fun marker =>
          (extent (first :: rest) first).contains marker.line))
          (.ofList (markers.filter fun marker => reaches rest marker.line)) :=
      LineStats.ofList_filter_or (fun _ => reaches_cons ascending)
        fun _ => not_reaches_of_contains ascending
    rw [front, ← ih (List.pairwise_cons.1 ascending).2, List.map_cons,
      List.map_congr_left behind]
    rfl

end Sums

/-! ## Functions with definitions of their own -/

namespace Attribution

section Own

variable {profile : Profile} {scheme : Scheme} {function : Function} {a b : Attribution}
  {markers : List Marker}

/-- A function that has a definition of its own is attributed to a definition with its runtime
name. -/
theorem exists_of?_of_own (h : ∃ definition ∈ profile.definitions,
      definition.runtimeName = scheme.runtimeName function.name) :
    ∃ definition ∈ profile.definitions,
      definition.runtimeName = scheme.runtimeName function.name ∧
        of? profile scheme function = some (toDefinition profile definition) := by
  obtain ⟨own, hown, named⟩ := h
  have listed : scheme.runtimeName function.name ∈
      profile.definitions.map Definition.runtimeName :=
    named ▸ List.mem_map_of_mem hown
  obtain ⟨place, found⟩ := Option.isSome_iff_exists.1
    (find?_isSome_iff.2 ⟨_, listed, List.suffix_refl _⟩)
  have hd := List.getElem?_eq_getElem (lt_length_of_find? found)
  rcases runtimeName_of_find? found hd with same | ⟨absent, -⟩
  · exact ⟨_, List.mem_of_getElem? hd, same, of?_eq_some_of_find? found hd⟩
  · exact absurd listed absent

/-- The markers that an attribution counts, which are those on its lines. -/
def counted (attribution : Attribution) (markers : List Marker) : List Marker :=
  markers.filter fun marker => attribution.extent.contains marker.line

/-- Two attributions share nothing: neither the definition, nor a line, nor one of the markers. -/
structure Apart (markers : List Marker) (a b : Attribution) : Prop where
  definition : a.definition ≠ b.definition
  lines : ∀ line, ¬ (a.extent.contains line = true ∧ b.extent.contains line = true)
  markers : (a.counted markers).Disjoint (b.counted markers)

lemma apart_toDefinition (ascending : Definition.Ascending profile.definitions)
    {definition other : Definition} (hd : definition ∈ profile.definitions)
    (ho : other ∈ profile.definitions) (different : definition ≠ other) :
    Apart markers (toDefinition profile definition) (toDefinition profile other) := by
  have lines : ∀ line, ¬ ((Definition.extent profile.definitions definition).contains line = true ∧
      (Definition.extent profile.definitions other).contains line = true) := by
    rintro line ⟨here, there⟩
    have lineNe := ascending.line_ne hd ho different
    exact Definition.not_contains_of_contains hd ho lineNe here there
  refine ⟨different, lines, ?_⟩
  intro marker hmarker hmarker'
  exact lines marker.line ⟨(List.mem_filter.1 hmarker).2, (List.mem_filter.1 hmarker').2⟩

end Own

/-- **No marker is lost, and none is counted twice.**  The definitions of a profile stand on
strictly increasing lines.  Every line that is not above the first of them belongs to exactly one,
and their statistics add up to those of all markers on such lines.  Functions with distinct
printable names that have definitions of their own are attributed to these, and their attributions
share neither a definition nor a line nor a marker. -/
theorem definitions_partition (annotated definitions : String) :
    let profile := Profile.ofTexts annotated definitions
    let markers := (Marker.scan annotated).1
    Definition.Ascending profile.definitions ∧
    (∀ first, profile.definitions.head? = some first → ∀ line, first.line ≤ line →
      ∃! definition, definition ∈ profile.definitions ∧
        (toDefinition profile definition).extent.contains line = true) ∧
    LineStats.sum (profile.definitions.map fun definition =>
        (toDefinition profile definition).stats) =
      .ofList (markers.filter fun marker =>
        profile.definitions.head?.any fun first => first.line ≤ marker.line) ∧
    ∀ functions : Set Function, (∀ f ∈ functions, f.name ∈ namesOver printable) →
      (functions.Pairwise fun f g => f.name ≠ g.name) →
      (∀ f ∈ functions, ∃ definition ∈ profile.definitions,
        definition.runtimeName = Scheme.uniform.runtimeName f.name) →
      (∀ f ∈ functions, ∃ a, of? profile .uniform f = some a ∧
        a.definition ∈ profile.definitions ∧
        a.definition.runtimeName = Scheme.uniform.runtimeName f.name ∧
        a.stats = .ofList (a.counted markers)) ∧
      functions.Pairwise fun f g => ∀ a b, of? profile .uniform f = some a →
        of? profile .uniform g = some b → Apart markers a b := by
  intro profile markers
  have ascending : Definition.Ascending profile.definitions := Definition.ascending_scan definitions
  have stats : ∀ definition, (toDefinition profile definition).stats =
      .ofList ((toDefinition profile definition).counted markers) :=
    fun _ => LineTable.sumOver_ofMarkers _ _
  refine ⟨ascending, ?_, ?_, ?_⟩
  · intro first hfirst line hline
    exact Definition.existsUnique_contains ascending (by simp [Definition.reaches, hfirst, hline])
  · simp only [stats]
    exact Definition.sum_ofList_extents ascending
  · intro functions hprintable hnames hown
    refine ⟨?_, ?_⟩
    · intro f hf
      obtain ⟨definition, hd, named, found⟩ := exists_of?_of_own (hown f hf)
      exact ⟨_, found, hd, named, stats definition⟩
    · intro f hf g hg different a b ha hb
      obtain ⟨definition, hd, named, found⟩ := exists_of?_of_own (hown f hf)
      obtain ⟨other, ho, named', found'⟩ := exists_of?_of_own (hown g hg)
      obtain rfl := Option.some.inj (found.symm.trans ha)
      obtain rfl := Option.some.inj (found'.symm.trans hb)
      apply apart_toDefinition ascending hd ho
      -- one definition would give both functions one runtime name
      rintro rfl
      have runtime : Scheme.uniform.runtimeName f.name = Scheme.uniform.runtimeName g.name :=
        named.symm.trans named'
      exact hnames hf hg different (runtimeName_uniform_injOn unambiguous_printable
        (hprintable f hf) (hprintable g hg) runtime)

/-- Of two definitions the second has line 7, and a function of the first shares nothing with a
function of the second. -/
theorem definitions_partition_two_functions :
    let annotated := "title=\"line 1 char 1 count 4\" title=\"line 2 char 1 count 3\"
      title=\"line 3 char 2 count 0\" title=\"line 7 char 1 count 1\""
    let definitions := "; head\n(define MainC-46f 0)\n(define MainC-46fC-33"
    let profile := Profile.ofTexts annotated definitions
    let f : Function := { name := "Main.f", branches := [], hasFallback := false }
    let g : Function := { name := "Main.f!", branches := [], hasFallback := false }
    (∃! definition, definition ∈ profile.definitions ∧
      (toDefinition profile definition).extent.contains 7 = true) ∧
    ∃ a b, of? profile .uniform f = some a ∧ of? profile .uniform g = some b ∧
      Apart (Marker.scan annotated).1 a b := by
  intro annotated definitions profile f g
  have found : profile.definitions = [⟨"MainC-46f", 2⟩, ⟨"MainC-46fC-33", 3⟩] := by decide +kernel
  have printables : ∀ function ∈ ({f, g} : Set Function), function.name ∈ namesOver printable := by
    rintro function (rfl | rfl)
    · simp [f, namesOver, printable]
    · simp [g, namesOver, printable]
  have names : ({f, g} : Set Function).Pairwise fun f g => f.name ≠ g.name := by
    rintro _ (rfl | rfl) _ (rfl | rfl) different
    · exact absurd rfl different
    · simp [f, g]
    · simp [f, g]
    · exact absurd rfl different
  have own : ∀ function ∈ ({f, g} : Set Function), ∃ definition ∈ profile.definitions,
      definition.runtimeName = Scheme.uniform.runtimeName function.name := by
    rw [found]
    rintro function (rfl | rfl)
    · exact ⟨_, List.mem_cons_self, by decide +kernel⟩
    · exact ⟨_, .tail _ List.mem_cons_self, by decide +kernel⟩
  obtain ⟨-, lines, -, functions⟩ := definitions_partition annotated definitions
  refine ⟨lines ⟨"MainC-46f", 2⟩ (congrArg List.head? found) 7 (by decide), ?_⟩
  obtain ⟨attributed, apart⟩ := functions {f, g} printables names own
  obtain ⟨a, ha, -⟩ := attributed f (.inl rfl)
  obtain ⟨b, hb, -⟩ := attributed g (.inr rfl)
  exact ⟨a, b, ha, hb, apart (.inl rfl) (.inr rfl) (by simp [f, g]) a b ha hb⟩

end Attribution

end BranchCoverage
