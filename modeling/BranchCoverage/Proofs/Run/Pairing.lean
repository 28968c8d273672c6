import BranchCoverage.Run.Directory
import Mathlib.Data.List.Nodup
import Mathlib.Data.Set.Subsingleton
import Mathlib.Tactic.Common

/-!
# What a run directory is taken for

A directory holds one program, or it is of no use to a run.  What it is taken for depends on the
pairs in it: visible annotations and, beside them, definitions with their name but for the last
extension (`Paired`).

Pairing goes through the annotations in order and uses definitions up, so it does not give one pair
for each annotation that has definitions, but one for each *definitions file* that some annotation
asks for.  Four facts about `Pairing.of` say that much, each by one induction over the annotations:
what it puts together belongs together (`Pairing.mem_pairs`), definitions that are asked for are
used (`Pairing.exists_pair`) and used once (`Pairing.nodup_pairs`), and the first pair is that of
the first annotation that has definitions (`Pairing.first_pair`).

So none, one and several are numbers of definitions files (`result_load_cases`).  They are the
numbers of annotations as well, as long as no two annotations have the same definitions.  `x.ss.htm`
and `x.ss.html` do: they are two annotations with definitions beside them, and the directory is
taken for the program of the first.
-/

namespace BranchCoverage.Run

open Artifact

/-! ## Pairing annotations with definitions -/

namespace Pairing

variable {files definitions : List TextFile} {file source : TextFile} {pair : ArtifactPair}

/-- An annotation that has definitions takes them; one that has none is passed over. -/
lemma pairs_cons (file : TextFile) (files definitions : List TextFile) :
    (of (file :: files) definitions).pairs =
      match definitions.find? fun source => source.name = Path.stem file.name with
      | some source =>
        ⟨file, source⟩ ::
          (of files (definitions.filter fun other => other.name ≠ source.name)).pairs
      | none => (of files definitions).pairs := by
  cases found : definitions.find? fun source => source.name = Path.stem file.name with
  | none => simp only [of, found]
  | some source => simp only [of, found]

lemma name_of_find? (h : definitions.find? (fun source => source.name = Path.stem file.name) =
    some source) : source ∈ definitions ∧ source.name = Path.stem file.name := by
  refine ⟨List.mem_of_find?_eq_some h, ?_⟩
  simpa using List.find?_some h

lemma exists_find? (hsource : source ∈ definitions) (named : source.name = Path.stem file.name) :
    ∃ found, definitions.find? (fun source => source.name = Path.stem file.name) = some found := by
  apply Option.isSome_iff_exists.1
  rw [List.find?_isSome]
  exact ⟨source, hsource, by simpa using named⟩

/-- What is put together belongs together. -/
lemma mem_pairs (h : pair ∈ (of files definitions).pairs) :
    pair.annotations ∈ files ∧ pair.definitions ∈ definitions ∧
      pair.definitions.name = Path.stem pair.annotations.name := by
  induction files generalizing definitions with
  | nil => simp [of] at h
  | cons file files ih =>
    rw [pairs_cons] at h
    cases found : definitions.find? fun source => source.name = Path.stem file.name with
    | none =>
      rw [found] at h
      obtain ⟨hfile, rest⟩ := ih h
      exact ⟨List.mem_cons_of_mem file hfile, rest⟩
    | some source =>
      rw [found] at h
      rcases List.mem_cons.1 h with rfl | h
      · exact ⟨List.mem_cons_self, name_of_find? found⟩
      · obtain ⟨hfile, hsource, named⟩ := ih h
        exact ⟨List.mem_cons_of_mem file hfile, (List.mem_filter.1 hsource).1, named⟩

/-- Definitions that some annotation asks for are used. -/
lemma exists_pair (hnames : (definitions.map TextFile.name).Nodup) (hfile : file ∈ files)
    (hsource : source ∈ definitions) (named : source.name = Path.stem file.name) :
    ∃ pair ∈ (of files definitions).pairs, pair.definitions = source := by
  induction files generalizing definitions with
  | nil => cases hfile
  | cons first files ih =>
    rw [pairs_cons]
    cases found : definitions.find? fun source => source.name = Path.stem first.name with
    | none =>
      rcases List.mem_cons.1 hfile with rfl | hfile
      · obtain ⟨_, taken⟩ := exists_find? hsource named
        exact absurd (found.symm.trans taken) (by simp)
      · exact ih hnames hfile hsource
    | some taken =>
      obtain ⟨htaken, namedTaken⟩ := name_of_find? found
      by_cases same : source.name = taken.name
      · have here : taken = source := List.inj_on_of_nodup_map hnames htaken hsource same.symm
        exact ⟨_, List.mem_cons_self, here⟩
      · -- the definitions are still there for a later annotation
        have later : file ∈ files := by
          rcases List.mem_cons.1 hfile with rfl | later
          · exact absurd (named.trans namedTaken.symm) same
          · exact later
        have left : source ∈ definitions.filter fun other => other.name ≠ taken.name :=
          List.mem_filter.2 ⟨hsource, by simpa using same⟩
        obtain ⟨pair, hpair, hdefinitions⟩ :=
          ih (hnames.sublist (List.filter_sublist.map _)) later left
        exact ⟨pair, List.mem_cons_of_mem _ hpair, hdefinitions⟩

/-- No definitions are used twice. -/
lemma nodup_pairs (files definitions : List TextFile) :
    ((of files definitions).pairs.map fun pair => pair.definitions.name).Nodup := by
  induction files generalizing definitions with
  | nil => simp [of]
  | cons file files ih =>
    rw [pairs_cons]
    cases definitions.find? fun source => source.name = Path.stem file.name with
    | none => exact ih definitions
    | some source =>
      refine List.nodup_cons.2 ⟨?_, ih _⟩
      intro again
      obtain ⟨pair, hpair, same⟩ := List.mem_map.1 again
      have left := (List.mem_filter.1 (mem_pairs hpair).2.1).2
      simp [same] at left

/-- The first pair is that of the first annotation that has definitions. -/
lemma first_pair {others : List ArtifactPair} (hfiles : files.Pairwise fun a b => a.name ≤ b.name)
    (hpairs : (of files definitions).pairs = pair :: others) (hfile : file ∈ files)
    (hsource : source ∈ definitions) (named : source.name = Path.stem file.name) :
    pair.annotations.name ≤ file.name := by
  induction files with
  | nil => cases hfile
  | cons first files ih =>
    obtain ⟨before, hfiles⟩ := List.pairwise_cons.1 hfiles
    rw [pairs_cons] at hpairs
    cases found : definitions.find? fun source => source.name = Path.stem first.name with
    | none =>
      rw [found] at hpairs
      rcases List.mem_cons.1 hfile with rfl | hfile
      · obtain ⟨_, taken⟩ := exists_find? hsource named
        exact absurd (found.symm.trans taken) (by simp)
      · exact ih hfiles hpairs hfile
    | some taken =>
      rw [found] at hpairs
      obtain ⟨rfl, -⟩ := List.cons.inj hpairs
      rcases List.mem_cons.1 hfile with rfl | hfile
      · exact String.le_refl _
      · exact before file hfile

end Pairing

/-! ## The pairs of a directory -/

/-- A file of a directory, as text. -/
def textFile (file : File) : TextFile :=
  { name := file.name, text := String.ofList (Text.Utf8.decodeLossy file.content) }

/-- Among the files at a path there are annotations with something in them, and a definitions file
with the name of the annotations without its last extension. -/
structure Paired (path : String) (files : List File) (file source : File) : Prop where
  file_mem : file ∈ files
  annotations : detect? (Path.inDirectory path file.name) file.content = some .annotations
  visible : Text.isBlankText (Text.Utf8.decodeLossy file.content) = false
  source_mem : source ∈ files
  definitions : detect? (Path.inDirectory path source.name) source.content = some .definitions
  named : source.name = Path.stem file.name

section Directory

variable {path : String} {files : List File} {file other source : File} {pair : ArtifactPair}

instance : Decidable (Paired path files file source) :=
  decidable_of_iff
    (file ∈ files ∧ detect? (Path.inDirectory path file.name) file.content = some .annotations ∧
      Text.isBlankText (Text.Utf8.decodeLossy file.content) = false ∧ source ∈ files ∧
      detect? (Path.inDirectory path source.name) source.content = some .definitions ∧
      source.name = Path.stem file.name)
    ⟨fun ⟨file_mem, annotations, visible, source_mem, definitions, named⟩ =>
      ⟨file_mem, annotations, visible, source_mem, definitions, named⟩,
     fun h => ⟨h.file_mem, h.annotations, h.visible, h.source_mem, h.definitions, h.named⟩⟩

/-- Annotations have their definitions in one file. -/
lemma Paired.source_unique (hnames : (files.map File.name).Nodup)
    (h : Paired path files file source) (h' : Paired path files file other) : source = other :=
  List.inj_on_of_nodup_map hnames h.source_mem h'.source_mem (h.named.trans h'.named.symm)

lemma mem_filesOf {kind : Kind} {text : TextFile} :
    text ∈ (Directory.ofListing path files).filesOf kind ↔
      ∃ file ∈ files, detect? (Path.inDirectory path file.name) file.content = some kind ∧
        textFile file = text := by
  rw [Directory.filesOf, List.mem_map]
  constructor
  · rintro ⟨file, listed, rfl⟩
    obtain ⟨hfile, detected⟩ := List.mem_filter.1 listed
    exact ⟨file, List.mem_mergeSort.1 hfile, of_decide_eq_true detected, rfl⟩
  · rintro ⟨file, hfile, detected, rfl⟩
    exact ⟨file, List.mem_filter.2 ⟨List.mem_mergeSort.2 hfile, decide_eq_true detected⟩, rfl⟩

lemma mem_annotations {text : TextFile} :
    text ∈ (Directory.ofListing path files).annotations ↔
      ∃ file ∈ files, detect? (Path.inDirectory path file.name) file.content = some .annotations ∧
        Text.isBlankText (Text.Utf8.decodeLossy file.content) = false ∧ textFile file = text := by
  simp only [Directory.annotations, List.mem_filter, mem_filesOf, Bool.not_eq_true']
  constructor
  · rintro ⟨⟨file, hfile, kind, rfl⟩, visible⟩
    exact ⟨file, hfile, kind, by simpa [textFile] using visible, rfl⟩
  · rintro ⟨file, hfile, kind, visible, rfl⟩
    exact ⟨⟨file, hfile, kind, rfl⟩, by simpa [textFile] using visible⟩

/-- The files of a directory are in the order of their names. -/
lemma pairwise_files (path : String) (files : List File) :
    (Directory.ofListing path files).files.Pairwise fun a b => a.name ≤ b.name := by
  have transitive (a b c : File) : decide (a.name ≤ b.name) = true →
      decide (b.name ≤ c.name) = true → decide (a.name ≤ c.name) = true := by
    simpa using String.le_trans
  have total (a b : File) : (decide (a.name ≤ b.name) || decide (b.name ≤ a.name)) = true := by
    simpa using String.le_total a.name b.name
  have ordered := List.pairwise_mergeSort transitive total files
  exact ordered.imp of_decide_eq_true

lemma perm_files (path : String) (files : List File) :
    (Directory.ofListing path files).files.Perm files :=
  List.mergeSort_perm files _

lemma pairwise_annotations (path : String) (files : List File) :
    (Directory.ofListing path files).annotations.Pairwise fun a b => a.name ≤ b.name := by
  refine List.Pairwise.filter _ ?_
  rw [Directory.filesOf, List.pairwise_map]
  exact List.Pairwise.filter _ (pairwise_files path files)

lemma nodup_definitions (hnames : (files.map File.name).Nodup) :
    (((Directory.ofListing path files).filesOf .definitions).map TextFile.name).Nodup := by
  have distinct : ((Directory.ofListing path files).files.map File.name).Nodup :=
    ((perm_files path files).map File.name).nodup_iff.2 hnames
  rw [Directory.filesOf, List.map_map]
  exact distinct.sublist (List.filter_sublist.map _)

lemma exists_paired (h : pair ∈ (Directory.ofListing path files).pairing.pairs) :
    ∃ file source, Paired path files file source ∧ pair = ⟨textFile file, textFile source⟩ := by
  obtain ⟨hfile, hsource, named⟩ := Pairing.mem_pairs h
  obtain ⟨file, file_mem, annotations, visible, hfile⟩ := mem_annotations.1 hfile
  obtain ⟨source, source_mem, definitions, hsource⟩ := mem_filesOf.1 hsource
  obtain ⟨_, _⟩ := pair
  subst hfile hsource
  exact ⟨file, source, ⟨file_mem, annotations, visible, source_mem, definitions, named⟩, rfl⟩

lemma Paired.mem_annotations (h : Paired path files file source) :
    textFile file ∈ (Directory.ofListing path files).annotations :=
  Run.mem_annotations.2 ⟨file, h.file_mem, h.annotations, h.visible, rfl⟩

lemma Paired.mem_definitions (h : Paired path files file source) :
    textFile source ∈ (Directory.ofListing path files).filesOf .definitions :=
  mem_filesOf.2 ⟨source, h.source_mem, h.definitions, rfl⟩

lemma Paired.exists_pair (hnames : (files.map File.name).Nodup)
    (h : Paired path files file source) :
    ∃ pair ∈ (Directory.ofListing path files).pairing.pairs, pair.definitions = textFile source :=
  Pairing.exists_pair (nodup_definitions hnames) h.mem_annotations h.mem_definitions h.named

lemma Paired.first_le {others : List ArtifactPair}
    (hpairs : (Directory.ofListing path files).pairing.pairs = pair :: others)
    (h : Paired path files file source) : pair.annotations.name ≤ file.name :=
  Pairing.first_pair (pairwise_annotations path files) hpairs h.mem_annotations h.mem_definitions
    h.named

end Directory

/-! ## What a directory is taken for -/

/-- The annotations that have something in them and definitions beside them. -/
def annotated (path : String) (files : List File) : Set File :=
  {file | ∃ source, Paired path files file source}

/-- The definitions files that such annotations ask for, one for each program. -/
def programs (path : String) (files : List File) : Set File :=
  {source | ∃ file, Paired path files file source}

/-- There is one program, and the annotations are the first that ask for its definitions. -/
structure OnlyProgram (path : String) (files : List File) (file source : File) : Prop where
  paired : Paired path files file source
  programs_eq : programs path files = {source}
  first : ∀ other ∈ annotated path files, file.name ≤ other.name

lemma Paired.annotated_ne_empty {path : String} {files : List File} {file source : File}
    (h : Paired path files file source) : annotated path files ≠ ∅ :=
  Set.Nonempty.ne_empty ⟨file, source, h⟩

namespace OnlyProgram

variable {path : String} {files : List File} {file file' source source' : File}

/-- Of a listing at hand both conditions can be computed. -/
lemma of_forall_mem (h : Paired path files file source)
    (asked : ∀ file' ∈ files, ∀ source' ∈ files, Paired path files file' source' →
      source' = source ∧ file.name ≤ file'.name) : OnlyProgram path files file source := by
  refine ⟨h, Set.eq_singleton_iff_unique_mem.2 ⟨⟨file, h⟩, ?_⟩, ?_⟩
  · rintro definitions ⟨other, h'⟩
    exact (asked other h'.file_mem definitions h'.source_mem h').1
  · rintro other ⟨definitions, h'⟩
    exact (asked other h'.file_mem definitions h'.source_mem h').2

lemma not_nontrivial (only : OnlyProgram path files file source) :
    ¬ (programs path files).Nontrivial := by
  rw [only.programs_eq]
  exact Set.not_nontrivial_singleton

lemma eq_source (only : OnlyProgram path files file source)
    (only' : OnlyProgram path files file' source') : source = source' :=
  Set.singleton_injective (only.programs_eq.symm.trans only'.programs_eq)

lemma eq_file (hnames : (files.map File.name).Nodup) (only : OnlyProgram path files file source)
    (only' : OnlyProgram path files file' source') : file = file' := by
  have names : file.name = file'.name := String.le_antisymm
    (only.first file' ⟨source', only'.paired⟩) (only'.first file ⟨source, only.paired⟩)
  exact List.inj_on_of_nodup_map hnames only.paired.file_mem only'.paired.file_mem names

end OnlyProgram

/-- No two annotations have the same definitions. -/
def Unshared (path : String) (files : List File) : Prop :=
  ∀ file other source, Paired path files file source → Paired path files other source → file = other

namespace Unshared

variable {path : String} {files : List File} {file source : File}

lemma nontrivial_programs (unshared : Unshared path files)
    (several : (annotated path files).Nontrivial) : (programs path files).Nontrivial := by
  obtain ⟨file, ⟨source, h⟩, other, ⟨definitions, h'⟩, different⟩ := several
  refine ⟨source, ⟨file, h⟩, definitions, ⟨other, h'⟩, ?_⟩
  rintro rfl
  exact different (unshared file other source h h')

/-- Without shared definitions there is one program if there is one annotation that has any. -/
lemma onlyProgram_iff (unshared : Unshared path files) (hnames : (files.map File.name).Nodup) :
    OnlyProgram path files file source ↔
      Paired path files file source ∧ annotated path files = {file} := by
  constructor
  · rintro ⟨h, programs_eq, -⟩
    obtain ⟨-, unique⟩ := Set.eq_singleton_iff_unique_mem.1 programs_eq
    refine ⟨h, Set.eq_singleton_iff_unique_mem.2 ⟨⟨source, h⟩, ?_⟩⟩
    rintro other ⟨definitions, h'⟩
    obtain rfl := unique definitions ⟨other, h'⟩
    exact unshared other file definitions h' h
  · rintro ⟨h, annotated_eq⟩
    obtain ⟨-, unique⟩ := Set.eq_singleton_iff_unique_mem.1 annotated_eq
    refine ⟨h, Set.eq_singleton_iff_unique_mem.2 ⟨⟨file, h⟩, ?_⟩, ?_⟩
    · rintro definitions ⟨other, h'⟩
      obtain rfl := unique other ⟨definitions, h'⟩
      exact h'.source_unique hnames h
    · intro other listed
      obtain rfl := unique other listed
      exact String.le_refl _

end Unshared

section Load

variable {disk : Disk} {run path : String} {files : List File}

lemma load_eq (run : String) (hfiles : disk.filesIn path = .ok files) :
    Artifacts.load disk run path = (Directory.ofListing path files).load run := by
  rw [Artifacts.load, hfiles]
  rfl

/-- The artifacts of a run: those of the pair, if there is one pair. -/
def artifactsOf (run : String) (file source : File) : Artifacts :=
  { name := run, annotated := (textFile file).text, definitions := (textFile source).text }

/-- A directory has no program, or one, or several. -/
theorem result_load_cases (run : String) (hfiles : disk.filesIn path = .ok files)
    (hnames : (files.map File.name).Nodup) :
    (annotated path files = ∅ ∧ ∃ failure, (Artifacts.load disk run path).result = .error failure ∧
      failure.category = .missingArtifact) ∨
    (∃ file source, OnlyProgram path files file source ∧
      (Artifacts.load disk run path).result = .ok (artifactsOf run file source)) ∨
    ((programs path files).Nontrivial ∧ ∃ failure,
      (Artifacts.load disk run path).result = .error failure ∧ failure.category = .other) := by
  rw [load_eq run hfiles, Directory.load, Directory.artifacts]
  cases hpairs : (Directory.ofListing path files).pairing.pairs with
  | nil =>
    have unpaired : ∀ file source, ¬ Paired path files file source := by
      intro file source h
      obtain ⟨pair, hpair, -⟩ := h.exists_pair hnames
      rw [hpairs] at hpair
      cases hpair
    refine .inl ⟨Set.eq_empty_of_forall_notMem ?_, ?_⟩
    · rintro file ⟨source, h⟩
      exact unpaired file source h
    · split
      · exact ⟨_, rfl, rfl⟩
      · exact ⟨_, rfl, rfl⟩
  | cons pair others =>
    have listed : pair ∈ (Directory.ofListing path files).pairing.pairs := by simp [hpairs]
    obtain ⟨file, source, h, rfl⟩ := exists_paired listed
    have visible : ¬ (Directory.ofListing path files).annotations.isEmpty = true := by
      rw [List.isEmpty_iff]
      intro none
      have listed := h.mem_annotations
      rw [none] at listed
      cases listed
    rw [if_neg visible]
    cases others with
    | nil =>
      refine .inr (.inl ⟨file, source, ⟨h, ?_, ?_⟩, rfl⟩)
      · refine Set.eq_singleton_iff_unique_mem.2 ⟨⟨file, h⟩, ?_⟩
        rintro other ⟨asking, h'⟩
        obtain ⟨pair, hpair, same⟩ := h'.exists_pair hnames
        rw [hpairs] at hpair
        obtain rfl := List.mem_singleton.1 hpair
        exact List.inj_on_of_nodup_map hnames h'.source_mem h.source_mem
          (congrArg TextFile.name same).symm
      · rintro other ⟨definitions, h'⟩
        exact h'.first_le hpairs
    | cons second others =>
      have listed' : second ∈ (Directory.ofListing path files).pairing.pairs := by simp [hpairs]
      obtain ⟨other, definitions, h', rfl⟩ := exists_paired listed'
      refine .inr (.inr ⟨⟨source, ⟨file, h⟩, definitions, ⟨other, h'⟩, ?_⟩, _, rfl, rfl⟩)
      rintro rfl
      have once := Pairing.nodup_pairs (Directory.ofListing path files).annotations
        ((Directory.ofListing path files).filesOf .definitions)
      rw [Directory.pairing] at hpairs
      simp [hpairs] at once

section Classes

variable (run) (hfiles : disk.filesIn path = .ok files) (hnames : (files.map File.name).Nodup)

include hfiles hnames

lemma result_load_eq_missing (none : annotated path files = ∅) :
    ∃ failure, (Artifacts.load disk run path).result = .error failure ∧
      failure.category = .missingArtifact := by
  rcases result_load_cases run hfiles hnames with
    ⟨-, failed⟩ | ⟨file, source, only, -⟩ | ⟨⟨source, ⟨file, h⟩, -⟩, -⟩
  · exact failed
  · exact absurd none only.paired.annotated_ne_empty
  · exact absurd none h.annotated_ne_empty

lemma result_load_eq_several (several : (programs path files).Nontrivial) :
    ∃ failure, (Artifacts.load disk run path).result = .error failure ∧
      failure.category = .other := by
  rcases result_load_cases run hfiles hnames with
    ⟨none, -⟩ | ⟨file, source, only, -⟩ | ⟨-, failed⟩
  · obtain ⟨source, ⟨file, h⟩, -⟩ := several
    exact absurd none h.annotated_ne_empty
  · exact absurd several only.not_nontrivial
  · exact failed

/-- A directory with one program has the artifacts of its first annotations. -/
lemma result_load_eq_ok_iff {artifacts : Artifacts} :
    (Artifacts.load disk run path).result = .ok artifacts ↔
      ∃ file source, OnlyProgram path files file source ∧
        artifacts = artifactsOf run file source := by
  constructor
  · intro loaded
    rcases result_load_cases run hfiles hnames with
      ⟨-, failure, failed, -⟩ | ⟨file, source, only, found⟩ | ⟨-, failure, failed, -⟩
    · cases failed.symm.trans loaded
    · exact ⟨file, source, only, Except.ok.inj (loaded.symm.trans found)⟩
    · cases failed.symm.trans loaded
  · rintro ⟨file, source, only, rfl⟩
    rcases result_load_cases run hfiles hnames with
      ⟨none, -⟩ | ⟨file', source', only', found⟩ | ⟨several, -⟩
    · exact absurd none only.paired.annotated_ne_empty
    · rw [found, only'.eq_source only, only'.eq_file hnames only]
    · exact absurd several only.not_nontrivial

/-- **One program for a directory.**  A directory without annotations that have definitions is a
missing artifact, one whose annotations ask for several definitions files is ambiguous, and it has
artifacts exactly when they all ask for one: those of the first annotations and of that file.  As
long as no two annotations have the same definitions, the annotations may be counted instead. -/
theorem result_load_classified :
    (annotated path files = ∅ → ∃ failure, (Artifacts.load disk run path).result = .error failure ∧
      failure.category = .missingArtifact) ∧
    ((programs path files).Nontrivial → ∃ failure,
      (Artifacts.load disk run path).result = .error failure ∧ failure.category = .other) ∧
    (∀ artifacts, (Artifacts.load disk run path).result = .ok artifacts ↔
      ∃ file source, OnlyProgram path files file source ∧
        artifacts = artifactsOf run file source) ∧
    (Unshared path files →
      ((annotated path files).Nontrivial → ∃ failure,
        (Artifacts.load disk run path).result = .error failure ∧ failure.category = .other) ∧
      ∀ artifacts, (Artifacts.load disk run path).result = .ok artifacts ↔
        ∃ file source, Paired path files file source ∧ annotated path files = {file} ∧
          artifacts = artifactsOf run file source) := by
  refine ⟨result_load_eq_missing run hfiles hnames, result_load_eq_several run hfiles hnames,
    fun _ => result_load_eq_ok_iff run hfiles hnames, fun unshared => ⟨fun several => ?_, ?_⟩⟩
  · exact result_load_eq_several run hfiles hnames (unshared.nontrivial_programs several)
  · intro artifacts
    simp only [result_load_eq_ok_iff run hfiles hnames, unshared.onlyProgram_iff hnames, and_assoc]

end Classes

/-- A directory with two annotations, of which one has its definitions beside it. -/
theorem result_load_classified_unpaired :
    let html : File := ⟨"main.ss.html", "title=\"line 1 char 1 count 1\"".toUTF8.data.toList⟩
    let other : File := ⟨"lib.ss.html", "title=\"line 1 char 1 count 9\"".toUTF8.data.toList⟩
    let source : File := ⟨"main.ss", "(define MainC-46main 0)".toUTF8.data.toList⟩
    let files := [html, source, other]
    let disk := Disk.ofAnswers [] [("out", .ok files)]
    Unshared "out" files ∧ annotated "out" files = {html} ∧
      (Artifacts.load disk "unit" "out").result = .ok (artifactsOf "unit" html source) := by
  intro html other source files disk
  have only : ∀ file ∈ files, ∀ definitions ∈ files, Paired "out" files file definitions →
      file = html := by decide +kernel
  have paired : Paired "out" files html source := by decide +kernel
  have unshared : Unshared "out" files := by
    intro file file' definitions h h'
    rw [only file h.file_mem definitions h.source_mem h,
      only file' h'.file_mem definitions h'.source_mem h']
  have annotated_eq : annotated "out" files = {html} := by
    refine Set.eq_singleton_iff_unique_mem.2 ⟨⟨source, paired⟩, ?_⟩
    rintro file ⟨definitions, h⟩
    exact only file h.file_mem definitions h.source_mem h
  have hfiles : disk.filesIn "out" = .ok files := rfl
  have classified := (result_load_classified "unit" hfiles (by decide)).2.2.2 unshared
  exact ⟨unshared, annotated_eq, (classified.2 _).2 ⟨html, source, paired, annotated_eq, rfl⟩⟩

/-- Several annotations with definitions do not make every directory ambiguous: those of `x.ss.htm`
and of `x.ss.html` are the same, and the first of the two is taken. -/
theorem not_forall_result_load_other :
    ¬ ∀ (disk : Disk) (run path : String) (files : List File), disk.filesIn path = .ok files →
      (files.map File.name).Nodup → (annotated path files).Nontrivial →
      ∃ failure, (Artifacts.load disk run path).result = .error failure ∧
        failure.category = .other := by
  intro ambiguous
  let htm : File := ⟨"x.ss.htm", "title=\"line 1 char 1 count 0\"".toUTF8.data.toList⟩
  let html : File := ⟨"x.ss.html", "title=\"line 1 char 1 count 9\"".toUTF8.data.toList⟩
  let source : File := ⟨"x.ss", "(define a 0)".toUTF8.data.toList⟩
  let files := [source, htm, html]
  let disk := Disk.ofAnswers [] [("d", .ok files)]
  have paired : Paired "d" files htm source := by decide +kernel
  have paired' : Paired "d" files html source := by decide +kernel
  have only : OnlyProgram "d" files htm source := .of_forall_mem paired (by decide +kernel)
  have hfiles : disk.filesIn "d" = .ok files := rfl
  have hnames : (files.map File.name).Nodup := by decide
  obtain ⟨failure, failed, -⟩ := ambiguous disk "a" "d" files hfiles hnames
    ⟨htm, ⟨source, paired⟩, html, ⟨source, paired'⟩, by decide⟩
  have loaded := (result_load_eq_ok_iff "a" hfiles hnames).2 ⟨htm, source, only, rfl⟩
  cases failed.symm.trans loaded

end Load

end BranchCoverage.Run
