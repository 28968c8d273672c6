import BranchCoverage.Proofs.Run.Pairing
import Mathlib.Data.List.Perm.Basic

/-!
# What a run does not depend on

A run directory may fill up with files that have nothing to do with the run, and a disk lists files
in an order of its own.  Neither is to change what is measured.

A file is *idle* when it is no artifact, when it is an annotation with nothing in it or with no
definitions beside it, or when it holds definitions that no annotation asks for (`Idle`).  These are
just the files that take part in no pair (`idle_iff`).  Whether a file is idle is a matter of the
whole directory: new definitions may be asked for by an annotation that was there before, so it is
the enlarged directory that is looked at.  Idle files then leave the pairs as they were
(`paired_added_iff`), and what a directory is taken for depends on its pairs only.

The order of the files is gone once they are sorted (`ofListing_eq_of_perm`), and with it goes every
other trace of it, in the log as well.  Here it matters that no two files have one name.
-/

namespace BranchCoverage.Run

open Artifact

variable {path : String} {files listing added : List File} {file source : File}

/-! ## Files that take part in no pair -/

/-- The kinds of files that a run passes over, among the files at a path. -/
inductive Idle (path : String) (files : List File) (file : File) : Prop where
  | unrecognized
      (not_annotations :
        detect? (Path.inDirectory path file.name) file.content ≠ some .annotations)
      (not_definitions :
        detect? (Path.inDirectory path file.name) file.content ≠ some .definitions)
  | blank
      (annotations : detect? (Path.inDirectory path file.name) file.content = some .annotations)
      (blank : Text.isBlankText (Text.Utf8.decodeLossy file.content) = true)
  | unpaired
      (annotations : detect? (Path.inDirectory path file.name) file.content = some .annotations)
      (alone : ∀ source ∈ files,
        detect? (Path.inDirectory path source.name) source.content = some .definitions →
          source.name ≠ Path.stem file.name)
  | unused
      (definitions : detect? (Path.inDirectory path file.name) file.content = some .definitions)
      (unasked : ∀ other ∈ files,
        detect? (Path.inDirectory path other.name) other.content = some .annotations →
          Text.isBlankText (Text.Utf8.decodeLossy other.content) = false →
            file.name ≠ Path.stem other.name)

/-- Idle annotations have no definitions. -/
lemma Idle.not_paired (idle : Idle path files file) : ¬ Paired path files file source := by
  intro h
  cases idle with
  | unrecognized not_annotations => exact not_annotations h.annotations
  | blank _ blank => exact absurd (blank.symm.trans h.visible) (by decide)
  | unpaired _ alone => exact alone source h.source_mem h.definitions h.named
  | unused definitions => cases definitions.symm.trans h.annotations

/-- Idle definitions are not asked for. -/
lemma Idle.not_paired_source (idle : Idle path files source) :
    ¬ Paired path files file source := by
  intro h
  cases idle with
  | unrecognized _ not_definitions => exact not_definitions h.definitions
  | blank annotations => cases annotations.symm.trans h.definitions
  | unpaired annotations => cases annotations.symm.trans h.definitions
  | unused _ unasked => exact unasked file h.file_mem h.annotations h.visible h.named

/-- The idle files of a directory are those that take part in no pair. -/
theorem idle_iff (hfile : file ∈ files) :
    Idle path files file ↔
      ∀ other, ¬ Paired path files file other ∧ ¬ Paired path files other file := by
  refine ⟨fun idle _ => ⟨idle.not_paired, idle.not_paired_source⟩, fun apart => ?_⟩
  by_cases annotations :
      detect? (Path.inDirectory path file.name) file.content = some .annotations
  · by_cases visible : Text.isBlankText (Text.Utf8.decodeLossy file.content) = false
    · refine .unpaired annotations fun source hsource definitions named => ?_
      exact (apart source).1 ⟨hfile, annotations, visible, hsource, definitions, named⟩
    · exact .blank annotations (by simpa using visible)
  · by_cases definitions :
        detect? (Path.inDirectory path file.name) file.content = some .definitions
    · refine .unused definitions fun other hother annotations visible named => ?_
      exact (apart other).2 ⟨hother, annotations, visible, hfile, definitions, named⟩
    · exact .unrecognized annotations definitions

/-! ## More files -/

lemma Paired.mono (h : Paired path files file source) (more : files ⊆ listing) :
    Paired path listing file source :=
  { h with file_mem := more h.file_mem, source_mem := more h.source_mem }

/-- What a directory is taken for depends on its pairs only. -/
lemma onlyProgram_congr
    (same : ∀ file source, Paired path listing file source ↔ Paired path files file source) :
    OnlyProgram path listing file source ↔ OnlyProgram path files file source := by
  have annotated_eq : annotated path listing = annotated path files := by
    simp only [annotated, same]
  have programs_eq : programs path listing = programs path files := by
    simp only [programs, same]
  constructor
  · rintro ⟨h, only, first⟩
    exact ⟨(same _ _).1 h, programs_eq ▸ only, annotated_eq ▸ first⟩
  · rintro ⟨h, only, first⟩
    exact ⟨(same _ _).2 h, programs_eq ▸ only, annotated_eq ▸ first⟩

/-- Idle files that are added leave the pairs as they were. -/
lemma paired_added_iff (hlisting : listing.Perm (files ++ added))
    (idle : ∀ file ∈ added, Idle path listing file) :
    Paired path listing file source ↔ Paired path files file source := by
  constructor
  · intro h
    have file_mem : file ∈ files := by
      rcases List.mem_append.1 (hlisting.mem_iff.1 h.file_mem) with old | new
      · exact old
      · exact absurd h (idle file new).not_paired
    have source_mem : source ∈ files := by
      rcases List.mem_append.1 (hlisting.mem_iff.1 h.source_mem) with old | new
      · exact old
      · exact absurd h (idle source new).not_paired_source
    exact { h with file_mem, source_mem }
  · intro h
    exact h.mono fun _ old => hlisting.mem_iff.2 (List.mem_append_left added old)

/-! ## Another order -/

/-- A directory does not show in what order its files were listed. -/
theorem ofListing_eq_of_perm (path : String) (hnames : (files.map File.name).Nodup)
    (reordered : listing.Perm files) :
    Directory.ofListing path listing = Directory.ofListing path files := by
  have sorted : (Directory.ofListing path listing).files.Perm (Directory.ofListing path files).files :=
    ((perm_files path listing).trans reordered).trans (perm_files path files).symm
  -- files with one name are one file, so the order by name has no ties
  have antisymmetric : ∀ file other, file ∈ (Directory.ofListing path listing).files →
      other ∈ (Directory.ofListing path files).files →
        file.name ≤ other.name → other.name ≤ file.name → file = other := by
    intro file other hfile hother before after
    have hfile := reordered.mem_iff.1 ((perm_files path listing).mem_iff.1 hfile)
    have hother := (perm_files path files).mem_iff.1 hother
    exact List.inj_on_of_nodup_map hnames hfile hother (String.le_antisymm before after)
  have same := sorted.eq_of_pairwise antisymmetric (pairwise_files path listing)
    (pairwise_files path files)
  exact congrArg (Directory.mk path) same

/-! ## The run -/

section Load

variable {disk disk' : Disk}

/-- **Idle files and order do not matter to a run.**  Let idle files be added to a directory, among
the old ones in whatever order: it has the artifacts of a run exactly when it had them before, and
they are the same.  Let its files be listed in another order: the artifacts or the failure are the
same, and so is the log, record by record. -/
theorem load_insensitive (run : String) (hfiles : disk.filesIn path = .ok files)
    (hlisting : disk'.filesIn path = .ok listing) (hnames : (listing.map File.name).Nodup) :
    (∀ added, listing.Perm (files ++ added) → (∀ file ∈ added, Idle path listing file) →
      ∀ artifacts, (Artifacts.load disk' run path).result = .ok artifacts ↔
        (Artifacts.load disk run path).result = .ok artifacts) ∧
    (listing.Perm files → Artifacts.load disk' run path = Artifacts.load disk run path) := by
  constructor
  · intro added hadded idle artifacts
    have distinct : ((files ++ added).map File.name).Nodup :=
      (hadded.map File.name).nodup_iff.1 hnames
    have hnames' : (files.map File.name).Nodup :=
      distinct.sublist ((List.sublist_append_left files added).map File.name)
    have same (file source : File) :
        OnlyProgram path listing file source ↔ OnlyProgram path files file source :=
      onlyProgram_congr fun _ _ => paired_added_iff hadded idle
    simp only [result_load_eq_ok_iff run hlisting hnames, result_load_eq_ok_iff run hfiles hnames',
      same]
  · intro reordered
    have hnames' := (reordered.map File.name).nodup_iff.1 hnames
    rw [load_eq run hlisting, load_eq run hfiles, ofListing_eq_of_perm path hnames' reordered]

/-- A directory to which one file of each idle kind is added, and its files in another order. -/
theorem load_insensitive_four_added :
    let html : File := ⟨"main.ss.html", "title=\"line 1 char 1 count 1\"".toUTF8.data.toList⟩
    let source : File := ⟨"main.ss", "(define MainC-46main 0)".toUTF8.data.toList⟩
    let notes : File := ⟨"notes.txt", "irrelevant".toUTF8.data.toList⟩
    let empty : File := ⟨"main.html", " \n".toUTF8.data.toList⟩
    let other : File := ⟨"other.ss.html", "title=\"line 1 char 1 count 9\"".toUTF8.data.toList⟩
    let unasked : File := ⟨"main", "(define a 0)".toUTF8.data.toList⟩
    let listing := [other, html, unasked, source, notes, empty]
    let disk := Disk.ofAnswers [] [("out", .ok [html, source])]
    let disk' := Disk.ofAnswers [] [("out", .ok listing)]
    let reversed := Disk.ofAnswers [] [("out", .ok listing.reverse)]
    (Artifacts.load disk "unit" "out").result = .ok (artifactsOf "unit" html source) ∧
      (Artifacts.load disk' "unit" "out").result = .ok (artifactsOf "unit" html source) ∧
      Artifacts.load reversed "unit" "out" = Artifacts.load disk' "unit" "out" := by
  intro html source notes empty other unasked listing disk disk' reversed
  have hfiles : disk.filesIn "out" = .ok [html, source] := rfl
  have hlisting : disk'.filesIn "out" = .ok listing := rfl
  have hreversed : reversed.filesIn "out" = .ok listing.reverse := rfl
  have hnames : (listing.map File.name).Nodup := by decide
  have hadded : listing.Perm ([html, source] ++ [notes, empty, other, unasked]) := by decide
  have idle : ∀ file ∈ [notes, empty, other, unasked], Idle "out" listing file := by
    simp only [List.forall_mem_cons]
    refine ⟨.unrecognized ?_ ?_, .blank ?_ ?_, .unpaired ?_ ?_, .unused ?_ ?_, by simp⟩ <;>
      decide +kernel
  have only : OnlyProgram "out" [html, source] html source :=
    .of_forall_mem (by decide +kernel) (by decide +kernel)
  have loaded := (result_load_eq_ok_iff "unit" hfiles (by decide)).2 ⟨html, source, only, rfl⟩
  refine ⟨loaded, ?_, ?_⟩
  · exact ((load_insensitive "unit" hfiles hlisting hnames).1 _ hadded idle _).2 loaded
  · exact (load_insensitive "unit" hlisting hreversed (by decide)).2 (List.reverse_perm listing)

end Load

end BranchCoverage.Run
