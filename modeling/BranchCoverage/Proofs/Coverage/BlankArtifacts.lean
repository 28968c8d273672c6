import BranchCoverage.Proofs.Coverage.Share
import BranchCoverage.Proofs.Run.Pairing

/-!
# Blank artifacts end a measurement

An execution that left nothing behind is not one in which nothing ran, so a blank artifact is a
failure and not a run without hits.  It is the only one: markers and definitions that cannot be read
are skipped, and a function without a definition is unmapped.

Runs are measured one after the other, and the first one with a blank artifact ends the measurement.
Its name is in the failure (`Run.Artifacts.Blamed`, `result_ofArtifacts_eq_error_iff`).  The
annotations of a run are looked at before its definitions; but a directory passes blank annotations
over when it looks for those of a run, so what is loaded from a disk can fail on account of its
definitions only (`Run.Artifacts.annotated_visible`).
-/

namespace BranchCoverage

open CaseTree RuntimeName

/-! ## Blank texts -/

/-- Every character of a text is white space. -/
def Text.Blank (text : String) : Prop :=
  ∀ c ∈ text.toList, isBlank c = true

open Text

instance (text : String) : Decidable (Blank text) :=
  inferInstanceAs (Decidable (∀ c ∈ _, _))

lemma Text.isBlankText_iff {text : String} : isBlankText text.toList = true ↔ Blank text :=
  List.all_eq_true

namespace Profile

variable {annotated definitions : String}

/-- The annotations are blank, or else the definitions are. -/
lemma blankArtifact?_eq_some_iff {kind : Artifact.Kind} :
    blankArtifact? annotated definitions = some kind ↔
      (Blank annotated ∧ kind = .annotations) ∨
        (¬ Blank annotated ∧ Blank definitions ∧ kind = .definitions) := by
  rw [← isBlankText_iff, ← isBlankText_iff, blankArtifact?]
  split_ifs with first second
  · simp only [first, true_and, not_true_eq_false, false_and, or_false, Option.some.injEq]
    exact eq_comm
  · simp only [first, second, Bool.false_eq_true, not_false_eq_true, true_and, false_and, false_or,
      Option.some.injEq]
    exact eq_comm
  · simp [first, second]

lemma blankArtifact?_eq_none_iff :
    blankArtifact? annotated definitions = none ↔ ¬ Blank annotated ∧ ¬ Blank definitions := by
  rw [← isBlankText_iff, ← isBlankText_iff, blankArtifact?]
  split_ifs with first second
  · simp [first]
  · simp [second]
  · simp [first, second]

end Profile

/-! ## What a run is blamed for -/

/-- A blank artifact of a run is reported with the name of the run in front. -/
lemma Failure.message_blank {kind : Artifact.Kind} {behind : String} (run : String)
    (h : "': " ++ (kind.content ++ " is empty") = behind) :
    (blank kind (some run)).message = "Missing artifact: run '" ++ run ++ behind := by
  have whole : (blank kind (some run)).message =
      "Missing artifact: " ++ ("run '" ++ run ++ "': " ++ (kind.content ++ " is empty")) := rfl
  have front : "Missing artifact: run '" = "Missing artifact: " ++ "run '" := by decide +kernel
  rw [whole, front, ← h]
  simp only [String.append_assoc]

namespace Run.Artifacts

variable {run : Artifacts} {analysis : Analysis} {scheme : Scheme} {failure : Failure}

/-- The failure for a run with a blank artifact: its annotations are looked at first. -/
inductive Blamed (run : Artifacts) : Failure → Prop where
  | annotations (blank : Blank run.annotated) :
      Blamed run (.blank .annotations (some run.name))
  | definitions (visible : ¬ Blank run.annotated) (blank : Blank run.definitions) :
      Blamed run (.blank .definitions (some run.name))

lemma result_profile_eq_error_iff :
    run.profile.result = .error failure ↔ ∃ kind,
      Profile.blankArtifact? run.annotated run.definitions = some kind ∧
        failure = .blank kind (some run.name) := by
  rw [profile, Profile.ofArtifacts]
  cases Profile.blankArtifact? run.annotated run.definitions with
  | none => simp
  | some kind => simp [eq_comm]

/-- A run fails only for a blank artifact. -/
lemma result_hits_eq_error_iff :
    (run.hits analysis scheme).result = .error failure ↔ run.Blamed failure := by
  have collected : ∀ profile : Profile, (Hits.collect analysis run.name profile scheme).result =
      .ok (.ofProfile analysis run.name profile scheme) := fun _ => rfl
  rw [Artifacts.hits, Outcome.result_bind_eq_error_iff]
  simp only [collected, reduceCtorEq, and_false, exists_false, or_false,
    result_profile_eq_error_iff, Profile.blankArtifact?_eq_some_iff]
  constructor
  · rintro ⟨_, ⟨first, rfl⟩ | ⟨first, second, rfl⟩, rfl⟩
    · exact .annotations first
    · exact .definitions first second
  · rintro (first | ⟨first, second⟩)
    · exact ⟨_, .inl ⟨first, rfl⟩, rfl⟩
    · exact ⟨_, .inr ⟨first, second, rfl⟩, rfl⟩

/-- A run with nothing blank contributes. -/
lemma exists_result_hits_eq_ok_iff :
    (∃ hits, (run.hits analysis scheme).result = .ok hits) ↔
      ¬ Blank run.annotated ∧ ¬ Blank run.definitions := by
  simp only [result_hits_eq_ok_iff, Profile.blankArtifact?_eq_none_iff, exists_and_left,
    exists_eq, and_true]

/-- A run with a blank artifact is blamed for it. -/
lemma exists_blamed_iff :
    (∃ failure, run.Blamed failure) ↔ Blank run.annotated ∨ Blank run.definitions := by
  constructor
  · rintro ⟨_, blank | ⟨-, blank⟩⟩
    · exact .inl blank
    · exact .inr blank
  · intro blank
    by_cases first : Blank run.annotated
    · exact ⟨_, .annotations first⟩
    · exact ⟨_, .definitions first (blank.resolve_left first)⟩

/-- The artifacts of a directory are those of a pair in it. -/
lemma exists_pair_of_artifacts {directory : Directory} {name : String}
    (h : directory.artifacts name = .ok run) :
    ∃ pair ∈ directory.pairing.pairs,
      run = ⟨name, pair.annotations.text, pair.definitions.text⟩ := by
  rw [Directory.artifacts] at h
  split at h
  · cases h
  · split at h
    · cases h
    · rename_i pair only
      obtain rfl := Except.ok.inj h
      exact ⟨pair, by simp [only], rfl⟩
    · cases h

lemma blank_textFile_iff {file : File} :
    Blank (textFile file).text ↔ isBlankText (Utf8.decodeLossy file.content) = true := by
  rw [← isBlankText_iff, textFile, String.toList_ofList]

/-- Annotations that were loaded from a disk have something in them. -/
lemma annotated_visible {disk : Disk} {name path : String}
    (h : (load disk name path).result = .ok run) : ¬ Blank run.annotated := by
  obtain ⟨files, -, found⟩ := Outcome.result_bind_eq_ok_iff.1 h
  obtain ⟨pair, hpair, rfl⟩ := exists_pair_of_artifacts found
  obtain ⟨file, source, paired, rfl⟩ := exists_paired hpair
  rw [blank_textFile_iff, paired.visible]
  exact Bool.false_ne_true

end Run.Artifacts

/-! ## What ends a measurement -/

namespace Coverage

variable {analysis : Analysis} {scheme : Scheme} {runs : List Run.Artifacts} {failure : Failure}

/-- A list of runs fails in the way of the first one with a blank artifact. -/
lemma result_ofArtifacts_eq_error_iff :
    (ofArtifacts analysis scheme runs).result = .error failure ↔
      ∃ before run after, runs = before ++ run :: after ∧
        (∀ earlier ∈ before, ¬ Blank earlier.annotated ∧ ¬ Blank earlier.definitions) ∧
        run.Blamed failure := by
  rw [ofArtifacts, Outcome.result_bind_eq_error_iff]
  simp only [Outcome.result_pure, reduceCtorEq, and_false, exists_false, or_false,
    Outcome.result_mapM_eq_error_iff, Run.Artifacts.exists_result_hits_eq_ok_iff,
    Run.Artifacts.result_hits_eq_error_iff]

/-- A list of runs fails if there is a blank artifact in it. -/
lemma exists_result_ofArtifacts_eq_error_iff :
    (∃ failure, (ofArtifacts analysis scheme runs).result = .error failure) ↔
      ∃ run ∈ runs, Blank run.annotated ∨ Blank run.definitions := by
  constructor
  · rintro ⟨failure, failed⟩
    obtain ⟨before, run, after, rfl, -, blamed⟩ := result_ofArtifacts_eq_error_iff.1 failed
    have listed : run ∈ before ++ run :: after := by simp
    exact ⟨run, listed, Run.Artifacts.exists_blamed_iff.1 ⟨failure, blamed⟩⟩
  · rintro ⟨run, hrun, blank⟩
    cases measured : (ofArtifacts analysis scheme runs).result with
    | error failure => exact ⟨failure, rfl⟩
    | ok coverage =>
      obtain ⟨usable, -⟩ := result_ofArtifacts_eq_ok_iff.1 measured
      exact absurd blank (not_or.2 (Profile.blankArtifact?_eq_none_iff.1 (usable run hrun)))

/-- **Blank artifacts end a measurement, and nothing else does.**  A list of runs fails exactly if
some run of it has a blank artifact.  The failure is that an artifact is missing, and names the
first such run: for its annotations if they are blank, and otherwise for its definitions.  Runs that
were loaded from a disk have no blank annotations, so it is blank definitions that end their
measurement. -/
theorem blank_artifacts_fatal (analysis : Analysis) (scheme : Scheme) (runs : List Run.Artifacts) :
    ((∃ failure, (ofArtifacts analysis scheme runs).result = .error failure) ↔
      ∃ run ∈ runs, Blank run.annotated ∨ Blank run.definitions) ∧
    (∀ failure, (ofArtifacts analysis scheme runs).result = .error failure ↔
      ∃ before run after, runs = before ++ run :: after ∧
        (∀ earlier ∈ before, ¬ Blank earlier.annotated ∧ ¬ Blank earlier.definitions) ∧
        run.Blamed failure) ∧
    (∀ (run : Run.Artifacts) failure, run.Blamed failure →
      failure.category = .missingArtifact ∧ failure.message =
        if Blank run.annotated then
          "Missing artifact: run '" ++ run.name ++ "': annotated profiler output is empty"
        else "Missing artifact: run '" ++ run.name ++ "': runtime definitions source is empty") ∧
    ((∀ run ∈ runs, ∃ disk name path, (Run.Artifacts.load disk name path).result = .ok run) →
      ((∃ failure, (ofArtifacts analysis scheme runs).result = .error failure) ↔
        ∃ run ∈ runs, Blank run.definitions) ∧
      ∀ failure, (ofArtifacts analysis scheme runs).result = .error failure →
        ∃ run ∈ runs, failure = .blank .definitions (some run.name)) := by
  refine ⟨exists_result_ofArtifacts_eq_error_iff, fun _ => result_ofArtifacts_eq_error_iff, ?_, ?_⟩
  · rintro run failure (first | ⟨first, -⟩)
    · rw [if_pos first]
      exact ⟨rfl, Failure.message_blank run.name (by decide +kernel)⟩
    · rw [if_neg first]
      exact ⟨rfl, Failure.message_blank run.name (by decide +kernel)⟩
  · intro loaded
    have visible : ∀ run ∈ runs, ¬ Blank run.annotated := by
      intro run hrun
      obtain ⟨disk, name, path, found⟩ := loaded run hrun
      exact Run.Artifacts.annotated_visible found
    constructor
    · rw [exists_result_ofArtifacts_eq_error_iff]
      refine exists_congr fun run => and_congr_right fun hrun => ?_
      exact or_iff_right (visible run hrun)
    · intro failure failed
      obtain ⟨before, run, after, rfl, -, blamed⟩ := result_ofArtifacts_eq_error_iff.1 failed
      have listed : run ∈ before ++ run :: after := by simp
      cases blamed with
      | annotations first => exact absurd first (visible run listed)
      | definitions => exact ⟨run, listed, rfl⟩

/-- Two runs that were loaded from a disk, the second one with nothing in its definitions. -/
theorem blank_artifacts_fatal_second_run :
    let html : File := ⟨"main.ss.html", "title=\"line 1 char 1 count 1\"".toUTF8.data.toList⟩
    let source (text : String) : File := ⟨"main.ss", text.toUTF8.data.toList⟩
    let disk := Disk.ofAnswers [] [("out/unit", .ok [html, source "(define MainC-46f 0)"]),
      ("out/props", .ok [html, source " \n"])]
    ∃ unit props, (Run.Artifacts.load disk "unit" "out/unit").result = .ok unit ∧
      (Run.Artifacts.load disk "props" "out/props").result = .ok props ∧
      ∃ failure, (ofArtifacts { functions := [] } .uniform [unit, props]).result =
          .error failure ∧
        failure.message = "Missing artifact: run 'props': runtime definitions source is empty" ∧
        ∃ run ∈ [unit, props], failure = .blank .definitions (some run.name) := by
  intro html source disk
  let unit := Run.artifactsOf "unit" html (source "(define MainC-46f 0)")
  let props := Run.artifactsOf "props" html (source " \n")
  have first : (Run.Artifacts.load disk "unit" "out/unit").result = .ok unit :=
    (Run.result_load_eq_ok_iff "unit" rfl (by decide)).2
      ⟨html, _, .of_forall_mem (by decide +kernel) (by decide +kernel), rfl⟩
  have second : (Run.Artifacts.load disk "props" "out/props").result = .ok props :=
    (Run.result_load_eq_ok_iff "props" rfl (by decide)).2
      ⟨html, _, .of_forall_mem (by decide +kernel) (by decide +kernel), rfl⟩
  have visible : ¬ Blank unit.annotated := Run.Artifacts.annotated_visible first
  have visible' : ¬ Blank props.annotated := Run.Artifacts.annotated_visible second
  have filled : ¬ Blank unit.definitions :=
    Run.Artifacts.blank_textFile_iff.not.2 (by decide +kernel)
  have blank : Blank props.definitions := Run.Artifacts.blank_textFile_iff.2 (by decide +kernel)
  obtain ⟨-, exactly, messages, fromDisk⟩ :=
    blank_artifacts_fatal { functions := [] } .uniform [unit, props]
  have blamed : props.Blamed (.blank .definitions (some "props")) := .definitions visible' blank
  have before : ∀ earlier ∈ [unit], ¬ Blank earlier.annotated ∧ ¬ Blank earlier.definitions :=
    List.forall_mem_singleton.2 ⟨visible, filled⟩
  have failed := (exactly _).2 ⟨[unit], props, [], rfl, before, blamed⟩
  have loaded : ∀ run ∈ [unit, props], ∃ disk name path,
      (Run.Artifacts.load disk name path).result = .ok run := by
    intro run hrun
    rcases List.mem_pair.1 hrun with rfl | rfl
    · exact ⟨disk, _, _, first⟩
    · exact ⟨disk, _, _, second⟩
  refine ⟨unit, props, first, second, _, failed, ?_, (fromDisk loaded).2 _ failed⟩
  rw [(messages props _ blamed).2, if_neg visible']
  decide +kernel

end Coverage

end BranchCoverage
