import BranchCoverage.Proofs.Name
import BranchCoverage.Proofs.RuntimeName.Injective
import BranchCoverage.Proofs.Text.Search

/-!
# Hyphens between the parts of a name

The namespace-hyphen scheme takes a name apart at its dots and puts the encodings of the parts
together with hyphens (`runtimeName_namespaceHyphen`).  The scheme itself treats the module and the
function name apart; that the two together are all parts of the name is a matter of the last dot,
and fails for `.f`, whose first part is empty and whose runtime name is that of `f`.

A hyphen is also the second character of every escape, so a `C` at the end of a part and the hyphen
behind it look like one.  They are told apart by the next character, which is a digit in an escape,
and the first character of an encoding that is no digit in front of a part that begins with none
(`not_opensEscape_hyphened`).  Where every part has such a beginning, the parts can be read back one
after the other (`hyphened_inj`), so names over an unambiguous alphabet have runtime names of their
own.  Otherwise they do not: `C.43` and `+` have the runtime name `C-43`.
-/

namespace BranchCoverage

/-! ## The parts of a name -/

/-- The parts of a name between its dots. -/
def Name.parts (name : String) : List String :=
  (name.toList.splitOn '.').map String.ofList

namespace RuntimeName

/-- Pieces that each end in a separator, and a last one, are pieces with separators between. -/
lemma flatMap_append_eq_intercalate {α : Type} (sep last : List α) (pieces : List (List α)) :
    (pieces.flatMap fun piece => piece ++ sep) ++ last = sep.intercalate (pieces ++ [last]) := by
  induction pieces with
  | nil => simp
  | cons piece pieces ih =>
    rw [List.flatMap_cons, List.append_assoc, ih, List.cons_append,
      List.intercalate_cons_of_ne_nil (List.append_ne_nil_of_right_ne_nil pieces (by simp))]

/-- Without an empty part, a name is encoded part by part. -/
lemma encodeName_namespaceHyphen {name : String} (h : [] ∉ name.toList.splitOn '.') :
    Scheme.namespaceHyphen.encodeName name =
      ['-'].intercalate ((name.toList.splitOn '.').map encode) := by
  rw [Scheme.encodeName, Name.moduleName, Name.functionName, Name.split]
  cases found : Text.splitAtLast? '.' name.toList with
  | none =>
    rw [List.splitOn_eq_singleton (Text.splitAtLast?_eq_none_iff.1 found)]
    simp [Scheme.hyphenated]
  | some parts =>
    obtain ⟨before, behind⟩ := parts
    obtain ⟨whole, last⟩ := Text.splitAtLast?_eq_some_iff.1 found
    have pieces : name.toList.splitOn '.' = before.splitOn '.' ++ [behind] := by
      rw [whole, ← List.splitOn_eq_singleton last]
      exact List.splitOnP_append_cons before behind (beq_self_eq_true '.')
    have named : (String.ofList before).isEmpty = false := by
      rw [Bool.eq_false_iff, ne_eq, String.isEmpty_iff, String.ofList_eq_empty_iff]
      rintro rfl
      exact h (by simp [pieces])
    rw [pieces, List.map_append, List.map_singleton, ← flatMap_append_eq_intercalate,
      List.flatMap_map, ← Text.segments_eq_splitOn]
    simp [Scheme.hyphenated, named]

/-- Without an empty part, the runtime name has the runtime names of the parts, in the uniform
scheme, with hyphens between. -/
theorem runtimeName_namespaceHyphen {name : String} (h : "" ∉ Name.parts name) :
    Scheme.namespaceHyphen.runtimeName name =
      "-".intercalate ((Name.parts name).map Scheme.uniform.runtimeName) := by
  have nonempty : [] ∉ name.toList.splitOn '.' := by
    intro empty
    exact h (List.mem_map_of_mem empty)
  apply String.toList_injective
  rw [toList_runtimeName, encodeName_namespaceHyphen nonempty, String.toList_intercalate,
    Name.parts, List.map_map, List.map_map]
  congr 1
  apply List.map_congr_left
  intro part _
  simp

/-! ## Reading the parts back -/

/-- A text that does not begin with a digit, and begins with something. -/
def BeginsWithoutDigit (text : List Char) : Prop :=
  ∃ first, text.head? = some first ∧ first.isDigit = false

/-- The encodings of parts, each behind a hyphen. -/
def hyphened (parts : List (List Char)) : List Char :=
  parts.flatMap fun part => '-' :: encode part

lemma hyphened_cons (part : List Char) (parts : List (List Char)) :
    hyphened (part :: parts) = '-' :: (encode part ++ hyphened parts) := rfl

/-- Parts with hyphens between them are the first part and the others, each behind a hyphen. -/
lemma intercalate_encode_cons (part : List Char) (parts : List (List Char)) :
    ['-'].intercalate ((part :: parts).map encode) = encode part ++ hyphened parts := by
  have joined := Text.join_cons ['-'] (encode part) (parts.map encode)
  rwa [List.flatMap_map] at joined

lemma head?_hyphened {parts : List (List Char)} {c : Char} (h : c ∈ (hyphened parts).head?) :
    c = '-' := by
  cases parts with
  | nil => cases h
  | cons part parts => simpa [hyphened_cons, eq_comm] using h

/-- No part is taken for the digits of an escape. -/
lemma not_opensEscape_hyphened {parts : List (List Char)}
    (h : ∀ part ∈ parts, BeginsWithoutDigit part) : ¬ OpensEscape (hyphened parts) := by
  cases parts with
  | nil => exact not_opensEscape_encode []
  | cons part parts =>
    obtain ⟨first, begins, letter⟩ := h part List.mem_cons_self
    obtain ⟨others, rfl⟩ := List.head?_eq_some_iff.1 begins
    rintro ⟨digit, rest, same, isDigit⟩
    have behind : encode (first :: others) ++ hyphened parts = digit :: rest :=
      (List.cons.inj same).2
    have here := head?_encode_cons_append first others (hyphened parts)
    rw [behind] at here
    rw [eq_of_isDigit isDigit (Option.some.inj here).symm, isDigit] at letter
    cases letter

/-- **Reading parts.**  Parts over an unambiguous alphabet, none of which begins with a digit, can
be read back from what is written for them. -/
theorem hyphened_inj {alphabet : Set Char} (unambiguous : Unambiguous alphabet)
    {parts others : List (List Char)}
    (hparts : ∀ part ∈ parts, (∀ c ∈ part, c ∈ alphabet) ∧ BeginsWithoutDigit part)
    (hothers : ∀ part ∈ others, (∀ c ∈ part, c ∈ alphabet) ∧ BeginsWithoutDigit part)
    (h : hyphened parts = hyphened others) : parts = others := by
  induction parts generalizing others with
  | nil =>
    cases others with
    | nil => rfl
    | cons other others => cases h
  | cons part parts ih =>
    cases others with
    | nil => cases h
    | cons other others =>
      obtain ⟨⟨hpart, -⟩, later⟩ := List.forall_mem_cons.1 hparts
      obtain ⟨⟨hother, -⟩, later'⟩ := List.forall_mem_cons.1 hothers
      obtain ⟨rfl, rest⟩ := encode_append_inj unambiguous hpart hother
        (fun _ => head?_hyphened) (fun _ => head?_hyphened)
        (not_opensEscape_hyphened fun part hmem => (later part hmem).2)
        (not_opensEscape_hyphened fun part hmem => (later' part hmem).2) (List.cons.inj h).2
      rw [ih later later' rest]

/-- The names over an alphabet of which no part is empty or begins with a digit. -/
def ordinaryNames (alphabet : Set Char) : Set String :=
  {name | name ∈ namesOver alphabet ∧ ∀ part ∈ Name.parts name, BeginsWithoutDigit part.toList}

/-- The characters of a part are characters of the name. -/
lemma mem_of_mem_part {name part : List Char} (hpart : part ∈ name.splitOn '.') {c : Char}
    (hc : c ∈ part) : c ∈ name := by
  have whole : ['.'].intercalate (name.splitOn '.') = name := List.intercalate_splitOn '.'
  obtain ⟨first, others, pieces⟩ := List.exists_cons_of_ne_nil (List.splitOn_ne_nil '.' name)
  rw [pieces] at hpart whole
  have joined : first ++ others.flatMap (['.'] ++ ·) = name :=
    (Text.join_cons ['.'] first others).symm.trans whole
  rw [← joined, List.mem_append, List.mem_flatMap]
  rcases List.mem_cons.1 hpart with rfl | hpart
  · exact .inl hc
  · exact .inr ⟨part, hpart, List.mem_append_right _ hc⟩

section Ordinary

variable {alphabet : Set Char} {name : String}

lemma part_of_mem_ordinaryNames (h : name ∈ ordinaryNames alphabet) :
    ∀ part ∈ name.toList.splitOn '.', (∀ c ∈ part, c ∈ alphabet) ∧ BeginsWithoutDigit part := by
  intro part hpart
  refine ⟨fun c hc => h.1 c (mem_of_mem_part hpart hc), ?_⟩
  simpa using h.2 (String.ofList part) (List.mem_map_of_mem hpart)

/-- What is written for the parts of an ordinary name is its runtime name, behind a hyphen. -/
lemma hyphened_parts (h : name ∈ ordinaryNames alphabet) :
    hyphened (name.toList.splitOn '.') = '-' :: Scheme.namespaceHyphen.encodeName name := by
  have nonempty : [] ∉ name.toList.splitOn '.' := by
    intro empty
    obtain ⟨-, first, begins, -⟩ := part_of_mem_ordinaryNames h [] empty
    cases begins
  rw [encodeName_namespaceHyphen nonempty]
  obtain ⟨first, others, pieces⟩ :=
    List.exists_cons_of_ne_nil (List.splitOn_ne_nil '.' name.toList)
  rw [pieces, intercalate_encode_cons, hyphened_cons]

lemma runtimeName_namespaceHyphen_inj (unambiguous : Unambiguous alphabet) :
    Set.InjOn Scheme.namespaceHyphen.runtimeName (ordinaryNames alphabet) := by
  intro a ha b hb h
  have written : hyphened (a.toList.splitOn '.') = hyphened (b.toList.splitOn '.') := by
    rw [hyphened_parts ha, hyphened_parts hb, ← toList_runtimeName, ← toList_runtimeName, h]
  have parts := hyphened_inj unambiguous (part_of_mem_ordinaryNames ha)
    (part_of_mem_ordinaryNames hb) written
  apply String.toList_injective
  calc a.toList = ['.'].intercalate (a.toList.splitOn '.') := (List.intercalate_splitOn '.').symm
    _ = ['.'].intercalate (b.toList.splitOn '.') := by rw [parts]
    _ = b.toList := List.intercalate_splitOn '.'

end Ordinary

/-- **The namespace-hyphen scheme tells ordinary names apart.**  A name without an empty part has
the uniform runtime names of its parts for its runtime name, with hyphens between; and printable
names none of whose parts is empty or begins with a digit have runtime names of their own. -/
theorem runtimeName_namespaceHyphen_injOn :
    (∀ name, "" ∉ Name.parts name → Scheme.namespaceHyphen.runtimeName name =
      "-".intercalate ((Name.parts name).map Scheme.uniform.runtimeName)) ∧
    Set.InjOn Scheme.namespaceHyphen.runtimeName (ordinaryNames printable) :=
  ⟨fun _ => runtimeName_namespaceHyphen, runtimeName_namespaceHyphen_inj unambiguous_printable⟩

/-- Two parts that end in `C`, and one that is an escape. -/
theorem runtimeName_namespaceHyphen_injOn_letters_and_sign :
    Scheme.namespaceHyphen.runtimeName "C.C.+" = "C-C-C-43" ∧
    ∀ name ∈ ordinaryNames printable,
      Scheme.namespaceHyphen.runtimeName name = "C-C-C-43" → name = "C.C.+" := by
  have parts : Name.parts "C.C.+" = ["C", "C", "+"] := by decide +kernel
  have written : Scheme.namespaceHyphen.runtimeName "C.C.+" = "C-C-C-43" := by
    rw [runtimeName_namespaceHyphen_injOn.1 "C.C.+" (by simp [parts]), parts]
    decide +kernel
  have ordinary : "C.C.+" ∈ ordinaryNames printable := by
    refine ⟨by simp [namesOver, printable], ?_⟩
    simp [parts, BeginsWithoutDigit]
  refine ⟨written, fun name hname same => ?_⟩
  exact runtimeName_namespaceHyphen_injOn.2 hname ordinary (same.trans written.symm)

/-- A part that begins with a digit is taken for the digits of an escape. -/
example : Scheme.namespaceHyphen.runtimeName "C.43" = Scheme.namespaceHyphen.runtimeName "+" := by
  decide +kernel

/-- An empty part in front is not written. -/
example : Scheme.namespaceHyphen.runtimeName ".f" = Scheme.namespaceHyphen.runtimeName "f" := by
  decide +kernel

end RuntimeName

end BranchCoverage
