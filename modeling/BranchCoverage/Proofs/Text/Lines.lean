import BranchCoverage.Proofs.Text.Search
import BranchCoverage.Text.Blank
import BranchCoverage.Text.Line

/-!
# Lines of texts put together

A line feed separates completely: the lines of a text that holds one are those in front of it and
those behind it (`lines_append_cons`), whatever the two parts are.  The part in front has to keep
its line feed for that, because only a line feed makes the carriage return before it a part of the
line end.

A text can be put together from lines in two ways.  With a line feed behind each of them it is
`terminated`; with one between any two of them the last line is left open, which is how every text
is made of its pieces.

In a text without carriage returns it does not matter whether lines end in line feeds alone or have
carriage returns before them (`lines_crlf`).
-/

namespace BranchCoverage.Text

variable {line : List Char}

/-! ## In front of a line feed and behind it -/

lemma lines_lineFeed_cons (before behind : List Char) :
    lines (before ++ '\n' :: behind) =
      (segments '\n' before).map dropCarriageReturn ++ lines behind := by
  have nonempty := segments_ne_nil '\n' behind
  unfold lines
  simp only [segments_append_cons]
  rw [List.dropLast_append_of_ne_nil nonempty, List.getLast?_append_of_ne_nil _ nonempty,
    List.map_append, List.append_assoc]

/-- The pieces of a text are its lines, once the last of them is ended too. -/
lemma lines_lineFeed_end (text : List Char) :
    lines (text ++ ['\n']) = (segments '\n' text).map dropCarriageReturn := by
  rw [lines_lineFeed_cons, lines_nil, List.append_nil]

/-- **A line feed separates completely.** -/
theorem lines_append_cons (before behind : List Char) :
    lines (before ++ '\n' :: behind) = lines (before ++ ['\n']) ++ lines behind := by
  rw [lines_lineFeed_cons, lines_lineFeed_end]

lemma length_lines_lineFeed_end (text : List Char) :
    (lines (text ++ ['\n'])).length = text.count '\n' + 1 := by
  rw [lines_lineFeed_end, List.length_map, length_segments]

lemma segments_of_notMem {sep : Char} (h : sep ∉ line) : segments sep line = [line] := by
  rw [segments_eq_splitOn, List.splitOn_eq_singleton h]

/-- A text without a line feed is one line, once it is ended. -/
lemma lines_line (h : '\n' ∉ line) : lines (line ++ ['\n']) = [dropCarriageReturn line] := by
  rw [lines_lineFeed_end, segments_of_notMem h, List.map_singleton]

/-! ## Texts made of lines -/

section Strings

variable (line text before behind : String)

lemma toList_lineFeed_end : (text ++ "\n").toList = text.toList ++ ['\n'] := by
  simp

lemma lines_append :
    lines (before ++ "\n" ++ behind).toList =
      lines (before ++ "\n").toList ++ lines behind.toList := by
  have whole : (before ++ "\n" ++ behind).toList = before.toList ++ '\n' :: behind.toList := by
    simp
  rw [whole, toList_lineFeed_end, lines_append_cons]

/-- The text of lines that are all ended by a line feed. -/
def terminated (lines : List String) : String :=
  String.join (lines.map (· ++ "\n"))

lemma terminated_cons (rest : List String) :
    terminated (line :: rest) = line ++ "\n" ++ terminated rest := by
  apply String.toList_injective
  simp [terminated, String.toList_join]

end Strings

/-! ## Carriage returns -/

/-- The text with a carriage return put before every line feed. -/
def crlf (text : List Char) : List Char :=
  text.flatMap fun c => if c = '\n' then ['\r', '\n'] else [c]

lemma crlf_append (text rest : List Char) : crlf (text ++ rest) = crlf text ++ crlf rest :=
  List.flatMap_append

lemma crlf_lineFeed_cons (rest : List Char) : crlf ('\n' :: rest) = '\r' :: '\n' :: crlf rest := rfl

lemma crlf_of_notMem (h : '\n' ∉ line) : crlf line = line := by
  induction line with
  | nil => rfl
  | cons c line ih =>
    obtain ⟨hc, hline⟩ := List.ne_and_not_mem_of_not_mem_cons h
    have single : (if c = '\n' then ['\r', '\n'] else [c]) = [c] := if_neg (Ne.symm hc)
    rw [crlf, List.flatMap_cons, single, ← crlf, ih hline, List.singleton_append]

lemma dropCarriageReturn_of_notMem (h : '\r' ∉ line) : dropCarriageReturn line = line := by
  refine if_neg fun last => ?_
  exact h (List.mem_of_mem_getLast? last)

lemma dropCarriageReturn_append (line : List Char) :
    dropCarriageReturn (line ++ ['\r']) = line := by
  simp [dropCarriageReturn]

/-- The carriage returns of the line ends are no part of the lines.  The induction takes the first
line off the text. -/
theorem lines_crlf {text : List Char} (h : '\r' ∉ text) : lines (crlf text) = lines text := by
  by_cases broken : '\n' ∈ text
  · obtain ⟨line, rest, rfl, unbroken⟩ := List.eq_append_cons_of_mem broken
    obtain ⟨hline, hrest⟩ : '\r' ∉ line ∧ '\r' ∉ rest := by simpa using h
    have ended : '\n' ∉ line ++ ['\r'] := by simp [unbroken]
    have ih : lines (crlf rest) = lines rest := lines_crlf hrest
    rw [crlf_append, crlf_of_notMem unbroken, crlf_lineFeed_cons, List.append_cons,
      lines_append_cons, lines_line ended, dropCarriageReturn_append, ih,
      lines_append_cons line, lines_line unbroken, dropCarriageReturn_of_notMem hline]
  · rw [crlf_of_notMem broken]
termination_by text.length

lemma isBlankText_crlf (text : List Char) : isBlankText (crlf text) = isBlankText text := by
  unfold isBlankText crlf
  rw [List.all_flatMap]
  congr 1
  funext c
  by_cases feed : c = '\n'
  · rw [if_pos feed, feed]
    decide
  · simp [feed]

end BranchCoverage.Text
