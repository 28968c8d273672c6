import BranchCoverage.Proofs.CaseTree.OperatorName

/-!
# Blanks in front of the separator

A dump may set blanks between a name and its separator or leave them out, and the two forms go
through different halves of the rule for definition lines.  Behind `Main./=`, a separator with a
blank in front of it is a second run of equals signs, and the first run belongs to the name; without
the blank it is the last sign of the one run that there is.  Both read the same name and the same
body, and any number of blanks of any kind does (`ofLine?_of_signsLast`).

That the signs of the name stand at its end is needed as well.  Where another character stands
behind the first run, whether a symbol or a blank inside the name, the line is read up to that run
at the latest, so its function has a shorter name (`length_front_le`, `length_name_lt`).
-/

namespace BranchCoverage.CaseTree

open Text

section Separated

variable {stem name rest front blanks body line : List Char} {function : Function}

lemma length_trimStart_le (text : List Char) : (trimStart text).length ≤ text.length :=
  (List.dropWhile_suffix isBlank).length_le

lemma length_trim_le (text : List Char) : (trim text).length ≤ text.length := by
  have front := length_trimStart_le text
  have behind := length_trimStart_le (trimStart text).reverse
  rw [List.length_reverse] at behind
  unfold trim
  rw [List.length_reverse]
  omega

/-- No text in front of a separator goes on behind the first run of equals signs. -/
lemma length_front_le (hstem : '=' ∉ stem) (count : Nat) (hrest : rest.head? ≠ some '=')
    (h : nameAndBody? (stem ++ (List.replicate (count + 1) '=' ++ rest)) = some (front, body)) :
    front.length ≤ stem.length + (count + 1) := by
  rw [nameAndBody?_run hstem count hrest] at h
  split at h
  · obtain ⟨rfl, -⟩ := Prod.mk.inj (Option.some.inj h)
    simp
  · obtain ⟨rfl, -⟩ := Prod.mk.inj (Option.some.inj h)
    simp

/-- A name with another character behind its first run of equals signs is not read whole. -/
lemma length_name_lt {symbol : Char} {more : List Char} (hstem : '=' ∉ stem) (count : Nat)
    (hsymbol : symbol ≠ '=')
    (hname : name = stem ++ (List.replicate (count + 1) '=' ++ symbol :: more))
    (h : Function.ofLine? (name ++ rest) = some function) :
    function.name.toList.length < name.length := by
  obtain ⟨front, body, separated, -, rfl⟩ := Function.ofLine?_eq_some_iff.1 h
  have split : name ++ rest =
      stem ++ (List.replicate (count + 1) '=' ++ symbol :: (more ++ rest)) := by
    simp [hname]
  rw [split] at separated
  have upToRun := length_front_le hstem count (by simpa using hsymbol) separated
  have trimmed := length_trim_le front
  have named : (Function.ofBody (String.ofList (trim front)) body).name.toList = trim front :=
    String.toList_ofList
  have whole : name.length = stem.length + (count + 1) + (more.length + 1) := by
    simp [hname, Nat.add_assoc]
  rw [named]
  omega

/-- **Which names come through, however they are spaced.**  A name that neither begins nor ends with
a blank is the name that is read, with any blanks in front of the separator and any body that does
not begin with an equals sign, exactly if all equals signs of the name stand at its end.  The
function is then that of exactly this body, and does not depend on the blanks. -/
theorem ofLine?_separated_iff (hname : name ≠ [])
    (hfirst : ∀ c ∈ name.head?, isBlank c = false) (hlast : ∀ c ∈ name.getLast?, isBlank c = false)
    (hblanks : isBlankText blanks = true) (hbody : (trimStart body).head? ≠ some '=') :
    ((∃ function, Function.ofLine? (name ++ (blanks ++ '=' :: body)) = some function ∧
        function.name = String.ofList name) ↔ SignsLast name) ∧
    (SignsLast name →
      Function.ofLine? (name ++ (blanks ++ '=' :: body)) =
          some (Function.ofBody (String.ofList name) body) ∧
        ∀ others, isBlankText others = true →
          Function.ofLine? (name ++ (others ++ '=' :: body)) =
            Function.ofLine? (name ++ (blanks ++ '=' :: body))) := by
  have read : SignsLast name → ∀ spaces, isBlankText spaces = true →
      Function.ofLine? (name ++ (spaces ++ '=' :: body)) =
        some (Function.ofBody (String.ofList name) body) := by
    intro signs spaces hspaces
    exact ofLine?_of_signsLast signs hname hfirst hlast hspaces hbody
  refine ⟨⟨?_, fun signs => ⟨_, read signs blanks hblanks, rfl⟩⟩, fun signs => ⟨?_, ?_⟩⟩
  · rintro ⟨function, h, named⟩
    rcases signsLast_or_symbol name with
      signs | ⟨stem, count, symbol, more, hstem, hsymbol, split⟩
    · exact signs
    · have shorter := length_name_lt hstem count hsymbol split h
      rw [named, String.toList_ofList] at shorter
      exact absurd shorter (Nat.lt_irrefl _)
  · exact read signs blanks hblanks
  · intro others hothers
    rw [read signs others hothers, read signs blanks hblanks]

/-- The separator of an operator, glued to it and behind a tab and an ideographic space. -/
theorem ofLine?_separated_iff_glued_and_spaced :
    let body := "[] (%constcase 0 1) x = y".toList
    Function.ofLine? ("Main.==".toList ++ '=' :: body) =
      some (Function.ofBody "Main.==" body) ∧
    Function.ofLine? ("Main.==".toList ++ "\t\u3000".toList ++ '=' :: body) =
      some (Function.ofBody "Main.==" body) := by
  intro body
  have signs : SignsLast "Main.==".toList := ⟨"Main.".toList, 2, by decide, rfl⟩
  have hfirst : ∀ c ∈ "Main.==".toList.head?, isBlank c = false := by simp [isBlank, blankRanges]
  have hlast : ∀ c ∈ "Main.==".toList.getLast?, isBlank c = false := by simp [isBlank, blankRanges]
  have unspaced : isBlankText [] = true := rfl
  have hbody : (trimStart body).head? ≠ some '=' := by decide
  obtain ⟨glued, spaced⟩ :=
    (ofLine?_separated_iff (by decide) hfirst hlast unspaced hbody).2 signs
  refine ⟨glued, ?_⟩
  rw [List.append_assoc]
  exact (spaced "\t\u3000".toList (by decide)).trans glued

end Separated

end BranchCoverage.CaseTree
