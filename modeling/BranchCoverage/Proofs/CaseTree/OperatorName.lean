import BranchCoverage.Proofs.CaseTree.Scan
import BranchCoverage.Proofs.Name

/-!
# Names that hold the separator

The sign that separates a name from its body is also a letter of operators.  The rule of the
definition line lets a name *end* in equals signs: the first run of them belongs to the name when
another one follows behind blanks, and gives away its last sign when none does.  So a name comes
through whole if all its signs stand at its end, whatever blanks are in front of the separator
(`ofLine?_of_signsLast`).

A name with another symbol behind a sign does not.  The run in front of that symbol is the first
one, its last sign is taken for the separator, and the rest of the name for a part of the body
(`nameAndBody?_of_symbol`): `==`, `/=` and `>>=` come through, `=<<`, `<=>` and `>=>` are read as
the empty name, `<` and `>`.  `readsAs_operatorLine` states both halves for the operators of a
module.
-/

namespace BranchCoverage.CaseTree

open Text

/-! ## Equals signs at the end of a name -/

/-- All equals signs of a name stand at its end. -/
def SignsLast (name : List Char) : Prop :=
  ∃ stem count, '=' ∉ stem ∧ name = stem ++ List.replicate count '='

/-- A name has all its equals signs at its end, or another symbol behind the first run of them. -/
lemma signsLast_or_symbol (name : List Char) :
    SignsLast name ∨ ∃ stem count symbol more, '=' ∉ stem ∧ symbol ≠ '=' ∧
      name = stem ++ (List.replicate (count + 1) '=' ++ symbol :: more) := by
  induction name with
  | nil => exact .inl ⟨[], 0, by simp, rfl⟩
  | cons c name ih =>
    by_cases hc : c = '='
    · -- what stands behind a sign goes on with its run, or ends it
      subst hc
      rcases ih with ⟨stem, count, hstem, rfl⟩ | ⟨stem, count, symbol, more, hstem, hsymbol, rfl⟩
      · cases stem with
        | nil => exact .inl ⟨[], count + 1, by simp, rfl⟩
        | cons first stem =>
          have unlike := (List.ne_and_not_mem_of_not_mem_cons hstem).1
          exact .inr ⟨[], 0, first, _, by simp, unlike.symm, rfl⟩
      · cases stem with
        | nil => exact .inr ⟨[], count + 1, symbol, more, by simp, hsymbol, rfl⟩
        | cons first stem =>
          have unlike := (List.ne_and_not_mem_of_not_mem_cons hstem).1
          exact .inr ⟨[], 0, first, _, by simp, unlike.symm, rfl⟩
    · have unsigned : ∀ stem : List Char, '=' ∉ stem → '=' ∉ c :: stem := fun stem hstem =>
        List.not_mem_cons_of_ne_of_not_mem (Ne.symm hc) hstem
      rcases ih with ⟨stem, count, hstem, rfl⟩ | ⟨stem, count, symbol, more, hstem, hsymbol, rfl⟩
      · exact .inl ⟨c :: stem, count, unsigned stem hstem, rfl⟩
      · exact .inr ⟨c :: stem, count, symbol, more, unsigned stem hstem, hsymbol, rfl⟩

section Separator

variable {stem name front blanks body line : List Char}

lemma ofLine?_of_nameAndBody? (hname : name ≠ [])
    (separated : nameAndBody? line = some (front, body)) (trimmed : trim front = name) :
    Function.ofLine? line = some (Function.ofBody (String.ofList name) body) := by
  rw [Function.ofLine?, separated]
  simp only [trimmed]

lemma trimStart_ne_sign (h : (trimStart body).head? ≠ some '=') : body.head? ≠ some '=' := by
  intro first
  obtain ⟨others, rfl⟩ := List.head?_eq_some_iff.1 first
  exact h rfl

/-- In front of the separator, the signs at the end of a name stay with the name; blanks between the
two may stay as well. -/
lemma nameAndBody?_of_signs (hstem : '=' ∉ stem) (count : Nat)
    (hblanks : isBlankText blanks = true) (hbody : (trimStart body).head? ≠ some '=') :
    ∃ behind, isBlankText behind = true ∧
      nameAndBody? (stem ++ (List.replicate count '=' ++ (blanks ++ '=' :: body))) =
        some (stem ++ List.replicate count '=' ++ behind, body) := by
  cases count with
  | zero =>
    have unsigned : '=' ∉ stem ++ blanks := by
      simp [hstem, notMem_of_isBlankText hblanks]
    refine ⟨blanks, hblanks, ?_⟩
    simpa using nameAndBody?_sign unsigned hbody
  | succ count =>
    refine ⟨[], rfl, ?_⟩
    rw [List.append_nil]
    cases blanks with
    | nil =>
      -- the separator is the last sign of one run with those of the name
      have signs : List.replicate (count + 1) '=' ++ ([] ++ '=' :: body) =
          List.replicate (count + 1 + 1) '=' ++ body := by
        simp [List.replicate_succ' (n := count + 1)]
      rw [signs, nameAndBody?_run hstem (count + 1) (trimStart_ne_sign hbody)]
      split
      · rename_i others hothers
        exact absurd (congrArg List.head? hothers) hbody
      · rfl
    | cons blank blanks =>
      have behindRun : (blank :: blanks ++ '=' :: body).head? ≠ some '=' := by
        intro first
        obtain rfl : blank = '=' := by simpa using first
        exact notMem_of_isBlankText hblanks List.mem_cons_self
      rw [nameAndBody?_run hstem count behindRun, trimStart_append_of_isBlankText hblanks]
      rfl

/-- **Signs at the end of a name are part of it.**  A name that neither begins nor ends with a
blank, and has all its equals signs at its end, is the name that is read, with any blanks in front
of the separator. -/
theorem ofLine?_of_signsLast (hsigns : SignsLast name) (hname : name ≠ [])
    (hfirst : ∀ c ∈ name.head?, isBlank c = false) (hlast : ∀ c ∈ name.getLast?, isBlank c = false)
    (hblanks : isBlankText blanks = true) (hbody : (trimStart body).head? ≠ some '=') :
    Function.ofLine? (name ++ (blanks ++ '=' :: body)) =
      some (Function.ofBody (String.ofList name) body) := by
  obtain ⟨stem, count, hstem, rfl⟩ := hsigns
  obtain ⟨behind, hbehind, separated⟩ := nameAndBody?_of_signs hstem count hblanks hbody
  rw [List.append_assoc]
  exact ofLine?_of_nameAndBody? hname separated (trim_append_of_isBlankText hfirst hlast hbehind)

/-- A symbol behind a run of equals signs makes the last of them the separator. -/
lemma nameAndBody?_of_symbol (hstem : '=' ∉ stem) (count : Nat) {symbol : Char}
    (hsymbol : symbol ≠ '=') (hblank : isBlank symbol = false) (rest : List Char) :
    nameAndBody? (stem ++ (List.replicate (count + 1) '=' ++ symbol :: rest)) =
      some (stem ++ List.replicate count '=', symbol :: rest) := by
  have visible : trimStart (symbol :: rest) = symbol :: rest := by
    apply trimStart_of_head?
    intro c hc
    obtain rfl : symbol = c := by simpa using hc
    exact hblank
  rw [nameAndBody?_run hstem count (by simpa using hsymbol), visible]
  split
  · rename_i others hothers
    exact absurd (List.cons.inj hothers).1 hsymbol
  · rfl

end Separator

/-! ## The operators of a module -/

/-- The characters of operator names. -/
def operatorSymbols : List Char := "!#$%&*+/<=>?@^|-~:".toList

/-- The line of the dump that defines an operator of a module, from its name on. -/
def operatorLine (moduleName operator rest : List Char) : List Char :=
  moduleName ++ '.' :: (operator ++ (" = [".toList ++ rest))

/-- A line is read as a definition of a function of a module. -/
def ReadsAs (line moduleName functionName : List Char) : Prop :=
  ∃ function, Function.ofLine? line = some function ∧
    function.name = String.ofList (moduleName ++ '.' :: functionName) ∧
    function.moduleName = String.ofList moduleName ∧
    function.functionName = String.ofList functionName

section Operator

variable {moduleName functionName operator line body : List Char}

lemma isBlank_of_mem_operatorSymbols {c : Char} (h : c ∈ operatorSymbols) : isBlank c = false := by
  have visible : (operatorSymbols.all fun c => !isBlank c) = true := by decide
  simpa using List.all_eq_true.1 visible c h

lemma operatorSymbols_of_all (h : (operator.all fun c => operatorSymbols.contains c) = true) :
    ∀ c ∈ operator, c ∈ operatorSymbols := by
  intro c hc
  simpa using List.all_eq_true.1 h c hc

lemma dot_notMem_of_operatorSymbols (h : ∀ c ∈ operator, c ∈ operatorSymbols) : '.' ∉ operator :=
  fun hmem => absurd (h _ hmem) (by decide)

lemma readsAs_of_ofLine? (hdot : '.' ∉ functionName)
    (h : Function.ofLine? line =
      some (Function.ofBody (String.ofList (moduleName ++ '.' :: functionName)) body)) :
    ReadsAs line moduleName functionName := by
  have parts := Name.split_qualified moduleName hdot
  exact ⟨_, h, rfl, congrArg Prod.fst parts, congrArg Prod.snd parts⟩

/-- One line is not read as two functions of a module. -/
lemma ReadsAs.functionName_unique (h : ReadsAs line moduleName functionName)
    (h' : ReadsAs line moduleName operator) : functionName = operator := by
  obtain ⟨function, read, named, -⟩ := h
  obtain ⟨_, read', named', -⟩ := h'
  obtain rfl := Option.some.inj (read.symm.trans read')
  have texts : moduleName ++ '.' :: functionName = moduleName ++ '.' :: operator := by
    simpa using congrArg String.toList (named.symm.trans named')
  simpa using texts

/-- The name of an operator in a module neither begins nor ends with a blank. -/
lemma qualified_visible (hmodule : ∀ c ∈ moduleName, isBlank c = false ∧ c ≠ '=')
    (hoperator : ∀ c ∈ operator, c ∈ operatorSymbols) :
    (∀ c ∈ (moduleName ++ '.' :: operator).head?, isBlank c = false) ∧
      ∀ c ∈ (moduleName ++ '.' :: operator).getLast?, isBlank c = false := by
  have visible : ∀ c ∈ moduleName ++ '.' :: operator, isBlank c = false := by
    intro c hc
    rcases List.mem_append.1 hc with hc | hc
    · exact (hmodule c hc).1
    · rcases List.mem_cons.1 hc with rfl | hc
      · rfl
      · exact isBlank_of_mem_operatorSymbols (hoperator c hc)
  exact ⟨fun c hc => visible c (List.mem_of_mem_head? hc),
    fun c hc => visible c (List.mem_of_mem_getLast? hc)⟩

lemma qualified_unsigned {stem : List Char}
    (hmodule : ∀ c ∈ moduleName, isBlank c = false ∧ c ≠ '=') (hstem : '=' ∉ stem) :
    '=' ∉ moduleName ++ '.' :: stem := by
  have unsigned : '=' ∉ moduleName := fun hmem => (hmodule _ hmem).2 rfl
  simp [unsigned, hstem]

/-- An operator with all its equals signs at its end is read whole. -/
lemma readsAs_of_signsLast (hmodule : ∀ c ∈ moduleName, isBlank c = false ∧ c ≠ '=')
    (hoperator : ∀ c ∈ operator, c ∈ operatorSymbols) (hsigns : SignsLast operator)
    (rest : List Char) : ReadsAs (operatorLine moduleName operator rest) moduleName operator := by
  obtain ⟨hfirst, hlast⟩ := qualified_visible hmodule hoperator
  have signs : SignsLast (moduleName ++ '.' :: operator) := by
    obtain ⟨stem, count, hstem, rfl⟩ := hsigns
    exact ⟨moduleName ++ '.' :: stem, count, qualified_unsigned hmodule hstem, by simp⟩
  have separated : isBlankText [' '] = true := rfl
  have unsigned : (trimStart (' ' :: '[' :: rest)).head? ≠ some '=' := by
    simp [trimStart, isBlank, blankRanges]
  have read := ofLine?_of_signsLast signs (by simp) hfirst hlast separated unsigned
  have line_eq : operatorLine moduleName operator rest =
      moduleName ++ '.' :: operator ++ ([' '] ++ '=' :: ' ' :: '[' :: rest) := by
    simp [operatorLine]
  rw [line_eq]
  exact readsAs_of_ofLine? (dot_notMem_of_operatorSymbols hoperator) read

/-- An operator with another symbol behind its first run of equals signs is read up to the last sign
of that run. -/
lemma readsAs_of_symbol {stem more : List Char} {count : Nat} {symbol : Char}
    (hmodule : ∀ c ∈ moduleName, isBlank c = false ∧ c ≠ '=')
    (hoperator : ∀ c ∈ operator, c ∈ operatorSymbols) (hstem : '=' ∉ stem) (hsymbol : symbol ≠ '=')
    (hsplit : operator = stem ++ (List.replicate (count + 1) '=' ++ symbol :: more))
    (rest : List Char) :
    ReadsAs (operatorLine moduleName operator rest) moduleName
      (stem ++ List.replicate count '=') := by
  have kept : ∀ c ∈ stem ++ List.replicate count '=', c ∈ operatorSymbols := by
    intro c hc
    rcases List.mem_append.1 hc with hc | hc
    · exact hoperator c (by simp [hsplit, hc])
    · rw [List.eq_of_mem_replicate hc]
      decide
  have hblank : isBlank symbol = false :=
    isBlank_of_mem_operatorSymbols (hoperator symbol (by simp [hsplit]))
  have separated := nameAndBody?_of_symbol (qualified_unsigned hmodule hstem) count hsymbol hblank
    (more ++ (" = [".toList ++ rest))
  obtain ⟨hfirst, hlast⟩ := qualified_visible hmodule kept
  have unspaced : isBlankText [] = true := rfl
  have trimmed := trim_append_of_isBlankText hfirst hlast unspaced
  rw [List.append_nil] at trimmed
  have line_eq : operatorLine moduleName operator rest = moduleName ++ '.' :: stem ++
      (List.replicate (count + 1) '=' ++ symbol :: (more ++ (" = [".toList ++ rest))) := by
    simp [operatorLine, hsplit]
  rw [line_eq]
  refine readsAs_of_ofLine? (dot_notMem_of_operatorSymbols kept)
    (ofLine?_of_nameAndBody? (by simp) separated ?_)
  simpa using trimmed

/-- **Which operator names come through.**  The operator of a module that a line defines is read
with its name exactly when all equals signs of the name stand at its end.  Any other operator has a
symbol behind its first run of equals signs, and is read up to the last sign of that run. -/
theorem readsAs_operatorLine (hmodule : ∀ c ∈ moduleName, isBlank c = false ∧ c ≠ '=')
    (hoperator : ∀ c ∈ operator, c ∈ operatorSymbols) (rest : List Char) :
    (ReadsAs (operatorLine moduleName operator rest) moduleName operator ↔ SignsLast operator) ∧
    ∀ (stem more : List Char) (count : Nat) (symbol : Char), '=' ∉ stem → symbol ≠ '=' →
      operator = stem ++ (List.replicate (count + 1) '=' ++ symbol :: more) →
      ReadsAs (operatorLine moduleName operator rest) moduleName
        (stem ++ List.replicate count '=') := by
  refine ⟨⟨fun whole => ?_, fun signs => readsAs_of_signsLast hmodule hoperator signs rest⟩, ?_⟩
  · rcases signsLast_or_symbol operator with
      signs | ⟨stem, count, symbol, more, hstem, hsymbol, split⟩
    · exact signs
    · have cut := readsAs_of_symbol hmodule hoperator hstem hsymbol split rest
      have lengths := congrArg List.length (split.symm.trans (whole.functionName_unique cut))
      simp at lengths
      omega
  · intro stem more count symbol hstem hsymbol split
    exact readsAs_of_symbol hmodule hoperator hstem hsymbol split rest

/-- Two equals signs at the end of a name come through, and one in the middle of a name does not. -/
theorem readsAs_operatorLine_equals_and_arrow :
    ReadsAs (operatorLine "Prelude.EqOrd".toList "==".toList "] 1".toList) "Prelude.EqOrd".toList
      "==".toList ∧
    ReadsAs (operatorLine "Main".toList ">==>".toList "] 1".toList) "Main".toList ">=".toList := by
  have eqOrd : ∀ c ∈ "Prelude.EqOrd".toList, isBlank c = false ∧ c ≠ '=' := by
    simp [isBlank, blankRanges]
  have main : ∀ c ∈ "Main".toList, isBlank c = false ∧ c ≠ '=' := by simp [isBlank, blankRanges]
  have equals : ∀ c ∈ "==".toList, c ∈ operatorSymbols := operatorSymbols_of_all (by decide)
  have arrow : ∀ c ∈ ">==>".toList, c ∈ operatorSymbols := operatorSymbols_of_all (by decide)
  refine ⟨(readsAs_operatorLine eqOrd equals _).1.2 ⟨[], 2, by decide, rfl⟩, ?_⟩
  exact (readsAs_operatorLine main arrow _).2 ">".toList [] 1 '>' (by decide) (by decide) rfl

/-- Not every operator of a module is read with its name: `=<<` is read with the empty name. -/
theorem not_forall_readsAs_operatorLine :
    ¬ ∀ moduleName operator rest : List Char,
      (∀ c ∈ moduleName, isBlank c = false ∧ c ≠ '=') → operator ≠ [] →
      (∀ c ∈ operator, c ∈ operatorSymbols) →
      ReadsAs (operatorLine moduleName operator rest) moduleName operator := by
  intro all
  have main : ∀ c ∈ "Main".toList, isBlank c = false ∧ c ≠ '=' := by simp [isBlank, blankRanges]
  obtain ⟨function, read, named, -⟩ := all "Main".toList "=<<".toList "] 1".toList main (by decide)
    (operatorSymbols_of_all (by decide))
  have nameless : (Function.ofLine? (operatorLine "Main".toList "=<<".toList "] 1".toList)).map
      Function.name = some "Main." := by decide +kernel
  rw [read, Option.map_some, named] at nameless
  exact absurd nameless (by decide +kernel)

end Operator

end BranchCoverage.CaseTree
