import BranchCoverage.Proofs.RuntimeName.Escape

/-!
# Which alphabets the uniform scheme tells apart

A function is found in a profile by its runtime name, so two functions with one runtime name could
not be told apart.  Over an alphabet with all plain characters, the uniform scheme is injective
exactly when the alphabet is unambiguous (`runtimeName_uniform_injOn_iff`): where the escape of `d`
continues that of `c`, the missing digits behind `c` write the runtime name of `d`
(`exists_collision`), and nothing else can collide (`encode_inj`).

Printable ASCII is unambiguous (`unambiguous_printable`).  Its code points have two digits, or three
digits that begin with 10, 11 or 12, and those two-digit numbers are control characters.  The
alphabet of all characters is not: `.2` and `ǎ` have the runtime name `C-462`.
-/

namespace BranchCoverage.RuntimeName

/-- The names whose characters belong to an alphabet. -/
def namesOver (alphabet : Set Char) : Set String :=
  {name | ∀ c ∈ name.toList, c ∈ alphabet}

/-- Printable ASCII: the characters from space to tilde. -/
def printable : Set Char :=
  {c | 0x20 ≤ c.toNat ∧ c.toNat ≤ 0x7E}

@[simp] lemma toList_runtimeName (scheme : Scheme) (name : String) :
    (scheme.runtimeName name).toList = scheme.encodeName name :=
  String.toList_ofList

@[simp] lemma encodeName_uniform (name : String) :
    Scheme.uniform.encodeName name = encode name.toList := rfl

/-! ## Unambiguous alphabets -/

/-- A number that another one begins with, in decimal, is that other one or has fewer digits. -/
lemma eq_or_le_of_decimal_prefix {m n : Nat} (h : Text.decimal m <+: Text.decimal n) :
    m = n ∨ m ≤ n / 10 := by
  induction n using Nat.strong_induction_on with
  | _ n ih =>
    by_cases hn : n < 10
    · have single : Text.decimal n = [n.digitChar] := Nat.toDigits_of_lt_base hn
      have one : (Text.decimal n).length ≤ (Text.decimal m).length := by
        rw [single]
        exact List.length_pos_iff.2 (Text.decimal_ne_nil m)
      exact .inl (Text.decimal_inj.1 (h.eq_of_length_le one))
    · have last : Text.decimal n = Text.decimal (n / 10) ++ [(n % 10).digitChar] :=
        Nat.toDigits_of_base_le (by decide) (by omega)
      rw [last, List.prefix_concat_iff, ← last] at h
      rcases h with same | shorter
      · exact .inl (Text.decimal_inj.1 same)
      · have step := ih (n / 10) (by omega) shorter
        omega

lemma unambiguous_printable : Unambiguous printable := by
  rintro c ⟨hc, hc'⟩ d ⟨hd, hd'⟩ ⟨-, -, hp, different⟩
  rcases eq_or_le_of_decimal_prefix hp with same | fewer
  · exact different (by rw [same])
  · omega

lemma runtimeName_uniform_injOn {alphabet : Set Char} (unambiguous : Unambiguous alphabet) :
    Set.InjOn Scheme.uniform.runtimeName (namesOver alphabet) := by
  intro a ha b hb h
  have texts : encode a.toList = encode b.toList := by
    simpa using congrArg String.toList h
  exact String.toList_injective (encode_inj unambiguous ha hb texts)

/-! ## Collisions -/

/-- Where the escape of `d` continues that of `c`, writing the missing digits behind `c` gives the
runtime name of `d`. -/
lemma exists_collision {c d : Char} (h : Continues c d) :
    ∃ digits : List Char, digits ≠ [] ∧ (∀ digit ∈ digits, isPlain digit = true) ∧
      encode (c :: digits) = encode [d] := by
  obtain ⟨hc, hd, ⟨digits, split⟩, different⟩ := h
  have plain : ∀ digit ∈ digits, isPlain digit = true := by
    intro digit hdigit
    have hmem : digit ∈ Text.decimal d.toNat := by
      rw [← split]
      exact List.mem_append_right _ hdigit
    exact isPlain_of_isDigit (Text.isDigit_of_mem_decimal hmem)
  refine ⟨digits, ?_, plain, ?_⟩
  · rintro rfl
    exact different (by simpa using split)
  · rw [encode_cons, encode_cons, encode_of_plain plain, encodeChar_of_not_isPlain hc,
      encodeChar_of_not_isPlain hd, ← split]
    simp

lemma not_injOn_of_continues {alphabet : Set Char} (plain : ∀ c, isPlain c = true → c ∈ alphabet)
    {c d : Char} (hc : c ∈ alphabet) (hd : d ∈ alphabet) (h : Continues c d) :
    ¬ Set.InjOn Scheme.uniform.runtimeName (namesOver alphabet) := by
  obtain ⟨digits, nonempty, digitsPlain, collide⟩ := exists_collision h
  intro injective
  have longer : String.ofList (c :: digits) ∈ namesOver alphabet := by
    intro x hx
    rw [String.toList_ofList] at hx
    rcases List.mem_cons.1 hx with rfl | hx
    · exact hc
    · exact plain x (digitsPlain x hx)
  have single : String.ofList [d] ∈ namesOver alphabet := by
    intro x hx
    rw [String.toList_ofList, List.mem_singleton] at hx
    exact hx ▸ hd
  have runtime : Scheme.uniform.runtimeName (String.ofList (c :: digits)) =
      Scheme.uniform.runtimeName (String.ofList [d]) := by
    apply String.toList_injective
    simpa using collide
  have texts : c :: digits = [d] := by
    simpa using congrArg String.toList (injective longer single runtime)
  exact nonempty (List.cons.inj texts).2

/-- **Exactly the unambiguous alphabets are told apart.**  Over an alphabet with all plain
characters, names have runtime names of their own exactly when no decimal code point of an escaped
character is a proper prefix of another's; over printable ASCII they do. -/
theorem runtimeName_uniform_injOn_iff :
    (∀ alphabet : Set Char, (∀ c, isPlain c = true → c ∈ alphabet) →
      (Set.InjOn Scheme.uniform.runtimeName (namesOver alphabet) ↔
        ¬ ∃ c ∈ alphabet, ∃ d ∈ alphabet, Continues c d)) ∧
      Set.InjOn Scheme.uniform.runtimeName (namesOver printable) := by
  refine ⟨fun alphabet plain => ?_, runtimeName_uniform_injOn unambiguous_printable⟩
  constructor
  · rintro injective ⟨c, hc, d, hd, h⟩
    exact not_injOn_of_continues plain hc hd h injective
  · intro none
    apply runtimeName_uniform_injOn
    intro c hc d hd h
    exact none ⟨c, hc, d, hd, h⟩

/-- With a dot and a caron `a` beside the plain characters, two names collide. -/
theorem runtimeName_uniform_not_injOn_dot_caron :
    ¬ Set.InjOn Scheme.uniform.runtimeName
      (namesOver {c | isPlain c = true ∨ c = '.' ∨ c = 'ǎ'}) := by
  intro injective
  have continues : Continues '.' 'ǎ' := by
    refine ⟨by decide, by decide, by decide +kernel, by decide +kernel⟩
  exact (runtimeName_uniform_injOn_iff.1 _ fun c hc => .inl hc).1 injective
    ⟨'.', .inr (.inl rfl), 'ǎ', .inr (.inr rfl), continues⟩

end BranchCoverage.RuntimeName
