/-!
# Outcomes with a log

A command tells the user, beside its result, what it skipped and what it could not match.  An
`Outcome` is the result of a computation together with the records that were logged on the way to
it, in order.  A computation that fails keeps the records logged before the failure.

Sequencing two outcomes appends their logs.  The result of a sequence is the sequence of the
results (`result_bind`), so a statement about results never has to look at a log.
-/

namespace BranchCoverage

inductive Level where
  | debug
  | info
  | warning
  deriving DecidableEq, Repr

namespace Level

def label : Level → String
  | debug => "DEBUG"
  | info => "INFO"
  | warning => "WARN"

end Level

structure Record where
  level : Level
  text : String
  deriving DecidableEq, Repr

/-- The result of a computation, whose failures are of type `ε`, and what was logged while it
ran. -/
structure Outcome (ε α : Type) where
  /-- The records, in the order they were logged. -/
  log : List Record
  result : Except ε α

namespace Outcome

variable {ε α β : Type}

def done (value : α) : Outcome ε α :=
  ⟨[], .ok value⟩

def fail (failure : ε) : Outcome ε α :=
  ⟨[], .error failure⟩

/-- Runs `next` on the value of an outcome; a failure ends the computation. -/
def bind (first : Outcome ε α) (next : α → Outcome ε β) : Outcome ε β :=
  match first.result with
  | .ok value => ⟨first.log ++ (next value).log, (next value).result⟩
  | .error failure => ⟨first.log, .error failure⟩

instance : Monad (Outcome ε) where
  pure := done
  bind := bind

theorem id_map (outcome : Outcome ε α) : id <$> outcome = outcome := by
  rcases outcome with ⟨log, failure | value⟩
  · rfl
  · exact congrArg (Outcome.mk · (.ok value)) (List.append_nil log)

theorem bind_assoc {γ : Type} (first : Outcome ε α) (next : α → Outcome ε β)
    (last : β → Outcome ε γ) : first >>= next >>= last = first >>= fun a => next a >>= last := by
  rcases first with ⟨log, failure | value⟩
  · rfl
  · rcases h : next value with ⟨nextLog, failure | nextValue⟩ <;>
      simp [Bind.bind, Outcome.bind, h]

instance : LawfulMonad (Outcome ε) :=
  LawfulMonad.mk' (Outcome ε) id_map (fun _ _ => rfl) bind_assoc

/-- An outcome with its failure, if it is one, seen from outside. -/
def mapFailure {δ : Type} (view : ε → δ) (outcome : Outcome ε α) : Outcome δ α :=
  ⟨outcome.log, outcome.result.mapError view⟩

def ofResult (result : Except ε α) : Outcome ε α :=
  ⟨[], result⟩

/-- The result of a sequence is the sequence of the results. -/
@[simp] theorem result_bind (first : Outcome ε α) (next : α → Outcome ε β) :
    (first >>= next).result = first.result >>= fun value => (next value).result := by
  rcases first with ⟨log, failure | value⟩ <;> rfl

/-- A finished computation has its value. -/
@[simp] theorem result_pure (value : α) : (pure value : Outcome ε α).result = .ok value := rfl

/-- A sequence succeeds when both of its computations do. -/
theorem result_bind_eq_ok_iff {first : Outcome ε α} {next : α → Outcome ε β} {value : β} :
    (first >>= next).result = .ok value ↔
      ∃ a, first.result = .ok a ∧ (next a).result = .ok value := by
  rcases first with ⟨log, failure | a⟩
  · simp [Bind.bind, Outcome.bind]
  · simp [Bind.bind, Outcome.bind]

/-- A list of computations succeeds when each one does. -/
theorem result_mapM_eq_ok_iff {next : α → Outcome ε β} {succeeds : α → Prop} {value : α → β}
    (h : ∀ a b, (next a).result = .ok b ↔ succeeds a ∧ b = value a) {inputs : List α}
    {outputs : List β} :
    (inputs.mapM next).result = .ok outputs ↔
      (∀ a ∈ inputs, succeeds a) ∧ outputs = inputs.map value := by
  induction inputs generalizing outputs with
  | nil =>
    rw [List.mapM_nil, result_pure, Except.ok.injEq]
    simp [eq_comm]
  | cons input inputs ih =>
    simp only [List.mapM_cons, result_bind_eq_ok_iff, h, ih, result_pure, Except.ok.injEq]
    constructor
    · rintro ⟨_, ⟨first, rfl⟩, _, ⟨rest, rfl⟩, rfl⟩
      exact ⟨List.forall_mem_cons.2 ⟨first, rest⟩, rfl⟩
    · rintro ⟨all, rfl⟩
      obtain ⟨first, rest⟩ := List.forall_mem_cons.1 all
      exact ⟨_, ⟨first, rfl⟩, _, ⟨rest, rfl⟩, rfl⟩

/-- A sequence fails when its first computation does, or else its second one. -/
theorem result_bind_eq_error_iff {first : Outcome ε α} {next : α → Outcome ε β} {failure : ε} :
    (first >>= next).result = .error failure ↔
      first.result = .error failure ∨
        ∃ a, first.result = .ok a ∧ (next a).result = .error failure := by
  rcases first with ⟨log, failed | a⟩
  · simp [Bind.bind, Outcome.bind]
  · simp [Bind.bind, Outcome.bind]

/-- A list of computations fails in the way of the first one that fails. -/
theorem result_mapM_eq_error_iff {next : α → Outcome ε β} {inputs : List α} {failure : ε} :
    (inputs.mapM next).result = .error failure ↔
      ∃ before input after, inputs = before ++ input :: after ∧
        (∀ earlier ∈ before, ∃ b, (next earlier).result = .ok b) ∧
        (next input).result = .error failure := by
  induction inputs with
  | nil => simp
  | cons first rest ih =>
    simp only [List.mapM_cons, result_bind_eq_error_iff, result_pure, reduceCtorEq, and_false,
      exists_false, or_false, ih]
    constructor
    · rintro (fails | ⟨b, succeeds, before, input, after, rfl, usable, fails⟩)
      · exact ⟨[], first, rest, rfl, by simp, fails⟩
      · exact ⟨first :: before, input, after, rfl,
          List.forall_mem_cons.2 ⟨⟨b, succeeds⟩, usable⟩, fails⟩
    · rintro ⟨before, input, after, split, usable, fails⟩
      cases before with
      | nil =>
        obtain ⟨rfl, -⟩ := List.cons.inj split
        exact .inl fails
      | cons earlier before =>
        obtain ⟨rfl, rfl⟩ := List.cons.inj split
        obtain ⟨⟨b, succeeds⟩, usable⟩ := List.forall_mem_cons.1 usable
        exact .inr ⟨b, succeeds, before, input, after, rfl, usable, fails⟩

/-- Where a failure is seen from does not change whether there is one. -/
@[simp] theorem result_mapFailure {δ : Type} (view : ε → δ) (outcome : Outcome ε α) :
    (outcome.mapFailure view).result = outcome.result.mapError view := rfl

end Outcome

end BranchCoverage
