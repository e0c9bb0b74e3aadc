import Mathlib.Data.List.Forall2
import TokenSpacing.Failure

/-!
# Outcomes of steps in sequence

A sequence of steps succeeds if and only if each of them does, and fails as the first
one does that fails.  What is logged on the way does not matter for the outcome.
-/

namespace TokenSpacing

@[simp] theorem ok_bind {ε α β : Type} (value : α) (next : α → Except ε β) :
    (Except.ok value >>= next) = next value :=
  rfl

@[simp] theorem error_bind {ε α β : Type} (failure : ε) (next : α → Except ε β) :
    (Except.error failure >>= next) = .error failure :=
  rfl

theorem bind_eq_ok_iff {ε α β : Type} {first : Except ε α} {next : α → Except ε β}
    {result : β} :
    (first >>= next) = .ok result ↔ ∃ value, first = .ok value ∧ next value = .ok result := by
  constructor
  · exact Java.Building.exists_of_bind_eq_ok
  · rintro ⟨value, rfl, hresult⟩
    exact hresult

theorem exists_bind_eq_ok {ε α β : Type} {first : Except ε α} {next : α → Except ε β}
    {holds : α → Prop} {after : β → Prop} (hfirst : ∃ value, first = .ok value ∧ holds value)
    (hnext : ∀ value, holds value → ∃ result, next value = .ok result ∧ after result) :
    ∃ result, (first >>= next) = .ok result ∧ after result := by
  obtain ⟨value, rfl, hvalue⟩ := hfirst
  exact hnext value hvalue

theorem bind_eq_error_iff {ε α β : Type} {first : Except ε α} {next : α → Except ε β}
    {failure : ε} :
    (first >>= next) = .error failure ↔
      first = .error failure ∨ ∃ value, first = .ok value ∧ next value = .error failure := by
  cases first with
  | error other =>
      constructor
      · intro hfailure
        cases hfailure
        exact .inl rfl
      · rintro (hfailure | ⟨value, hvalue, -⟩)
        · cases hfailure
          rfl
        · contradiction
  | ok value =>
      constructor
      · intro hfailure
        exact .inr ⟨value, rfl, hfailure⟩
      · rintro (hfailure | ⟨other, hother, hfailure⟩)
        · contradiction
        · cases hother
          exact hfailure

theorem pure_eq_ok_iff {ε α : Type} {value result : α} :
    (pure value : Except ε α) = .ok result ↔ value = result := by
  constructor
  · intro hresult
    exact Except.ok.inj hresult
  · rintro rfl
    rfl

theorem map_eq_ok_iff {ε α β : Type} {first : Except ε α} {change : α → β} {result : β} :
    change <$> first = .ok result ↔ ∃ value, first = .ok value ∧ change value = result := by
  rw [map_eq_pure_bind, bind_eq_ok_iff]
  simp only [pure_eq_ok_iff]

theorem map_eq_error_iff {ε α β : Type} {first : Except ε α} {change : α → β} {failure : ε} :
    change <$> first = .error failure ↔ first = .error failure := by
  rw [map_eq_pure_bind, bind_eq_error_iff, or_iff_left]
  rintro ⟨value, -, hpure⟩
  cases hpure

theorem mapM_eq_ok_iff {ε α β : Type} {step : α → Except ε β} {inputs : List α}
    {results : List β} :
    inputs.mapM step = .ok results ↔
      List.Forall₂ (fun input result => step input = .ok result) inputs results := by
  induction inputs generalizing results with
  | nil =>
      rw [List.mapM_nil, pure_eq_ok_iff, List.forall₂_nil_left_iff]
      exact eq_comm
  | cons input inputs ih =>
      simp only [List.mapM_cons, bind_eq_ok_iff, pure_eq_ok_iff, ih, List.forall₂_cons_left_iff]
      constructor
      · rintro ⟨value, hvalue, values, hvalues, rfl⟩
        exact ⟨value, values, hvalue, hvalues, rfl⟩
      · rintro ⟨value, values, hvalue, hvalues, rfl⟩
        exact ⟨value, hvalue, values, hvalues, rfl⟩

theorem exists_return_eq_ok_iff {ε α β : Type} {first : Except ε α} {change : α → β} :
    (∃ result, (do return change (← first)) = Except.ok result) ↔ ∃ value, first = .ok value := by
  simp only [bind_eq_ok_iff, pure_eq_ok_iff]
  constructor
  · rintro ⟨result, value, hvalue, -⟩
    exact ⟨value, hvalue⟩
  · rintro ⟨value, hvalue⟩
    exact ⟨_, value, hvalue, rfl⟩

theorem exists_pair_eq_ok_iff {ε α β γ : Type} {first : Except ε α} {second : Except ε β}
    {join : α → β → γ} :
    (∃ result, (do let left ← first; let right ← second; return join left right) =
        Except.ok result) ↔
      (∃ left, first = .ok left) ∧ ∃ right, second = .ok right := by
  simp only [bind_eq_ok_iff, pure_eq_ok_iff]
  constructor
  · rintro ⟨result, left, hleft, right, hright, rfl⟩
    exact ⟨⟨left, hleft⟩, ⟨right, hright⟩⟩
  · rintro ⟨⟨left, hleft⟩, ⟨right, hright⟩⟩
    exact ⟨_, left, hleft, right, hright, rfl⟩

theorem exists_mapM_eq_ok_iff {ε α β : Type} {step : α → Except ε β} {inputs : List α} :
    (∃ results, inputs.mapM step = .ok results) ↔
      ∀ input ∈ inputs, ∃ result, step input = .ok result := by
  induction inputs with
  | nil => simpa using ⟨[], rfl⟩
  | cons input inputs ih => rw [List.forall_mem_cons, ← ih, List.mapM_cons, exists_pair_eq_ok_iff]

theorem mem_iff_of_mapM {ε α β : Type} {step : α → Except ε β} {inputs : List α}
    {results : List β} (hresults : inputs.mapM step = .ok results) {result : β} :
    result ∈ results ↔ ∃ input ∈ inputs, step input = .ok result := by
  induction mapM_eq_ok_iff.mp hresults with
  | nil => simp
  | cons hfirst hrest ih =>
      rw [List.mem_cons, ih (mapM_eq_ok_iff.mpr hrest), List.exists_mem_cons_iff, hfirst,
        Except.ok.injEq]
      simp [eq_comm]

theorem mapError_eq_ok_iff {ε ζ α : Type} {first : Except ε α} {change : ε → ζ} {value : α} :
    first.mapError change = .ok value ↔ first = .ok value := by
  cases first <;> simp [Except.mapError]

theorem mapError_eq_error_iff {ε ζ α : Type} {first : Except ε α} {change : ε → ζ}
    {failure : ζ} :
    first.mapError change = .error failure ↔
      ∃ cause, first = .error cause ∧ change cause = failure := by
  cases first <;> simp [Except.mapError]

theorem toOption_congr {ε α : Type} {first second : Except ε α}
    (hsame : ∀ value, first = .ok value ↔ second = .ok value) :
    first.toOption = second.toOption := by
  cases first with
  | ok value => rw [(hsame value).mp rfl]
  | error failure =>
      cases second with
      | ok value => cases (hsame value).mpr rfl
      | error other => rfl

/-! ## Steps that log -/

namespace Logged

@[simp] theorem outcome_pure {α : Type} (value : α) :
    (pure value : Logged α).outcome = .ok value :=
  rfl

@[simp] theorem outcome_ofExcept {α : Type} (outcome : Except Failure α) :
    (ofExcept outcome).outcome = outcome :=
  rfl

@[simp] theorem outcome_note (level : LogLevel) (source text : String) :
    (note level source text).outcome = .ok () :=
  rfl

theorem ofExcept_ok_bind {α β : Type} (value : α) (next : α → Logged β) :
    (ofExcept (.ok value) >>= next) = next value :=
  rfl

theorem ofExcept_error_bind {α β : Type} (failure : Failure) (next : α → Logged β) :
    (ofExcept (.error failure) >>= next) = fail failure :=
  rfl

@[simp] theorem outcome_sequence {α β : Type} (first : Logged α) (next : α → Logged β) :
    (first >>= next).outcome = first.outcome >>= fun value => (next value).outcome := by
  change (first.bind next).outcome = _
  cases hfirst : first.outcome with
  | error failure => simp only [Logged.bind, hfirst]; rfl
  | ok value => simp only [Logged.bind, hfirst]; rfl

end Logged

end TokenSpacing
