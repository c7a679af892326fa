import Lectern.Journal

/-!
# The answer of a run

A run is a result with a journal.  What a run answers does not depend on what the journal holds when
it starts: `Gives run answer` says so, and goes along with the steps of a run.

* `except_bind_eq_ok`, `bind_eq_ok`   two steps that end well, without a journal and with one;
* `Gives`                             the answer of a run;
* `Ends`                              what holds of the result of a run that ends well.
-/

namespace Lectern

/-- Two steps that end well, without a journal. -/
theorem except_bind_eq_ok {ε α β : Type} {r : Except ε α} {f : α → Except ε β} {b : β} :
    r >>= f = .ok b ↔ ∃ a, r = .ok a ∧ f a = .ok b := by
  cases r with
  | error e => exact ⟨fun h => (nomatch h), fun ⟨_, h, _⟩ => (nomatch h)⟩
  | ok a =>
    constructor
    · intro h
      exact ⟨a, rfl, h⟩
    · rintro ⟨a', h, hf⟩
      obtain rfl := Except.ok.inj h
      exact hf

/-- An error with another name is an error. -/
theorem except_mapError_eq_ok {ε ε' α : Type} {r : Except ε α} {f : ε → ε'} {a : α} :
    r.mapError f = .ok a ↔ r = .ok a := by
  cases r with
  | error e => exact ⟨fun h => (nomatch h), fun h => (nomatch h)⟩
  | ok a' => exact ⟨fun h => congrArg Except.ok (Except.ok.inj h), fun h => congrArg Except.ok (Except.ok.inj h)⟩

end Lectern

namespace Lectern.Logged

variable {ε α β : Type}

/-- The run ends with this result or error, whatever has been written before it. -/
def Gives (run : Logged ε α) (answer : Except ε α) : Prop := ∀ ms, (run ms).1 = answer

theorem Gives.unique {run : Logged ε α} {r r' : Except ε α} (h : run.Gives r) (h' : run.Gives r') :
    r = r' :=
  (h []).symm.trans (h' [])

theorem Gives.outcome {run : Logged ε α} {r : Except ε α} (h : run.Gives r) : run.outcome.1 = r :=
  h []

theorem gives_pure (a : α) : Gives (pure a : Logged ε α) (.ok a) := fun _ => rfl

theorem gives_throw (e : ε) : Gives (throw e : Logged ε α) (.error e) := fun _ => rfl

theorem gives_note (level : Nat) (text : Text) : Gives (note level text : Logged ε Unit) (.ok ()) :=
  fun _ => rfl

variable {run : Logged ε α} {f : α → Logged ε β} {a : α} {e : ε} {r : Except ε β}

theorem bind_of_ok {ms ms' : List Message} (h : run ms = (.ok a, ms')) :
    (run >>= f) ms = f a ms' := by
  change ExceptT.bindCont f (run ms).1 (run ms).2 = f a ms'
  rw [h]
  rfl

theorem bind_of_error {ms ms' : List Message} (h : run ms = (.error e, ms')) :
    (run >>= f) ms = (.error e, ms') := by
  change ExceptT.bindCont f (run ms).1 (run ms).2 = _
  rw [h]
  rfl

/-- A step that gives a result is followed by the rest. -/
theorem Gives.bind (h : run.Gives (.ok a)) (hf : (f a).Gives r) : Gives (run >>= f) r := by
  intro ms
  rw [bind_of_ok (Prod.ext (h ms) rfl)]
  exact hf _

/-- A step that fails is the end. -/
theorem Gives.bind_error (h : run.Gives (.error e)) (f : α → Logged ε β) :
    Gives (run >>= f) (.error e) := by
  intro ms
  rw [bind_of_error (Prod.ext (h ms) rfl)]

/-- A run of two steps that ends well. -/
theorem bind_eq_ok {b : β} {ms ms'' : List Message} : (run >>= f) ms = (.ok b, ms'') ↔
    ∃ a ms', run ms = (.ok a, ms') ∧ f a ms' = (.ok b, ms'') := by
  constructor
  · intro hb
    rcases h : run ms with ⟨e | a, ms'⟩
    · rw [bind_of_error h] at hb
      cases hb
    · exact ⟨a, ms', rfl, (bind_of_ok h).symm.trans hb⟩
  · rintro ⟨a, ms', h, hf⟩
    rw [bind_of_ok h, hf]

/-- Whatever the run ends with, if it ends well, has a property. -/
def Ends (P : α → Prop) (run : Logged ε α) : Prop := ∀ ms a ms', run ms = (.ok a, ms') → P a

theorem ends_pure {P : α → Prop} (h : P a) : Ends P (pure a : Logged ε α) := fun ms a' ms' hr => by
  cases hr
  exact h

theorem ends_throw (P : α → Prop) (e : ε) : Ends P (throw e : Logged ε α) := fun ms a ms' hr => by
  cases hr

theorem Ends.bind {P : β → Prop} (h : ∀ a, (f a).Ends P) : Ends P (run >>= f) := fun ms b ms' hr => by
  obtain ⟨a, ms₁, -, hf⟩ := bind_eq_ok.mp hr
  exact h a _ _ _ hf

/-- What a step of a fold keeps, the fold keeps. -/
theorem foldlM_keeps {P : β → Prop} {step : β → α → Logged ε β} {l : List α}
    (h : ∀ b a b' ms ms', a ∈ l → P b → step b a ms = (.ok b', ms') → P b') {b b' : β}
    {ms ms' : List Message} (hb : P b) (hl : l.foldlM step b ms = (.ok b', ms')) : P b' := by
  induction l generalizing b ms with
  | nil =>
    cases hl
    exact hb
  | cons a l ih =>
    rw [List.foldlM_cons] at hl
    obtain ⟨b₁, ms₁, h₁, hl⟩ := bind_eq_ok.mp hl
    exact ih (fun b a b' ms ms' ha => h b a b' ms ms' (List.mem_cons_of_mem _ ha))
      (h b a b₁ ms ms₁ List.mem_cons_self hb h₁) hl

end Lectern.Logged
