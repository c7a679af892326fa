import Lectern.Page.Walk
import Lectern.Proofs.Journal

/-!
# What a walk does, step by step

`Meets before m after` says of a walk that it leads from the progress and the journal `before` to the
answer, the progress and the journal `after`.  A walk that fails answers with its fault and keeps its
progress.  The rules here take a walk apart along its steps; `outcome_finish` goes on from the end of a
walk to the end of the whole, and `exists_of_finish` back from there.
-/

namespace Lectern.Page
open Text Html

/-- A condition on the progress of a walk and what it has written. -/
abbrev Moment := Progress → List Message → Prop

/-- A condition on the end of a walk. -/
abbrev Ending (α : Type) := Except WalkFault α → Moment

/-- From every moment of the one kind the walk comes to an end of the other. -/
def Meets {α : Type} (before : Moment) (m : Walk α) (after : Ending α) : Prop :=
  ∀ p ms, before p ms → after (m p ms).1.1 (m p ms).1.2 (m p ms).2

section
variable {α β : Type} {before : Moment} {m : Walk α} {f : α → Walk β} {after : Ending α}
  {after' : Ending β}

theorem Meets.bind (hm : Meets before m after) (hf : ∀ a, Meets (after (.ok a)) (f a) after')
    (he : ∀ e p ms, after (.error e) p ms → after' (.error e) p ms) :
    Meets before (m >>= f) after' := by
  intro p ms h
  have h₁ := hm p ms h
  have hb : (m >>= f) p ms = ExceptT.bindCont f (m p ms).1.1 (m p ms).1.2 (m p ms).2 := rfl
  rw [hb]
  generalize m p ms = r at h₁
  obtain ⟨⟨e | a, p'⟩, ms'⟩ := r
  · exact he e p' ms' h₁
  · exact hf a p' ms' h₁

theorem Meets.weaken {before₀ : Moment} {after₀ : Ending α} (hm : Meets before m after)
    (hb : ∀ p ms, before₀ p ms → before p ms) (ha : ∀ r p ms, after r p ms → after₀ r p ms) :
    Meets before₀ m after₀ :=
  fun p ms h => ha _ _ _ (hm p ms (hb p ms h))

theorem meets_pure {a : α} (h : ∀ p ms, before p ms → after (.ok a) p ms) :
    Meets before (pure a) after :=
  fun p ms hp => h p ms hp

theorem meets_modify {g : Progress → Progress} {after : Ending PUnit}
    (h : ∀ p ms, before p ms → after (.ok ()) (g p) ms) : Meets before (modify g) after :=
  fun p ms hp => h p ms hp

theorem meets_take {tag : Tag} {after : Ending Unit}
    (h : ∀ p ms, before p ms → after (.ok ()) { p with taken := tag :: p.taken } ms) :
    Meets before (take tag) after :=
  fun p ms hp => h p ms hp

end

theorem outcome_bind {α β : Type} (m : Logged WalkFault α) (f : α → Logged WalkFault β) :
    (m >>= f).outcome = ExceptT.bindCont f (m []).1 (m []).2 := rfl

/-- A walk from the start, with an empty journal. -/
theorem run_walk {α : Type} (m : Walk α) :
    (ExceptT.lift (StateT.run m.run {}) : Logged WalkFault _) [] = (.ok (m {} []).1, (m {} []).2) := rfl

/-- What the whole walk comes to when the walk below the body succeeds. -/
theorem outcome_finish {c : Context} {tag : Tag} {cs cs' behind : List Node} {p : Progress}
    {ms : List Message} (h : walkBelow c (.element tag cs) behind {} [] = ((.ok cs', p), ms)) :
    (finish c (.element tag cs) behind).outcome
      = (.ok (.element tag (pruneAll (p.sources.settle (.element tag cs')).children)),
        ms ++ if p.spent > 0 then
          [.note 3 ("Pruned ".toList ++ ofNat p.spent ++ " consumed node(s)".toList)] else []) := by
  rw [finish, outcome_bind, run_walk, h]
  show (do
    if p.spent > 0 then
      Logged.note 3 ("Pruned ".toList ++ ofNat p.spent ++ " consumed node(s)".toList)
    return Node.element tag (pruneAll (p.sources.settle (.element tag cs')).children) :
      Logged WalkFault Node) ms = _
  split
  · rfl
  · rw [List.append_nil]
    rfl

/-- The whole walk fails where the walk below the body does. -/
theorem outcome_finish_error {c : Context} {tag : Tag} {cs behind : List Node} {p : Progress} {e : WalkFault}
    {ms : List Message} (h : walkBelow c (.element tag cs) behind {} [] = ((.error e, p), ms)) :
    (finish c (.element tag cs) behind).outcome = (.error e, ms) := by
  rw [finish, outcome_bind, run_walk, h]
  rfl

/-- A document in an empty folder, without colours for code. -/
def Context.bare : Context where
  appearance := { settings := {}, colours := false, fromRoot := false }
  files := .empty
  here := []
  folder := ⟨[], []⟩

end Lectern.Page
