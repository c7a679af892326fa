import Lectern.Proofs.Walk.Beside
import Lectern.Proofs.Walk.Marked

/-!
# Two walks in step

* `Agree`            two walks that come to the same end, or answer what is related, and write the same;
* `agree_visitAll`   the visits of some trees, by the visit of one.
-/

namespace Lectern.Page
open Text Html Html.Node

/-- The sources on their way are such as paragraphs name. -/
def Progress.Sourced (p : Progress) : Prop := AreSources p.sources.waiting ∧ AreSources p.sources.late

/-- From wherever they start, both walks come equally far and write the same; they fail with the same fault, or their
answers are related. -/
def Agree {α : Type} (m₁ m₀ : Walk α) (R : α → α → Prop) : Prop :=
  ∀ p ms, p.Sourced → ∃ p' ms', p'.Sourced ∧
    ((∃ e, m₁ p ms = ((.error e, p'), ms') ∧ m₀ p ms = ((.error e, p'), ms')) ∨
      ∃ a₁ a₀, m₁ p ms = ((.ok a₁, p'), ms') ∧ m₀ p ms = ((.ok a₀, p'), ms') ∧ R a₁ a₀)

section
variable {α β : Type} {m m₁ m₀ : Walk α} {f₁ f₀ : α → Walk β} {R R' : α → α → Prop} {S : β → β → Prop} {P : α → Prop}

theorem agree_pure {a₁ a₀ : α} (h : R a₁ a₀) : Agree (pure a₁) (pure a₀) R :=
  fun p ms hp => ⟨p, ms, hp, .inr ⟨a₁, a₀, rfl, rfl, h⟩⟩

theorem Agree.bind (hm : Agree m₁ m₀ R) (hf : ∀ a₁ a₀, R a₁ a₀ → Agree (f₁ a₁) (f₀ a₀) S) :
    Agree (m₁ >>= f₁) (m₀ >>= f₀) S := fun p ms hp => by
  obtain ⟨p', ms', hp', ⟨e, h₁, h₀⟩ | ⟨a₁, a₀, h₁, h₀, ha⟩⟩ := hm p ms hp
  · exact ⟨p', ms', hp', .inl ⟨e, bind_of_walk_error h₁, bind_of_walk_error h₀⟩⟩
  · rw [bind_of_walk_ok h₁, bind_of_walk_ok h₀]
    exact hf a₁ a₀ ha p' ms' hp'

theorem Agree.weaken (hm : Agree m₁ m₀ R) (h : ∀ a₁ a₀, R a₁ a₀ → R' a₁ a₀) : Agree m₁ m₀ R' := fun p ms hp => by
  obtain ⟨p', ms', hp', he | ⟨a₁, a₀, h₁, h₀, ha⟩⟩ := hm p ms hp
  · exact ⟨p', ms', hp', .inl he⟩
  · exact ⟨p', ms', hp', .inr ⟨a₁, a₀, h₁, h₀, h a₁ a₀ ha⟩⟩

theorem Agree.answer {g₁ g₀ : α → β} (hm : Agree m₁ m₀ R) (hg : ∀ a₁ a₀, R a₁ a₀ → S (g₁ a₁) (g₀ a₀)) :
    Agree (m₁ >>= fun a => pure (g₁ a)) (m₀ >>= fun a => pure (g₀ a)) S :=
  hm.bind fun a₁ a₀ h => agree_pure (hg a₁ a₀ h)

/-- A step that has nothing to do with sources agrees with itself. -/
theorem Aside.agree (hm : Aside m P) : Agree m m fun a₁ a₀ => a₁ = a₀ ∧ P a₁ := fun p ms hp => by
  obtain ⟨r, new, hrun, -, hr⟩ := hm
  obtain ⟨p', h, hsources, -⟩ := hrun p ms
  have hp' : p'.Sourced := by rwa [Progress.Sourced, hsources]
  refine ⟨p', ms ++ new, hp', ?_⟩
  cases r with
  | error e => exact .inl ⟨e, h, h⟩
  | ok a => exact .inr ⟨a, a, h, h, rfl, hr a rfl⟩

/-- Two walks that go on from the same step. -/
theorem Aside.follow (hm : Aside m P) (hf : ∀ a, P a → Agree (f₁ a) (f₀ a) S) : Agree (m >>= f₁) (m >>= f₀) S :=
  hm.agree.bind fun a₁ _ h => h.1 ▸ hf a₁ h.2

theorem agree_tell (w : Message) : Agree (tell w) (tell w) fun _ _ => True :=
  fun p ms hp => ⟨p, ms ++ [w], hp, .inr ⟨(), (), rfl, rfl, trivial⟩⟩

end

/-! ## sources -/

section
variable {n n₁ n₀ : Node} {I O : Node → Node → Prop}

/-- Nodes that stay related when both are given the same sources. -/
def Receptive (I : Node → Node → Prop) : Prop := ∀ n₁ n₀ sources, I n₁ n₀ → AreSources sources →
  (addSources? sources n₁ = none ∧ addSources? sources n₀ = none) ∨
    ∃ n₁' n₀', addSources? sources n₁ = some n₁' ∧ addSources? sources n₀ = some n₀' ∧ I n₁' n₀'

theorem agree_deliver (hI : Receptive I) (h : I n₁ n₀) : Agree (deliver n₁) (deliver n₀) I := fun p ms hp => by
  have hrun (n : Node) : deliver n p ms = ((.ok (p.sources.deliver n).1,
    { p with sources := (p.sources.deliver n).2 }), ms) := rfl
  rw [hrun, hrun, Sources.deliver, Sources.deliver]
  split
  · exact ⟨p, ms, hp, .inr ⟨n₁, n₀, rfl, rfl, h⟩⟩
  · obtain ⟨h₁, h₀⟩ | ⟨n₁', n₀', h₁, h₀, h'⟩ := hI n₁ n₀ p.sources.waiting h hp.1
    · rw [h₁, h₀]
      exact ⟨p, ms, hp, .inr ⟨n₁, n₀, rfl, rfl, h⟩⟩
    · rw [h₁, h₀]
      exact ⟨{ p with sources := { p.sources with waiting := [] } }, ms,
        ⟨fun _ hn => absurd hn List.not_mem_nil, hp.2⟩, .inr ⟨n₁', n₀', rfl, rfl, h'⟩⟩

theorem agree_pass (h : holdsLecture n₁ = holdsLecture n₀) : Agree (pass n₁) (pass n₀) fun _ _ => True :=
  fun p ms hp => by
    have hpass : p.sources.pass n₀ = p.sources.pass n₁ := by rw [Sources.pass, Sources.pass, h]
    have hrun (n : Node) : pass n p ms = ((.ok (), { p with sources := p.sources.pass n }), ms) := rfl
    refine ⟨{ p with sources := p.sources.pass n₁ }, ms, hp, .inr ⟨(), (), hrun n₁, ?_, trivial⟩⟩
    rw [hrun, hpass]

theorem agree_visitAll {v₁ v₀ : Bool → Node → Walk Node} (hI : Receptive I)
    (hholds : ∀ n₁ n₀, I n₁ n₀ → holdsLecture n₁ = holdsLecture n₀)
    (hO : ∀ n₁ n₀, O n₁ n₀ → holdsLecture n₁ = holdsLecture n₀)
    (hv : ∀ ahead n₁ n₀, I n₁ n₀ → Agree (v₁ ahead n₁) (v₀ ahead n₀) O) (ahead : Bool) {ns₁ ns₀ : List Node}
    (h : List.Forall₂ I ns₁ ns₀) : Agree (visitAll v₁ ahead ns₁) (visitAll v₀ ahead ns₀) (List.Forall₂ O) := by
  induction h with
  | nil => exact agree_pure .nil
  | @cons n₁ n₀ ns₁ ns₀ hn hns ih =>
    have hany : ns₁.any holdsLecture = ns₀.any holdsLecture := by
      clear ih
      induction hns with
      | nil => rfl
      | cons h _ ih => rw [List.any_cons, List.any_cons, hholds _ _ h, ih]
    rw [visitAll, visitAll, hany]
    refine (agree_deliver hI hn).bind fun n₁ n₀ hn => (hv _ n₁ n₀ hn).bind fun n₁ n₀ hn => ?_
    exact (agree_pass (hO n₁ n₀ hn)).bind fun _ _ _ => ih.answer fun ns₁ ns₀ hns => .cons hn hns

end

/-- The source of a paragraph is handed on, or a lecture video is made for it. -/
theorem agree_attachSource (c : Context) (ahead : Bool) {tag : Tag} {cs : List Node} (remainder : Text)
    {Q : Node → Prop} (hrest : Q (.element { tag with spent := true } cs))
    (hgiven : ∀ address n, addSources? [sourceNode address] (.element { tag with spent := true } cs) = some n → Q n)
    (hnew : ∀ address, Q (lectureNode (sourceNode address))) :
    Agree (attachSource c ahead tag cs remainder) (attachSource c ahead tag cs remainder)
      fun n₁ n₀ => n₁ = n₀ ∧ Q n₁ := by
  unfold attachSource
  refine (aside_readRemainder remainder).follow fun t _ => (agree_tell _).bind fun _ _ _ => fun p ms hp => ?_
  refine ⟨_, ms, ?_, .inr ⟨_, _, exchange_run (fun s => s.attach _ ahead _) p ms,
    exchange_run (fun s => s.attach _ ahead _) p ms, rfl, ?_⟩⟩
  · show AreSources _ ∧ AreSources _
    unfold Sources.attach
    split
    · exact ⟨hp.1, areSources_append hp.2 (areSources_single _)⟩
    · split
      · exact hp
      · split
        · exact ⟨areSources_append hp.1 (areSources_single _), hp.2⟩
        · exact hp
  · unfold Sources.attach
    split
    · exact hrest
    · split
      · exact hgiven _ _ ‹_›
      · split
        · exact hrest
        · exact hnew _

end Lectern.Page
