import Lectern.Proofs.Walk.Agree
import Lectern.Proofs.Walk.Upon

/-!
# What holds of the answer of a walk

* `Yields`           a walk that answers, if at all, with something of which a property holds;
* `yields_visitAll`  the visits of some trees, by the visit of one;
* `yields_visit`     trees without rows of a generation, or earlier ones, have none after the visit.
-/

namespace Lectern.Page
open Text Html Html.Node

/-- While the sources on their way are such as paragraphs name, so they are at the end, and the answer has the
property. -/
def Yields {α : Type} (m : Walk α) (Q : α → Prop) : Prop :=
  Meets (fun p _ => p.Sourced) m fun r p _ => p.Sourced ∧ ∀ a, r = .ok a → Q a

section
variable {α β : Type} {m : Walk α} {f : α → Walk β} {Q Q' : α → Prop} {R : β → Prop} {S : α → α → Prop}

theorem Yields.bind (hm : Yields m Q) (hf : ∀ a, Q a → Yields (f a) R) : Yields (m >>= f) R := by
  refine Meets.bind hm (fun a p ms h => ?_) fun e p ms h => ⟨h.1, fun b hb => by cases hb⟩
  exact hf a (h.2 a rfl) p ms h.1

theorem Yields.weaken (hm : Yields m Q) (h : ∀ a, Q a → Q' a) : Yields m Q' := fun p ms hp =>
  (hm p ms hp).imp_right fun hq a ha => h a (hq a ha)

theorem Yields.and (hm : Yields m Q) (hm' : Yields m Q') : Yields m fun a => Q a ∧ Q' a := fun p ms hp =>
  ⟨(hm p ms hp).1, fun a ha => ⟨(hm p ms hp).2 a ha, (hm' p ms hp).2 a ha⟩⟩

theorem Yields.imp {P : Prop} (hm : Yields m fun _ => True) (h : P → Yields m Q) : Yields m fun a => P → Q a := by
  by_cases hp : P
  · exact (h hp).weaken fun a hq _ => hq
  · exact hm.weaken fun a _ e => absurd e hp

theorem yields_pure {a : α} (h : Q a) : Yields (pure a) Q := fun _ _ hp => ⟨hp, fun _ hb => Except.ok.inj hb ▸ h⟩

theorem Yields.answer {g : α → β} (hm : Yields m Q) (h : ∀ a, Q a → R (g a)) :
    Yields (m >>= fun a => pure (g a)) R := hm.bind fun a hq => yields_pure (h a hq)

/-- A walk that agrees with itself. -/
theorem Agree.yields (hm : Agree m m S) (h : ∀ a₁ a₀, S a₁ a₀ → Q a₁) : Yields m Q := fun p ms hp => by
  obtain ⟨p', ms', hp', ⟨e, hrun, -⟩ | ⟨a₁, a₀, hrun, -, ha⟩⟩ := hm p ms hp
  · rw [hrun]
    exact ⟨hp', fun a e => by cases e⟩
  · rw [hrun]
    exact ⟨hp', fun a e => Except.ok.inj e ▸ h a₁ a₀ ha⟩

theorem Aside.yields (hm : Aside m Q) : Yields m Q := hm.agree.yields fun _ _ h => h.2

theorem yields_tell (w : Message) : Yields (tell w) fun _ => True := (agree_tell w).yields fun _ _ _ => trivial

end

/-! ## visits of some trees -/

section
variable {c : Context} {a : Appearance} {tag tag' : Tag} {cs cs' ds ms ns ns' : List Node} {n n' : Node} {g : Nat}
  {t : Text}

theorem IsLate.congr (h : IsLate g tag) (hn : tag'.name = tag.name) (hg : tag'.generation = tag.generation) :
    IsLate g tag' := by
  rw [IsLate, isRow, isOneOf, hn, hg]
  exact h

theorem late_element : Late g [.element tag cs] ↔ IsLate g tag ∧ Late g cs := by
  simp only [Late, tagsAll_single, tags_element, List.mem_cons, forall_eq_or_imp]

theorem late_cons : Late g (n :: ns) ↔ Late g [n] ∧ Late g ns := by
  simp only [Late, tagsAll_cons, tagsAll_nil, List.append_nil, List.mem_append, or_imp, forall_and]

namespace Late

theorem mono (h : Late g ns) (hs : ∀ t ∈ tagsAll ms, t ∈ tagsAll ns) : Late g ms := fun t ht => h t (hs t ht)

theorem of_mem (h : Late g ns) (hn : n ∈ ns) : Late g [n] := h.mono fun _ ht => mem_tagsAll_of_mem hn ht

theorem of_forall₂ (h : List.Forall₂ (fun n n' => Late g [n] → Late g [n']) ns ns') (hl : Late g ns) :
    Late g ns' := by
  induction h with
  | nil => exact hl
  | cons h _ ih =>
    obtain ⟨hn, hns⟩ := late_cons.mp hl
    exact late_cons.mpr ⟨h hn, ih hns⟩

/-- What is read anew of a paragraph or of preformatted text is of a later generation. -/
theorem of_reread (h : IsLate g tag) (hn : isOneOf ("pre" :: paragraphNames) tag = true)
    (hr : Appearance.reread tag t = .ok ds) : Late g ds := fun u hu => by
  have hg := h.2 hn
  have hu := (of_mem_tagsAll_parse hr hu).1
  exact ⟨fun _ => by omega, fun _ => by omega⟩

end Late

theorem Tinted.late {plain children : List Node} (h : Tinted tag plain children) (hp : Late g plain) :
    Late g children := by
  rcases h with rfl | h
  · exact hp
  · refine fun u hu => isLate_of_name ?_
    rw [isOneOf, (h u hu).1]
    decide

/-- What becomes of trees has no rows of a generation, or earlier ones, where they had none. -/
def Ages (ns ns' : List Node) : Prop := ∀ g, Late g ns → Late g ns'

variable {walk : List Node → Walk (List Node)} {s : Sigil} {remainder : Text}

/-- What is made of what is read anew of a paragraph. -/
theorem Ages.of_reread (hp : isOneOf paragraphNames tag = true) (hr : Appearance.reread tag t = .ok ds)
    (h : Ages ds ns) : Ages [.element tag cs] ns := fun g hl =>
  h g (.of_reread (late_element.mp hl).1 (isOneOf_mono (fun _ => List.mem_cons_of_mem _) hp) hr)

theorem Ages.element (hn : tag'.name = tag.name) (hg : tag'.generation = tag.generation)
    (h : Ages [.element tag cs] ns) : Ages [.element tag cs] [.element tag' ns] := fun g hl =>
  late_element.mpr ⟨(late_element.mp hl).1.congr hn hg, h g hl⟩

theorem Ages.of_forall₂ (h : List.Forall₂ (fun n n' => Ages [n] [n']) ns ns') : Ages ns ns' := fun g hl =>
  Late.of_forall₂ (h.imp fun _ _ h => h g) hl

end
end Lectern.Page
