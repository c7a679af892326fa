import Lectern.Proofs.Walk.Orderly

/-!
# Trees that differ inside code

* `Recoloured`     the text of code with colours, and without;
* `Beside`         trees that are the same outside of code, with such texts in it;
* `Beside.given`, `Beside.pruneAll`   they stay so when sources are added, and when what is spent goes;
* `hollowAll`      trees with nothing in their code;
* `codeTextsAll`   what their code says.
-/

namespace Lectern.Page
open Text Html Html.Node

/-- The text of code with colours is the one without, or that one as it is prepared, its stretches tightened. -/
def Recoloured (t₁ t₀ : Text) : Prop := t₁ = t₀ ∨ Tightens (Highlight.prepare t₀) t₁

theorem Recoloured.eq_or_prepared {t₁ t₀ : Text} (h : Recoloured t₁ t₀) (hs : IsSparse (Highlight.prepare t₀)) :
    t₁ = t₀ ∨ t₁ = Highlight.prepare t₀ := h.imp_right fun ht => ht.eq_of_sparse hs

/-- What may stand in code. -/
def Mute (inTable : Bool) (t : Tag) : Prop :=
  isLecture t = false ∧ t.spent = false ∧ (inTable = true → isRow t = false)

/-- Trees that are the same outside of code.  In a table the rows are the same throughout, and may be walked over again. -/
inductive Beside (inTable : Bool) : List Node → List Node → Prop where
  | nil : Beside inTable [] []
  | same {n : Node} {ns₁ ns₀ : List Node} (hn : inTable = true → Steady [n]) (hs : Beside inTable ns₁ ns₀) :
    Beside inTable (n :: ns₁) (n :: ns₀)
  | inside {tag : Tag} {cs₁ cs₀ ns₁ ns₀ : List Node} (hn : tag.name ≠ "code".toList)
    (hr : inTable = true → isRow tag = false) (hc : Beside inTable cs₁ cs₀) (hs : Beside inTable ns₁ ns₀) :
    Beside inTable (.element tag cs₁ :: ns₁) (.element tag cs₀ :: ns₀)
  | code {tag : Tag} {cs₁ cs₀ ns₁ ns₀ : List Node} (hn : tag.name = "code".toList)
    (ht : Recoloured (plainTextAll cs₁) (plainTextAll cs₀)) (h₁ : ∀ t ∈ tagsAll cs₁, Mute inTable t)
    (h₀ : ∀ t ∈ tagsAll cs₀, Mute inTable t) (hs : Beside inTable ns₁ ns₀) :
    Beside inTable (.element tag cs₁ :: ns₁) (.element tag cs₀ :: ns₀)

section
variable {inTable : Bool} {tag : Tag} {cs₁ cs₀ ms₁ ms₀ ns₁ ns₀ ns sources cs : List Node} {n n₁ n₀ : Node}

theorem any_elementsAll (p : Node → Bool) (ns : List Node) :
    (elementsAll ns).any p = ns.any fun n => n.elements.any p := by
  induction ns with
  | nil => rfl
  | cons n ns ih => rw [elementsAll_cons, List.any_append, ih, List.any_cons]

theorem holdsLecture_element (tag : Tag) (cs : List Node) :
    Page.holdsLecture (.element tag cs) = (isLecture tag || cs.any Page.holdsLecture) := by
  rw [Page.holdsLecture, elements, List.any_cons, any_elementsAll]
  rfl

theorem noLecture_of_mute (h : ∀ t ∈ tagsAll ns, Mute inTable t) : NoLecture ns := fun t ht => (h t ht).1

namespace Beside

theorem refl (h : inTable = true → Steady ns) : Beside inTable ns ns := by
  induction ns with
  | nil => exact .nil
  | cons n ns ih => exact .same (fun e => (h e).head) (ih fun e => (h e).tail)

theorem single_same (h : inTable = true → Steady [n]) : Beside inTable [n] [n] := .same h .nil

theorem append (hm : Beside inTable ms₁ ms₀) (hn : Beside inTable ns₁ ns₀) :
    Beside inTable (ms₁ ++ ns₁) (ms₀ ++ ns₀) := by
  induction hm with
  | nil => exact hn
  | same h _ ih => exact .same h ih
  | inside hname hr hc _ _ ih => exact .inside hname hr hc ih
  | code hname ht h₁ h₀ _ ih => exact .code hname ht h₁ h₀ ih

theorem cons (h : Beside inTable [n₁] [n₀]) (hs : Beside inTable ns₁ ns₀) :
    Beside inTable (n₁ :: ns₁) (n₀ :: ns₀) := h.append hs

theorem of_forall₂ (h : List.Forall₂ (fun n₁ n₀ => Beside inTable [n₁] [n₀]) ns₁ ns₀) :
    Beside inTable ns₁ ns₀ := by
  induction h with
  | nil => exact .nil
  | cons h _ ih => exact h.cons ih

theorem forall₂ (h : Beside inTable ns₁ ns₀) : List.Forall₂ (fun n₁ n₀ => Beside inTable [n₁] [n₀]) ns₁ ns₀ := by
  induction h with
  | nil => exact .nil
  | same h _ ih => exact .cons (.same h .nil) ih
  | inside hname hr hc _ _ ih => exact .cons (.inside hname hr hc .nil) ih
  | code hname ht h₁ h₀ _ ih => exact .cons (.code hname ht h₁ h₀ .nil) ih

/-- What stands beside each other in a table does so in a page. -/
theorem outside (h : Beside inTable ns₁ ns₀) : Beside false ns₁ ns₀ := by
  have mute {cs : List Node} (h : ∀ t ∈ tagsAll cs, Mute inTable t) : ∀ t ∈ tagsAll cs, Mute false t := fun t ht =>
    ⟨(h t ht).1, (h t ht).2.1, fun e => by cases e⟩
  induction h with
  | nil => exact .nil
  | same _ _ ih => exact .same (fun e => by cases e) ih
  | inside hname _ _ _ ihc ihs => exact .inside hname (fun e => by cases e) ihc ihs
  | code hname ht h₁ h₀ _ ih => exact .code hname ht (mute h₁) (mute h₀) ih

/-! ### lecture videos -/

theorem any_holdsLecture (h : Beside inTable ns₁ ns₀) : ns₁.any holdsLecture = ns₀.any holdsLecture := by
  induction h with
  | nil => rfl
  | same _ _ ih => rw [List.any_cons, List.any_cons, ih]
  | inside _ _ _ _ ihc ihs =>
    rw [List.any_cons, List.any_cons, holdsLecture_element, holdsLecture_element, ihc, ihs]
  | code _ _ h₁ h₀ _ ih =>
    rw [List.any_cons, List.any_cons, holdsLecture_element, holdsLecture_element,
      (noLecture_of_mute h₁).any_holdsLecture, (noLecture_of_mute h₀).any_holdsLecture, ih]

theorem holdsLecture (h : Beside inTable [n₁] [n₀]) : holdsLecture n₁ = holdsLecture n₀ := by
  have := h.any_holdsLecture
  rwa [List.any_cons, List.any_nil, Bool.or_false, List.any_cons, List.any_nil, Bool.or_false] at this

/-- Both of them hold a lecture video to which sources are added, or neither does. -/
theorem given (h : Beside inTable ns₁ ns₀) (hs : AreSources sources) :
    (addSourcesAll? sources ns₁ = none ∧ addSourcesAll? sources ns₀ = none) ∨ ∃ ms₁ ms₀,
      addSourcesAll? sources ns₁ = some ms₁ ∧ addSourcesAll? sources ns₀ = some ms₀ ∧ Beside inTable ms₁ ms₀ := by
  -- where the first trees hold no lecture video it is the others that get the sources
  have next {n₁ n₀ : Node} {ns₁ ns₀ : List Node} (h₁ : addSources? sources n₁ = none)
      (h₀ : addSources? sources n₀ = none) (hn : Beside inTable [n₁] [n₀])
      (ih : (addSourcesAll? sources ns₁ = none ∧ addSourcesAll? sources ns₀ = none) ∨ ∃ ms₁ ms₀,
        addSourcesAll? sources ns₁ = some ms₁ ∧ addSourcesAll? sources ns₀ = some ms₀ ∧ Beside inTable ms₁ ms₀) :
      (addSourcesAll? sources (n₁ :: ns₁) = none ∧ addSourcesAll? sources (n₀ :: ns₀) = none) ∨ ∃ ms₁ ms₀,
        addSourcesAll? sources (n₁ :: ns₁) = some ms₁ ∧ addSourcesAll? sources (n₀ :: ns₀) = some ms₀ ∧
          Beside inTable ms₁ ms₀ := by
    rw [addSourcesAll?_cons_of_none h₁, addSourcesAll?_cons_of_none h₀]
    rcases ih with ⟨e₁, e₀⟩ | ⟨ms₁, ms₀, e₁, e₀, hms⟩
    · exact .inl ⟨by rw [e₁]; rfl, by rw [e₀]; rfl⟩
    · exact .inr ⟨n₁ :: ms₁, n₀ :: ms₀, by rw [e₁]; rfl, by rw [e₀]; rfl, hn.cons hms⟩
  induction h with
  | nil => exact .inl ⟨mapFirstAll?_nil, mapFirstAll?_nil⟩
  | @same n ns₁ ns₀ hn hss ih =>
    cases hg : addSources? sources n with
    | none => exact next hg hg (single_same hn) ih
    | some n' =>
      refine .inr ⟨n' :: ns₁, n' :: ns₀, addSourcesAll?_cons_of_some hg _, addSourcesAll?_cons_of_some hg _, ?_⟩
      exact .same (fun e => (hn e).given hs (addSourcesAll?_cons_of_some hg [])) hss
  | @inside tag cs₁ cs₀ ns₁ ns₀ hname hr hc hss ihc ihs =>
    have h₁ := addSources?_element sources tag cs₁
    have h₀ := addSources?_element sources tag cs₀
    cases hl : isLecture tag with
    | true =>
      rw [hl, if_pos rfl] at h₁ h₀
      refine .inr ⟨_, _, addSourcesAll?_cons_of_some h₁ _, addSourcesAll?_cons_of_some h₀ _, ?_⟩
      have hsources : Beside inTable sources sources := refl fun _ => .bare fun t ht => by
        rw [(hs.isElement ht).1]
        decide
      exact .inside hname hr (hc.append hsources) hss
    | false =>
      rw [hl, if_neg Bool.false_ne_true] at h₁ h₀
      rcases ihc with ⟨e₁, e₀⟩ | ⟨ms₁, ms₀, e₁, e₀, hms⟩
      · rw [e₁] at h₁
        rw [e₀] at h₀
        exact next h₁ h₀ (.inside hname hr hc .nil) ihs
      · rw [e₁] at h₁
        rw [e₀] at h₀
        exact .inr ⟨_, _, addSourcesAll?_cons_of_some h₁ _, addSourcesAll?_cons_of_some h₀ _,
          .inside hname hr hms hss⟩
  | @code tag cs₁ cs₀ ns₁ ns₀ hname ht h₁ h₀ _ ih =>
    have none_of {cs : List Node} (h : ∀ t ∈ tagsAll cs, Mute inTable t) :
        addSources? sources (.element tag cs) = none :=
      NoLecture.mapFirst?_eq_none (noLecture_element.mpr
        ⟨isLecture_of_name (by rw [hname]; decide), noLecture_of_mute h⟩) _
    exact next (none_of h₁) (none_of h₀) (.code hname ht h₁ h₀ .nil) ih

/-! ### the end of a walk -/

/-- Sources that come late. -/
theorem settle {s : Sources} (hs : AreSources s.late) (tag : Tag) (h : Beside inTable cs₁ cs₀) :
    Beside inTable (s.settle (.element tag cs₁)).children (s.settle (.element tag cs₀)).children := by
  have hsources : Beside inTable s.late s.late := refl fun _ => .bare fun t ht => by
    rw [(hs.isElement ht).1]
    decide
  unfold Sources.settle
  split
  · exact h
  · rw [addSources?_element, addSources?_element]
    split
    · exact h.append hsources
    · obtain ⟨h₁, h₀⟩ | ⟨ms₁, ms₀, h₁, h₀, hms⟩ := h.given hs
      · rw [h₁, h₀]
        exact h
      · rw [h₁, h₀]
        exact hms

theorem pruneAll_of_mute (h : ∀ t ∈ tagsAll ns, Mute inTable t) : Page.pruneAll ns = ns :=
  (DressedAll.refl false ns).pruneAll_eq fun t ht => (h t ht).2.1

theorem pruneAll (h : Beside false ns₁ ns₀) : Beside false (Page.pruneAll ns₁) (Page.pruneAll ns₀) := by
  have element {tag : Tag} {cs₁ cs₀ : List Node}
      (h : Beside false [.element tag (Page.pruneAll cs₁)] [.element tag (Page.pruneAll cs₀)]) :
      Beside false (prune (.element tag cs₁)) (prune (.element tag cs₀)) := by
    rw [prune, prune]
    split
    · exact .nil
    · exact h
  induction h with
  | nil => exact .nil
  | same _ _ ih => exact (refl fun e => absurd e Bool.false_ne_true).append ih
  | inside hname hr _ _ ihc ihs => exact (element (.inside hname hr ihc .nil)).append ihs
  | code hname ht h₁ h₀ _ ih =>
    refine (element ?_).append ih
    rw [pruneAll_of_mute h₁, pruneAll_of_mute h₀]
    exact .code hname ht h₁ h₀ .nil

end Beside

/-! ## what is outside of code, and inside -/

mutual

/-- A tree with nothing in its outermost code. -/
def hollow : Node → Node
  | .element tag cs => .element tag (if tag.name = "code".toList then [] else hollowAll cs)
  | n => n

def hollowAll : List Node → List Node
  | [] => []
  | n :: ns => hollow n :: hollowAll ns

end

mutual

/-- What the outermost code of a tree says, in document order. -/
def codeTexts : Node → List Text
  | .element tag cs => if tag.name = "code".toList then [plainTextAll cs] else codeTextsAll cs
  | _ => []

def codeTextsAll : List Node → List Text
  | [] => []
  | n :: ns => codeTexts n ++ codeTextsAll ns

end

theorem recoloured_refl (ts : List Text) : List.Forall₂ Recoloured ts ts := List.forall₂_same.mpr fun _ _ => .inl rfl

theorem Beside.hollowAll (h : Beside inTable ns₁ ns₀) : Page.hollowAll ns₁ = Page.hollowAll ns₀ := by
  induction h with
  | nil => rfl
  | same _ _ ih => rw [Page.hollowAll, Page.hollowAll, ih]
  | inside hname _ _ _ ihc ihs =>
    rw [Page.hollowAll, Page.hollowAll, hollow, hollow, if_neg hname, if_neg hname, ihc, ihs]
  | code hname _ _ _ _ ih =>
    rw [Page.hollowAll, Page.hollowAll, hollow, hollow, if_pos hname, if_pos hname, ih]

theorem Beside.codeTextsAll (h : Beside inTable ns₁ ns₀) :
    List.Forall₂ Recoloured (Page.codeTextsAll ns₁) (Page.codeTextsAll ns₀) := by
  induction h with
  | nil => exact .nil
  | same _ _ ih => exact List.rel_append (recoloured_refl _) ih
  | inside hname _ _ _ ihc ihs =>
    rw [Page.codeTextsAll, Page.codeTextsAll, codeTexts, codeTexts, if_neg hname, if_neg hname]
    exact List.rel_append ihc ihs
  | code hname ht _ _ _ ih =>
    rw [Page.codeTextsAll, Page.codeTextsAll, codeTexts, codeTexts, if_pos hname, if_pos hname]
    exact .cons ht ih

end
end Lectern.Page
