import Lectern.Html.Node

/-!
# The elements of a page tree

What holds of a tree is shown of its elements, in document order.

* `tree_induction`, `list_induction`   an element after everything it holds;
* `tags`             the tags of the elements of a tree, its own first;
* `first?`           the first element of a kind;
* `mapFirst?_lift`   what becomes of a tree when that element is exchanged.
-/

namespace Lectern.Html.Node

/-- A property of all trees, shown of an element from what it holds. -/
theorem tree_induction {P : Node → Prop}
    (element : ∀ tag cs, (∀ n ∈ cs, P n) → P (.element tag cs))
    (other : ∀ n : Node, n.isElement = false → P n) (n : Node) : P n := by
  refine @Node.rec P (fun ns => ∀ n ∈ ns, P n) element ?_ ?_ ?_ ?_ ?_ n
  · exact fun t => other _ rfl
  · exact fun t => other _ rfl
  · exact fun k t => other _ rfl
  · exact fun n hn => absurd hn List.not_mem_nil
  · intro n ns hn hns m hm
    rcases List.mem_cons.mp hm with rfl | hm
    · exact hn
    · exact hns m hm

/-- A property of lists of trees, shown of an element from what it holds. -/
theorem list_induction {P : List Node → Prop} (nil : P [])
    (cons : ∀ n ns, P [n] → P ns → P (n :: ns)) (element : ∀ tag cs, P cs → P [.element tag cs])
    (other : ∀ n : Node, n.isElement = false → P [n]) (ns : List Node) : P ns := by
  have hlist : ∀ ns : List Node, (∀ n ∈ ns, P [n]) → P ns := by
    intro ns
    induction ns with
    | nil => exact fun _ => nil
    | cons n ns ih =>
      intro h
      exact cons n ns (h n List.mem_cons_self) (ih fun m hm => h m (List.mem_cons_of_mem n hm))
  refine hlist ns fun n hn => ?_
  clear hn
  induction n using tree_induction with
  | element tag cs ih => exact element tag cs (hlist cs ih)
  | other n hn => exact other n hn

theorem elements_of_not_isElement {n : Node} (h : n.isElement = false) : n.elements = [] := by
  cases n with
  | element tag cs => exact absurd h (by simp [isElement, tag?])
  | _ => rfl

theorem elementsAll_nil : elementsAll [] = [] := rfl

theorem elementsAll_cons (n : Node) (ns : List Node) :
    elementsAll (n :: ns) = n.elements ++ elementsAll ns := rfl

theorem elementsAll_single (n : Node) : elementsAll [n] = n.elements := List.append_nil _

theorem elementsAll_append (ms ns : List Node) :
    elementsAll (ms ++ ns) = elementsAll ms ++ elementsAll ns := by
  induction ms with
  | nil => rfl
  | cons m ms ih => rw [List.cons_append, elementsAll_cons, elementsAll_cons, ih, List.append_assoc]

theorem mem_elementsAll {e : Node} {ns : List Node} :
    e ∈ elementsAll ns ↔ ∃ n ∈ ns, e ∈ n.elements := by
  induction ns with
  | nil => simp [elementsAll_nil]
  | cons n ns ih => simp [elementsAll_cons, ih]

theorem isElement_of_mem_elements {n e : Node} (h : e ∈ n.elements) : e.isElement = true := by
  induction n using tree_induction with
  | element tag cs ih =>
    rcases List.mem_cons.mp h with rfl | h
    · rfl
    · obtain ⟨n, hn, he⟩ := mem_elementsAll.mp h
      exact ih n hn he
  | other n hn =>
    rw [elements_of_not_isElement hn] at h
    exact absurd h List.not_mem_nil

theorem isElement_of_mem_elementsAll {ns : List Node} {e : Node} (h : e ∈ elementsAll ns) :
    e.isElement = true := by
  obtain ⟨n, -, he⟩ := mem_elementsAll.mp h
  exact isElement_of_mem_elements he

/-- The elements inside an element of a tree belong to the tree. -/
theorem elements_subset {n e : Node} (h : e ∈ n.elements) : ∀ d ∈ e.elements, d ∈ n.elements := by
  induction n using tree_induction with
  | element tag cs ih =>
    intro d hd
    rcases List.mem_cons.mp h with rfl | h
    · exact hd
    · obtain ⟨n, hn, he⟩ := mem_elementsAll.mp h
      exact List.mem_cons_of_mem _ (mem_elementsAll.mpr ⟨n, hn, ih n hn he d hd⟩)
  | other n hn =>
    rw [elements_of_not_isElement hn] at h
    exact absurd h List.not_mem_nil

section
variable {e n : Node} {ns : List Node} {tag : Tag} {cs : List Node}

theorem mem_elementsAll_of_mem (hn : n ∈ ns) (h : e ∈ elementsAll [n]) : e ∈ elementsAll ns := by
  rw [elementsAll_single] at h
  exact mem_elementsAll.mpr ⟨n, hn, h⟩

theorem mem_elementsAll_head (h : e ∈ elementsAll [n]) : e ∈ elementsAll (n :: ns) :=
  mem_elementsAll_of_mem List.mem_cons_self h

theorem mem_elementsAll_tail (h : e ∈ elementsAll ns) : e ∈ elementsAll (n :: ns) :=
  List.mem_append_right _ h

theorem mem_elementsAll_inside (h : e ∈ elementsAll cs) : e ∈ elementsAll [.element tag cs] :=
  List.mem_append_left _ (List.mem_cons_of_mem _ h)

theorem self_mem_elementsAll : .element tag cs ∈ elementsAll [.element tag cs] :=
  List.mem_append_left _ List.mem_cons_self

theorem mem_elementsAll_element {t : Tag} {ds : List Node} :
    .element t ds ∈ elementsAll [.element tag cs] ↔ (t = tag ∧ ds = cs) ∨ .element t ds ∈ elementsAll cs := by
  rw [elementsAll_single, elements, List.mem_cons, Node.element.injEq]

/-- What stands in an element of some trees stands in the trees. -/
theorem elementsAll_subset {d : Node} (h : d ∈ elementsAll ns) (he : e ∈ elementsAll [d]) : e ∈ elementsAll ns := by
  obtain ⟨n, hn, hin⟩ := mem_elementsAll.mp h
  rw [elementsAll_single] at he
  exact mem_elementsAll.mpr ⟨n, hn, elements_subset hin e he⟩

theorem mem_elementsAll_of_inside (h : .element tag cs ∈ elementsAll ns) (he : e ∈ elementsAll cs) :
    e ∈ elementsAll ns := elementsAll_subset h (mem_elementsAll_inside he)

end

/-! ## tags -/

/-- The tags of the elements of a tree in document order. -/
def tags (n : Node) : List Tag := n.elements.filterMap tag?

/-- The tags of the elements of some trees. -/
def tagsAll (ns : List Node) : List Tag := (elementsAll ns).filterMap tag?

theorem tags_element (tag : Tag) (cs : List Node) : tags (.element tag cs) = tag :: tagsAll cs := rfl

theorem tagsAll_nil : tagsAll [] = [] := rfl

theorem tagsAll_cons (n : Node) (ns : List Node) : tagsAll (n :: ns) = n.tags ++ tagsAll ns := by
  rw [tagsAll, elementsAll_cons, List.filterMap_append]
  rfl

theorem tagsAll_single (n : Node) : tagsAll [n] = n.tags := by
  rw [tagsAll, elementsAll_single, tags]

theorem tagsAll_append (ms ns : List Node) : tagsAll (ms ++ ns) = tagsAll ms ++ tagsAll ns := by
  rw [tagsAll, elementsAll_append, List.filterMap_append]
  rfl

theorem mem_tagsAll {t : Tag} {ns : List Node} : t ∈ tagsAll ns ↔ ∃ n ∈ ns, t ∈ n.tags := by
  induction ns with
  | nil => simp [tagsAll_nil]
  | cons n ns ih => simp [tagsAll_cons, ih]

theorem mem_tags {t : Tag} {n : Node} : t ∈ n.tags ↔ ∃ cs, Node.element t cs ∈ n.elements := by
  constructor
  · intro h
    obtain ⟨e, he, ht⟩ := List.mem_filterMap.mp h
    cases e with
    | element tag cs =>
      obtain rfl := Option.some.inj ht
      exact ⟨cs, he⟩
    | _ => exact nomatch ht
  · rintro ⟨cs, h⟩
    exact List.mem_filterMap.mpr ⟨_, h, rfl⟩

theorem mem_tagsAll_iff {t : Tag} {ns : List Node} : t ∈ tagsAll ns ↔ ∃ cs, Node.element t cs ∈ elementsAll ns := by
  simp only [mem_tagsAll, mem_elementsAll, mem_tags]
  grind

theorem mem_tagsAll_of_mem {t : Tag} {n : Node} {ns : List Node} (hn : n ∈ ns) (h : t ∈ tagsAll [n]) :
    t ∈ tagsAll ns := by
  rw [tagsAll_single] at h
  exact mem_tagsAll.mpr ⟨n, hn, h⟩

theorem tagsAll_mono {ms ns : List Node} (hs : ∀ e ∈ elementsAll ms, e ∈ elementsAll ns) {t : Tag}
    (h : t ∈ tagsAll ms) : t ∈ tagsAll ns := by
  obtain ⟨cs, hcs⟩ := mem_tagsAll_iff.mp h
  exact mem_tagsAll_iff.mpr ⟨cs, hs _ hcs⟩

/-! ## exchanging the first element of a kind -/

section
variable {p : Tag → Bool} {f : Tag → List Node → Node}

theorem mapFirst?_element (tag : Tag) (cs : List Node) :
    mapFirst? p f (.element tag cs)
      = if p tag then some (f tag cs) else (mapFirstAll? p f cs).map (.element tag ·) := by
  rw [mapFirst?]

theorem mapFirst?_of_not_isElement {n : Node} (h : n.isElement = false) :
    mapFirst? p f n = none := by
  cases n with
  | element tag cs => exact absurd h (by simp [isElement, tag?])
  | _ => simp [mapFirst?]

theorem mapFirstAll?_nil : mapFirstAll? p f [] = none := by rw [mapFirstAll?]

theorem mapFirstAll?_cons_of_some {n n' : Node} (h : n.mapFirst? p f = some n') (ns : List Node) :
    mapFirstAll? p f (n :: ns) = some (n' :: ns) := by
  rw [mapFirstAll?, h]

theorem mapFirstAll?_cons_of_none {n : Node} (h : n.mapFirst? p f = none) (ns : List Node) :
    mapFirstAll? p f (n :: ns) = (mapFirstAll? p f ns).map (n :: ·) := by
  rw [mapFirstAll?, h]

/-- The first element of a kind. -/
def first? (p : Tag → Bool) (n : Node) : Option Node := n.elements.find? fun e => e.tag?.any p

def firstAll? (p : Tag → Bool) (ns : List Node) : Option Node :=
  (elementsAll ns).find? fun e => e.tag?.any p

theorem first?_element (tag : Tag) (cs : List Node) :
    first? p (.element tag cs) = if p tag then some (.element tag cs) else firstAll? p cs := by
  rw [first?, elements]
  by_cases h : p tag = true
  · rw [List.find?_cons_of_pos (by simpa [tag?] using h), if_pos h]
  · rw [List.find?_cons_of_neg (by simpa [tag?] using h), if_neg h, firstAll?]

theorem firstAll?_cons (n : Node) (ns : List Node) :
    firstAll? p (n :: ns) = (first? p n).or (firstAll? p ns) := by
  rw [firstAll?, elementsAll_cons, List.find?_append]
  rfl

mutual

theorem mapFirst?_isSome : (n : Node) → (n.mapFirst? p f).isSome = (n.first? p).isSome
  | .element tag cs => by
    rw [mapFirst?_element, first?_element]
    split
    · rfl
    · rw [Option.isSome_map, mapFirstAll?_isSome cs]
  | .text _ | .aside _ | .note _ _ => by rw [mapFirst?_of_not_isElement rfl]; rfl

theorem mapFirstAll?_isSome : (ns : List Node) →
    (mapFirstAll? p f ns).isSome = (firstAll? p ns).isSome
  | [] => by rw [mapFirstAll?_nil]; rfl
  | n :: ns => by
    have hn := mapFirst?_isSome n
    rw [firstAll?_cons, Option.isSome_or, ← hn, ← mapFirstAll?_isSome ns]
    cases h : n.mapFirst? p f with
    | some n' => rw [mapFirstAll?_cons_of_some h]; rfl
    | none => rw [mapFirstAll?_cons_of_none h, Option.isSome_map]; rfl

end

theorem exists_first?_of_mapFirst? {n n' : Node} (h : n.mapFirst? p f = some n') :
    ∃ tag cs, n.first? p = some (.element tag cs) := by
  obtain ⟨e, he⟩ := Option.isSome_iff_exists.mp ((mapFirst?_isSome n).symm.trans (by rw [h]; rfl))
  have hel := isElement_of_mem_elements (List.mem_of_find?_eq_some he)
  cases e with
  | element tag cs => exact ⟨tag, cs, he⟩
  | _ => exact absurd hel Bool.false_ne_true

section
variable {R : Node → Node → Prop} {S : List Node → List Node → Prop}

mutual

/-- A relation between trees that holds of what is exchanged, and goes on to what is around it, holds of
the trees. -/
theorem mapFirst?_lift {t : Tag} {ds : List Node} (found : R (.element t ds) (f t ds))
    (around : ∀ tag cs cs', S cs cs' → R (.element tag cs) (.element tag cs'))
    (front : ∀ n n' ns, R n n' → S (n :: ns) (n' :: ns))
    (back : ∀ n ns ns', S ns ns' → S (n :: ns) (n :: ns')) :
    (n : Node) → {n' : Node} → n.mapFirst? p f = some n' → n.first? p = some (.element t ds) → R n n'
  | .element tag cs, n', h, he => by
    rw [mapFirst?_element] at h
    rw [first?_element] at he
    split at h
    · rw [if_pos ‹_›] at he
      obtain ⟨rfl, rfl⟩ := Node.element.inj (Option.some.inj he)
      obtain rfl := Option.some.inj h
      exact found
    · rw [if_neg ‹_›] at he
      obtain ⟨cs', hcs, rfl⟩ := Option.map_eq_some_iff.mp h
      exact around tag cs cs' (mapFirstAll?_lift found around front back cs hcs he)
  | .text _, n', h, _ | .aside _, n', h, _ | .note _ _, n', h, _ => by
    rw [mapFirst?_of_not_isElement rfl] at h
    exact nomatch h

theorem mapFirstAll?_lift {t : Tag} {ds : List Node} (found : R (.element t ds) (f t ds))
    (around : ∀ tag cs cs', S cs cs' → R (.element tag cs) (.element tag cs'))
    (front : ∀ n n' ns, R n n' → S (n :: ns) (n' :: ns))
    (back : ∀ n ns ns', S ns ns' → S (n :: ns) (n :: ns')) :
    (ns : List Node) → {ns' : List Node} → mapFirstAll? p f ns = some ns' →
      firstAll? p ns = some (.element t ds) → S ns ns'
  | [], ns', h, _ => by rw [mapFirstAll?_nil] at h; exact nomatch h
  | n :: ns, ns', h, he => by
    rw [firstAll?_cons] at he
    cases hn : n.mapFirst? p f with
    | some n' =>
      rw [mapFirstAll?_cons_of_some hn] at h
      obtain rfl := Option.some.inj h
      obtain ⟨t', ds', hf⟩ := exists_first?_of_mapFirst? hn
      rw [hf] at he
      obtain ⟨rfl, rfl⟩ := Node.element.inj (Option.some.inj he)
      exact front n n' ns (mapFirst?_lift found around front back n hn hf)
    | none =>
      rw [mapFirstAll?_cons_of_none hn] at h
      obtain ⟨ns', hns, rfl⟩ := Option.map_eq_some_iff.mp h
      have hnone : n.first? p = none := by
        rw [← Option.not_isSome_iff_eq_none, ← mapFirst?_isSome (f := f), hn]; decide
      rw [hnone] at he
      exact back n ns ns' (mapFirstAll?_lift found around front back ns hns he)

end

end

end
end Lectern.Html.Node
