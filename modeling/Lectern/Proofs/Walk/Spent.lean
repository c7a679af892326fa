import Lectern.Proofs.Walk.Dressed
import Lectern.Proofs.Walk.Shape

/-!
# What has given its content away

While a page is walked, an element that names a source of the lecture video is marked as spent, unless the video
is put in its place.

* `spents`            the elements that are marked, in the order of the page;
* `exchanged`         some trees with the first of them exchanged;
* `spent_induction`   a property of trees, shown along the way to that element;
* `lectures`          the lecture videos of some trees, and what becomes of them when the page is settled.
-/

namespace Lectern.Page
open Text Html Html.Node

theorem exists_tag_of_any {p : Tag → Bool} {e : Node} (h : e.tag?.any p = true) :
    ∃ t, e.tag? = some t ∧ p t = true := by
  cases htag : e.tag? with
  | none =>
    rw [htag] at h
    exact absurd h Bool.false_ne_true
  | some t =>
    rw [htag] at h
    exact ⟨t, rfl, h⟩

/-- The elements that have given their content away, in the order of the page. -/
def spents (ns : List Node) : List Node := (elementsAll ns).filter fun e => e.tag?.any (·.spent)

/-- The trees with the first of these elements exchanged for a tree. -/
def exchanged (v : Node) (ns : List Node) : List Node := (mapFirstAll? (·.spent) (fun _ _ => v) ns).getD ns

section
variable {v n : Node} {tag : Tag} {cs ns : List Node}

theorem spents_cons (n : Node) (ns : List Node) : spents (n :: ns) = spents [n] ++ spents ns := by
  rw [spents, elementsAll_cons, List.filter_append, spents, elementsAll_single]
  rfl

theorem spents_element (hs : tag.spent = false) (cs : List Node) : spents [.element tag cs] = spents cs := by
  rw [spents, elementsAll_single, elements,
    List.filter_cons_of_neg (by simp [tag?, hs])]
  rfl

theorem spents_of_spent (hs : tag.spent = true) (cs : List Node) :
    spents [.element tag cs] = .element tag cs :: spents cs := by
  rw [spents, elementsAll_single, elements,
    List.filter_cons_of_pos (by simp [tag?, hs])]
  rfl

theorem spents_eq_nil : spents ns = [] ↔ ∀ t ∈ tagsAll ns, t.spent = false := by
  rw [spents, List.filter_eq_nil_iff]
  refine ⟨fun h t ht => ?_, fun h e he hany => ?_⟩
  · obtain ⟨e, he, htag⟩ := List.mem_filterMap.mp ht
    simpa [htag] using h e he
  · obtain ⟨t, htag, hs⟩ := exists_tag_of_any hany
    exact absurd hs (by simp [h t (List.mem_filterMap.mpr ⟨e, he, htag⟩)])

theorem mapFirst?_eq_none_of_spents (h : spents [n] = []) (f : Tag → List Node → Node) :
    n.mapFirst? (·.spent) f = none := by
  rw [← Option.not_isSome_iff_eq_none, mapFirst?_isSome, Option.not_isSome_iff_eq_none, first?, List.find?_eq_none]
  rw [spents, elementsAll_single, List.filter_eq_nil_iff] at h
  exact h

theorem exists_mapFirst?_of_spents (h : spents [n] ≠ []) (f : Tag → List Node → Node) :
    ∃ n', n.mapFirst? (·.spent) f = some n' := by
  rw [← Option.isSome_iff_exists, mapFirst?_isSome, first?, List.find?_isSome]
  obtain ⟨e, he⟩ := List.exists_mem_of_ne_nil _ h
  rw [spents, elementsAll_single] at he
  exact ⟨e, (List.mem_filter.mp he).1, (List.mem_filter.mp he).2⟩

/-! ## the first of them exchanged -/

theorem exchanged_cons_of_nil (h : spents [n] = []) (v : Node) (ns : List Node) :
    exchanged v (n :: ns) = n :: exchanged v ns := by
  rw [exchanged, mapFirstAll?_cons_of_none (mapFirst?_eq_none_of_spents h _), exchanged]
  cases mapFirstAll? (·.spent) (fun _ _ => v) ns <;> rfl

theorem exchanged_cons_of_ne (h : spents [n] ≠ []) (v : Node) (ns : List Node) :
    exchanged v (n :: ns) = exchanged v [n] ++ ns := by
  obtain ⟨n', hn⟩ := exists_mapFirst?_of_spents h fun _ _ => v
  rw [exchanged, mapFirstAll?_cons_of_some hn, exchanged, mapFirstAll?_cons_of_some hn]
  rfl

theorem exchanged_of_nil (h : spents ns = []) (v : Node) : exchanged v ns = ns := by
  induction ns with
  | nil => rfl
  | cons n ns ih =>
    rw [spents_cons, List.append_eq_nil_iff] at h
    rw [exchanged_cons_of_nil h.1, ih h.2]

theorem exchanged_element (hs : tag.spent = false) (v : Node) (cs : List Node) :
    exchanged v [.element tag cs] = [.element tag (exchanged v cs)] := by
  have hfirst : mapFirst? (·.spent) (fun _ _ => v) (.element tag cs)
      = (mapFirstAll? (·.spent) (fun _ _ => v) cs).map (.element tag ·) := by
    rw [mapFirst?_element, hs]
    rfl
  rw [exchanged, exchanged]
  cases h : mapFirstAll? (·.spent) (fun _ _ => v) cs with
  | none =>
    rw [h] at hfirst
    rw [mapFirstAll?_cons_of_none hfirst]
    rfl
  | some cs' =>
    rw [h] at hfirst
    rw [mapFirstAll?_cons_of_some hfirst]
    rfl

theorem exchanged_of_spent (hs : tag.spent = true) (v : Node) (cs : List Node) :
    exchanged v [.element tag cs] = [v] := by
  have hfirst : mapFirst? (·.spent) (fun _ _ => v) (.element tag cs) = some v := by
    rw [mapFirst?_element, hs]
    rfl
  rw [exchanged, mapFirstAll?_cons_of_some hfirst]
  rfl

mutual

theorem spent_induction_head {P : List Node → Prop} (found : ∀ tag cs ns, tag.spent = true → P (.element tag cs :: ns))
    (inside : ∀ tag cs ns, tag.spent = false → spents cs ≠ [] → P cs → P (.element tag cs :: ns))
    (later : ∀ n ns, spents [n] = [] → spents ns ≠ [] → P ns → P (n :: ns)) :
    (n : Node) → spents [n] ≠ [] → ∀ ns, P (n :: ns)
  | .element tag cs, h, ns => by
    cases hs : tag.spent with
    | true => exact found tag cs ns hs
    | false =>
      rw [spents_element hs] at h
      exact inside tag cs ns hs h (spent_induction found inside later cs h)
  | .text _, h, _ | .aside _, h, _ | .note _ _, h, _ => absurd rfl h

/-- A property of trees that hold such an element, shown along the way to the first of them. -/
theorem spent_induction {P : List Node → Prop} (found : ∀ tag cs ns, tag.spent = true → P (.element tag cs :: ns))
    (inside : ∀ tag cs ns, tag.spent = false → spents cs ≠ [] → P cs → P (.element tag cs :: ns))
    (later : ∀ n ns, spents [n] = [] → spents ns ≠ [] → P ns → P (n :: ns)) :
    (ns : List Node) → spents ns ≠ [] → P ns
  | [], h => absurd rfl h
  | n :: ns, h => by
    by_cases hn : spents [n] = []
    · have hns : spents ns ≠ [] := fun e => h (by rw [spents_cons, hn, e]; rfl)
      exact later n ns hn hns (spent_induction found inside later ns hns)
    · exact spent_induction_head found inside later n hn ns

end

/-- What stands in the trees stood there before, or is what came in. -/
theorem mem_tagsAll_exchanged {t : Tag} (ht : t ∈ tagsAll (exchanged v ns)) : t ∈ v.tags ∨ t ∈ tagsAll ns := by
  by_cases h : spents ns = []
  · rw [exchanged_of_nil h] at ht
    exact .inr ht
  · revert ht
    refine spent_induction (P := fun ns => t ∈ tagsAll (exchanged v ns) → t ∈ v.tags ∨ t ∈ tagsAll ns) ?_ ?_ ?_ ns h
    · intro tag cs ns hs ht
      rw [exchanged_cons_of_ne (by rw [spents_of_spent hs]; exact List.cons_ne_nil _ _), exchanged_of_spent hs,
        List.singleton_append, tagsAll_cons, List.mem_append] at ht
      rw [tagsAll_cons, List.mem_append]
      exact ht.imp_right .inr
    · intro tag cs ns hs hcs ih ht
      rw [exchanged_cons_of_ne (by rwa [spents_element hs]), exchanged_element hs, List.singleton_append, tagsAll_cons,
        tags_element, List.cons_append, List.mem_cons, List.mem_append] at ht
      rw [tagsAll_cons, tags_element, List.cons_append, List.mem_cons, List.mem_append]
      rcases ht with ht | ht | ht
      · exact .inr (.inl ht)
      · exact (ih ht).imp_right fun ht => .inr (.inl ht)
      · exact .inr (.inr (.inr ht))
    · intro n ns hn hns ih ht
      rw [exchanged_cons_of_nil hn, tagsAll_cons, List.mem_append] at ht
      rw [tagsAll_cons, List.mem_append]
      exact ht.elim (fun ht => .inr (.inl ht)) fun ht => (ih ht).imp_right .inr

/-! ## pruned -/

mutual

theorem mem_tagsAll_prune {t : Tag} : (n : Node) → t ∈ tagsAll (prune n) → t ∈ n.tags ∧ t.spent = false
  | .element tag cs, h => by
    cases hs : tag.spent with
    | true =>
      rw [prune, hs] at h
      exact absurd h List.not_mem_nil
    | false =>
      rw [prune, hs, if_neg Bool.false_ne_true, tagsAll_single, tags_element] at h
      rw [tags_element]
      rcases List.mem_cons.mp h with rfl | h
      · exact ⟨List.mem_cons_self, hs⟩
      · exact (mem_tagsAll_pruneAll cs h).imp_left (List.mem_cons_of_mem _)
  | .text _, h | .aside _, h | .note _ _, h => absurd h List.not_mem_nil

/-- Nothing that has given its content away is left. -/
theorem mem_tagsAll_pruneAll {t : Tag} : (ns : List Node) → t ∈ tagsAll (pruneAll ns) →
    t ∈ tagsAll ns ∧ t.spent = false
  | [], h => absurd h List.not_mem_nil
  | n :: ns, h => by
    rw [pruneAll, tagsAll_append, List.mem_append] at h
    rw [tagsAll_cons, List.mem_append]
    rcases h with h | h
    · exact (mem_tagsAll_prune n h).imp_left .inl
    · exact (mem_tagsAll_pruneAll ns h).imp_left .inr

end

end

/-! ## lecture videos -/

/-- A lecture video. -/
def lectureVideo (sources : List Node) : Node := .element (.made "video" [("class", lectureClass)]) sources

/-- The lecture videos of some trees. -/
def lectures (ns : List Node) : List Node := (elementsAll ns).filter fun e => e.tag?.any isLecture

def NoLecture (ns : List Node) : Prop := ∀ t ∈ tagsAll ns, isLecture t = false

section
variable {n : Node} {tag : Tag} {cs ms ns sources late : List Node}

theorem isLecture_of_name (h : tag.name ≠ "video".toList) : isLecture tag = false := by
  rw [isLecture, decide_eq_false h]
  rfl

theorem noLecture_cons : NoLecture (n :: ns) ↔ NoLecture [n] ∧ NoLecture ns := by
  simp only [NoLecture, tagsAll_cons, tagsAll_nil, List.append_nil, List.mem_append, or_imp, forall_and]

theorem noLecture_element : NoLecture [.element tag cs] ↔ isLecture tag = false ∧ NoLecture cs := by
  simp only [NoLecture, tagsAll_single, tags_element, List.mem_cons, forall_eq_or_imp]

theorem lectures_append (ms ns : List Node) : lectures (ms ++ ns) = lectures ms ++ lectures ns := by
  rw [lectures, elementsAll_append, List.filter_append]
  rfl

theorem lectures_element (tag : Tag) (cs : List Node) :
    lectures [.element tag cs] = (if isLecture tag then [.element tag cs] else []) ++ lectures cs := by
  rw [lectures, elementsAll_single, elements]
  split
  · exact List.filter_cons_of_pos ‹_›
  · exact List.filter_cons_of_neg ‹_›

theorem lectures_eq_nil (h : NoLecture ns) : lectures ns = [] := by
  rw [lectures, List.filter_eq_nil_iff]
  intro e he hany
  obtain ⟨t, htag, ht⟩ := exists_tag_of_any hany
  exact absurd ht (by simp [h t (List.mem_filterMap.mpr ⟨e, he, htag⟩)])

theorem NoLecture.holdsLecture_eq_false (h : NoLecture [n]) : holdsLecture n = false := by
  refine List.any_eq_false.mpr fun e he hany => ?_
  obtain ⟨t, htag, ht⟩ := exists_tag_of_any hany
  have hmem : t ∈ tagsAll [n] := by
    rw [tagsAll_single]
    exact List.mem_filterMap.mpr ⟨e, he, htag⟩
  exact absurd ht (by simp [h t hmem])

theorem NoLecture.any_holdsLecture (h : NoLecture ns) : ns.any holdsLecture = false := by
  induction ns with
  | nil => rfl
  | cons n ns ih =>
    obtain ⟨hn, hns⟩ := noLecture_cons.mp h
    rw [List.any_cons, hn.holdsLecture_eq_false, ih hns]
    rfl

theorem NoLecture.mapFirst?_eq_none (h : NoLecture [n]) (f : Tag → List Node → Node) :
    n.mapFirst? isLecture f = none := by
  rw [← Option.not_isSome_iff_eq_none, mapFirst?_isSome, Option.not_isSome_iff_eq_none, first?, List.find?_eq_none]
  exact List.any_eq_false.mp h.holdsLecture_eq_false

theorem isLecture_lectureVideo : isLecture (.made "video" [("class", lectureClass)]) = true := by decide

theorem noLecture_pruneAll (h : NoLecture ns) : NoLecture (pruneAll ns) :=
  fun t ht => h t (mem_tagsAll_pruneAll ns ht).1

theorem holdsLecture_of_mem (hn : n ∈ cs) (h : holdsLecture n = true) : holdsLecture (.element tag cs) = true := by
  obtain ⟨e, he, ht⟩ := List.any_eq_true.mp h
  exact List.any_eq_true.mpr ⟨e, List.mem_cons_of_mem _ (mem_elementsAll.mpr ⟨n, hn, he⟩), ht⟩

/-- The trees hold the video that has been put into them. -/
theorem any_holdsLecture_exchanged (h : spents ns ≠ []) :
    (exchanged (lectureVideo sources) ns).any holdsLecture = true := by
  refine spent_induction (P := fun ns => (exchanged (lectureVideo sources) ns).any holdsLecture = true) ?_ ?_ ?_ ns h
  · intro tag cs ns hs
    rw [exchanged_cons_of_ne (by rw [spents_of_spent hs]; exact List.cons_ne_nil _ _), exchanged_of_spent hs]
    refine List.any_eq_true.mpr ⟨lectureVideo sources, List.mem_cons_self, ?_⟩
    exact List.any_eq_true.mpr ⟨_, List.mem_cons_self, isLecture_lectureVideo⟩
  · intro tag cs ns hs hcs ih
    rw [exchanged_cons_of_ne (by rwa [spents_element hs]), exchanged_element hs]
    obtain ⟨n, hn, hholds⟩ := List.any_eq_true.mp ih
    exact List.any_eq_true.mpr ⟨_, List.mem_cons_self, holdsLecture_of_mem hn hholds⟩
  · intro n ns hn hns ih
    rw [exchanged_cons_of_nil hn, List.any_cons, ih, Bool.or_true]

/-- Sources that come late are put into the video that stands in the place of the first element. -/
theorem mapFirstAll?_exchanged (hl : NoLecture ns) (h : spents ns ≠ []) :
    mapFirstAll? isLecture (fun tag cs => .element tag (cs ++ late)) (exchanged (lectureVideo sources) ns)
      = some (exchanged (lectureVideo (sources ++ late)) ns) := by
  revert hl
  refine spent_induction (P := fun ns => NoLecture ns →
    mapFirstAll? isLecture (fun tag cs => .element tag (cs ++ late)) (exchanged (lectureVideo sources) ns)
      = some (exchanged (lectureVideo (sources ++ late)) ns)) ?_ ?_ ?_ ns h
  · intro tag cs ns hs _
    have hne : spents [.element tag cs] ≠ [] := by rw [spents_of_spent hs]; exact List.cons_ne_nil _ _
    have hfound : mapFirst? isLecture (fun tag cs => .element tag (cs ++ late)) (lectureVideo sources)
        = some (lectureVideo (sources ++ late)) := by
      rw [lectureVideo, mapFirst?_element, isLecture_lectureVideo]
      rfl
    rw [exchanged_cons_of_ne hne, exchanged_of_spent hs, exchanged_cons_of_ne hne, exchanged_of_spent hs]
    exact mapFirstAll?_cons_of_some hfound ns
  · intro tag cs ns hs hcs ih hl
    have hne : spents [.element tag cs] ≠ [] := by rwa [spents_element hs]
    obtain ⟨htag, hcs'⟩ := noLecture_element.mp (noLecture_cons.mp hl).1
    rw [exchanged_cons_of_ne hne, exchanged_element hs, exchanged_cons_of_ne hne, exchanged_element hs]
    refine mapFirstAll?_cons_of_some ?_ ns
    rw [mapFirst?_element, htag, ih hcs']
    rfl
  · intro n ns hn hns ih hl
    obtain ⟨hl', hns'⟩ := noLecture_cons.mp hl
    rw [exchanged_cons_of_nil hn, exchanged_cons_of_nil hn, mapFirstAll?_cons_of_none (hl'.mapFirst?_eq_none _),
      ih hns']
    rfl

/-- When the page is pruned the video is the only one. -/
theorem lectures_pruneAll_exchanged (hsources : ∀ t ∈ tagsAll sources, t.spent = false ∧ isLecture t = false)
    (hl : NoLecture ns) (h : spents ns ≠ []) :
    lectures (pruneAll (exchanged (lectureVideo sources) ns)) = [lectureVideo sources] := by
  have hvideo : prune (lectureVideo sources) = [lectureVideo sources] :=
    Dressed.prune_eq (.refl false _) fun t ht => by
      rcases List.mem_cons.mp ht with rfl | ht
      · rfl
      · exact (hsources t ht).1
  revert hl
  refine spent_induction (P := fun ns => NoLecture ns →
    lectures (pruneAll (exchanged (lectureVideo sources) ns)) = [lectureVideo sources]) ?_ ?_ ?_ ns h
  · intro tag cs ns hs hl
    rw [exchanged_cons_of_ne (by rw [spents_of_spent hs]; exact List.cons_ne_nil _ _), exchanged_of_spent hs,
      List.singleton_append, pruneAll, hvideo, lectures_append,
      lectures_eq_nil (noLecture_pruneAll (noLecture_cons.mp hl).2), lectureVideo, lectures_element,
      isLecture_lectureVideo, lectures_eq_nil fun t ht => (hsources t ht).2]
    rfl
  · intro tag cs ns hs hcs ih hl
    obtain ⟨hn, hns⟩ := noLecture_cons.mp hl
    obtain ⟨htag, hcs'⟩ := noLecture_element.mp hn
    rw [exchanged_cons_of_ne (by rwa [spents_element hs]), exchanged_element hs, List.singleton_append, pruneAll, prune,
      hs, if_neg Bool.false_ne_true, lectures_append, lectures_eq_nil (noLecture_pruneAll hns), lectures_element, htag,
      ih hcs']
    rfl
  · intro n ns hn hns ih hl
    obtain ⟨hl', hns'⟩ := noLecture_cons.mp hl
    have hnone : NoLecture (prune n) := fun t ht => hl' t (by
      rw [tagsAll_single]
      exact (mem_tagsAll_prune n ht).1)
    rw [exchanged_cons_of_nil hn, pruneAll, lectures_append, lectures_eq_nil hnone, ih hns']
    rfl

end
end Lectern.Page
