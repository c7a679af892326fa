import Lectern.Proofs.Walk.Orderly

/-!
# Trees that are handed sources

A walk hands sources to a tree before it visits it, so what is found out about a tree has to hold of both.

* `Given`                       some trees, and the same with sources behind what lecture videos in them hold;
* `Given.of_addSourcesAll?`     so are trees with sources in their first lecture video;
* `Given.startsWith_eq`         what a paragraph holds begins with the same text;
* `Given.isSome_loneImage?`     it holds nothing but an image, or does not, on both sides;
* `Given.markTable`             what a table holds with its mark taken off.
-/

namespace Lectern.Page
open Text Html Html.Node

/-- Some trees, and the same with sources behind what lecture videos in them hold. -/
inductive Given : List Node → List Node → Prop where
  | nil : Given [] []
  | other {n : Node} {ns ns' : List Node} (hn : n.isElement = false) (hs : Given ns ns') : Given (n :: ns) (n :: ns')
  | element (tag : Tag) {cs cs' ns ns' : List Node} (hc : Given cs cs') (hs : Given ns ns') :
    Given (.element tag cs :: ns) (.element tag cs' :: ns')
  | lecture {tag : Tag} {cs cs' sources ns ns' : List Node} (hl : isLecture tag = true) (ha : AreSources sources)
    (hc : Given cs cs') (hs : Given ns ns') : Given (.element tag cs :: ns) (.element tag (cs' ++ sources) :: ns')

/-- Elements of the kind are neither lecture videos nor sources. -/
def IsBystander (p : Tag → Bool) : Prop := ∀ t, p t = true → isLecture t = false ∧ t.name ≠ "source".toList

section
variable {tag : Tag} {cs cs' ms ms' ns ns' sources : List Node} {n n' : Node}

namespace Given

theorem append (hm : Given ms ms') (hn : Given ns ns') : Given (ms ++ ns) (ms' ++ ns') := by
  induction hm with
  | nil => exact hn
  | other h _ ih => exact .other h ih
  | element tag hc _ _ ih => exact .element tag hc ih
  | lecture hl ha hc _ _ ih => exact .lecture hl ha hc ih

theorem cons (h : Given [n] [n']) (hs : Given ns ns') : Given (n :: ns) (n' :: ns') := h.append hs

theorem of_forall (h : ∀ n ∈ ns, Given [n] [n]) : Given ns ns := by
  induction ns with
  | nil => exact .nil
  | cons n ns ih => exact (h n List.mem_cons_self).cons (ih fun m hm => h m (List.mem_cons_of_mem _ hm))

theorem refl_single (n : Node) : Given [n] [n] := by
  induction n using tree_induction with
  | element tag cs ih => exact .element tag (of_forall ih) .nil
  | other n hn => exact .other hn .nil

theorem refl (ns : List Node) : Given ns ns := of_forall fun n _ => refl_single n

theorem exists_of_mem (h : Given ns ns') (hn : n ∈ ns) : ∃ n' ∈ ns', Given [n] [n'] := by
  induction h with
  | nil => exact absurd hn List.not_mem_nil
  | other h _ ih =>
    rcases List.mem_cons.mp hn with rfl | hn
    · exact ⟨_, List.mem_cons_self, .other h .nil⟩
    · exact (ih hn).imp fun m hm => ⟨List.mem_cons_of_mem _ hm.1, hm.2⟩
  | element tag hc _ _ ih =>
    rcases List.mem_cons.mp hn with rfl | hn
    · exact ⟨_, List.mem_cons_self, .element tag hc .nil⟩
    · exact (ih hn).imp fun m hm => ⟨List.mem_cons_of_mem _ hm.1, hm.2⟩
  | lecture hl ha hc _ _ ih =>
    rcases List.mem_cons.mp hn with rfl | hn
    · exact ⟨_, List.mem_cons_self, .lecture hl ha hc .nil⟩
    · exact (ih hn).imp fun m hm => ⟨List.mem_cons_of_mem _ hm.1, hm.2⟩

/-- An element stays what it is, with sources at most behind what it holds. -/
theorem exists_children (h : Given [.element tag cs] [n']) :
    ∃ cs', n' = .element tag cs' ∧ ∀ m ∈ cs, ∃ m' ∈ cs', Given [m] [m'] := by
  cases h with
  | other hn _ => exact absurd hn (by simp [isElement, tag?])
  | element _ hc _ => exact ⟨_, rfl, fun m hm => hc.exists_of_mem hm⟩
  | lecture _ _ hc _ =>
    exact ⟨_, rfl, fun m hm => (hc.exists_of_mem hm).imp fun m' h => ⟨List.mem_append_left _ h.1, h.2⟩⟩

/-- An element that is no lecture video holds what it held. -/
theorem of_element (hl : isLecture tag = false) (h : Given [.element tag cs] [n']) :
    ∃ cs', n' = .element tag cs' ∧ Given cs cs' := by
  cases h with
  | other hn _ => exact absurd hn (by simp [isElement, tag?])
  | element _ hc _ => exact ⟨_, rfl, hc⟩
  | lecture hl' => exact absurd hl' (by simp [hl])

theorem of_addSourcesAll? (ha : AreSources sources) (h : addSourcesAll? sources ns = some ns') : Given ns ns' := by
  have hsome : (firstAll? isLecture ns).isSome = true := by
    rw [← mapFirstAll?_isSome (f := fun tag cs => .element tag (cs ++ sources)), ← addSourcesAll?, h]
    rfl
  obtain ⟨e, he⟩ := Option.isSome_iff_exists.mp hsome
  have hel := isElement_of_mem_elementsAll (List.mem_of_find?_eq_some he)
  cases e with
  | element tag cs =>
    have hl : isLecture tag = true := by simpa [tag?] using List.find?_some he
    have found : Given [.element tag cs] [.element tag (cs ++ sources)] := .lecture hl ha (refl cs) .nil
    exact mapFirstAll?_lift (R := fun n n' => Given [n] [n']) (S := Given) found
      (fun tag _ _ hc => .element tag hc .nil) (fun _ _ ns hn => hn.cons (refl ns))
      (fun n _ _ hns => (refl_single n).cons hns) ns h he
  | _ => exact absurd hel Bool.false_ne_true

/-! ### what stays -/

theorem flatMap_content (h : Given ns ns') : ns'.flatMap content = ns.flatMap content := by
  induction h with
  | nil => rfl
  | other _ _ ih => rw [List.flatMap_cons, List.flatMap_cons, ih]
  | element _ _ _ _ ih | lecture _ _ _ _ _ ih => rw [List.flatMap_cons, List.flatMap_cons, ih]; rfl

/-- Without a lecture video there is nothing to hand sources to. -/
theorem eq_of_noLecture (h : Given ns ns') (hn : NoLecture ns) : ns' = ns := by
  induction h with
  | nil => rfl
  | other _ _ ih => rw [ih (noLecture_cons.mp hn).2]
  | element tag _ _ ihc ih =>
    obtain ⟨hhead, htail⟩ := noLecture_cons.mp hn
    rw [ihc (noLecture_element.mp hhead).2, ih htail]
  | lecture hl =>
    have := (noLecture_element.mp (noLecture_cons.mp hn).1).1
    exact absurd hl (by simp [this])

/-- The tags that are there now were there, or belong to sources. -/
theorem mem_tagsAll (h : Given ns ns') {t : Tag} (ht : t ∈ tagsAll ns') :
    t ∈ tagsAll ns ∨ (t.name = "source".toList ∧ t.spent = false) := by
  induction h with
  | nil => exact .inl ht
  | other hn _ ih =>
    rw [tagsAll_cons, tags, elements_of_not_isElement hn] at ht ⊢
    exact ih ht
  | element tag _ _ ihc ih =>
    rw [tagsAll_cons, tags_element, List.cons_append, List.mem_cons, List.mem_append] at ht ⊢
    rcases ht with ht | ht | ht
    · exact .inl (.inl ht)
    · exact (ihc ht).imp_left fun ht => .inr (.inl ht)
    · exact (ih ht).imp_left fun ht => .inr (.inr ht)
  | lecture _ ha _ _ ihc ih =>
    rw [tagsAll_cons, tags_element, tagsAll_append, List.cons_append, List.mem_cons, List.mem_append,
      List.mem_append] at ht
    rw [tagsAll_cons, tags_element, List.cons_append, List.mem_cons, List.mem_append]
    rcases ht with ht | (ht | ht) | ht
    · exact .inl (.inl ht)
    · exact (ihc ht).imp_left fun ht => .inr (.inl ht)
    · exact .inr (ha.isElement ht)
    · exact (ih ht).imp_left fun ht => .inr (.inr ht)

/-- An element that is no lecture video is still there. -/
theorem exists_of_mem_elementsAll (h : Given ns ns') (hl : isLecture tag = false)
    (he : .element tag cs ∈ elementsAll ns) :
    ∃ cs', .element tag cs' ∈ elementsAll ns' ∧ Given cs cs' := by
  induction h with
  | nil => exact absurd he List.not_mem_nil
  | other hn _ ih =>
    rw [elementsAll_cons, elements_of_not_isElement hn] at he ⊢
    exact ih he
  | @element t ds ds' ns ns' hc _ ihc ih =>
    rcases List.mem_append.mp he with he | he
    · rcases List.mem_cons.mp he with he | he
      · obtain ⟨rfl, rfl⟩ := Node.element.inj he
        exact ⟨ds', List.mem_cons_self, hc⟩
      · exact (ihc he).imp fun _ h => ⟨mem_elementsAll_head (mem_elementsAll_inside h.1), h.2⟩
    · exact (ih he).imp fun _ h => ⟨mem_elementsAll_tail h.1, h.2⟩
  | lecture hl' _ _ _ ihc ih =>
    rcases List.mem_append.mp he with he | he
    · rcases List.mem_cons.mp he with he | he
      · obtain ⟨rfl, rfl⟩ := Node.element.inj he
        exact absurd hl' (by simp [hl])
      · refine (ihc he).imp fun _ h => ⟨mem_elementsAll_head (mem_elementsAll_inside ?_), h.2⟩
        rw [elementsAll_append]
        exact List.mem_append_left _ h.1
    · exact (ih he).imp fun _ h => ⟨mem_elementsAll_tail h.1, h.2⟩

/-! ### how a paragraph begins -/

theorem startsWith_eq (v : Bool) (h : Given ns ns') {m : Text} (hm : '<' ∉ m) :
    startsWith m (writeAllIn v ns') = startsWith m (writeAllIn v ns) := by
  have opened {m : Text} (hm : '<' ∉ m) {tag : Tag} {cs cs' ns ns' : List Node} :
      startsWith m (writeAllIn v (.element tag cs' :: ns')) = startsWith m (writeAllIn v (.element tag cs :: ns)) := by
    obtain ⟨t, ht⟩ := exists_writeIn_element v tag cs
    obtain ⟨t', ht'⟩ := exists_writeIn_element v tag cs'
    rw [writeAllIn, writeAllIn, ht, ht']
    exact startsWith_of_not_mem hm
  induction h generalizing m with
  | nil => rfl
  | other _ _ ih => exact startsWith_append_congr (fun m hm => ih hm) _ hm
  | element | lecture => exact opened hm

theorem filter_isElement (h : Given ns ns') : Given (ns.filter isElement) (ns'.filter isElement) := by
  induction h with
  | nil => exact .nil
  | other hn _ ih => rwa [List.filter_cons_of_neg (by simp [hn]), List.filter_cons_of_neg (by simp [hn])]
  | element tag hc _ _ ih => exact .element tag hc ih
  | lecture hl ha hc _ _ ih => exact .lecture hl ha hc ih

theorem isSome_loneImage? (h : Given cs cs') : (loneImage? cs').isSome = (loneImage? cs).isSome := by
  have hes := h.filter_isElement
  unfold loneImage?
  rw [h.flatMap_content]
  generalize cs.filter isElement = es at hes ⊢
  generalize cs'.filter isElement = es' at hes ⊢
  cases hes with
  | nil => rfl
  | @other n _ _ hn _ =>
    cases n with
    | element => exact absurd hn (by simp [isElement, tag?])
    | _ => rfl
  | element _ _ hs | lecture _ _ _ hs =>
    cases hs with
    | nil => dsimp only; split <;> rfl
    | _ => rfl

/-! ### the mark of a table -/

variable {p : Tag → Bool} {f f' : Tag → List Node → Node}

theorem firstAll?_of_sources (hp : IsBystander p) (ha : AreSources sources) : firstAll? p sources = none := by
  rw [firstAll?, List.find?_eq_none]
  intro e he hany
  obtain ⟨t, htag, ht⟩ := exists_tag_of_any hany
  exact (hp t ht).2 (ha.isElement (List.mem_filterMap.mpr ⟨e, he, htag⟩)).1

theorem mapFirstAll?_append_of_sources (hp : IsBystander p) (ha : AreSources sources) (ns : List Node) :
    mapFirstAll? p f (ns ++ sources) = (mapFirstAll? p f ns).map (· ++ sources) := by
  have hnone : mapFirstAll? p f sources = none := by
    rw [← Option.not_isSome_iff_eq_none, mapFirstAll?_isSome, firstAll?_of_sources hp ha]
    decide
  induction ns with
  | nil => rw [List.nil_append, hnone, mapFirstAll?_nil]; rfl
  | cons n ns ih =>
    rw [List.cons_append]
    cases h : n.mapFirst? p f with
    | some m => rw [mapFirstAll?_cons_of_some h, mapFirstAll?_cons_of_some h]; rfl
    | none =>
      rw [mapFirstAll?_cons_of_none h, mapFirstAll?_cons_of_none h, ih, Option.map_map, Option.map_map]
      rfl

/-- The first element of a kind is the same on both sides. -/
theorem first (hp : IsBystander p) (h : Given ns ns') : (firstAll? p ns = none ∧ firstAll? p ns' = none) ∨
    ∃ t ds ds', firstAll? p ns = some (.element t ds) ∧ firstAll? p ns' = some (.element t ds') ∧ Given ds ds' := by
  induction h with
  | nil => exact .inl ⟨rfl, rfl⟩
  | other hn _ ih =>
    have hnone : ∀ ns, firstAll? p (_ :: ns) = firstAll? p ns := fun ns => by
      rw [firstAll?_cons, first?, elements_of_not_isElement hn]
      rfl
    rwa [hnone, hnone]
  | @element t ds ds' ns ns' hc _ ihc ih =>
    rw [firstAll?_cons, firstAll?_cons, first?_element, first?_element]
    split
    · exact .inr ⟨t, ds, ds', rfl, rfl, hc⟩
    · rcases ihc with ⟨h, h'⟩ | ⟨u, es, es', h, h', hes⟩
      · rwa [h, h', Option.none_or, Option.none_or]
      · exact .inr ⟨u, es, es', by rw [h]; rfl, by rw [h']; rfl, hes⟩
  | @lecture t ds ds' sources ns ns' hl ha hc _ ihc ih =>
    have hnot : ¬p t = true := fun e => absurd hl (by simp [(hp t e).1])
    have happend : firstAll? p (ds' ++ sources) = firstAll? p ds' := by
      rw [firstAll?, elementsAll_append, List.find?_append, ← firstAll?, ← firstAll?, firstAll?_of_sources hp ha,
        Option.or_none]
    rw [firstAll?_cons, firstAll?_cons, first?_element, first?_element, if_neg hnot, if_neg hnot, happend]
    rcases ihc with ⟨h, h'⟩ | ⟨u, es, es', h, h', hes⟩
    · rwa [h, h', Option.none_or, Option.none_or]
    · exact .inr ⟨u, es, es', by rw [h]; rfl, by rw [h']; rfl, hes⟩

/-- The first element of a kind exchanged on both sides. -/
theorem exchange (hp : IsBystander p) (h : Given ns ns') (hf : ∀ t ds ds', Given ds ds' → Given [f t ds] [f' t ds']) :
    (mapFirstAll? p f ns = none ∧ mapFirstAll? p f' ns' = none) ∨
      ∃ ms ms', mapFirstAll? p f ns = some ms ∧ mapFirstAll? p f' ns' = some ms' ∧ Given ms ms' := by
  -- where the head does not hold one the search goes on
  have next {n n' : Node} {ns ns' : List Node} (hn : n.mapFirst? p f = none) (hn' : n'.mapFirst? p f' = none)
      (h : Given [n] [n']) (ih : (mapFirstAll? p f ns = none ∧ mapFirstAll? p f' ns' = none) ∨
        ∃ ms ms', mapFirstAll? p f ns = some ms ∧ mapFirstAll? p f' ns' = some ms' ∧ Given ms ms') :
      (mapFirstAll? p f (n :: ns) = none ∧ mapFirstAll? p f' (n' :: ns') = none) ∨
        ∃ ms ms', mapFirstAll? p f (n :: ns) = some ms ∧ mapFirstAll? p f' (n' :: ns') = some ms' ∧ Given ms ms' := by
    rw [mapFirstAll?_cons_of_none hn, mapFirstAll?_cons_of_none hn']
    rcases ih with ⟨e, e'⟩ | ⟨ms, ms', e, e', hms⟩
    · exact .inl ⟨by rw [e]; rfl, by rw [e']; rfl⟩
    · exact .inr ⟨n :: ms, n' :: ms', by rw [e]; rfl, by rw [e']; rfl, h.cons hms⟩
  induction h with
  | nil => exact .inl ⟨mapFirstAll?_nil, mapFirstAll?_nil⟩
  | other hn _ ih => exact next (mapFirst?_of_not_isElement hn) (mapFirst?_of_not_isElement hn) (.other hn .nil) ih
  | @element t ds ds' ns ns' hc hs ihc ih =>
    have hhead := mapFirst?_element (p := p) (f := f) t ds
    have hhead' := mapFirst?_element (p := p) (f := f') t ds'
    split at hhead
    · rw [if_pos ‹_›] at hhead'
      exact .inr ⟨_, _, mapFirstAll?_cons_of_some hhead ns, mapFirstAll?_cons_of_some hhead' ns',
        (hf t ds ds' hc).cons hs⟩
    · rw [if_neg ‹_›] at hhead'
      rcases ihc with ⟨e, e'⟩ | ⟨es, es', e, e', hes⟩
      · rw [e] at hhead
        rw [e'] at hhead'
        exact next hhead hhead' (.element t hc .nil) ih
      · rw [e] at hhead
        rw [e'] at hhead'
        exact .inr ⟨_, _, mapFirstAll?_cons_of_some hhead ns, mapFirstAll?_cons_of_some hhead' ns', .element t hes hs⟩
  | @lecture t ds ds' sources ns ns' hl ha hc hs ihc ih =>
    have hnot : ¬p t = true := fun e => absurd hl (by simp [(hp t e).1])
    have hhead := mapFirst?_element (p := p) (f := f) t ds
    have hhead' := mapFirst?_element (p := p) (f := f') t (ds' ++ sources)
    rw [if_neg hnot] at hhead hhead'
    rw [mapFirstAll?_append_of_sources hp ha] at hhead'
    rcases ihc with ⟨e, e'⟩ | ⟨es, es', e, e', hes⟩
    · rw [e] at hhead
      rw [e'] at hhead'
      exact next hhead hhead' (.lecture hl ha hc .nil) ih
    · rw [e] at hhead
      rw [e'] at hhead'
      exact .inr ⟨_, _, mapFirstAll?_cons_of_some hhead ns, mapFirstAll?_cons_of_some hhead' ns',
        .lecture hl ha hes hs⟩

theorem isBystander_name {name : Text} (hv : name ≠ "video".toList) (hs : name ≠ "source".toList) :
    IsBystander fun t => t.name = name := fun t ht => by
  have hname : t.name = name := of_decide_eq_true ht
  exact ⟨isLecture_of_name (hname ▸ hv), hname ▸ hs⟩

theorem isBystander_cells : IsBystander (isOneOf cellNames) := fun t ht => by
  obtain ⟨n, hn, e⟩ := isOneOf_iff.mp ht
  have hne : ∀ n ∈ cellNames, n.toList ≠ "video".toList ∧ n.toList ≠ "source".toList := by decide
  exact ⟨isLecture_of_name (e ▸ (hne n hn).1), e ▸ (hne n hn).2⟩

/-- Where there is an element there is a tag, and else there is nothing to hand sources to. -/
theorem eq_or_mem_writeAllIn (v : Bool) (h : Given ns ns') :
    ns' = ns ∨ ('<' ∈ writeAllIn v ns ∧ '<' ∈ writeAllIn v ns') := by
  have opened (tag : Tag) (cs ns : List Node) : '<' ∈ writeAllIn v (.element tag cs :: ns) := by
    obtain ⟨t, ht⟩ := exists_writeIn_element v tag cs
    rw [writeAllIn, ht]
    exact List.mem_cons_self
  induction h with
  | nil => exact .inl rfl
  | other _ _ ih =>
    rw [writeAllIn, writeAllIn]
    rcases ih with rfl | ⟨h, h'⟩
    · exact .inl rfl
    · exact .inr ⟨List.mem_append_right _ h, List.mem_append_right _ h'⟩
  | element | lecture => exact .inr ⟨opened .., opened ..⟩

theorem readMark (tag : Tag) (h : Given cs cs') :
    Given [(Page.readMark (.element tag cs)).1] [(Page.readMark (.element tag cs')).1] := by
  rcases h.eq_or_mem_writeAllIn (isVerbatim tag) with rfl | ⟨hlt, hlt'⟩
  · exact refl _
  · have unmarked {ds : List Node} (hds : '<' ∈ writeAllIn (isVerbatim tag) ds) :
        (Page.readMark (.element tag ds)).1 = .element tag ds := by
      have hne {w : Text} (hw : '<' ∉ w) : (Node.element tag ds).writeInner ≠ w := fun e => hw (e ▸ hds)
      rw [Page.readMark, if_neg (hne (by decide)), if_neg (hne (by decide))]
    rw [unmarked hlt, unmarked hlt']
    exact .element tag h .nil

/-- What a table holds with its mark taken off. -/
theorem markTable (tag : Tag) (h : Given cs cs') : Given (Page.markTable tag cs).2 (Page.markTable tag cs').2 := by
  have hthead : IsBystander fun t => t.name = "thead".toList := isBystander_name (by decide) (by decide)
  have headingCell : (firstHeadingCell? cs = none ∧ firstHeadingCell? cs' = none) ∨ ∃ t ds ds',
      firstHeadingCell? cs = some (.element t ds) ∧ firstHeadingCell? cs' = some (.element t ds') ∧ Given ds ds' := by
    unfold firstHeadingCell?
    rcases h.first hthead with ⟨e, e'⟩ | ⟨t, ds, ds', e, e', hds⟩
    · rw [e, e']
      exact .inl ⟨rfl, rfl⟩
    · rw [e, e']
      exact hds.first isBystander_cells
  rcases headingCell with ⟨e, e'⟩ | ⟨t, ds, ds', e, e', hds⟩
  · rw [markTable_of_none e, markTable_of_none e']
    exact h
  · rw [markTable_of_some e, markTable_of_some e']
    have getD {p : Tag → Bool} {f f' : Tag → List Node → Node} (hp : IsBystander p) {es es' : List Node}
        (hes : Given es es') (hf : ∀ t ds ds', Given ds ds' → Given [f t ds] [f' t ds']) :
        Given ((mapFirstAll? p f es).getD es) ((mapFirstAll? p f' es').getD es') := by
      rcases hes.exchange hp hf with ⟨e, e'⟩ | ⟨ms, ms', e, e', hms⟩
      · rw [e, e']
        exact hes
      · rw [e, e']
        exact hms
    exact getD hthead h fun u es es' hes => .element u (getD isBystander_cells hes fun _ _ _ _ => hds.readMark t) .nil

end Given
end
end Lectern.Page
