import Lectern.Proofs.Html.Apart
import Lectern.Proofs.Html.Onward
import Lectern.Proofs.Markdown.Sound
import Lectern.Proofs.Walk.Met
import Lectern.Proofs.Walk.Places

/-!
# Trees of notes

* `Tidy`        a tree that notes are read as, with no row in a row, all of one generation;
* `Tidy.again`  what is written of it and read again is such a tree, with the same bones;
* `Shrinks`     some images are gone, and there are no new rows.
-/

namespace Lectern.Page
open Text Html Html.Node Markdown

abbrev NoRows (ns : List Node) : Prop := NoneOf "tr".toList ns

/-- No row stands in a row. -/
abbrev RowsApart (ns : List Node) : Prop := Apart "tr".toList ns

structure Tidy (g : Nat) (ns : List Node) : Prop where
  grown : Grown NoteOpening ns
  generation : ∀ t ∈ tagsAll ns, t.generation = g
  rows : RowsApart ns

section
variable {g : Nat} {tag : Tag} {cs ns ms : List Node} {n : Node}

theorem isRow_eq_false : isRow tag = false ↔ tag.name ≠ "tr".toList := decide_eq_false_iff_not

theorem noRows_cons : NoRows (n :: ns) ↔ NoRows [n] ∧ NoRows ns :=
  show NoneOf _ ([n] ++ ns) ↔ _ from noneOf_append

theorem noRows_element : NoRows [.element tag cs] ↔ isRow tag = false ∧ NoRows cs := by
  rw [isRow_eq_false]
  exact noneOf_element

theorem noRows_of_bones (h : bonesAll ms = bonesAll ns) (hm : NoRows ms) : NoRows ns := fun t ht => by
  have hbare : t.bare ∈ (tagsAll ms).map Tag.bare := map_bare_of_bones h ▸ List.mem_map_of_mem ht
  obtain ⟨u, hu, e⟩ := List.mem_map.mp hbare
  have hname : u.bare.name = t.bare.name := congrArg Tag.name e
  exact fun he => hm u hu (hname.trans he)

theorem rowsApart_of_bones (h : bonesAll ms = bonesAll ns) (hm : RowsApart ms) : RowsApart ns := by
  intro t cs he hrow
  have hbones : Node.element t.bare (bonesAll cs) ∈ elementsAll (bonesAll ms) :=
    h ▸ mem_elementsAll_bonesAll.mpr ⟨t, cs, he, rfl⟩
  obtain ⟨u, ds, hu, e⟩ := mem_elementsAll_bonesAll.mp hbones
  obtain ⟨ht, hcs⟩ := Node.element.inj e
  have hname : t.bare.name = u.bare.name := congrArg Tag.name ht
  exact noRows_of_bones hcs.symm (hm u ds hu (hname.symm.trans hrow))

namespace Tidy

theorem of_append (h : Tidy g (ms ++ ns)) : Tidy g ns := by
  refine ⟨?_, fun t ht => h.generation t (by rw [tagsAll_append]; exact List.mem_append_right _ ht),
    fun t cs he => h.rows t cs (by rw [elementsAll_append]; exact List.mem_append_right _ he)⟩
  induction ms with
  | nil => exact h.grown
  | cons m ms ih =>
    refine ih ⟨h.grown.tail, fun t ht => h.generation t ?_, fun t cs he => h.rows t cs ?_⟩
    · rw [List.cons_append, tagsAll_cons]
      exact List.mem_append_right _ ht
    · rw [List.cons_append, elementsAll_cons]
      exact List.mem_append_right _ he

theorem tail (h : Tidy g (n :: ns)) : Tidy g ns := of_append (show Tidy g ([n] ++ ns) from h)

theorem head (h : Tidy g (n :: ns)) : Tidy g [n] where
  grown := by
    cases h.grown with
    | text t _ => exact .text t .nil
    | element ht hv hc _ => exact .element ht hv hc .nil
  generation t ht := h.generation t (mem_tagsAll_of_mem List.mem_cons_self ht)
  rows t cs he := h.rows t cs (mem_elementsAll_head he)

theorem single (h : Tidy g ns) (he : .element tag cs ∈ elementsAll ns) : Tidy g [.element tag cs] where
  grown := h.grown.single he
  generation t ht := h.generation t (tagsAll_mono (fun _ => elementsAll_subset he) ht)
  rows t ds hd := h.rows t ds (elementsAll_subset he hd)

theorem children (h : Tidy g [.element tag cs]) : Tidy g cs where
  grown := h.grown.children
  generation t ht := h.generation t (by
    rw [tagsAll_cons, tags_element]
    exact List.mem_append_left _ (List.mem_cons_of_mem _ ht))
  rows t ds hd := h.rows t ds (mem_elementsAll_inside hd)

theorem inside (h : Tidy g ns) (he : .element tag cs ∈ elementsAll ns) : Tidy g cs := (h.single he).children

theorem isOf (h : Tidy g [.element tag cs]) : tag.IsOf NoteOpening ∧ tag.generation = g := by
  have ht : tag ∈ tagsAll [.element tag cs] := List.mem_cons_self
  exact ⟨h.grown.isOf ht, h.generation tag ht⟩

/-- What is written of such a tree and read again. -/
theorem again {t : Text} (h : Tidy g ns) (hg : Grown NoteOpening ms) (hb : bonesAll ms = bonesAll ns)
    (hw : writeAll ms = t) (g' : Nat) :
    ∃ ns', Node.parse t g' = .ok ns' ∧ bonesAll ns' = bonesAll ns ∧ Tidy g' ns' := by
  obtain ⟨ns', hread, hgrown, hbones, -⟩ := read_writeAll writable_noteOpening hg g'
  rw [hw] at hread
  exact ⟨ns', hread, hbones.trans hb, hgrown, fun t ht => (of_mem_tagsAll_parse hread ht).1,
    rowsApart_of_bones (hbones.trans hb).symm h.rows⟩

end Tidy
end

/-- The images that are left at the end of a walk were there before it, and there are no new rows. -/
structure Shrinks (ns ns' : List Node) : Prop where
  rows : NoRows ns → NoRows ns'
  images : (pictures (pruneAll ns')).Sublist (pictures ns)

section
variable {tag tag' : Tag} {cs cs' ns ns' : List Node} {n n' : Node} {a : Appearance}

theorem pruneAll_cons (n : Node) (ns : List Node) : pruneAll (n :: ns) = prune n ++ pruneAll ns := rfl

theorem pruneAll_single (n : Node) : pruneAll [n] = prune n := List.append_nil _

theorem prune_element (hs : tag.spent = false) (cs : List Node) :
    prune (.element tag cs) = [.element tag (pruneAll cs)] := by
  rw [prune, hs]
  rfl

mutual

theorem pictures_prune : (n : Node) → (pictures (prune n)).Sublist (pictures [n])
  | .element tag cs => by
    rw [prune, pictures_element]
    split
    · exact List.nil_sublist _
    · rw [pictures_element]
      exact (pictures_pruneAll cs).append_left _
  | .text _ | .aside _ | .note _ _ => List.Sublist.refl _

theorem pictures_pruneAll : (ns : List Node) → (pictures (pruneAll ns)).Sublist (pictures ns)
  | [] => List.Sublist.refl _
  | n :: ns => by
    rw [pruneAll_cons, pictures_append, pictures_cons n ns]
    exact (pictures_prune n).append (pictures_pruneAll ns)

end

namespace Shrinks

theorem refl (ns : List Node) : Shrinks ns ns := ⟨id, pictures_pruneAll ns⟩

theorem cons (h : Shrinks [n] [n']) (hs : Shrinks ns ns') : Shrinks (n :: ns) (n' :: ns') where
  rows hr := noRows_cons.mpr ((noRows_cons.mp hr).imp h.rows hs.rows)
  images := by
    rw [pruneAll_cons, pictures_append, pictures_cons n ns, ← pruneAll_single]
    exact h.images.append hs.images

theorem element (hn : tag'.name = tag.name) (ha : isImage tag = true → tag'.attributes = tag.attributes)
    (h : Shrinks cs cs') : Shrinks [.element tag cs] [.element tag' cs'] where
  rows hr := by
    obtain ⟨ht, hcs⟩ := noRows_element.mp hr
    exact noRows_element.mpr ⟨by rw [isRow, hn]; exact ht, h.rows hcs⟩
  images := by
    rw [pruneAll_single, prune, pictures_element]
    cases tag'.spent with
    | true => exact List.nil_sublist _
    | false =>
      have himage : isImage tag' = isImage tag := by rw [isImage, hn, isImage]
      rw [if_neg Bool.false_ne_true, pictures_element, himage]
      refine List.Sublist.append ?_ h.images
      split
      · rw [ha ‹_›]
      · exact List.Sublist.refl _

end Shrinks

/-! ## code and preformatted text -/

theorem isRow_of_span {t : Tag} (h : t.name = "span".toList) : isRow t = false ∧ isImage t = false := by
  rw [isRow, isImage, h]
  exact ⟨by decide, by decide⟩

theorem Tinted.bare {plain children : List Node} (h : Tinted tag plain children)
    (hp : ∀ t ∈ tagsAll plain, isRow t = false ∧ isImage t = false) :
    ∀ t ∈ tagsAll children, isRow t = false ∧ isImage t = false := by
  rcases h with rfl | h
  · exact hp
  · exact fun t ht => isRow_of_span (h t ht).1

/-- What a strip of times keeps is what its first element holds, read again. -/
theorem exists_reread_times {g : Nat} (ht : Tidy g [.element tag cs]) {inner : Node} {es : List Node}
    (hes : elementsAll cs = inner :: es) :
    ∃ t ds ns, inner = .element t ds ∧ Tidy (tag.generation + 1) ns ∧ bonesAll ns = bonesAll ds ∧
      Appearance.reread tag (['\n'] ++ strip inner.writeInner ++ ['\n']) = .ok ns := by
  have hmem : inner ∈ elementsAll cs := hes ▸ List.mem_cons_self
  have hel : inner.isElement = true := isElement_of_mem_elementsAll hmem
  cases inner with
  | element t ds =>
    have hds := ht.children.inside hmem
    obtain ⟨ms, -, -, hgrown, hwrite, hbones, -⟩ := hds.grown.stripped
    have hlines : Grown NoteOpening (.text ['\n'] :: (ms ++ [.text ['\n']])) :=
      .text _ (hgrown.append (.text _ .nil))
    have hinner : (Node.element t ds).writeInner = writeAll ds :=
      writeInner_element writable_noteOpening (ht.children.grown.isOf (mem_tagsAll_iff.mpr ⟨ds, hmem⟩)) ds
    obtain ⟨ns, hread, hb, hns⟩ := hds.again hlines (t := ['\n'] ++ strip (writeAll ds) ++ ['\n'])
      (by rw [bonesAll, bonesAll_append, hbones]; exact List.append_nil _)
      (by rw [← List.singleton_append, writeAll_append, writeAll_append, hwrite]; rfl) (tag.generation + 1)
    exact ⟨t, ds, ns, rfl, hns, hb, by rw [hinner]; exact hread⟩
  | _ => exact absurd hel Bool.false_ne_true

end
end Lectern.Page
