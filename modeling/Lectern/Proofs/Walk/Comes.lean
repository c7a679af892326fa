import Lectern.Proofs.Walk.Spent
import Lectern.Proofs.Walk.Plain
import Lectern.Proofs.Walk.Visits

/-!
# What a walk comes to

* `Comes`        what a walk over some trees may come to: the trees, and what is made of them on the way;
* `Clear`        nowhere in that is a lecture video, or a row in a row;
* `Kept`         what becomes of such trees still holds no lecture video, and its rows are not met again;
* `Quiet`        and nothing in it has given its content away: code, images, links and the like;
* `Tidy.clear`   trees of notes are clear.
-/

namespace Lectern.Page
open Text Html Html.Node Markdown

/-- What a walk over some trees may come to: the trees and what stands in them, what a table holds when its mark is
taken off, and what is read anew of a paragraph or of a strip of times. -/
inductive Comes (ns : List Node) : List Node → Prop where
  | self : Comes ns ns
  | part {ms ds : List Node} (h : Comes ns ms) (hs : ∀ e ∈ elementsAll ds, e ∈ elementsAll ms) : Comes ns ds
  | table {ms cs : List Node} {tag : Tag} (h : Comes ns ms) (he : .element tag cs ∈ elementsAll ms)
    (hn : tag.name = "table".toList) : Comes ns (markTable tag cs).2
  | again {ms cs ds : List Node} {tag : Tag} {s : Sigil} (h : Comes ns ms) (he : .element tag cs ∈ elementsAll ms)
    (hn : isOneOf paragraphNames tag = true) (hs : startsWith s.mark (Node.element tag cs).writeInner = true)
    (hd : Appearance.reread tag ((Node.element tag cs).writeInner.drop s.mark.length) = .ok ds) : Comes ns ds
  | times {ms cs ds es : List Node} {tag : Tag} {inner : Node} (h : Comes ns ms)
    (he : .element tag cs ∈ elementsAll ms) (hn : tag.name = "pre".toList) (hi : elementsAll cs = inner :: es)
    (hd : Appearance.reread tag (['\n'] ++ strip inner.writeInner ++ ['\n']) = .ok ds) : Comes ns ds

theorem Comes.trans {ms ns es : List Node} (hm : Comes ns ms) (h : Comes ms es) : Comes ns es := by
  induction h with
  | self => exact hm
  | part _ hs ih => exact .part ih hs
  | table _ he hn ih => exact .table ih he hn
  | again _ he hn hs hd ih => exact .again ih he hn hs hd
  | times _ he hn hi hd ih => exact .times ih he hn hi hd

/-- Trees of one generation, in which nothing has given its content away.  The walk comes to no lecture video
there, and to no row in a row. -/
structure Clear (g : Nat) (ns : List Node) : Prop where
  fresh : ∀ t ∈ tagsAll ns, t.generation = g ∧ t.spent = false
  comes : ∀ ms, Comes ns ms → NoLecture ms ∧ RowsApart ms

theorem mem_tagsAll_markTable {t tag : Tag} {cs : List Node} (ht : t ∈ tagsAll (markTable tag cs).2) :
    t ∈ tagsAll cs := by
  cases h : firstHeadingCell? cs with
  | none => rwa [markTable_of_none h] at ht
  | some cell =>
    rw [markTable_of_some h] at ht
    refine withHeadingCell_lift (R := fun n n' => ∀ t ∈ n'.tags, t ∈ n.tags)
      (S := fun ns ns' => ∀ t ∈ tagsAll ns', t ∈ tagsAll ns) h ?_ ?_ ?_ ?_ t ht
    · intro t ht
      unfold readMark at ht
      split at ht
      · dsimp only at ht
        rw [tags_element]
        split at ht
        · rw [List.mem_singleton.mp ht]
          exact List.mem_cons_self
        · split at ht
          · rw [List.mem_singleton.mp ht]
            exact List.mem_cons_self
          · exact ht
      · exact ht
    · intro tag cs cs' h t ht
      rw [tags_element] at ht ⊢
      exact List.mem_cons.mpr ((List.mem_cons.mp ht).imp_right (h t))
    · intro n n' ns h t ht
      rw [tagsAll_cons, List.mem_append] at ht ⊢
      exact ht.imp_left (h t)
    · intro n ns ns' h t ht
      rw [tagsAll_cons, List.mem_append] at ht ⊢
      exact ht.imp_right (h t)

namespace Clear
variable {g : Nat} {tag : Tag} {cs ds ms ns : List Node} {n : Node}

theorem noLecture (h : Clear g ns) : NoLecture ns := (h.comes ns .self).1

theorem rows (h : Clear g ns) : RowsApart ns := (h.comes ns .self).2

theorem spents_eq_nil (h : Clear g ns) : spents ns = [] := Page.spents_eq_nil.mpr fun t ht => (h.fresh t ht).2

theorem mono (h : Clear g ns) (hs : ∀ e ∈ elementsAll ms, e ∈ elementsAll ns) : Clear g ms where
  fresh t ht := h.fresh t (tagsAll_mono hs ht)
  comes es he := h.comes es ((Comes.self.part hs).trans he)

theorem head (h : Clear g (n :: ns)) : Clear g [n] := h.mono fun _ he => mem_elementsAll_head he

theorem tail (h : Clear g (n :: ns)) : Clear g ns := h.mono fun _ he => mem_elementsAll_tail he

theorem children (h : Clear g [.element tag cs]) : Clear g cs := h.mono fun _ he => mem_elementsAll_inside he

theorem inside (h : Clear g ns) (he : .element tag cs ∈ elementsAll ns) : Clear g [.element tag cs] :=
  h.mono fun _ hm => elementsAll_subset he hm

theorem self (h : Clear g [.element tag cs]) : tag.generation = g ∧ tag.spent = false ∧ isLecture tag = false := by
  have ht : tag ∈ tagsAll [.element tag cs] := List.mem_cons_self
  exact ⟨(h.fresh tag ht).1, (h.fresh tag ht).2, h.noLecture tag ht⟩

theorem table (h : Clear g [.element tag cs]) (hn : tag.name = "table".toList) : Clear g (markTable tag cs).2 where
  fresh t ht := h.children.fresh t (mem_tagsAll_markTable ht)
  comes ms hm := h.comes ms ((Comes.self.table self_mem_elementsAll hn).trans hm)

/-- What is read anew of an element. -/
theorem of_reread (h : Clear g [.element tag cs]) {t : Text} (hd : Appearance.reread tag t = .ok ds)
    (hc : Comes [.element tag cs] ds) : Clear (g + 1) ds where
  fresh _ ht := h.self.1 ▸ of_mem_tagsAll_parse hd ht
  comes ms hm := h.comes ms (hc.trans hm)

end Clear

/-! ## trees of notes -/

section
variable {g : Nat} {ns : List Node}

/-- Every element that a walk over notes comes to is a tree of notes. -/
theorem Tidy.of_comes (h : Tidy g ns) {ms : List Node} (hc : Comes ns ms) {tag : Tag} {cs : List Node}
    (he : .element tag cs ∈ elementsAll ms) : ∃ k, Tidy k [.element tag cs] := by
  induction hc generalizing tag cs with
  | self => exact ⟨g, h.single he⟩
  | part _ hs ih => exact ih (hs _ he)
  | table _ ht _ ih =>
    obtain ⟨k, hk⟩ := ih ht
    exact ⟨k, (tidy_markTable hk).1.single he⟩
  | again _ hp _ hs hd ih =>
    obtain ⟨k, hk⟩ := ih hp
    obtain ⟨ds, hread, -, hds⟩ := exists_reread hk hs
    obtain rfl := Except.ok.inj (hread.symm.trans hd)
    exact ⟨_, hds.single he⟩
  | times _ hp _ hi hd ih =>
    obtain ⟨k, hk⟩ := ih hp
    obtain ⟨-, -, ds, -, hds, -, hread⟩ := exists_reread_times hk hi
    obtain rfl := Except.ok.inj (hread.symm.trans hd)
    exact ⟨_, hds.single he⟩

theorem Tidy.clear (h : Tidy g ns) : Clear g ns where
  fresh t ht := ⟨h.generation t ht, (h.grown.isOf ht).unspent⟩
  comes ms hm := by
    refine ⟨fun t ht => ?_, fun t cs he => ?_⟩
    · obtain ⟨cs, he⟩ := mem_tagsAll_iff.mp ht
      obtain ⟨k, hk⟩ := h.of_comes hm he
      exact isLecture_eq_false (hk.isNoteName List.mem_cons_self)
    · obtain ⟨k, hk⟩ := h.of_comes hm he
      exact hk.rows t cs self_mem_elementsAll

end

/-! ## what becomes of clear trees -/

section
variable {g : Nat} {tag tag' : Tag} {cs cs' ds ms ns ns' : List Node} {n n' : Node}

/-- What has become of trees of a generation: there is no lecture video, and where there were no rows, they are of
a later generation. -/
structure Kept (g : Nat) (ns ns' : List Node) : Prop where
  lectures : NoLecture ns'
  rows : ∀ t ∈ tagsAll ns', isRow t = true → g ≤ t.generation ∧ (NoRows ns → g < t.generation)

namespace Kept

theorem refl (h : Clear g ns) : Kept g ns ns where
  lectures := h.noLecture
  rows t ht hr := ⟨Nat.le_of_eq (h.fresh t ht).1.symm, fun hn => absurd (of_decide_eq_true hr) (hn t ht)⟩

theorem bare (h : ∀ t ∈ tagsAll ns', isRow t = false ∧ isLecture t = false) : Kept g ns ns' where
  lectures t ht := (h t ht).2
  rows t ht hr := absurd hr (by simp [(h t ht).1])

theorem cons (h : Kept g [n] [n']) (hs : Kept g ns ns') : Kept g (n :: ns) (n' :: ns') where
  lectures := noLecture_cons.mpr ⟨h.lectures, hs.lectures⟩
  rows t ht hr := by
    rw [tagsAll_cons, List.mem_append] at ht
    rcases ht with ht | ht
    · obtain ⟨hle, hlt⟩ := h.rows t (by rwa [tagsAll_single]) hr
      exact ⟨hle, fun hn => hlt (noRows_cons.mp hn).1⟩
    · exact ⟨(hs.rows t ht hr).1, fun hn => (hs.rows t ht hr).2 (noRows_cons.mp hn).2⟩

/-- What is made of a part of the trees. -/
theorem of_part (hs : NoRows ns → NoRows ms) (h : Kept g ms ns') : Kept g ns ns' where
  lectures := h.lectures
  rows t ht hr := ⟨(h.rows t ht hr).1, fun hn => (h.rows t ht hr).2 (hs hn)⟩

/-- What is made of trees that have been read anew. -/
theorem later (h : Kept (g + 1) ms ns') : Kept g ns ns' where
  lectures := h.lectures
  rows t ht hr := ⟨Nat.le_of_lt (h.rows t ht hr).1, fun _ => (h.rows t ht hr).1⟩

/-- Something new around the trees. -/
theorem around (hr : isRow tag = false) (hl : isLecture tag = false) (h : Kept g ns ns') :
    Kept g ns [.element tag ns'] where
  lectures := noLecture_element.mpr ⟨hl, h.lectures⟩
  rows t ht hrow := by
    rw [tagsAll_single] at ht
    rcases List.mem_cons.mp ht with rfl | ht
    · exact absurd hrow (by simp [hr])
    · exact h.rows t ht hrow

/-- An element with what it holds. -/
theorem element (hn : tag'.name = tag.name) (hg : tag'.generation = g) (hl : isLecture tag' = false)
    (h : Kept g cs cs') : Kept g [.element tag cs] [.element tag' cs'] where
  lectures := noLecture_element.mpr ⟨hl, h.lectures⟩
  rows t ht hr := by
    rw [tagsAll_single] at ht
    rcases List.mem_cons.mp ht with rfl | ht
    · refine ⟨Nat.le_of_eq hg.symm, fun hnone => absurd hr ?_⟩
      rw [isRow, hn, ← isRow, (noRows_element.mp hnone).1]
      exact Bool.false_ne_true
    · exact ⟨(h.rows t ht hr).1, fun hnone => (h.rows t ht hr).2 (noRows_element.mp hnone).2⟩

end Kept

/-- What has become of the trees, where nothing in it has given its content away. -/
structure Quiet (g : Nat) (ns ns' : List Node) : Prop extends Kept g ns ns' where
  spents : spents ns' = []

namespace Quiet

theorem refl (h : Clear g ns) : Quiet g ns ns := ⟨.refl h, h.spents_eq_nil⟩

theorem cons (h : Quiet g [n] [n']) (hs : Quiet g ns ns') : Quiet g (n :: ns) (n' :: ns') where
  toKept := h.toKept.cons hs.toKept
  spents := by rw [spents_cons, h.spents, hs.spents]; rfl

theorem element (hn : tag'.name = tag.name) (hg : tag'.generation = g) (hs : tag'.spent = false)
    (hl : isLecture tag' = false) (h : Quiet g cs cs') : Quiet g [.element tag cs] [.element tag' cs'] where
  toKept := h.toKept.element hn hg hl
  spents := by rw [spents_element hs, h.spents]

end Quiet

/-! ## code and preformatted text -/

variable {a : Appearance}

theorem quiet_spans (h : ∀ t ∈ tagsAll ns', t.name = "span".toList ∧ t.spent = false) : Quiet g ns ns' where
  toKept := .bare fun t ht => ⟨(isRow_of_span (h t ht).1).1, isLecture_of_name (by rw [(h t ht).1]; decide)⟩
  spents := spents_eq_nil.mpr fun t ht => (h t ht).2

theorem Tinted.quiet {plain children : List Node} (h : Tinted tag plain children) (hp : Quiet g cs plain) :
    Quiet g cs children := by
  rcases h with rfl | h
  · exact hp
  · exact quiet_spans fun t ht => ⟨(h t ht).1, (h t ht).2.2⟩

theorem quiet_finishCode (hc : Clear g [.element tag cs]) (hn : tag.name = "code".toList)
    (h : a.finishCode tag cs = .ok n) : Quiet g [.element tag cs] [n] := by
  obtain ⟨hg, hs, -⟩ := hc.self
  obtain ⟨value, code, children, rfl, ht⟩ := Appearance.finishCode_eq_ok h
  have hl : isLecture (tag.set "class" value) = false := isLecture_of_name (show tag.name ≠ _ by rw [hn]; decide)
  exact .element rfl hg hs hl (ht.quiet (quiet_spans fun t ht => absurd ht List.not_mem_nil))

theorem quiet_finishBlockCode (hc : Clear g [.element tag cs]) (hn : tag.name = "code".toList) {named : Option Tag}
    (h : a.finishBlockCode tag cs = .ok (n, named)) : Quiet g [.element tag cs] [n] := by
  obtain ⟨-, hcode⟩ | ⟨-, children, rfl, ht⟩ := Appearance.finishBlockCode_eq_ok h
  · exact quiet_finishCode hc hn hcode
  · obtain ⟨hg, hs, hl⟩ := hc.self
    exact .element rfl hg hs hl (ht.quiet (.refl hc.children))

theorem quiet_finishFirstCode (hc : Clear g [.element tag cs]) {named : Option Tag}
    (h : a.finishFirstCode tag cs = .ok (n, named)) : Quiet g [.element tag cs] [n] := by
  obtain ⟨rfl, -⟩ | ⟨t, ds, code, cs', hf, hb, hm, rfl⟩ := Appearance.finishFirstCode_eq_ok h
  · exact .refl hc
  · obtain ⟨hg, hs, hl⟩ := hc.self
    refine .element rfl hg hs hl ?_
    refine mapFirstAll?_lift (R := fun n n' => Clear g [n] → Quiet g [n] [n'])
      (S := fun ns ns' => Clear g ns → Quiet g ns ns') (f := fun _ _ => code)
      (fun hcode => quiet_finishBlockCode hcode (Appearance.name_of_firstCode hf) hb) ?_ ?_ ?_ cs hm hf hc.children
    · intro tag cs cs' h hc
      obtain ⟨hg, hs, hl⟩ := hc.self
      exact .element rfl hg hs hl (h hc.children)
    · exact fun n n' ns h hc => (h hc.head).cons (.refl hc.tail)
    · exact fun n ns ns' h hc => (Quiet.refl hc.head).cons (h hc.tail)

theorem quiet_finishPre (hc : Clear g [.element tag cs]) (hn : tag.name = "pre".toList) {named : Option Tag}
    (h : a.finishPre tag cs = .ok (n, named)) : Quiet g [.element tag cs] [n] := by
  obtain ⟨rfl, -⟩ | ⟨inner, es, ds, hes, hr, rfl, -⟩ | h := Appearance.finishPre_eq_ok h
  · exact .refl hc
  · obtain ⟨hg, hs, hl⟩ := hc.self
    have hds := hc.of_reread hr (Comes.self.times self_mem_elementsAll hn hes hr)
    exact .element rfl hg hs hl ⟨(Kept.refl hds).later, hds.spents_eq_nil⟩
  · exact quiet_finishFirstCode hc h

end
end Lectern.Page
