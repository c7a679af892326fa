import Lectern.Proofs.Walk.Given
import Lectern.Proofs.Walk.Plain

/-!
# What a walk comes upon

A walk changes the cells of a row and the items of a list one by one, as paragraphs.  `Upon` says of a row or a list
that a walk comes to it: the elements around it are such as the walk goes into, none of them gives way to something
else, and no row is looked for in a row.

* `givesWay`      something else may come in the place of a paragraph;
* `Opens`         what the walk goes on with inside a paragraph;
* `Upon`          the walk comes upon a row or a list;
* `Upon.given`    it does so when sources have been handed out.
-/

namespace Lectern.Page
open Text Html Html.Node

/-- The sigil puts something else in the place of a paragraph, or takes it away. -/
def displaces : Sigil → Bool
  | .lecture | .animation | .anchor | .video => true
  | .small | .alert | .embed => false

/-- Something else may come in the place of a paragraph: such a sigil acts on it, or it holds nothing but an image. -/
def givesWay (c : Context) (tag : Tag) (cs : List Node) : Bool :=
  match Sigil.select? c.sigils (Node.element tag cs).writeInner with
  | some s => displaces s
  | none => (loneImage? cs).isSome

/-- A node that is no paragraph of these names, or does not give way. -/
def stays (c : Context) (names : List String) : Node → Bool
  | .element tag cs => !(isOneOf names tag && givesWay c tag cs)
  | _ => true

/-- A row of a table, or a list. -/
def isRowOrList (t : Tag) : Bool := isOneOf ["tr", "ul", "ol"] t

/-- The names of the cells of a row and of the items of a list. -/
def placeNames (t : Tag) : List String := if isRow t then cellNames else ["li"]

/-- What a walk goes on with inside a paragraph: what it holds, or what is read anew of it. -/
inductive Opens (c : Context) (tag : Tag) (cs : List Node) : List Node → Prop where
  | plain (hs : Sigil.select? c.sigils (Node.element tag cs).writeInner = none) (hi : loneImage? cs = none)
    (hu : Sigil.unescape? c.sigils (Node.element tag cs).writeInner = none) : Opens c tag cs cs
  | escaped {t : Text} {ds : List Node} (hl : NoLecture cs)
    (hs : Sigil.select? c.sigils (Node.element tag cs).writeInner = none) (hi : loneImage? cs = none)
    (hu : Sigil.unescape? c.sigils (Node.element tag cs).writeInner = some t)
    (hr : Appearance.reread tag t = .ok ds) : Opens c tag cs ds
  | dressed {s : Sigil} {ds : List Node} (hl : NoLecture cs)
    (hs : Sigil.select? c.sigils (Node.element tag cs).writeInner = some s) (hd : s = .small ∨ s = .alert)
    (hr : Appearance.reread tag ((Node.element tag cs).writeInner.drop s.mark.length) = .ok ds) : Opens c tag cs ds

/-- The visit leaves an element with this tag as it is, but for its tag. -/
def Visit.leaves (tag : Tag) : Visit → Bool
  | .flow => [Part.link, .image, .other].contains (Part.ofName tag.name)
  | .paragraphIf names => !isOneOf names tag
  | _ => false

/-- An element with this tag is no row of the generation, or an earlier one, and none such is read anew of it. -/
def IsLate (g : Nat) (t : Tag) : Prop :=
  (isRow t = true → g < t.generation) ∧ (isOneOf ("pre" :: paragraphNames) t = true → g ≤ t.generation)

/-- Trees in which a walk over the rows of the generation finds none. -/
def Late (g : Nat) (ns : List Node) : Prop := ∀ t ∈ tagsAll ns, IsLate g t

/-- A visit that goes no deeper than `k` comes upon a row or a list with the tag `t` that holds `ds`. -/
inductive Upon (c : Context) (t : Tag) (ds : List Node) : Nat → Visit → Node → Prop where
  | list {k : Nat} (ht : isRowOrList t = true) (hp : Part.ofName t.name = .list) : Upon c t ds k .flow (.element t ds)
  | row {k g : Nat} (ht : isRowOrList t = true) : Upon c t ds k (.rows g) (.element t ds)
  /-- In an element that the visit does not go into. -/
  | apart {k : Nat} {how : Visit} {tag : Tag} {cs : List Node} (ht : isRowOrList t = true)
    (hl : how.leaves tag = true) (he : .element t ds ∈ elementsAll [.element tag cs]) :
    Upon c t ds k how (.element tag cs)
  | wrapper {k : Nat} {tag : Tag} {cs : List Node} {n : Node} (hp : Part.ofName tag.name = .wrapper) (hn : n ∈ cs)
    (h : Upon c t ds k .flow n) : Upon c t ds (k + 1) .flow (.element tag cs)
  | item {k : Nat} {tag : Tag} {cs : List Node} {n : Node} (hp : Part.ofName tag.name = .list) (hn : n ∈ cs)
    (h : Upon c t ds k (.paragraphIf ["li"]) n) : Upon c t ds (k + 1) .flow (.element tag cs)
  /-- In a table with its mark taken off. -/
  | table {k : Nat} {tag : Tag} {cs : List Node} {n : Node} (hp : Part.ofName tag.name = .table)
    (hn : n ∈ (markTable tag cs).2) (h : Upon c t ds k (.rows tag.generation) n) :
    Upon c t ds (k + 1) .flow (.element tag cs)
  | paragraph {k : Nat} {tag : Tag} {cs : List Node} (hp : Part.ofName tag.name = .paragraph)
    (h : Upon c t ds k .paragraph (.element tag cs)) : Upon c t ds (k + 1) .flow (.element tag cs)
  | paragraphIf {k : Nat} {names : List String} {tag : Tag} {cs : List Node} (hi : isOneOf names tag = true)
    (h : Upon c t ds k .paragraph (.element tag cs)) : Upon c t ds (k + 1) (.paragraphIf names) (.element tag cs)
  /-- In what the walk goes on with inside a paragraph. -/
  | within {k : Nat} {tag : Tag} {cs es : List Node} {n : Node} (hp : isOneOf paragraphNames tag = true)
    (ho : Opens c tag cs es) (hn : n ∈ es) (h : Upon c t ds k .flow n) :
    Upon c t ds (k + 1) .paragraph (.element tag cs)
  /-- In a cell in which no row is found when the row is looked through once more. -/
  | cell {k g : Nat} {tag : Tag} {cs : List Node} {n : Node} (hr : tag.name = "tr".toList ∧ tag.generation = g)
    (hn : n ∈ cs) (hl : Late g [n]) (h : Upon c t ds k (.paragraphIf cellNames) n) :
    Upon c t ds (k + 1) (.rows g) (.element tag cs)
  | deeper {k g : Nat} {tag : Tag} {cs : List Node} {n : Node} (hr : ¬(tag.name = "tr".toList ∧ tag.generation = g))
    (hn : n ∈ cs) (h : Upon c t ds k (.rows g) n) : Upon c t ds (k + 1) (.rows g) (.element tag cs)

section
variable {c : Context} {t tag : Tag} {cs cs' ds es ns ns' : List Node} {n n' : Node} {g k : Nat} {how : Visit}

theorem isLecture_of_isRowOrList (h : isRowOrList t = true) : isLecture t = false := by
  obtain ⟨n, hn, e⟩ := isOneOf_iff.mp h
  have hne : ∀ n ∈ ["tr", "ul", "ol"], n.toList ≠ "video".toList := by decide
  exact isLecture_of_name (e ▸ hne n hn)

theorem isLecture_of_paragraph (h : isOneOf paragraphNames tag = true) : isLecture tag = false := by
  obtain ⟨n, hn, e⟩ := isOneOf_iff.mp h
  have hne : ∀ n ∈ paragraphNames, n.toList ≠ "video".toList := by decide
  exact isLecture_of_name (e ▸ hne n hn)

/-- The names of rows and of what may be read anew. -/
def agedNames : List String := "tr" :: "pre" :: paragraphNames

theorem isLate_of_name (h : isOneOf agedNames t = false) : IsLate g t := by
  have hno (names : List String) (hn : ∀ name ∈ names, name ∈ agedNames) : ¬isOneOf names t = true := fun e =>
    absurd (isOneOf_mono hn e) (by simp [h])
  refine ⟨fun e => absurd ?_ (hno ["tr"] (by decide)), fun e => absurd e (hno _ (by decide))⟩
  exact isOneOf_iff.mpr ⟨"tr", List.mem_singleton_self _, (of_decide_eq_true e).symm⟩

namespace Given

/-! ## sources handed to a paragraph -/

theorem select?_eq (h : Given cs cs') (table : List Sigil) :
    Sigil.select? table (Node.element tag cs').writeInner = Sigil.select? table (Node.element tag cs).writeInner := by
  have hd (s : Sigil) : '<' ∉ s.doubled := fun hm => (List.mem_append.mp hm).elim (not_mem_mark s) (not_mem_mark s)
  have hfires : (fun s : Sigil => s.fires (Node.element tag cs').writeInner) =
      fun s : Sigil => s.fires (Node.element tag cs).writeInner := by
    funext s
    rw [Sigil.fires, Sigil.fires, writeInner, writeInner, h.startsWith_eq _ (not_mem_mark s), h.startsWith_eq _ (hd s)]
  rw [Sigil.select?, Sigil.select?, hfires]

theorem unescape?_eq_none (h : Given cs cs') {table : List Sigil}
    (hu : Sigil.unescape? table (Node.element tag cs).writeInner = none) :
    Sigil.unescape? table (Node.element tag cs').writeInner = none := by
  have hd (s : Sigil) : '<' ∉ s.doubled := fun hm => (List.mem_append.mp hm).elim (not_mem_mark s) (not_mem_mark s)
  rw [Sigil.unescape?, Option.map_eq_none_iff, List.find?_eq_none] at hu ⊢
  intro s hs
  rw [writeInner, h.startsWith_eq _ (hd s)]
  exact hu s hs

theorem loneImage?_eq_none (h : Given cs cs') (hi : loneImage? cs = none) : loneImage? cs' = none := by
  rw [← Option.not_isSome_iff_eq_none, h.isSome_loneImage?, hi]
  decide

theorem opens (h : Given cs cs') (ho : Opens c tag cs es) : ∃ es', Opens c tag cs' es' ∧ Given es es' := by
  cases ho with
  | plain hs hi hu =>
    exact ⟨cs', .plain ((h.select?_eq _).trans hs) (h.loneImage?_eq_none hi) (h.unescape?_eq_none hu), h⟩
  | escaped hl hs hi hu hr =>
    obtain rfl := h.eq_of_noLecture hl
    exact ⟨es, .escaped hl hs hi hu hr, .refl es⟩
  | dressed hl hs hd hr =>
    obtain rfl := h.eq_of_noLecture hl
    exact ⟨es, .dressed hl hs hd hr, .refl es⟩

theorem late (h : Given ns ns') (hl : Late g ns) : Late g ns' := fun t ht => by
  rcases h.mem_tagsAll ht with ht | ⟨hname, -⟩
  · exact hl t ht
  · refine isLate_of_name ?_
    rw [isOneOf, hname]
    decide

end Given

/-! ## sources handed to what is visited -/

theorem isLecture_of_part {part : Part} (hp : Part.ofName tag.name = part) (ho : part ≠ .other) :
    isLecture tag = false := by
  obtain ⟨n, hn, e⟩ := isOneOf_iff.mp (isOneOf_of_part hp ho)
  have hne : ∀ n ∈ part.names, n.toList ≠ "video".toList := by cases part <;> decide
  exact isLecture_of_name (e ▸ hne n hn)

theorem Upon.given (h : Upon c t ds k how n) (hg : Given [n] [n']) :
    ∃ ds', Upon c t ds' k how n' ∧ Given ds ds' := by
  induction h generalizing n' with
  | list ht hp =>
    obtain ⟨ds', rfl, hds⟩ := hg.of_element (isLecture_of_isRowOrList ht)
    exact ⟨ds', .list ht hp, hds⟩
  | row ht =>
    obtain ⟨ds', rfl, hds⟩ := hg.of_element (isLecture_of_isRowOrList ht)
    exact ⟨ds', .row ht, hds⟩
  | apart ht hl he =>
    obtain ⟨ds', he', hds⟩ := hg.exists_of_mem_elementsAll (isLecture_of_isRowOrList ht) he
    obtain ⟨cs', rfl, -⟩ := hg.exists_children
    exact ⟨ds', .apart ht hl he', hds⟩
  | wrapper hp hn _ ih =>
    obtain ⟨cs', rfl, hcs⟩ := hg.exists_children
    obtain ⟨m, hm, hnm⟩ := hcs _ hn
    exact (ih hnm).imp fun ds' h => ⟨.wrapper hp hm h.1, h.2⟩
  | item hp hn _ ih =>
    obtain ⟨cs', rfl, hcs⟩ := hg.exists_children
    obtain ⟨m, hm, hnm⟩ := hcs _ hn
    exact (ih hnm).imp fun ds' h => ⟨.item hp hm h.1, h.2⟩
  | table hp hn _ ih =>
    obtain ⟨cs', rfl, hcs⟩ := hg.of_element (isLecture_of_part hp (by decide))
    obtain ⟨m, hm, hnm⟩ := (hcs.markTable _).exists_of_mem hn
    exact (ih hnm).imp fun ds' h => ⟨.table hp hm h.1, h.2⟩
  | paragraph hp _ ih =>
    obtain ⟨ds', h, hds⟩ := ih hg
    obtain ⟨cs', rfl, -⟩ := hg.exists_children
    exact ⟨ds', .paragraph hp h, hds⟩
  | paragraphIf hi _ ih =>
    obtain ⟨ds', h, hds⟩ := ih hg
    obtain ⟨cs', rfl, -⟩ := hg.exists_children
    exact ⟨ds', .paragraphIf hi h, hds⟩
  | within hp ho hn _ ih =>
    obtain ⟨cs', rfl, hcs⟩ := hg.of_element (isLecture_of_paragraph hp)
    obtain ⟨es', ho', hes⟩ := hcs.opens ho
    obtain ⟨m, hm, hnm⟩ := hes.exists_of_mem hn
    exact (ih hnm).imp fun ds' h => ⟨.within hp ho' hm h.1, h.2⟩
  | cell hr hn hl _ ih =>
    obtain ⟨cs', rfl, hcs⟩ := hg.exists_children
    obtain ⟨m, hm, hnm⟩ := hcs _ hn
    exact (ih hnm).imp fun ds' h => ⟨.cell hr hm (hnm.late hl) h.1, h.2⟩
  | deeper hr hn _ ih =>
    obtain ⟨cs', rfl, hcs⟩ := hg.exists_children
    obtain ⟨m, hm, hnm⟩ := hcs _ hn
    exact (ih hnm).imp fun ds' h => ⟨.deeper hr hm h.1, h.2⟩

end
end Lectern.Page
