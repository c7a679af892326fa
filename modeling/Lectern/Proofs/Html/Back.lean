import Lectern.Proofs.Html.Grown
import Lectern.Proofs.Html.Values
import Mathlib.Data.List.Forall2

/-!
# A tree as it is written

A tree of text and of elements with plain names is written as tokens.  The elements alone are the bones of a tree.

* `Kind.Writable`   a kind of openings that are read as they are written;
* `bonesAll`        the elements of a tree alone;
* `Grown.reads`     a tree is written as its tokens;
* `Grown.withoutFirst`, `Grown.stripped`   trees for what is left of a written tree when its first sign,
  or the blanks at its ends, are taken off.
-/

namespace Lectern.Html
open Text Node

/-- Openings that are read as they are written. -/
structure Kind.Writable (P : Kind) : Prop where
  name : ∀ {name as}, P name as → IsName name
  attributes : ∀ {name as}, P name as → ∀ a ∈ as, IsAttributeName a.1
  ordinary : ∀ {name as}, P name as → isAsideName name = false ∧ name ≠ "meta".toList
  kept : ∀ {name as}, P name as → P name (Tag.kept name as)

namespace Node

mutual

/-- The tokens that a tree is written as. -/
def tokens : Node → List Token
  | .element tag cs =>
    if cs.isEmpty && tag.isVoid then [.opening tag.name tag.attributes true]
    else .opening tag.name tag.attributes false :: (tokensAll cs ++ [.closing tag.name])
  | .text t | .aside t => if t.isEmpty then [] else [.text t]
  | .note _ _ => []

def tokensAll : List Node → List Token
  | [] => []
  | n :: ns => n.tokens ++ tokensAll ns

end

mutual

/-- The elements of a tree alone, each by its name and its attributes. -/
def bones : Node → List Node
  | .element tag cs => [.element { name := tag.name, attributes := tag.attributes } (bonesAll cs)]
  | _ => []

def bonesAll : List Node → List Node
  | [] => []
  | n :: ns => n.bones ++ bonesAll ns

end

theorem bonesAll_append (ms ns : List Node) : bonesAll (ms ++ ns) = bonesAll ms ++ bonesAll ns := by
  induction ms with
  | nil => rfl
  | cons m ms ih => rw [List.cons_append, bonesAll, bonesAll, ih, List.append_assoc]

theorem tokens_element {tag : Tag} (hvoid : isVoidName tag.name = false) (cs : List Node) :
    (Node.element tag cs).tokens
      = .opening tag.name tag.attributes false :: (tokensAll cs ++ [.closing tag.name]) := by
  rw [tokens, isVoid_eq, hvoid, Bool.and_false, if_neg Bool.false_ne_true]

theorem bonesAll_single (n : Node) : bonesAll [n] = n.bones := List.append_nil _

mutual

theorem elementsAll_bones : (n : Node) → elementsAll n.bones = bonesAll n.elements
  | .element tag cs => by
    rw [bones, elementsAll_single, elements, elements, bonesAll, bones,
      elementsAll_bonesAll cs]
    rfl
  | .text _ | .aside _ | .note _ _ => rfl

theorem elementsAll_bonesAll : (ns : List Node) → elementsAll (bonesAll ns) = bonesAll (elementsAll ns)
  | [] => rfl
  | n :: ns => by
    rw [bonesAll, elementsAll_append, elementsAll_bones n, elementsAll_bonesAll ns, elementsAll_cons,
      bonesAll_append]

end

end Node

/-- What of a tag is in the bones. -/
def Tag.bare (t : Tag) : Tag := { name := t.name, attributes := t.attributes }

namespace Node

theorem mem_bonesAll {e : Node} {ns : List Node} :
    e ∈ bonesAll ns ↔ ∃ t cs, .element t cs ∈ ns ∧ e = .element t.bare (bonesAll cs) := by
  induction ns with
  | nil => exact ⟨fun h => absurd h List.not_mem_nil, fun ⟨_, _, h, _⟩ => absurd h List.not_mem_nil⟩
  | cons n ns ih =>
    rw [bonesAll, List.mem_append, ih]
    cases n with
    | element tag ds => simp [bones, Tag.bare, or_and_right, exists_or]
    | _ => simp [bones]

/-- The elements of the bones are the elements of the tree, each by its bones. -/
theorem mem_elementsAll_bonesAll {e : Node} {ns : List Node} :
    e ∈ elementsAll (bonesAll ns) ↔
      ∃ t cs, .element t cs ∈ elementsAll ns ∧ e = .element t.bare (bonesAll cs) := by
  rw [elementsAll_bonesAll, mem_bonesAll]

theorem tagsAll_bonesAll (ns : List Node) : tagsAll (bonesAll ns) = (tagsAll ns).map Tag.bare := by
  have ofElements (es : List Node) : (bonesAll es).filterMap tag? = (es.filterMap tag?).map Tag.bare := by
    induction es with
    | nil => rfl
    | cons n es ih =>
      rw [bonesAll, List.filterMap_append, ih]
      cases n <;> rfl
  rw [tagsAll, elementsAll_bonesAll, ofElements]
  rfl

/-- Trees with the same bones have the same tags, but for how they came to be. -/
theorem map_bare_of_bones {ms ns : List Node} (h : bonesAll ms = bonesAll ns) :
    (tagsAll ms).map Tag.bare = (tagsAll ns).map Tag.bare := by
  rw [← tagsAll_bonesAll, h, tagsAll_bonesAll]

end Node

section
variable {P : Kind} (hP : P.Writable)

/-! ## writing -/

theorem isVerbatim_eq_false {tag : Tag} (h : isAsideName tag.name = false) :
    isVerbatim tag = false ∧ isVerbatimName tag.name = false := by
  have hne : ∀ n ∈ ["script", "style", "template", "rt", "rp"], n.toList ≠ tag.name := fun n hn e =>
    absurd (List.any_eq_true.mpr ⟨n, hn, decide_eq_true e⟩) (Bool.eq_false_iff.mp h)
  have hs : tag.name ≠ "script".toList := fun e => hne "script" (by decide) e.symm
  have ht : tag.name ≠ "style".toList := fun e => hne "style" (by decide) e.symm
  exact ⟨by rw [isVerbatim, decide_eq_false hs, decide_eq_false ht]; rfl,
    by rw [isVerbatimName, decide_eq_false hs, decide_eq_false ht]; rfl⟩

namespace Tag.IsOf
variable {tag : Tag} (h : tag.IsOf P)
include hP h

theorem isName : IsName tag.name := by
  obtain ⟨⟨as, hp, -⟩, -⟩ := h
  exact hP.name hp

theorem ordinary : isAsideName tag.name = false ∧ tag.name ≠ "meta".toList := by
  obtain ⟨⟨as, hp, -⟩, -⟩ := h
  exact hP.ordinary hp

theorem self : P tag.name tag.attributes := by
  obtain ⟨⟨as, hp, ha⟩, -⟩ := h
  exact ha ▸ hP.kept hp

theorem isAttributeName {a : Text × Text} (ha : a ∈ tag.attributes) : IsAttributeName a.1 :=
  hP.attributes (h.self hP) a ha

theorem writtenAttributes_eq : writtenAttributes tag = tag.attributes := by
  rw [writtenAttributes, if_neg (h.ordinary hP).2]

omit hP in
theorem kept_attributes : Tag.kept tag.name tag.attributes = tag.attributes := by
  obtain ⟨⟨as, -, ha⟩, -⟩ := h
  rw [ha, Tag.kept_kept]

theorem writes_attributes : ∃ ts, List.Forall₂ WritesAttribute tag.attributes ts ∧
    ts.flatten = writeAttributes tag := by
  refine ⟨tag.attributes.map fun a => ' ' :: a.1 ++ '=' :: quotedValue a.2, ?_, ?_⟩
  · rw [List.forall₂_map_right_iff]
    exact List.forall₂_same.mpr fun a ha => writesAttribute_quotedValue (h.isAttributeName hP ha)
  · rw [writeAttributes, h.writtenAttributes_eq hP, List.flatMap]

theorem reads_openTag : Reads (openTag tag) [.opening tag.name tag.attributes false] := by
  obtain ⟨ts, hts, hw⟩ := h.writes_attributes hP
  have := reads_opening (h.isName hP) (isVerbatim_eq_false (h.ordinary hP).1).2 hts .plain
  rwa [hw] at this

theorem reads_closedTag : Reads (closedTag tag) [.opening tag.name tag.attributes true] := by
  obtain ⟨ts, hts, hw⟩ := h.writes_attributes hP
  have := reads_opening (h.isName hP) (isVerbatim_eq_false (h.ordinary hP).1).2 hts .closed
  rwa [hw] at this

theorem reads_closeTag : Reads (closeTag tag) [.closing tag.name] := reads_closing (h.isName hP)

end Tag.IsOf

include hP

theorem writeIn_element {tag : Tag} (ht : tag.IsOf P) (cs : List Node) :
    (Node.element tag cs).writeIn false
      = if cs.isEmpty && tag.isVoid then closedTag tag else openTag tag ++ writeAll cs ++ closeTag tag := by
  rw [writeIn, (isVerbatim_eq_false (ht.ordinary hP).1).1]
  rfl

theorem writeInner_element {tag : Tag} (ht : tag.IsOf P) (cs : List Node) :
    (Node.element tag cs).writeInner = writeAll cs := by
  rw [writeInner, (isVerbatim_eq_false (ht.ordinary hP).1).1, writeAll]

/-- A tree is written as its tokens. -/
theorem Grown.reads {ns : List Node} (h : Grown P ns) : Reads (writeAll ns) (tokensAll ns) := by
  induction h with
  | nil => exact reads_nil
  | @text t ns _ ih =>
    rw [writeAll, writeAllIn, tokensAll, tokens]
    refine Reads.append ?_ ih
    rw [writeIn]
    show Reads (escape t) _
    cases t with
    | nil => exact reads_nil
    | cons c t => exact reads_escape (List.cons_ne_nil c t)
  | @element tag cs ns ht hv _ _ ihc ihs =>
    rw [writeAll, writeAllIn, tokensAll, tokens, writeIn_element hP ht]
    refine Reads.append ?_ ihs
    split
    · exact ht.reads_closedTag hP
    · have := ((ht.reads_openTag hP).append ihc).append (ht.reads_closeTag hP)
      simpa using this

end

theorem Node.writeAll_append (ms ns : List Node) : writeAll (ms ++ ns) = writeAll ms ++ writeAll ns := by
  induction ms with
  | nil => rfl
  | cons m ms ih =>
    show m.writeIn false ++ writeAll (ms ++ ns) = m.writeIn false ++ writeAll ms ++ writeAll ns
    rw [ih, List.append_assoc]

/-! ## signs taken off -/

/-- The written form of a sign ends before that of the next one. -/
theorem escapeChar_append_inj {c d : Char} {s t : Text} (h : escapeChar c ++ s = escapeChar d ++ t) :
    c = d ∧ s = t := by
  unfold escapeChar at h
  split at h <;> split at h <;> simp_all <;> exact absurd h.1.symm ‹¬d = '&'›

theorem exists_escapeChar (c : Char) : ∃ d t, escapeChar c = d :: t ∧ d ≠ '<' := by
  unfold escapeChar
  split
  · exact ⟨_, _, rfl, by decide⟩
  · exact ⟨_, _, rfl, by decide⟩
  · exact ⟨_, _, rfl, by decide⟩
  · exact ⟨_, _, rfl, ‹_›⟩

section
variable {P : Kind}

/-- What is left of a written tree behind its first sign is a written tree. -/
theorem Grown.withoutFirst {ns : List Node} (h : Grown P ns) {c : Char} {rest : Text}
    (hw : writeAll ns = escapeChar c ++ rest) : ∃ ns', Grown P ns' ∧ writeAll ns' = rest ∧
      bonesAll ns' = bonesAll ns ∧ plainTextAll ns = c :: plainTextAll ns' := by
  obtain ⟨first, more, hfirst, hne⟩ := exists_escapeChar c
  induction h with
  | nil =>
    rw [hfirst] at hw
    exact nomatch hw
  | @text t ns hs ih =>
    have hwrite : writeAll (.text t :: ns) = escape t ++ writeAll ns := rfl
    rw [hwrite] at hw
    cases t with
    | nil =>
      exact ih hw
    | cons d t =>
      rw [escape, List.flatMap_cons, List.append_assoc] at hw
      obtain ⟨rfl, hrest⟩ := escapeChar_append_inj hw
      exact ⟨.text t :: ns, .text t hs, hrest, rfl, rfl⟩
  | @element tag cs ns ht hv hc hs =>
    obtain ⟨t, hbegin⟩ : ∃ t, (Node.element tag cs).writeIn false = '<' :: t := by
      rw [writeIn]
      split <;> exact ⟨_, rfl⟩
    rw [writeAll, writeAllIn, hbegin, hfirst] at hw
    exact absurd (List.cons.inj hw).1.symm hne

theorem escapeChar_of_isBlank {c : Char} (h : isBlank c = true) : escapeChar c = [c] := by
  unfold escapeChar
  split <;> first | exact absurd h (by decide) | rfl

theorem escape_append (s t : Text) : escape (s ++ t) = escape s ++ escape t := List.flatMap_append

/-- A text whose written form ends in a blank ends in it. -/
theorem exists_of_escape_eq {t rest : Text} {b : Char} (hb : isBlank b = true) (h : escape t = rest ++ [b]) :
    ∃ t', t = t' ++ [b] ∧ escape t' = rest := by
  rcases List.eq_nil_or_concat t with rfl | ⟨t', d, rfl⟩
  · exact absurd h.symm (by simp [escape])
  · rw [List.concat_eq_append, escape_append] at h
    have hd : escapeChar d = [d] ∨ ∃ u, escapeChar d = u ++ [';'] := by
      unfold escapeChar
      split
      · exact .inr ⟨"&amp".toList, rfl⟩
      · exact .inr ⟨"&lt".toList, rfl⟩
      · exact .inr ⟨"&gt".toList, rfl⟩
      · exact .inl rfl
    have hsign : escape [d] = escapeChar d := List.append_nil _
    rw [hsign] at h
    rcases hd with hd | ⟨u, hd⟩
    · rw [hd] at h
      obtain ⟨hrest, hlast⟩ := List.append_inj' h rfl
      obtain rfl := (List.cons.inj hlast).1
      exact ⟨t', List.concat_eq_append, hrest⟩
    · rw [hd, ← List.append_assoc] at h
      obtain ⟨-, hlast⟩ := List.append_inj' h rfl
      obtain rfl := (List.cons.inj hlast).1
      exact absurd hb (by decide)

/-- A tree of which nothing is written says nothing. -/
theorem Grown.plainTextAll_eq_nil {ns : List Node} (h : Grown P ns) (hw : writeAll ns = []) : plainTextAll ns = [] := by
  induction h with
  | nil => rfl
  | @text t ns _ ih =>
    obtain ⟨ht, hns⟩ : escape t = [] ∧ writeAll ns = [] := List.append_eq_nil_iff.mp hw
    cases t with
    | nil => exact ih hns
    | cons c t =>
      obtain ⟨d, u, hd, -⟩ := exists_escapeChar c
      rw [escape, List.flatMap_cons, hd] at ht
      cases ht
  | @element tag cs ns =>
    obtain ⟨he, -⟩ : (Node.element tag cs).writeIn false = [] ∧ writeAll ns = [] := List.append_eq_nil_iff.mp hw
    rw [writeIn] at he
    split at he <;> cases he

/-- What is left of a written tree before a blank at its end is a written tree. -/
theorem Grown.withoutLast {ns : List Node} (h : Grown P ns) {b : Char} (hb : isBlank b = true) {rest : Text}
    (hw : writeAll ns = rest ++ [b]) : ∃ ns', Grown P ns' ∧ writeAll ns' = rest ∧ bonesAll ns' = bonesAll ns ∧
      plainTextAll ns = plainTextAll ns' ++ [b] := by
  induction h generalizing rest with
  | nil => exact absurd hw.symm (by simp [writeAll, writeAllIn])
  | @text t ns hs ih =>
    have hwrite : writeAll (.text t :: ns) = escape t ++ writeAll ns := rfl
    rw [hwrite] at hw
    rcases List.eq_nil_or_concat (writeAll ns) with hnil | ⟨front, last, hlast⟩
    · rw [hnil, List.append_nil] at hw
      obtain ⟨t', rfl, hrest⟩ := exists_of_escape_eq hb hw
      refine ⟨.text t' :: ns, .text t' hs, ?_, rfl, ?_⟩
      · show escape t' ++ writeAll ns = rest
        rw [hnil, List.append_nil, hrest]
      · simp [plainTextAll, plainText, hs.plainTextAll_eq_nil hnil]
    · rw [hlast, List.concat_eq_append, ← List.append_assoc] at hw
      obtain ⟨hrest, hsign⟩ := List.append_inj' hw rfl
      have hfront : writeAll ns = front ++ [b] := by rw [hlast, List.concat_eq_append, hsign]
      obtain ⟨ns', hg, hw', hb', hsays⟩ := ih hfront
      refine ⟨.text t :: ns', .text t hg, ?_, hb', ?_⟩
      · show escape t ++ writeAll ns' = rest
        rw [hw', hrest]
      · rw [plainTextAll, plainTextAll, hsays, List.append_assoc]
  | @element tag cs ns ht hv hc hs ihc ihs =>
    have hwrite : writeAll (.element tag cs :: ns) = (Node.element tag cs).writeIn false ++ writeAll ns := rfl
    rw [hwrite] at hw
    rcases List.eq_nil_or_concat (writeAll ns) with hnil | ⟨front, last, hlast⟩
    · have hend : ∃ t, (Node.element tag cs).writeIn false = t ++ ['>'] := by
        rw [writeIn]
        split
        · exact ⟨'<' :: tag.name ++ writeAttributes tag ++ ['/'], by simp [closedTag]⟩
        · exact ⟨openTag tag ++ writeAllIn (isVerbatim tag) cs ++ ("</".toList ++ tag.name), by simp [closeTag]⟩
      obtain ⟨t, hend⟩ := hend
      rw [hnil, List.append_nil, hend] at hw
      obtain ⟨-, hsign⟩ := List.append_inj' hw rfl
      obtain rfl := (List.cons.inj hsign).1
      exact absurd hb (by decide)
    · rw [hlast, List.concat_eq_append, ← List.append_assoc] at hw
      obtain ⟨hrest, hsign⟩ := List.append_inj' hw rfl
      have hfront : writeAll ns = front ++ [b] := by rw [hlast, List.concat_eq_append, hsign]
      obtain ⟨ns', hg, hw', hb', hsays⟩ := ihs hfront
      refine ⟨.element tag cs :: ns', .element ht hv hc hg, ?_, ?_, ?_⟩
      · show (Node.element tag cs).writeIn false ++ writeAll ns' = rest
        rw [hw', hrest]
      · rw [bonesAll, bonesAll, hb']
      · rw [plainTextAll, plainTextAll, hsays, List.append_assoc]

theorem Grown.strippedLeft {ns : List Node} (h : Grown P ns) : ∃ ns' u, Grown P ns' ∧
    writeAll ns' = stripLeft (writeAll ns) ∧ bonesAll ns' = bonesAll ns ∧
    isAllBlank u = true ∧ plainTextAll ns = u ++ plainTextAll ns' := by
  obtain ⟨t, ht⟩ : ∃ t, writeAll ns = t := ⟨_, rfl⟩
  rw [ht, stripLeft]
  induction t generalizing ns with
  | nil => exact ⟨ns, [], h, ht, rfl, rfl, rfl⟩
  | cons c t ih =>
    by_cases hc : isBlank c = true
    · have hfirst : writeAll ns = escapeChar c ++ t := by
        rw [ht, escapeChar_of_isBlank hc]
        rfl
      obtain ⟨ns₁, hg₁, hw₁, hb₁, hs₁⟩ := h.withoutFirst hfirst
      obtain ⟨ns₂, u, hg₂, hw₂, hb₂, hu, hs₂⟩ := ih hg₁ hw₁
      refine ⟨ns₂, c :: u, hg₂, by rw [hw₂, List.dropWhile_cons_of_pos hc], hb₂.trans hb₁, ?_, ?_⟩
      · exact Bool.and_eq_true_iff.mpr ⟨hc, hu⟩
      · rw [hs₁, hs₂]
        rfl
    · exact ⟨ns, [], h, by rw [ht, List.dropWhile_cons_of_neg hc], rfl, rfl, rfl⟩

theorem Grown.strippedRight {ns : List Node} (h : Grown P ns) : ∃ ns' v, Grown P ns' ∧
    writeAll ns' = stripRight (writeAll ns) ∧ bonesAll ns' = bonesAll ns ∧
    isAllBlank v = true ∧ plainTextAll ns = plainTextAll ns' ++ v := by
  obtain ⟨t, ht⟩ : ∃ t : Text, writeAll ns = t.reverse := ⟨(writeAll ns).reverse, (List.reverse_reverse _).symm⟩
  rw [stripRight, ht, List.reverse_reverse]
  induction t generalizing ns with
  | nil => exact ⟨ns, [], h, ht, rfl, rfl, (List.append_nil _).symm⟩
  | cons c t ih =>
    by_cases hc : isBlank c = true
    · obtain ⟨ns₁, hg₁, hw₁, hb₁, hs₁⟩ := h.withoutLast hc (by rw [ht, List.reverse_cons])
      obtain ⟨ns₂, v, hg₂, hw₂, hb₂, hv, hs₂⟩ := ih hg₁ hw₁
      refine ⟨ns₂, v ++ [c], hg₂, by rw [hw₂, List.dropWhile_cons_of_pos hc], hb₂.trans hb₁, ?_, ?_⟩
      · rw [isAllBlank, List.all_append, Bool.and_eq_true_iff]
        exact ⟨hv, by simp [hc]⟩
      · rw [hs₁, hs₂, List.append_assoc]
    · exact ⟨ns, [], h, by rw [ht, List.dropWhile_cons_of_neg hc], rfl, rfl, (List.append_nil _).symm⟩

/-- What is left of a written tree between the blanks at its ends is a written tree, which says the same but for
blanks. -/
theorem Grown.stripped {ns : List Node} (h : Grown P ns) : ∃ ns' u v, Grown P ns' ∧
    writeAll ns' = strip (writeAll ns) ∧ bonesAll ns' = bonesAll ns ∧
    isAllBlank u = true ∧ isAllBlank v = true ∧ plainTextAll ns = u ++ plainTextAll ns' ++ v := by
  obtain ⟨ns₁, u, hg₁, hw₁, hb₁, hu, hs₁⟩ := h.strippedLeft
  obtain ⟨ns₂, v, hg₂, hw₂, hb₂, hv, hs₂⟩ := hg₁.strippedRight
  refine ⟨ns₂, u, v, hg₂, by rw [hw₂, hw₁, strip], hb₂.trans hb₁, hu, hv, ?_⟩
  rw [hs₁, hs₂, List.append_assoc]

end
end Lectern.Html
