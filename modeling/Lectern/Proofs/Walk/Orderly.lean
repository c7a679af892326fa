import Lectern.Proofs.Walk.Comes

/-!
# Trees in which code stands apart

* `Reaches`    what a walk over some trees may come to, when sources are handed to the lecture videos on the way;
* `InTable`    nowhere in that is a table, a row in code or in preformatted text, or a lecture video in code;
* `InPage`     nowhere in that is a lecture video in code, and every table holds what may stand in a table;
* `Steady`     the rows in some trees hold what may stand in a table, and there are none in code.
-/

namespace Lectern.Page
open Text Html Html.Node

/-! ## sources handed to a lecture video -/

/-- Such nodes as paragraphs name. -/
def AreSources (ns : List Node) : Prop := ∀ n ∈ ns, ∃ address, n = sourceNode address

/-- Some trees with sources behind the others of their first lecture video, if they hold one. -/
def addSourcesAll? (sources ns : List Node) : Option (List Node) :=
  mapFirstAll? isLecture (fun tag cs => .element tag (cs ++ sources)) ns

section
variable {n n' : Node} {ns ns' sources cs ds ms : List Node} {tag : Tag} {address : Text}

theorem areSources_append (hm : AreSources ms) (hn : AreSources ns) : AreSources (ms ++ ns) := fun n h =>
  (List.mem_append.mp h).elim (hm n) (hn n)

theorem areSources_single (address : Text) : AreSources [sourceNode address] := fun _ h =>
  ⟨address, List.mem_singleton.mp h⟩

theorem AreSources.isElement (h : AreSources sources) {t : Tag} (ht : t ∈ tagsAll sources) :
    t.name = "source".toList ∧ t.spent = false := by
  obtain ⟨n, hn, hin⟩ := mem_tagsAll.mp ht
  obtain ⟨address, rfl⟩ := h n hn
  obtain rfl := List.mem_singleton.mp hin
  exact ⟨rfl, rfl⟩

theorem addSourcesAll?_cons_of_some (h : addSources? sources n = some n') (ns : List Node) :
    addSourcesAll? sources (n :: ns) = some (n' :: ns) := mapFirstAll?_cons_of_some h ns

theorem addSourcesAll?_cons_of_none (h : addSources? sources n = none) (ns : List Node) :
    addSourcesAll? sources (n :: ns) = (addSourcesAll? sources ns).map (n :: ·) := mapFirstAll?_cons_of_none h ns

theorem addSources?_element (sources : List Node) (tag : Tag) (cs : List Node) :
    addSources? sources (.element tag cs) = if isLecture tag then some (.element tag (cs ++ sources))
      else (addSourcesAll? sources cs).map (.element tag ·) := mapFirst?_element tag cs

mutual

/-- An element of a tree that has been given sources is one of them, or was there, and holds what it held or has been
given the sources. -/
theorem mem_addSources? : (n : Node) → {n' : Node} → addSources? sources n = some n' →
    .element tag ds ∈ n'.elements → .element tag ds ∈ elementsAll sources ∨ ∃ cs, .element tag cs ∈ n.elements ∧
      (ds = cs ∨ (isLecture tag = true ∧ ds = cs ++ sources) ∨ addSourcesAll? sources cs = some ds)
  | .element t cs, n', h, he => by
    rw [addSources?_element] at h
    split at h
    · obtain rfl := Option.some.inj h
      rcases List.mem_cons.mp he with he | he
      · obtain ⟨rfl, rfl⟩ := Node.element.inj he
        exact .inr ⟨cs, List.mem_cons_self, .inr (.inl ⟨‹_›, rfl⟩)⟩
      · rw [elementsAll_append] at he
        rcases List.mem_append.mp he with he | he
        · exact .inr ⟨ds, List.mem_cons_of_mem _ he, .inl rfl⟩
        · exact .inl he
    · obtain ⟨cs', hcs, rfl⟩ := Option.map_eq_some_iff.mp h
      rcases List.mem_cons.mp he with he | he
      · obtain ⟨rfl, rfl⟩ := Node.element.inj he
        exact .inr ⟨cs, List.mem_cons_self, .inr (.inr hcs)⟩
      · refine (mem_addSourcesAll? cs hcs he).imp_right fun hin => ?_
        obtain ⟨es, hes, hor⟩ := hin
        exact ⟨es, List.mem_cons_of_mem _ hes, hor⟩
  | .text _, n', h, _ | .aside _, n', h, _ | .note _ _, n', h, _ => by
    rw [addSources?, mapFirst?_of_not_isElement rfl] at h
    cases h

theorem mem_addSourcesAll? : (ns : List Node) → {ns' : List Node} → addSourcesAll? sources ns = some ns' →
    .element tag ds ∈ elementsAll ns' → .element tag ds ∈ elementsAll sources ∨
      ∃ cs, .element tag cs ∈ elementsAll ns ∧
        (ds = cs ∨ (isLecture tag = true ∧ ds = cs ++ sources) ∨ addSourcesAll? sources cs = some ds)
  | [], ns', h, _ => by
    rw [addSourcesAll?, mapFirstAll?_nil] at h
    cases h
  | n :: ns, ns', h, he => by
    cases hn : addSources? sources n with
    | some n' =>
      rw [addSourcesAll?_cons_of_some hn] at h
      obtain rfl := Option.some.inj h
      rw [elementsAll_cons] at he
      rcases List.mem_append.mp he with he | he
      · refine (mem_addSources? n hn he).imp_right fun hin => ?_
        obtain ⟨es, hes, hor⟩ := hin
        exact ⟨es, List.mem_append_left _ hes, hor⟩
      · exact .inr ⟨ds, mem_elementsAll_tail he, .inl rfl⟩
    | none =>
      rw [addSourcesAll?_cons_of_none hn] at h
      obtain ⟨ns', hns, rfl⟩ := Option.map_eq_some_iff.mp h
      rw [elementsAll_cons] at he
      rcases List.mem_append.mp he with he | he
      · exact .inr ⟨ds, List.mem_append_left _ he, .inl rfl⟩
      · refine (mem_addSourcesAll? ns hns he).imp_right fun hin => ?_
        obtain ⟨es, hes, hor⟩ := hin
        exact ⟨es, mem_elementsAll_tail hes, hor⟩

end

theorem mem_tagsAll_addSourcesAll? (h : addSourcesAll? sources ns = some ns') {t : Tag} (ht : t ∈ tagsAll ns') :
    t ∈ tagsAll ns ∨ t ∈ tagsAll sources := by
  obtain ⟨ds, hds⟩ := mem_tagsAll_iff.mp ht
  rcases mem_addSourcesAll? ns h hds with he | ⟨cs, he, -⟩
  · exact .inr (mem_tagsAll_iff.mpr ⟨ds, he⟩)
  · exact .inl (mem_tagsAll_iff.mpr ⟨cs, he⟩)

theorem name_of_isLecture (h : isLecture tag = true) : tag.name = "video".toList :=
  of_decide_eq_true (Bool.and_eq_true_iff.mp h).1

/-! ## what a walk reaches -/

/-- What a walk over some trees may come to when it hands on sources. -/
inductive Reaches (ns : List Node) : List Node → Prop where
  | self : Reaches ns ns
  | comes {ms ds : List Node} (h : Reaches ns ms) (hc : Comes ms ds) : Reaches ns ds
  | given {ms ds sources : List Node} (h : Reaches ns ms) (hs : AreSources sources)
    (hg : addSourcesAll? sources ms = some ds) : Reaches ns ds

theorem Reaches.trans (hm : Reaches ns ms) (h : Reaches ms ds) : Reaches ns ds := by
  induction h with
  | self => exact hm
  | comes _ hc ih => exact .comes ih hc
  | given _ hs hg ih => exact .given ih hs hg

/-- There is no lecture video in code, and nothing there has given its content away. -/
def CodeApart (ns : List Node) : Prop :=
  ∀ tag cs, .element tag cs ∈ elementsAll ns → tag.name = "code".toList →
    ∀ t ∈ tagsAll cs, isLecture t = false ∧ t.spent = false

/-- No row stands in code or in preformatted text. -/
def RowsOpen (ns : List Node) : Prop :=
  ∀ tag cs, .element tag cs ∈ elementsAll ns → isOneOf ["code", "pre"] tag = true → NoRows cs

/-- What may stand in a table. -/
def InTable (ns : List Node) : Prop := ∀ ms, Reaches ns ms → CodeApart ms ∧ NoTables ms ∧ RowsOpen ms

/-- What may stand in a page. -/
def InPage (ns : List Node) : Prop := ∀ ms, Reaches ns ms → CodeApart ms ∧
  ∀ tag cs, .element tag cs ∈ elementsAll ms → tag.name = "table".toList → InTable (markTable tag cs).2

/-- What may stand in a table, or else in a page. -/
def Orderly : Bool → List Node → Prop
  | true, ns => InTable ns
  | false, ns => InPage ns

namespace Orderly
variable {inTable : Bool}

theorem reaches (h : Orderly inTable ns) (hr : Reaches ns ms) : Orderly inTable ms := by
  cases inTable with
  | true => exact fun ds hd => h ds (hr.trans hd)
  | false => exact fun ds hd => h ds (hr.trans hd)

theorem comes (h : Orderly inTable ns) (hc : Comes ns ms) : Orderly inTable ms := h.reaches (.comes .self hc)

theorem part (h : Orderly inTable ns) (hs : ∀ e ∈ elementsAll ms, e ∈ elementsAll ns) : Orderly inTable ms :=
  h.comes (.part .self hs)

theorem given (h : Orderly inTable ns) (hs : AreSources sources) (hg : addSourcesAll? sources ns = some ms) :
    Orderly inTable ms := h.reaches (.given .self hs hg)

theorem children (h : Orderly inTable [.element tag cs]) : Orderly inTable cs :=
  h.part fun _ he => mem_elementsAll_inside he

theorem inside (h : Orderly inTable ns) (he : .element tag cs ∈ elementsAll ns) :
    Orderly inTable [.element tag cs] := h.part fun _ hm => elementsAll_subset he hm

theorem codeApart (h : Orderly inTable ns) : CodeApart ns := by
  cases inTable with
  | true => exact (h ns .self).1
  | false => exact (h ns .self).1

theorem rowsOpen (h : Orderly true ns) : RowsOpen ns := (h ns .self).2.2

/-- A table stands in a page, not in a table. -/
theorem table (h : Orderly inTable [.element tag cs]) (hn : tag.name = "table".toList) :
    inTable = false ∧ Orderly true (markTable tag cs).2 := by
  cases inTable with
  | true => exact absurd hn ((h _ .self).2.1 tag cs self_mem_elementsAll)
  | false => exact ⟨rfl, (h _ .self).2 tag cs self_mem_elementsAll hn⟩

end Orderly

/-! ## rows that a walk may come to again -/

/-- The rows hold what may stand in a table, and there are none in code. -/
structure Steady (ns : List Node) : Prop where
  rows : ∀ tag cs, .element tag cs ∈ elementsAll ns → isRow tag = true → Orderly true cs
  code : ∀ tag cs, .element tag cs ∈ elementsAll ns → tag.name = "code".toList → NoRows cs

theorem noRows_of_inside (hr : NoRows ns) (he : .element tag cs ∈ elementsAll ns) : isRow tag = false ∧ NoRows cs :=
  noRows_element.mp fun t ht => hr t (tagsAll_mono (fun _ => elementsAll_subset he) ht)

theorem isOneOf_code (hn : tag.name = "code".toList) : isOneOf ["code", "pre"] tag = true :=
  isOneOf_iff.mpr ⟨"code", List.mem_cons_self, hn.symm⟩

namespace Steady

theorem mono (h : Steady ns) (hs : ∀ e ∈ elementsAll ms, e ∈ elementsAll ns) : Steady ms where
  rows tag cs he := h.rows tag cs (hs _ he)
  code tag cs he := h.code tag cs (hs _ he)

theorem head (h : Steady (n :: ns)) : Steady [n] := h.mono fun _ he => mem_elementsAll_head he

theorem tail (h : Steady (n :: ns)) : Steady ns := h.mono fun _ he => mem_elementsAll_tail he

theorem children (h : Steady [.element tag cs]) : Steady cs := h.mono fun _ he => mem_elementsAll_inside he

/-- Without rows there is nothing to come to. -/
theorem bare (hr : NoRows ns) : Steady ns where
  rows _ _ he h := absurd h (by simp [(noRows_of_inside hr he).1])
  code _ _ he _ := (noRows_of_inside hr he).2

/-- Something that is neither a row nor code, around such trees. -/
theorem around (hr : isRow tag = false) (hc : tag.name ≠ "code".toList) (h : Steady cs) :
    Steady [.element tag cs] where
  rows t ds he hrow := by
    rcases mem_elementsAll_element.mp he with ⟨rfl, -⟩ | he
    · exact absurd hrow (by simp [hr])
    · exact h.rows t ds he hrow
  code t ds he hn := by
    rcases mem_elementsAll_element.mp he with ⟨rfl, -⟩ | he
    · exact absurd hn hc
    · exact h.code t ds he hn

theorem given (h : Steady ns) (hs : AreSources sources) (hg : addSourcesAll? sources ns = some ns') :
    Steady ns' where
  rows t ds he hrow := by
    rcases mem_addSourcesAll? ns hg he with he | ⟨cs, hcs, rfl | ⟨hl, -⟩ | hin⟩
    · rw [isRow, (hs.isElement (mem_tagsAll_iff.mpr ⟨_, he⟩)).1] at hrow
      exact absurd hrow (by decide)
    · exact h.rows t ds hcs hrow
    · rw [isRow, name_of_isLecture hl] at hrow
      exact absurd hrow (by decide)
    · exact (h.rows t cs hcs hrow).given hs hin
  code t ds he hn := by
    rcases mem_addSourcesAll? ns hg he with he | ⟨cs, hcs, rfl | ⟨hl, -⟩ | hin⟩
    · rw [(hs.isElement (mem_tagsAll_iff.mpr ⟨_, he⟩)).1] at hn
      exact absurd hn (by decide)
    · exact h.code t ds hcs hn
    · rw [name_of_isLecture hl] at hn
      exact absurd hn (by decide)
    · intro u hu
      rcases mem_tagsAll_addSourcesAll? hin hu with hu | hu
      · exact h.code t cs hcs hn u hu
      · rw [(hs.isElement hu).1]
        decide

end Steady

/-! ## trees of notes -/

variable {g : Nat} {t : Tag}

end
end Lectern.Page
