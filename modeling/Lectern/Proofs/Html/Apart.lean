import Lectern.Proofs.Html.Grown

/-!
# Elements that stand apart

Where no opening of a name comes between such an opening and its closing, no element of that name is read
inside another.

* `NoneOf`            a tree without elements of a name;
* `Apart`             a tree in which no element of a name stands in another;
* `TokensApart`       tokens in which elements of a name stand apart;
* `apart_of_reads`    a text of such tokens is read as such a tree.
-/

namespace Lectern.Html
open Text Node

section
variable {name : Text} {tag : Tag} {cs ms ns : List Node} {n : Node}

def NoneOf (name : Text) (ns : List Node) : Prop := ∀ t ∈ tagsAll ns, t.name ≠ name

/-- No element of the name stands in another. -/
def Apart (name : Text) (ns : List Node) : Prop :=
  ∀ t cs, .element t cs ∈ elementsAll ns → t.name = name → NoneOf name cs

theorem noneOf_nil : NoneOf name [] := fun _ ht => absurd ht List.not_mem_nil

theorem noneOf_append : NoneOf name (ms ++ ns) ↔ NoneOf name ms ∧ NoneOf name ns := by
  simp only [NoneOf, tagsAll_append, List.mem_append, or_imp, forall_and]

theorem noneOf_element : NoneOf name [.element tag cs] ↔ tag.name ≠ name ∧ NoneOf name cs := by
  simp only [NoneOf, tagsAll_single, tags_element, List.mem_cons, forall_eq_or_imp]

theorem apart_nil : Apart name [] := fun _ _ he => absurd he List.not_mem_nil

theorem apart_append : Apart name (ms ++ ns) ↔ Apart name ms ∧ Apart name ns := by
  simp only [Apart, elementsAll_append, List.mem_append, or_imp, forall_and]

theorem Apart.element (h : Apart name cs) (ht : tag.name = name → NoneOf name cs) :
    Apart name [.element tag cs] := by
  intro t ds he e
  rcases mem_elementsAll_element.mp he with ⟨rfl, rfl⟩ | he
  · exact ht e
  · exact h t ds he e

end

/-- The token opens an element of the name. -/
def Token.opens (name : Text) : Token → Bool
  | .opening n _ _ => n = name
  | _ => false

/-- Tokens in which no element of the name is opened inside another. -/
inductive TokensApart (name : Text) : List Token → Prop where
  | nil : TokensApart name []
  | token {u : Token} {ts : List Token} (hu : u.opens name = false) (h : TokensApart name ts) :
    TokensApart name (u :: ts)
  | element {as : List (Text × Text)} {us ts : List Token} (hu : ∀ u ∈ us, u.opens name = false)
    (h : TokensApart name ts) : TokensApart name (.opening name as false :: (us ++ .closing name :: ts))

theorem TokensApart.of_forall {name : Text} {ts : List Token} (h : ∀ u ∈ ts, u.opens name = false) :
    TokensApart name ts := by
  induction ts with
  | nil => exact .nil
  | cons u ts ih => exact .token (h u List.mem_cons_self) (ih fun v hv => h v (List.mem_cons_of_mem _ hv))

theorem TokensApart.append {name : Text} {ss ts : List Token} (hs : TokensApart name ss)
    (ht : TokensApart name ts) : TokensApart name (ss ++ ts) := by
  induction hs with
  | nil => exact ht
  | token hu _ ih => exact .token hu ih
  | @element as us ts' hu _ ih =>
    have : TokensApart name (.opening name as false :: _) := .element hu ih
    simpa using this

/-! ## building -/

namespace Builder
variable {name : Text} {b : Builder}

/-- In what has been read so far elements of the name stand apart, also in those that are open. -/
structure Apart (name : Text) (b : Builder) : Prop where
  /-- An open element of the name holds none, and there is none in those open inside it. -/
  opened : b.open_.Pairwise fun inner outer =>
    outer.tag.name = name → inner.tag.name ≠ name ∧ NoneOf name inner.held.reverse
  held : ∀ e ∈ b.open_, Html.Apart name e.held.reverse ∧ (e.tag.name = name → NoneOf name e.held.reverse)
  outside : Html.Apart name b.outside.reverse

/-- No element of the name is open. -/
def Outside (name : Text) (b : Builder) : Prop := ∀ e ∈ b.open_, e.tag.name ≠ name

/-- What is put where reading goes on does not stand in an element of the name, or holds none. -/
theorem Apart.add (h : b.Apart name) {n : Node} (hn : Html.Apart name [n])
    (ho : NoneOf name [n] ∨ b.Outside name) : (b.add n).Apart name := by
  unfold Builder.add
  split
  · refine ⟨h.opened, h.held, ?_⟩
    rw [List.reverse_cons]
    exact apart_append.mpr ⟨h.outside, hn⟩
  · rename_i e es hopen
    obtain ⟨hinner, hrest⟩ := List.pairwise_cons.mp (hopen ▸ h.opened)
    obtain ⟨hapart, hnone⟩ := h.held e (hopen ▸ List.mem_cons_self)
    refine ⟨List.pairwise_cons.mpr ⟨fun f hf hname => ?_, hrest⟩, fun f hf => ?_, h.outside⟩
    · obtain ⟨hne, hheld⟩ := hinner f hf hname
      refine ⟨hne, ?_⟩
      rcases ho with ho | ho
      · rw [List.reverse_cons]
        exact noneOf_append.mpr ⟨hheld, ho⟩
      · exact absurd hname (ho f (hopen ▸ List.mem_cons_of_mem _ hf))
    · rcases List.mem_cons.mp hf with rfl | hf
      · rw [List.reverse_cons]
        refine ⟨apart_append.mpr ⟨hapart, hn⟩, fun hname => ?_⟩
        rcases ho with ho | ho
        · exact noneOf_append.mpr ⟨hnone hname, ho⟩
        · exact absurd hname (ho e (hopen ▸ List.mem_cons_self))
      · exact h.held f (hopen ▸ List.mem_cons_of_mem _ hf)

theorem tags_open_add (b : Builder) (n : Node) : (b.add n).open_.map (·.tag) = b.open_.map (·.tag) := by
  unfold Builder.add
  split
  · rfl
  · rename_i hopen
    rw [hopen]
    rfl

theorem outside_iff : b.Outside name ↔ ∀ t ∈ b.open_.map (·.tag), t.name ≠ name := by
  simp [Outside]

theorem outside_add (n : Node) : (b.add n).Outside name ↔ b.Outside name := by
  rw [outside_iff, outside_iff, tags_open_add]

theorem Apart.flush (h : b.Apart name) : b.flush.Apart name := by
  have hflush {make : Text → Node} (hm : ∀ t, (make t).elements = []) : (b.flushAs make).Apart name := by
    unfold flushAs
    split
    · exact h
    · have hnone (t : Text) : elementsAll [make t] = [] := by rw [elementsAll_cons, hm, elementsAll_nil]; rfl
      refine Apart.add (b := { b with pending := none }) ⟨h.opened, h.held, h.outside⟩ ?_ (.inl ?_)
      · intro t cs he
        rw [hnone] at he
        exact absurd he List.not_mem_nil
      · intro t ht
        rw [tagsAll, hnone] at ht
        exact absurd ht List.not_mem_nil
  unfold Builder.flush
  split <;> exact hflush fun _ => rfl

theorem tags_open_flush (b : Builder) : b.flush.open_.map (·.tag) = b.open_.map (·.tag) := by
  unfold Builder.flush flushAs
  split
  · rfl
  · exact tags_open_add _ _

theorem outside_flush : b.flush.Outside name ↔ b.Outside name := by
  rw [outside_iff, outside_iff, tags_open_flush]

theorem Apart.closeInnermost (h : b.Apart name) : b.closeInnermost.Apart name := by
  unfold Builder.closeInnermost
  split
  · exact h
  · rename_i e es hopen
    obtain ⟨hinner, hrest⟩ := List.pairwise_cons.mp (hopen ▸ h.opened)
    obtain ⟨hapart, hnone⟩ := h.held e (hopen ▸ List.mem_cons_self)
    have hb : ({ b with open_ := es } : Builder).Apart name :=
      ⟨hrest, fun f hf => h.held f (hopen ▸ List.mem_cons_of_mem _ hf), h.outside⟩
    refine hb.add (hapart.element hnone) ?_
    by_cases hout : ∃ f ∈ es, f.tag.name = name
    · obtain ⟨f, hf, hname⟩ := hout
      exact .inl (noneOf_element.mpr (hinner f hf hname))
    · exact .inr fun f hf hname => hout ⟨f, hf, hname⟩

theorem tags_open_closeInnermost (b : Builder) :
    b.closeInnermost.open_.map (·.tag) = (b.open_.map (·.tag)).drop 1 := by
  unfold Builder.closeInnermost
  split
  · rename_i hopen
    rw [hopen]
    rfl
  · rename_i e es hopen
    rw [tags_open_add, hopen]
    rfl

theorem Apart.repeat_closeInnermost (h : b.Apart name) (n : Nat) :
    (n.repeat Builder.closeInnermost b).Apart name := by
  induction n with
  | zero => exact h
  | succ n ih => exact ih.closeInnermost

theorem tags_open_repeat (n : Nat) (b : Builder) :
    (n.repeat Builder.closeInnermost b).open_.map (·.tag) = (b.open_.map (·.tag)).drop n := by
  induction n with
  | zero => rfl
  | succ n ih => rw [Nat.repeat, tags_open_closeInnermost, ih, List.drop_drop]

theorem closing_eq (hv : b.closedVoids = []) (n : Text) : b.closing n = b.close n := by
  rw [Builder.closing, hv]
  rfl

theorem Apart.close (h : b.Apart name) (n : Text) : (b.close n).Apart name := by
  unfold Builder.close
  dsimp only
  split
  · exact h.flush
  · exact h.flush.repeat_closeInnermost _

/-- Nothing is opened by a closing tag. -/
theorem outside_close (h : b.Outside name) (n : Text) : (b.close n).Outside name := by
  unfold Builder.close
  dsimp only
  split
  · exact outside_flush.mpr h
  · rw [outside_iff, tags_open_repeat]
    exact fun t ht => outside_iff.mp (outside_flush.mpr h) t (List.mem_of_mem_drop ht)

/-- Behind a closing tag of the name no element of the name is open. -/
theorem Apart.outside_close (h : b.Apart name) : (b.close name).Outside name := by
  have hf := h.flush
  unfold Builder.close
  dsimp only
  split
  · rename_i hnone
    intro e he hname
    exact absurd (List.findIdx?_eq_none_iff.mp hnone e he) (by simp [hname])
  · rename_i i hi
    obtain ⟨hlt, hname, -⟩ := List.findIdx?_eq_some_iff_getElem.mp hi
    rw [outside_iff, tags_open_repeat, ← List.map_drop]
    intro t ht he
    obtain ⟨f, hf', rfl⟩ := List.mem_map.mp ht
    have hsplit := List.drop_eq_getElem_cons hlt
    have hpair := hf.opened.drop (i := i)
    rw [hsplit] at hpair
    exact ((List.pairwise_cons.mp hpair).1 f hf' he).1 (of_decide_eq_true hname)

variable {P : Kind}

/-- A token that opens no element of the name. -/
theorem Apart.step (h : b.Apart name) (hg : b.Grown P) {t : Token} (ht : t.Fits P) (hn : t.opens name = false) :
    (b.step t).Apart name ∧ (b.Outside name → (b.step t).Outside name) := by
  cases t with
  | text t => exact ⟨⟨h.opened, h.held, h.outside⟩, id⟩
  | note k t => exact ht.elim
  | closing n =>
    show (b.closing n).Apart name ∧ (_ → (b.closing n).Outside name)
    rw [closing_eq hg.voids]
    exact ⟨h.close n, fun ho => Builder.outside_close ho n⟩
  | opening n as closed =>
    have hne : n ≠ name := of_decide_eq_false hn
    have hf := h.flush
    cases closed with
    | true =>
      show (b.opening n as true).Apart name ∧ (_ → (b.opening n as true).Outside name)
      rw [opening_closed hg.voids]
      refine ⟨Apart.add (b := { b.flush with opened := b.flush.opened + 1 }) ⟨hf.opened, hf.held, hf.outside⟩
        (apart_nil.element fun _ => noneOf_nil) (.inl (noneOf_element.mpr ⟨hne, noneOf_nil⟩)), fun ho => ?_⟩
      exact (outside_add _).mpr (outside_flush.mpr ho)
    | false =>
      have hvoid : isVoidName n = false := Bool.eq_false_iff.mpr fun hv => Bool.false_ne_true (ht.2 hv)
      show (b.opening n as false).Apart name ∧ (_ → (b.opening n as false).Outside name)
      rw [opening_open hvoid]
      refine ⟨⟨List.pairwise_cons.mpr ⟨fun f _ _ => ⟨hne, noneOf_nil⟩, hf.opened⟩, fun e he => ?_, hf.outside⟩,
        fun ho e he => ?_⟩
      · rcases List.mem_cons.mp he with rfl | he
        · exact ⟨apart_nil, fun _ => noneOf_nil⟩
        · exact hf.held e he
      · rcases List.mem_cons.mp he with rfl | he
        · exact hne
        · exact outside_flush.mpr ho e he

/-- An opening of the name where no element of the name is open. -/
theorem Apart.step_opening (h : b.Apart name) (ho : b.Outside name) {as : List (Text × Text)}
    (ht : (Token.opening name as false).Fits P) : (b.step (.opening name as false)).Apart name := by
  have hf := h.flush
  have hvoid : isVoidName name = false := Bool.eq_false_iff.mpr fun hv => Bool.false_ne_true (ht.2 hv)
  show (b.opening name as false).Apart name
  rw [opening_open hvoid]
  refine ⟨List.pairwise_cons.mpr ⟨fun f hmem hname => ?_, hf.opened⟩, fun e he => ?_, hf.outside⟩
  · exact absurd hname (outside_flush.mpr ho f hmem)
  · rcases List.mem_cons.mp he with rfl | he
    · exact ⟨apart_nil, fun _ => noneOf_nil⟩
    · exact hf.held e he

section
variable (hP : ∀ name as, P name as → isAsideName name = false)
include hP

theorem Apart.foldl_inside (h : b.Apart name) (hg : b.Grown P) {us : List Token} (hf : ∀ u ∈ us, u.Fits P)
    (hn : ∀ u ∈ us, u.opens name = false) : (us.foldl Builder.step b).Apart name := by
  induction us generalizing b with
  | nil => exact h
  | cons u us ih =>
    have hu := hf u List.mem_cons_self
    exact ih (h.step hg hu (hn u List.mem_cons_self)).1 (hg.step hP hu)
      (fun v hv => hf v (List.mem_cons_of_mem _ hv)) fun v hv => hn v (List.mem_cons_of_mem _ hv)

theorem Apart.foldl (h : b.Apart name) (ho : b.Outside name) (hg : b.Grown P) {ts : List Token}
    (ht : TokensApart name ts) (hf : ∀ t ∈ ts, t.Fits P) : (ts.foldl Builder.step b).Apart name := by
  induction ht generalizing b with
  | nil => exact h
  | token hu _ ih =>
    obtain ⟨hfirst, hrest⟩ := List.forall_mem_cons.mp hf
    obtain ⟨hstep, hout⟩ := h.step hg hfirst hu
    exact ih hstep (hout ho) (hg.step hP hfirst) hrest
  | @element as us ts hu _ ih =>
    obtain ⟨hfirst, hrest⟩ := List.forall_mem_cons.mp hf
    obtain ⟨hinner, hrest⟩ := List.forall_mem_append.mp hrest
    obtain ⟨hclosing, hrest⟩ := List.forall_mem_cons.mp hrest
    have hopened := h.step_opening ho hfirst
    have hgrown := hg.step hP hfirst
    have hinside := hopened.foldl_inside hP hgrown hinner hu
    have hgrown := hgrown.foldl hP hinner
    rw [List.foldl_cons, List.foldl_append, List.foldl_cons]
    refine ih ?_ ?_ (hgrown.step hP hclosing) hrest
    · exact (hinside.step hgrown hclosing rfl).1
    · show ((us.foldl Builder.step _).closing name).Outside name
      rw [closing_eq hgrown.voids]
      exact hinside.outside_close

end

end Builder

/-- A text of such tokens is read as a tree in which elements of the name stand apart. -/
theorem apart_of_reads {P : Kind} (hP : ∀ name as, P name as → isAsideName name = false) {name t : Text}
    {ts : List Token} (hr : Reads t ts) (hf : ∀ u ∈ ts, u.Fits P) (ht : TokensApart name ts) (g : Nat) :
    ∃ ns, Node.parse t g = .ok ns ∧ Grown P ns ∧ Apart name ns := by
  have hb : ({ generation := g } : Builder).Apart name :=
    ⟨.nil, fun e he => absurd he List.not_mem_nil, apart_nil⟩
  obtain ⟨ns, hns, hgrown⟩ := grown_of_reads hP hr hf g
  refine ⟨ns, hns, hgrown, ?_⟩
  have hfold := hb.foldl hP (fun e he => absurd he List.not_mem_nil)
    ⟨fun e he => absurd he List.not_mem_nil, .nil, rfl⟩ ht hf
  rw [parse_eq_read, hr.read] at hns
  obtain rfl := Except.ok.inj hns
  exact (hfold.flush.repeat_closeInnermost _).outside

end Lectern.Html
