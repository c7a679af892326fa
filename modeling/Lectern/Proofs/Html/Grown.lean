import Lectern.Proofs.Html.Attributes
import Lectern.Proofs.Html.Elements
import Lectern.Proofs.Html.Reading

/-!
# Trees without surprises

Tokens whose openings are of a known kind, where elements that hold nothing are closed in their tag and
nothing else stands but text, are read as a tree of elements of that kind and text.

* `Token.Fits`   such a token, for a kind of openings;
* `Grown`        such a tree;
* `grown_of_reads`   a text of such tokens is read as such a tree.
-/

namespace Lectern.Html
open Text Node

/-- A kind of openings, by name and attributes. -/
abbrev Kind := Text → List (Text × Text) → Prop

/-- Text inside is not what the page says. -/
def isAsideName (name : Text) : Bool :=
  ["script", "style", "template", "rt", "rp"].any fun n => n.toList = name

def isVoidName (name : Text) : Bool := Tag.voidNames.any fun n => n.toList = name

theorem isVoid_eq (tag : Tag) : tag.isVoid = isVoidName tag.name := rfl

section
variable {P : Kind}

/-- The opening is of the kind, and is closed at once if nothing may stand in it. -/
def Token.Fits (P : Kind) : Token → Prop
  | .text _ => True
  | .opening name as closed => P name as ∧ (isVoidName name = true → closed = true)
  | .closing _ => True
  | .note _ _ => False

/-- The element was opened by an opening of the kind. -/
structure Tag.IsOf (P : Kind) (tag : Tag) : Prop where
  opening : ∃ as, P tag.name as ∧ tag.attributes = Tag.kept tag.name as
  unspent : tag.spent = false

/-- Text and elements of a kind, and elements that hold nothing hold nothing. -/
inductive Grown (P : Kind) : List Node → Prop where
  | nil : Grown P []
  | text (t : Text) {ns : List Node} (hs : Grown P ns) : Grown P (.text t :: ns)
  | element {tag : Tag} {cs ns : List Node} (ht : tag.IsOf P) (hv : tag.isVoid = true → cs = [])
      (hc : Grown P cs) (hs : Grown P ns) : Grown P (.element tag cs :: ns)

theorem Grown.append {ms ns : List Node} (hm : Grown P ms) (hn : Grown P ns) : Grown P (ms ++ ns) := by
  induction hm with
  | nil => exact hn
  | text t _ ih => exact .text t ih
  | element ht hv hc _ _ ih => exact .element ht hv hc ih

theorem Grown.isOf {ns : List Node} (h : Grown P ns) {t : Tag} (ht : t ∈ tagsAll ns) : t.IsOf P := by
  induction h with
  | nil => exact absurd ht List.not_mem_nil
  | text _ _ ih => exact ih ht
  | element hi _ _ _ ihc ihs =>
    rw [tagsAll_cons, tags_element] at ht
    rcases List.mem_append.mp ht with ht | ht
    · rcases List.mem_cons.mp ht with rfl | ht
      · exact hi
      · exact ihc ht
    · exact ihs ht

theorem Grown.tail {n : Node} {ns : List Node} (h : Grown P (n :: ns)) : Grown P ns := by
  cases h <;> assumption

theorem Grown.children {tag : Tag} {cs ns : List Node} (h : Grown P (.element tag cs :: ns)) :
    Grown P cs := by
  cases h with
  | element _ _ hc _ => exact hc

/-- Any element of the tree is such a tree too. -/
theorem Grown.single {ns : List Node} (h : Grown P ns) {tag : Tag} {cs : List Node}
    (he : .element tag cs ∈ elementsAll ns) : Grown P [.element tag cs] := by
  induction h with
  | nil => exact absurd he List.not_mem_nil
  | text _ _ ih => exact ih he
  | element ht hv hc _ ihc ihs =>
    rcases List.mem_append.mp he with he | he
    · rcases List.mem_cons.mp he with he | he
      · obtain ⟨rfl, rfl⟩ := Node.element.inj he
        exact .element ht hv hc .nil
      · exact ihc he
    · exact ihs he

end

/-! ## building -/

namespace Builder
variable {P : Kind}

/-- What has been read so far is such a tree, and some of its elements are still open. -/
structure Grown (P : Kind) (b : Builder) : Prop where
  opened : ∀ e ∈ b.open_, e.tag.IsOf P ∧ e.tag.isVoid = false ∧ Html.Grown P e.held.reverse
  outside : Html.Grown P b.outside.reverse
  voids : b.closedVoids = []

theorem Grown.add {b : Builder} (h : b.Grown P) {n : Node} (hn : Html.Grown P [n]) : (b.add n).Grown P := by
  unfold Builder.add
  split
  · refine ⟨h.opened, ?_, h.voids⟩
    rw [List.reverse_cons]
    exact h.outside.append hn
  · rename_i e es hopen
    refine ⟨fun f hf => ?_, h.outside, h.voids⟩
    rcases List.mem_cons.mp hf with rfl | hf
    · obtain ⟨ht, hv, hh⟩ := h.opened e (hopen ▸ List.mem_cons_self)
      refine ⟨ht, hv, ?_⟩
      rw [List.reverse_cons]
      exact hh.append hn
    · exact h.opened f (hopen ▸ List.mem_cons_of_mem _ hf)

theorem Grown.isAside (hP : ∀ name as, P name as → isAsideName name = false) {b : Builder} (h : b.Grown P) :
    b.isAside = false := by
  refine List.any_eq_false.mpr fun e he => ?_
  obtain ⟨⟨as, hp, -⟩, -⟩ := (h.opened e he).1
  exact Bool.eq_false_iff.mp (hP _ as hp)

theorem Grown.flush (hP : ∀ name as, P name as → isAsideName name = false) {b : Builder} (h : b.Grown P) :
    b.flush.Grown P := by
  rw [Builder.flush, h.isAside hP, flushAs]
  split
  · exact h
  · exact Grown.add (b := { b with pending := none }) ⟨h.opened, h.outside, h.voids⟩ (.text _ .nil)

theorem Grown.closeInnermost {b : Builder} (h : b.Grown P) : b.closeInnermost.Grown P := by
  unfold Builder.closeInnermost
  split
  · exact h
  · rename_i e es hopen
    obtain ⟨ht, hv, hh⟩ := h.opened e (hopen ▸ List.mem_cons_self)
    refine Grown.add (b := { b with open_ := es }) ?_ (.element ht (fun h => absurd h (by simp [hv])) hh .nil)
    exact ⟨fun f hf => h.opened f (hopen ▸ List.mem_cons_of_mem _ hf), h.outside, h.voids⟩

theorem Grown.repeat_closeInnermost {b : Builder} (h : b.Grown P) (n : Nat) :
    (n.repeat Builder.closeInnermost b).Grown P := by
  induction n with
  | zero => exact h
  | succ n ih => exact ih.closeInnermost

theorem Grown.closing (hP : ∀ name as, P name as → isAsideName name = false) {b : Builder} (h : b.Grown P)
    (name : Text) : (b.closing name).Grown P := by
  rw [Builder.closing, h.voids]
  show (b.close name).Grown P
  unfold Builder.close
  dsimp only
  split
  · exact h.flush hP
  · exact (h.flush hP).repeat_closeInnermost _

/-! ## one token -/

theorem add_pending (b : Builder) (n : Node) : (b.add n).pending = b.pending := by
  unfold Builder.add
  split <;> rfl

theorem add_closedVoids (b : Builder) (n : Node) : (b.add n).closedVoids = b.closedVoids := by
  unfold Builder.add
  split <;> rfl

theorem flush_pending (b : Builder) : b.flush.pending = none := by
  unfold Builder.flush flushAs
  split
  · assumption
  · exact add_pending _ _

theorem flush_closedVoids (b : Builder) : b.flush.closedVoids = b.closedVoids := by
  unfold Builder.flush flushAs
  split
  · rfl
  · exact add_closedVoids _ _

theorem flush_of_pending {b : Builder} (h : b.pending = none) : b.flush = b := by
  unfold Builder.flush flushAs
  rw [h]

/-- The tag of the element that an opening opens. -/
def newTag (b : Builder) (name : Text) (as : List (Text × Text)) : Tag :=
  Tag.of name (as.map (keptAttribute name)) b.generation b.opened

/-- The element that an opening opens, open. -/
def push (name : Text) (as : List (Text × Text)) (b : Builder) : Builder :=
  { b with open_ := { tag := b.newTag name as } :: b.open_, opened := b.opened + 1 }

theorem close_innermost {b : Builder} (hp : b.pending = none) {e : OpenElement} {es : List OpenElement}
    (ho : b.open_ = e :: es) : b.close e.tag.name = { b with open_ := es }.add e.close := by
  have hindex : (e :: es).findIdx? (·.tag.name = e.tag.name) = some 0 := by
    rw [List.findIdx?_cons, if_pos (decide_eq_true rfl)]
  unfold Builder.close
  rw [flush_of_pending hp]
  dsimp only
  rw [ho, hindex]
  show b.closeInnermost = _
  rw [Builder.closeInnermost, ho]

/-- An element that is closed in its tag. -/
theorem opening_closed {b : Builder} (hv : b.closedVoids = []) (name : Text) (as : List (Text × Text)) :
    b.opening name as true
      = { b.flush with opened := b.flush.opened + 1 }.add (.element (b.flush.newTag name as) []) := by
  show (b.flush.push name as).closing name = _
  have hclosed : (b.flush.push name as).closedVoids = [] := (flush_closedVoids b).trans hv
  rw [Builder.closing, hclosed]
  exact close_innermost (b := b.flush.push name as) (flush_pending b) rfl

theorem opening_open {name : Text} (hn : isVoidName name = false) (b : Builder) (as : List (Text × Text)) :
    b.opening name as false = b.flush.push name as := by
  have hvoid : (b.flush.newTag name as).isVoid = false := hn
  show (if (b.flush.newTag name as).isVoid then _ else b.flush.push name as) = _
  rw [hvoid]
  rfl

theorem isOf_newTag {name : Text} {as : List (Text × Text)} (h : P name as) (b : Builder) :
    (b.newTag name as).IsOf P := ⟨⟨as, h, rfl⟩, rfl⟩

section
variable (hP : ∀ name as, P name as → isAsideName name = false)
include hP

theorem Grown.step {b : Builder} (h : b.Grown P) {t : Token} (ht : t.Fits P) : (b.step t).Grown P := by
  cases t with
  | text t => exact ⟨h.opened, h.outside, h.voids⟩
  | note k t => exact ht.elim
  | closing name => exact h.closing hP name
  | opening name as closed =>
    obtain ⟨hp, hvoid⟩ := ht
    have hf := h.flush hP
    have hnew := isOf_newTag hp b.flush
    cases closed with
    | true =>
      show (b.opening name as true).Grown P
      rw [opening_closed h.voids]
      exact Grown.add (b := { b.flush with opened := b.flush.opened + 1 }) ⟨hf.opened, hf.outside, hf.voids⟩
        (.element hnew (fun _ => rfl) .nil .nil)
    | false =>
      have hvoid : isVoidName name = false := Bool.eq_false_iff.mpr fun hv => nomatch hvoid hv
      show (b.opening name as false).Grown P
      rw [opening_open hvoid]
      refine ⟨fun e he => ?_, hf.outside, hf.voids⟩
      rcases List.mem_cons.mp he with rfl | he
      · exact ⟨hnew, hvoid, .nil⟩
      · exact hf.opened e he

theorem Grown.foldl {b : Builder} (h : b.Grown P) {ts : List Token} (ht : ∀ t ∈ ts, t.Fits P) :
    (ts.foldl Builder.step b).Grown P := by
  induction ts generalizing b with
  | nil => exact h
  | cons t ts ih =>
    exact ih (h.step hP (ht t List.mem_cons_self)) fun u hu => ht u (List.mem_cons_of_mem _ hu)

theorem Grown.finish {b : Builder} (h : b.Grown P) : Html.Grown P b.finish :=
  ((h.flush hP).repeat_closeInnermost _).outside

end
end Builder

theorem grown_of_reads {P : Kind} (hP : ∀ name as, P name as → isAsideName name = false) {t : Text}
    {ts : List Token} (hr : Reads t ts) (ht : ∀ u ∈ ts, u.Fits P) (g : Nat) :
    ∃ ns, Node.parse t g = .ok ns ∧ Grown P ns := by
  have hb : ({ generation := g } : Builder).Grown P := ⟨fun e he => absurd he List.not_mem_nil, .nil, rfl⟩
  refine ⟨_, ?_, (hb.foldl hP ht).finish hP⟩
  rw [parse_eq_read, hr.read]
  rfl

end Lectern.Html
