import Lectern.Page.Walk
import Lectern.Proofs.Html.Elements

/-!
# What a walk reads off an element

A table is marked in its first heading cell.  Where that cell stands is said here in one piece, and
what a table becomes is reduced to what becomes of the cell.  A paragraph may hold nothing but an image.

* `isOneOf_of_part`        what the name of an element can be;
* `firstHeadingCell?`      the marked cell of a table;
* `markTable_of_some`      the table with the mark taken off, in terms of it;
* `withHeadingCell_lift`   what holds of the cell before and after holds of what the table holds;
* `loneImage?_eq_some`, `mem_elementsAll_of_loneImage?`   where the image stands.
-/

namespace Lectern.Page
open Text Html Html.Node

/-! ## names -/

theorem isOneOf_iff {names : List String} {t : Tag} :
    isOneOf names t = true ↔ ∃ n ∈ names, n.toList = t.name := by
  simp [isOneOf]

theorem isOneOf_mono {names names' : List String} (h : ∀ n ∈ names, n ∈ names') {t : Tag}
    (ht : isOneOf names t) : isOneOf names' t := by
  obtain ⟨n, hn, e⟩ := isOneOf_iff.mp ht
  exact isOneOf_iff.mpr ⟨n, h n hn, e⟩

theorem name_of_isOneOf {name : String} {t : Tag} (h : isOneOf [name] t) : t.name = name.toList := by
  obtain ⟨n, hn, e⟩ := isOneOf_iff.mp h
  rw [← e, List.mem_singleton.mp hn]

/-- The names of the elements of a kind. -/
def Part.names : Part → List String
  | .paragraph => ["p"]
  | .table => ["table"]
  | .list => ["ul", "ol"]
  | .wrapper => ["blockquote", "details", "div", "em", "strong", "span"]
  | .preformatted => ["pre"]
  | .code => ["code"]
  | .link => ["a"]
  | .image => ["img"]
  | .other => []

theorem isOneOf_of_part {t : Tag} {part : Part} (h : Part.ofName t.name = part) (ho : part ≠ .other) :
    isOneOf part.names t := by
  rw [isOneOf_iff]
  subst h
  unfold Part.ofName at ho ⊢
  split at ho <;> first
    | exact absurd rfl ho
    | (rename_i hn
       exact ⟨String.ofList t.name, by rw [hn]; decide, String.toList_ofList⟩)

/-! ## the mark of a table -/

/-- The first heading cell of a table that holds `cs`. -/
def firstHeadingCell? (cs : List Node) : Option Node :=
  (firstAll? (·.name = "thead".toList) cs).bind fun head => firstAll? (isOneOf cellNames) head.children

/-- What a table holds with another first heading cell. -/
def withHeadingCell (cell : Node) (cs : List Node) : List Node :=
  (mapFirstAll? (·.name = "thead".toList) (fun tag ds =>
    .element tag ((mapFirstAll? (isOneOf cellNames) (fun _ _ => cell) ds).getD ds)) cs).getD cs

theorem find?_eq_firstAll? (name : Text) (n : Node) :
    n.find? name = firstAll? (·.name = name) n.children := by
  unfold find? firstAll? descendants
  congr 1
  funext e
  cases e <;> simp [isNamed, name?, tag?]

theorem markTable_of_none {tag : Tag} {cs : List Node} (h : firstHeadingCell? cs = none) :
    markTable tag cs = (tag, cs) := by
  unfold markTable
  rw [find?_eq_firstAll?, show (Node.element tag cs).children = cs from rfl]
  unfold firstHeadingCell? at h
  cases hh : firstAll? (fun t : Tag => t.name = "thead".toList) cs with
  | none => rfl
  | some head =>
    rw [hh] at h
    dsimp only
    rw [show (head.descendants.find? fun n => n.tag?.any (isOneOf cellNames)) = none from h]

theorem markTable_of_some {tag : Tag} {cs : List Node} {cell : Node}
    (h : firstHeadingCell? cs = some cell) :
    markTable tag cs = (match (readMark cell).2 with
      | some c => tag.set "class" c
      | none => tag, withHeadingCell (readMark cell).1 cs) := by
  unfold markTable
  rw [find?_eq_firstAll?, show (Node.element tag cs).children = cs from rfl]
  obtain ⟨head, hh, hc⟩ := Option.bind_eq_some_iff.mp h
  rw [hh]
  dsimp only
  rw [show (head.descendants.find? fun n => n.tag?.any (isOneOf cellNames)) = some cell from hc]
  rfl

section
variable {R : Node → Node → Prop} {S : List Node → List Node → Prop}

/-- A relation that holds of the cell before and after, and goes on to what is around it. -/
theorem withHeadingCell_lift {cell cell' : Node} {cs : List Node}
    (h : firstHeadingCell? cs = some cell) (found : R cell cell')
    (around : ∀ tag cs cs', S cs cs' → R (.element tag cs) (.element tag cs'))
    (front : ∀ n n' ns, R n n' → S (n :: ns) (n' :: ns))
    (back : ∀ n ns ns', S ns ns' → S (n :: ns) (n :: ns')) : S cs (withHeadingCell cell' cs) := by
  obtain ⟨head, hh, hc⟩ := Option.bind_eq_some_iff.mp h
  have hcs : ((mapFirstAll? (·.name = "thead".toList) (fun tag ds =>
      .element tag ((mapFirstAll? (isOneOf cellNames) (fun _ _ => cell') ds).getD ds)) cs)).isSome := by
    rw [mapFirstAll?_isSome, hh]; rfl
  obtain ⟨cs', hcs⟩ := Option.isSome_iff_exists.mp hcs
  have hin : ((mapFirstAll? (isOneOf cellNames) (fun _ _ => cell') head.children)).isSome := by
    rw [mapFirstAll?_isSome, hc]; rfl
  obtain ⟨ds', hds⟩ := Option.isSome_iff_exists.mp hin
  have hel := isElement_of_mem_elementsAll (List.mem_of_find?_eq_some hh)
  have hcell := isElement_of_mem_elementsAll (List.mem_of_find?_eq_some hc)
  cases head with
  | element tag ds =>
    cases cell with
    | element t es =>
      rw [withHeadingCell, hcs]
      refine mapFirstAll?_lift (R := R) (S := S) ?_ around front back cs hcs hh
      rw [show mapFirstAll? (isOneOf cellNames) (fun _ _ => cell') ds = some ds' from hds]
      exact around tag ds ds' (mapFirstAll?_lift (R := R) (S := S) found around front back ds hds hc)
    | _ => exact absurd hcell Bool.false_ne_true
  | _ => exact absurd hel Bool.false_ne_true

end

/-- Putting the first heading cell in its own place changes nothing. -/
theorem withHeadingCell_self {cell : Node} {cs : List Node} (h : firstHeadingCell? cs = some cell) :
    withHeadingCell cell cs = cs :=
  (withHeadingCell_lift (R := Eq) (S := Eq) h rfl (fun _ _ _ h => h ▸ rfl) (fun _ _ _ h => h ▸ rfl)
    (fun _ _ _ h => h ▸ rfl)).symm

/-- The first heading cell is a cell in the table. -/
theorem exists_of_firstHeadingCell? {cs : List Node} {cell : Node} (h : firstHeadingCell? cs = some cell) :
    ∃ t ds, cell = .element t ds ∧ .element t ds ∈ elementsAll cs ∧ isOneOf cellNames t := by
  obtain ⟨head, hh, hc⟩ := Option.bind_eq_some_iff.mp h
  have hhead := List.mem_of_find?_eq_some hh
  have hcell := List.mem_of_find?_eq_some hc
  have hkind := List.find?_some hc
  have hel := isElement_of_mem_elementsAll hhead
  have hcel := isElement_of_mem_elementsAll hcell
  cases cell with
  | element t ds =>
    refine ⟨t, ds, rfl, ?_, by simpa [tag?] using hkind⟩
    cases head with
    | element tag es => exact mem_elementsAll_of_inside hhead hcell
    | _ => exact absurd hel Bool.false_ne_true
  | _ => exact absurd hcel Bool.false_ne_true

theorem name_markTable (tag : Tag) (cs : List Node) : (markTable tag cs).1.name = tag.name := by
  cases h : firstHeadingCell? cs with
  | none => rw [markTable_of_none h]
  | some cell => rw [markTable_of_some h]; dsimp only; split <;> rfl

/-! ## the image of a paragraph -/

theorem loneImage?_eq_some {image : Tag} {cs ds : List Node} (h : loneImage? cs = some (image, ds)) :
    cs.filter isElement = [.element image ds] ∧ image.name = "img".toList := by
  unfold loneImage? at h
  split at h
  · rename_i hcs
    split at h
    · obtain ⟨rfl, rfl⟩ := Prod.mk.inj (Option.some.inj h)
      exact ⟨hcs, by simp_all⟩
    · exact nomatch h
  · exact nomatch h

theorem mem_elementsAll_of_loneImage? {image : Tag} {cs ds : List Node} (h : loneImage? cs = some (image, ds)) :
    .element image ds ∈ elementsAll cs := by
  have hmem : .element image ds ∈ cs.filter isElement := (loneImage?_eq_some h).1 ▸ List.mem_singleton_self _
  exact mem_elementsAll_of_mem (List.mem_filter.mp hmem).1 self_mem_elementsAll

end Lectern.Page
