import Lectern.Proofs.Files.Change
import Lectern.Proofs.Words

/-!
# What a change does not touch

A folder that lies apart from the root of a change is the same before the change and after it: paths lead to
the same places there, its files hold the same, and it lists the same names.

* `Path.IsName`   a name that stands for itself where it is read as a path;
* `Apart`         neither of two folders lies in the other one;
* `SameBelow`     two trees with the same nodes at and below a folder;
* `Alike`         two trees in which a path leads to one folder, with the same nodes below it, and what
                  follows for all that is asked about paths that start there.
-/

namespace Lectern
open Text

namespace Path

/-- A name that is a path of its own. -/
def IsName (name : Text) : Prop := name ≠ [] ∧ name ≠ ['.'] ∧ name ≠ ['.', '.'] ∧ '/' ∉ name

instance (name : Text) : Decidable (IsName name) := inferInstanceAs (Decidable (_ ∧ _))

theorem ofText_of_isName {name : Text} (h : IsName name) : ofText name = ⟨[], [name]⟩ := by
  obtain ⟨hnil, hdot, -, hslash⟩ := h
  have hanchor : (name.takeWhile (· = '/')).length = 0 := by
    cases name with
    | nil => rfl
    | cons c t =>
      have hc : c ≠ '/' := fun e => hslash (e ▸ List.mem_cons_self)
      simp [hc]
  rw [ofText, hanchor, splitOn_of_not_mem hslash]
  simp [anchorOf, hnil, hdot]

theorem child_of_isName {name : Text} (h : IsName name) (p : Path) : p.child name = p.join ⟨[], [name]⟩ := by
  rw [child, ofText_of_isName h]

theorem join_join_names (p : Path) (names more : List Text) :
    (p.join ⟨[], names⟩).join ⟨[], more⟩ = p.join ⟨[], names ++ more⟩ := by
  simp [join, isAbsolute]

theorem join_nil (p : Path) : p.join ⟨[], []⟩ = p := by
  simp [join, isAbsolute]

theorem name_join_concat (p : Path) (names : List Text) (name : Text) :
    (p.join ⟨[], names ++ [name]⟩).name = name := by
  rw [Path.name, join, if_neg (by simp [isAbsolute]), ← List.append_assoc, List.getLast?_concat]
  rfl

end Path

namespace FileTree

/-- Neither of two folders lies in the other one. -/
def Apart (root folder : List Text) : Prop := ¬ root <+: folder ∧ ¬ folder <+: root

/-- The same nodes stand at and below a folder. -/
def SameBelow (folder : List Text) (t t' : FileTree) : Prop :=
  t'.nodes.filter (folder <+: ·.1) = t.nodes.filter (folder <+: ·.1)

/-- Everything below a folder has a name. -/
def NamesBelow (folder : List Text) (t : FileTree) : Prop :=
  ∀ e ∈ t.nodes, folder <+: e.1 → ∀ c ∈ e.1.drop folder.length, Path.IsName c

section
variable {t t' : FileTree} {root folder q : List Text}

theorem Apart.not_isPrefix (h : Apart root folder) (hq : folder <+: q) : ¬ root <+: q := fun hr =>
  (List.prefix_or_prefix_of_prefix hr hq).elim h.1 h.2

theorem SameOutside.sameBelow (h : t.SameOutside root t') (ha : Apart root folder) : t.SameBelow folder t' := by
  have hkeep (t : FileTree) : (t.nodes.filter fun e => ¬ root <+: e.1).filter (folder <+: ·.1)
      = t.nodes.filter (folder <+: ·.1) := by
    rw [List.filter_filter]
    refine List.filter_congr fun e _ => ?_
    by_cases he : folder <+: e.1
    · simp [he, ha.not_isPrefix he]
    · simp [he]
  unfold SameBelow
  rw [← hkeep t', ← hkeep t, h]

namespace SameBelow

theorem mem_iff (h : t.SameBelow folder t') {e : List Text × FileNode} (he : folder <+: e.1) :
    e ∈ t'.nodes ↔ e ∈ t.nodes := by
  have hf : e ∈ t'.nodes.filter (folder <+: ·.1) ↔ e ∈ t.nodes.filter (folder <+: ·.1) := by rw [h]
  simpa [List.mem_filter, he] using hf

theorem node? (h : t.SameBelow folder t') (hq : folder <+: q) : t'.node? q = t.node? q := by
  have hkeep (t : FileTree) : (t.nodes.filter (folder <+: ·.1)).lookup q = t.nodes.lookup q :=
    lookup_filter fun e _ he => by simpa [he] using hq
  unfold FileTree.node?
  rw [← hkeep t', ← hkeep t, h]

/-- What is chosen below the folder is the same. -/
theorem filterMap_eq {α : Type} {f : List Text × FileNode → Option α} (h : t.SameBelow folder t')
    (hf : ∀ e, ¬ folder <+: e.1 → f e = none) : t'.nodes.filterMap f = t.nodes.filterMap f := by
  have hkeep (l : List (List Text × FileNode)) :
      (l.filter (folder <+: ·.1)).filterMap f = l.filterMap f := by
    rw [List.filterMap_filter]
    congr 1
    funext e
    by_cases he : folder <+: e.1
    · simp [he]
    · simp [he, hf e he]
  rw [← hkeep t'.nodes, ← hkeep t.nodes, h]

theorem entriesAt (h : t.SameBelow folder t') (hq : folder <+: q) : t'.entriesAt q = t.entriesAt q :=
  h.filterMap_eq fun _ he => if_neg fun hc => he (hq.trans hc.2)

theorem below (h : t.SameBelow folder t') (hq : folder <+: q) : t'.below q = t.below q := by
  unfold FileTree.below
  rw [h.filterMap_eq (f := fun e => if q <+: e.1 ∧ e.1.length > q.length then some (e.1.drop q.length, e.2)
    else none) fun e he => if_neg fun hc => he (hq.trans hc.1)]

theorem namesBelow (h : t.SameBelow folder t') (ht : t.NamesBelow folder) : t'.NamesBelow folder :=
  fun e hm he => ht e ((h.mem_iff he).mp hm) he

end SameBelow

theorem NamesBelow.append {names : List Text} (h : t.NamesBelow folder) : t.NamesBelow (folder ++ names) :=
  fun e hm he c hc => by
    refine h e hm ((List.prefix_append _ _).trans he) c ?_
    rw [List.length_append, ← List.drop_drop] at hc
    exact List.mem_of_mem_drop hc

/-- A name that is listed is the last part of a node's place. -/
theorem mem_entriesAt {place : List Text} {e : Text × FileNode} (h : e ∈ t.entriesAt place) :
    (place ++ [e.1], e.2) ∈ t.nodes := by
  obtain ⟨⟨parts, n⟩, hm, hd⟩ := List.mem_filterMap.mp h
  split at hd
  · rename_i hc
    obtain ⟨hlen, ⟨rest, hrest⟩⟩ := hc
    dsimp only at hlen hrest hd
    subst hrest
    rw [List.length_append] at hlen
    obtain ⟨c, rfl⟩ := List.length_eq_one_iff.mp (show rest.length = 1 by omega)
    rw [List.getLast?_concat] at hd
    obtain rfl := Option.some.inj hd
    exact hm
  · cases hd

theorem isName_of_mem_entriesAt {names : List Text} {e : Text × FileNode} (ht : t.NamesBelow folder)
    (h : e ∈ t.entriesAt (folder ++ names)) : Path.IsName e.1 := by
  refine ht _ (mem_entriesAt h) ?_ e.1 ?_
  · rw [List.append_assoc]
    exact List.prefix_append _ _
  · rw [List.append_assoc, List.drop_left]
    exact List.mem_append_right _ List.mem_cons_self

end

/-! ## two trees in which a folder is the same -/

/-- A path leads to one folder in two trees, which hold the same there. -/
structure Alike (here : List Text) (base : Path) (folder : List Text) (t t' : FileTree) : Prop where
  locate_left : t.locate here base = .ok folder
  locate_right : t'.locate here base = .ok folder
  below : t.SameBelow folder t'

/-- What is found on the way to a place below a folder. -/
theorem SameBelow.locateFrom {t t' : FileTree} {folder done : List Text} (h : t.SameBelow folder t')
    (hdone : folder <+: done) {names : List Text} (hnames : ['.', '.'] ∉ names) :
    t'.locateFrom done names = t.locateFrom done names := by
  induction names generalizing done with
  | nil => rfl
  | cons c names ih =>
    have hc : c ≠ ['.', '.'] := fun e => hnames (e ▸ List.mem_cons_self)
    have hnext : folder <+: done ++ [c] := hdone.trans (List.prefix_append _ _)
    simp only [FileTree.locateFrom, h.node? hdone, h.node? hnext, if_neg hc]
    split
    · rfl
    · rfl
    · split
      · rfl
      · split
        · rfl
        · exact ih hnext fun hm => hnames (List.mem_cons_of_mem _ hm)

namespace Alike
variable {here folder names : List Text} {base : Path} {t t' : FileTree}

theorem locate (h : Alike here base folder t t') (hnames : ['.', '.'] ∉ names) :
    t'.locate here (base.join ⟨[], names⟩) = t.locate here (base.join ⟨[], names⟩) := by
  have hstart : start here (base.join ⟨[], names⟩) = start here base := by
    simp [Path.join, start, Path.isAbsolute]
  have hparts : (base.join ⟨[], names⟩).parts = base.parts ++ names := by simp [Path.join, Path.isAbsolute]
  unfold FileTree.locate
  rw [hstart, hparts, locateFrom_append, locateFrom_append, locate_eq_ok h.locate_left,
    locate_eq_ok h.locate_right]
  change (if _ then _ else if _ then _ else t'.locateFrom folder names) = _
  rw [h.below.locateFrom (List.prefix_refl _) hnames]
  rfl

/-- A path below the folder leads to where its names say. -/
theorem place (hl : t.locate here base = .ok folder) (hnames : ['.', '.'] ∉ names) {place : List Text}
    (h : t.locate here (base.join ⟨[], names⟩) = .ok place) : place = folder ++ names := by
  have hwalk := locate_eq_ok h
  have hstart : start here (base.join ⟨[], names⟩) = start here base := by
    simp [Path.join, start, Path.isAbsolute]
  have hparts : (base.join ⟨[], names⟩).parts = base.parts ++ names := by simp [Path.join, Path.isAbsolute]
  rw [hstart, hparts, locateFrom_append, locate_eq_ok hl] at hwalk
  exact locateFrom_of_dots_not_mem hnames hwalk

theorem prefix_place (h : Alike here base folder t t') (hnames : ['.', '.'] ∉ names) {place : List Text}
    (hl : t.locate here (base.join ⟨[], names⟩) = .ok place) : folder <+: place :=
  Alike.place h.locate_left hnames hl ▸ List.prefix_append _ _

/-- What is asked about the node at a path below the folder. -/
theorem ask (h : Alike here base folder t t') (hnames : ['.', '.'] ∉ names) (f : FileNode → Bool) :
    t'.ask here (base.join ⟨[], names⟩) f = t.ask here (base.join ⟨[], names⟩) f := by
  unfold FileTree.ask
  rw [h.locate hnames]
  split
  · rename_i place hl
    rw [h.below.node? (h.prefix_place hnames hl)]
  · rfl
  · rfl

theorem isFolder (h : Alike here base folder t t') (hnames : ['.', '.'] ∉ names) :
    t'.isFolder here (base.join ⟨[], names⟩) = t.isFolder here (base.join ⟨[], names⟩) := by
  unfold FileTree.isFolder
  rw [h.locate hnames]
  split
  · rename_i place hl
    rw [h.below.node? (h.prefix_place hnames hl)]
  · rfl

theorem isFile (h : Alike here base folder t t') (hnames : ['.', '.'] ∉ names) :
    t'.isFile here (base.join ⟨[], names⟩) = t.isFile here (base.join ⟨[], names⟩) := by
  unfold FileTree.isFile
  rw [h.locate hnames]
  split
  · rename_i place hl
    rw [h.below.node? (h.prefix_place hnames hl)]
  · rfl

theorem readBytes (h : Alike here base folder t t') (hnames : ['.', '.'] ∉ names) :
    t'.readBytes here (base.join ⟨[], names⟩) = t.readBytes here (base.join ⟨[], names⟩) := by
  unfold FileTree.readBytes
  rw [h.locate hnames]
  split
  · rfl
  · rename_i place hl
    rw [h.below.node? (h.prefix_place hnames hl)]

theorem list (h : Alike here base folder t t') (hnames : ['.', '.'] ∉ names) :
    t'.list here (base.join ⟨[], names⟩) = t.list here (base.join ⟨[], names⟩) := by
  unfold FileTree.list
  rw [h.locate hnames]
  split
  · rfl
  · rename_i place hl
    rw [h.below.node? (h.prefix_place hnames hl), h.below.entriesAt (h.prefix_place hnames hl)]

end Alike

/-- A folder apart from the root of a change, to which a path leads. -/
theorem Grows.alike {here root folder : List Text} {base : Path} {t t' : FileTree} (hg : t.Grows t')
    (ho : t.SameOutside root t') (ha : Apart root folder) (hl : t.locate here base = .ok folder) :
    Alike here base folder t t' :=
  ⟨hl, hg.locate hl, ho.sameBelow ha⟩

end FileTree
end Lectern
