import Lectern.Files.Tree

/-!
# Where a path leads

A path is followed in two ways: `Path.resolve` works with the parts alone, `FileTree.locate` walks
through the folders.  Where the walk arrives, it arrives at the place the parts say
(`locate_eq_resolve`), in a tree of files that deserves the name:

* `FileTree.IsTree`   whatever stands somewhere stands in a folder, and no name is two dots;
* `FileTree.HasText`  a file stands at the place, and it holds the text.

`resolve_join` is what a folder contributes to the paths seen from it: the place it leads to.
-/

namespace Lectern
open Text

namespace Path

theorem collapse_append (done cs ds : List Text) :
    collapse done (cs ++ ds) = collapse (collapse done cs) ds := by
  induction cs generalizing done with
  | nil => rfl
  | cons c cs ih =>
    rw [List.cons_append, collapse, collapse]
    split
    · exact ih done.dropLast
    · exact ih (done ++ [c])

theorem collapse_of_dots_not_mem {cs : List Text} (h : ['.', '.'] ∉ cs) (done : List Text) :
    collapse done cs = done ++ cs := by
  induction cs generalizing done with
  | nil => exact (List.append_nil done).symm
  | cons c cs ih =>
    have hc : c ≠ ['.', '.'] := fun e => h (e ▸ List.mem_cons_self)
    rw [collapse, if_neg hc, ih fun hm => h (List.mem_cons_of_mem c hm), List.append_assoc]
    rfl

theorem resolve_absolute {place : List Text} (h : ['.', '.'] ∉ place) (here : List Text) :
    (absolute place).resolve here = place :=
  collapse_of_dots_not_mem h []

theorem resolve_join (here : List Text) (p q : Path) :
    (p.join q).resolve here =
      if q.isAbsolute then collapse [] q.parts else collapse (p.resolve here) q.parts := by
  unfold join
  by_cases hq : q.isAbsolute
  · rw [if_pos hq, if_pos hq, resolve, if_pos hq]
  · rw [if_neg hq, if_neg hq, resolve, resolve, ← collapse_append]
    congr 1
    change (if p.isAbsolute then p.parts ++ q.parts else here ++ (p.parts ++ q.parts)) = _
    split
    · rfl
    · exact (List.append_assoc _ _ _).symm

/-- The folder of a path that does not end with two dots. -/
theorem resolve_parent {p : Path} {last : Text} (hlast : p.parts.getLast? = some last)
    (hdots : last ≠ ['.', '.']) (here : List Text) :
    p.parent.resolve here = (p.resolve here).dropLast := by
  have hjoin : p = p.parent.join ⟨[], [last]⟩ := by
    obtain ⟨init, hp⟩ := List.getLast?_eq_some_iff.mp hlast
    obtain ⟨anchor, parts⟩ := p
    obtain rfl : parts = init ++ [last] := hp
    simp [join, parent, isAbsolute]
  have hplace : p.resolve here = p.parent.resolve here ++ [last] := by
    conv => lhs; rw [hjoin]
    rw [resolve_join, if_neg (by simp [isAbsolute]), collapse, if_neg hdots, collapse]
  rw [hplace, List.dropLast_concat]

end Path

namespace FileTree

/-- Everything stands in a folder, and is not called two dots. -/
structure IsTree (t : FileTree) : Prop where
  parent : ∀ {place : List Text} {name : Text} {n : FileNode},
    t.node? (place ++ [name]) = some n → t.node? place = some .folder
  noDots : ∀ {place : List Text} {n : FileNode}, t.node? place = some n → ['.', '.'] ∉ place

/-- The file at a place holds a text. -/
def HasText (t : FileTree) (place : List Text) (text : Text) : Prop :=
  ∃ b s, t.node? place = some (.file b) ∧ decode b = .ok s ∧ unifyLineEnds s = text

theorem HasText.unique {t : FileTree} {place : List Text} {s s' : Text} (h : t.HasText place s)
    (h' : t.HasText place s') : s = s' := by
  obtain ⟨b, u, hn, hd, rfl⟩ := h
  obtain ⟨b', u', hn', hd', rfl⟩ := h'
  obtain rfl : b = b' := FileNode.file.inj (Option.some.inj (hn.symm.trans hn'))
  rw [Except.ok.inj (hd.symm.trans hd')]

theorem hasText_of_readText {t : FileTree} {here place : List Text} {text : Text}
    (hdots : ['.', '.'] ∉ place) (h : t.readText here (Path.absolute place) = .ok text) :
    t.HasText place text := by
  obtain ⟨b, s, hb, hs, ht⟩ := readBytes_of_readText h
  exact ⟨b, s, node?_of_readBytes_absolute hdots hb, hs, ht⟩

/-- The list of nodes tells whether it is a tree. -/
theorem isTree_of_nodes {t : FileTree}
    (h : ∀ e ∈ t.nodes, t.node? e.1.dropLast = some .folder ∧ ['.', '.'] ∉ e.1) : t.IsTree := by
  constructor
  · intro place name n hn
    rcases mem_nodes_of_node? hn with ⟨h0, -⟩ | hm
    · exact absurd h0 (List.append_ne_nil_of_right_ne_nil _ (List.cons_ne_nil _ _))
    · have hparent := (h _ hm).1
      rwa [List.dropLast_concat] at hparent
  · intro place n hn
    rcases mem_nodes_of_node? hn with ⟨rfl, -⟩ | hm
    · exact List.not_mem_nil
    · exact (h _ hm).2

section
variable {t : FileTree} {done place cs ds : List Text}

theorem locateFrom_append :
    t.locateFrom done (cs ++ ds) = (t.locateFrom done cs).bind (t.locateFrom · ds) := by
  induction cs generalizing done with
  | nil => rfl
  | cons c cs ih =>
    simp only [List.cons_append, locateFrom]
    split
    · rfl
    · rfl
    · split
      · exact ih
      · split
        · rfl
        · split
          · rfl
          · exact ih

/-- A walk that arrives is at the place its parts say. -/
theorem locateFrom_eq_collapse (h : t.locateFrom done cs = .ok place) :
    place = Path.collapse done cs := by
  induction cs generalizing done with
  | nil => exact (Except.ok.inj h).symm
  | cons c cs ih =>
    unfold locateFrom at h
    rw [Path.collapse]
    split at h
    · exact nomatch h
    · exact nomatch h
    · split at h
      · rename_i hc
        rw [if_pos hc]
        exact ih h
      · rename_i hc
        rw [if_neg hc]
        split at h
        · exact nomatch h
        · split at h
          · exact nomatch h
          · exact ih h

/-- Two dots are followed from a folder only. -/
theorem locateFrom_dots (h : t.locateFrom done [['.', '.']] = .ok place) :
    t.node? done = some .folder ∧ place = done.dropLast := by
  unfold locateFrom at h
  split at h
  · exact nomatch h
  · exact nomatch h
  · rename_i hn
    exact ⟨hn, (Except.ok.inj h).symm⟩

end

namespace IsTree
variable {t : FileTree} {here : List Text} {p : Path} {place : List Text} {b : Bytes}

theorem node?_dropLast (ht : t.IsTree) (h : t.node? place = some .folder) :
    t.node? place.dropLast = some .folder := by
  rcases List.eq_nil_or_concat place with rfl | ⟨init, last, rfl⟩
  · exact h
  · rw [List.concat_eq_append] at h ⊢
    rw [List.dropLast_concat]
    exact ht.parent h

theorem locate_eq_resolve (ht : t.IsTree) (hhere : t.node? here = some .folder)
    (h : t.locate here p = .ok place) : place = p.resolve here := by
  rw [locateFrom_eq_collapse (locate_eq_ok h), Path.resolve, start]
  split
  · rfl
  · rw [Path.collapse_append, Path.collapse_of_dots_not_mem (ht.noDots hhere)]
    rfl

/-- The path of a file ends with a name. -/
theorem name_of_file (ht : t.IsTree) (hhere : t.node? here = some .folder)
    (hl : t.locate here p = .ok place) (hn : t.node? place = some (.file b)) :
    ∃ last, p.parts.getLast? = some last ∧ last ≠ ['.', '.'] := by
  have hwalk := locate_eq_ok hl
  have hstart : t.node? (start here p) = some .folder := by
    unfold start
    split
    · rfl
    · exact hhere
  rcases List.eq_nil_or_concat p.parts with hp | ⟨init, last, hp⟩
  · rw [hp] at hwalk
    obtain rfl := Except.ok.inj hwalk
    exact nomatch hn.symm.trans hstart
  · rw [List.concat_eq_append] at hp
    refine ⟨last, by rw [hp, List.getLast?_concat], ?_⟩
    rintro rfl
    rw [hp, locateFrom_append] at hwalk
    cases hmid : t.locateFrom (start here p) init with
    | error f =>
      rw [hmid] at hwalk
      exact nomatch hwalk
    | ok mid =>
      rw [hmid] at hwalk
      obtain ⟨hfolder, rfl⟩ := locateFrom_dots hwalk
      exact nomatch hn.symm.trans (ht.node?_dropLast hfolder)

/-- A file that is read stands at the place of its path, and its folder is the one of the path. -/
theorem of_readText (ht : t.IsTree) (hhere : t.node? here = some .folder) {text : Text}
    (h : t.readText here p = .ok text) :
    t.HasText (p.resolve here) text ∧ p.parent.resolve here = (p.resolve here).dropLast := by
  obtain ⟨b, s, hb, hs, hu⟩ := readBytes_of_readText h
  obtain ⟨place, hl, hn⟩ := node?_of_readBytes hb
  obtain ⟨last, hlast, hdots⟩ := ht.name_of_file hhere hl hn
  obtain rfl := ht.locate_eq_resolve hhere hl
  exact ⟨⟨b, s, hn, hs, hu⟩, Path.resolve_parent hlast hdots here⟩

end IsTree

end FileTree
end Lectern
