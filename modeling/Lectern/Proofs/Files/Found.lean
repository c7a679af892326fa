import Lectern.Files.Select
import Lectern.Proofs.Files.Alike
import Lectern.Proofs.Journal

/-!
# What a search finds

A search by a pattern goes from the folder downwards, as long as the pattern does not lead back with two dots.
So it finds the same in two trees in which the folder is the same (`Alike.select`).
-/

namespace Lectern
open Text

namespace Glob

/-- The pattern never leads back. -/
def NoDots (steps : List Step) : Prop := .called ['.', '.'] ∉ steps

theorem noDots_of_steps? {t : Text} {steps : List Step} (ht : ['.', '.'] ∉ (Path.ofText t).parts)
    (h : steps? t = some steps) : NoDots steps := by
  obtain ⟨mid, hmid, h⟩ := Option.bind_eq_some_iff.mp h
  obtain rfl := Option.some.inj h
  have hcalled {p : Text} (h : Step.ofText? p = some (.called ['.', '.'])) : p = ['.', '.'] := by
    unfold Step.ofText? at h
    split at h
    · cases h
    · split at h
      · cases h
      · split at h
        · cases h
        · cases h
          rfl
  have hsteps : ∀ {ps : List Text} {mid : List Step}, ['.', '.'] ∉ ps → ps.mapM Step.ofText? = some mid →
      .called ['.', '.'] ∉ mid := by
    intro ps
    induction ps with
    | nil =>
      intro mid _ h
      obtain rfl := Option.some.inj h
      exact List.not_mem_nil
    | cons p ps ih =>
      intro mid hps h
      rw [List.mapM_cons] at h
      obtain ⟨s, hs, h⟩ := Option.bind_eq_some_iff.mp h
      obtain ⟨rest, hrest, h⟩ := Option.bind_eq_some_iff.mp h
      obtain rfl := Option.some.inj h
      intro hm
      rcases List.mem_cons.mp hm with rfl | hm
      · exact hps (hcalled hs ▸ List.mem_cons_self)
      · exact ih (fun hm => hps (List.mem_cons_of_mem _ hm)) hrest hm
  intro hm
  rcases List.mem_append.mp hm with hm | hm
  · rcases List.mem_cons.mp hm with e | hm
    · cases e
    · exact hsteps ht hmid hm
  · split at hm
    · cases List.mem_singleton.mp hm
    · cases hm

end Glob

namespace FileTree
open Glob

theorem mapM_congr {ε α β : Type} {f g : α → Except ε β} {l : List α} (h : ∀ a ∈ l, f a = g a) :
    l.mapM f = l.mapM g := by
  induction l with
  | nil => rfl
  | cons a l ih =>
    rw [List.mapM_cons, List.mapM_cons, h a List.mem_cons_self, ih fun a ha => h a (List.mem_cons_of_mem _ ha)]

theorem forall_of_mapM {ε α β : Type} {P : β → Prop} {f : α → Except ε β} {l : List α} {bs : List β}
    (h : ∀ a ∈ l, ∀ b, f a = .ok b → P b) (hl : l.mapM f = .ok bs) : ∀ b ∈ bs, P b := by
  induction l generalizing bs with
  | nil =>
    obtain rfl := Except.ok.inj hl
    exact fun b hb => absurd hb List.not_mem_nil
  | cons a l ih =>
    rw [List.mapM_cons] at hl
    obtain ⟨b, ha, hl⟩ := except_bind_eq_ok.mp hl
    obtain ⟨bs', hrest, hl⟩ := except_bind_eq_ok.mp hl
    obtain rfl := Except.ok.inj hl
    exact List.forall_mem_cons.mpr ⟨h a List.mem_cons_self b ha, ih (fun a ha => h a (List.mem_cons_of_mem _ ha)) hrest⟩

/-- What several runs find between them, one of them finds. -/
theorem forall_of_mapM_flatten {ε α β : Type} {P : β → Prop} {f : α → Except ε (List β)} {l : List α} {bs : List β}
    (h : ∀ a ∈ l, ∀ part, f a = .ok part → ∀ b ∈ part, P b)
    (hl : (do return (← l.mapM f).flatten) = Except.ok bs) : ∀ b ∈ bs, P b := by
  obtain ⟨parts, hm, hl⟩ := except_bind_eq_ok.mp hl
  obtain rfl := Except.ok.inj hl
  intro b hb
  obtain ⟨part, hpart, hb⟩ := List.mem_flatten.mp hb
  exact forall_of_mapM h hm part hpart b hb

variable {here folder : List Text} {base : Path} {t t' : FileTree}

/-- No part of what lies below a folder leads back. -/
theorem dots_not_mem_below {place : List Text} (hn : t.NamesBelow folder) (hp : folder <+: place)
    {e : List Text × FileNode} (he : e ∈ t.below place) : ['.', '.'] ∉ e.1 := by
  obtain ⟨⟨parts, n⟩, hm, hd⟩ := List.mem_filterMap.mp (List.mem_mergeSort.mp he)
  split at hd
  · rename_i hc
    obtain rfl := Option.some.inj hd
    intro hdots
    obtain ⟨more, rfl⟩ := hp
    exact (NamesBelow.append hn _ hm hc.1 _ hdots).2.2.1 rfl
  · cases hd

theorem dots_not_mem_foldersFrom {names : List Text} (hl : t.locate here base = .ok folder)
    (hn : t.NamesBelow folder) (hnames : ['.', '.'] ∉ names) {place : List Text}
    (h : place ∈ t.foldersFrom here base names) : ['.', '.'] ∉ place := by
  unfold foldersFrom at h
  split at h
  · cases h
  · rename_i there hthere
    obtain rfl := Alike.place hl hnames hthere
    rcases List.mem_cons.mp h with rfl | h
    · exact hnames
    · obtain ⟨e, he, hd⟩ := List.mem_filterMap.mp h
      split at hd
      · cases hd
      · obtain rfl := Option.some.inj hd
        exact fun hm => (List.mem_append.mp hm).elim hnames
          (dots_not_mem_below hn (List.prefix_append _ _) he)

theorem isName_of_mem_list {names : List Text} (hl : t.locate here base = .ok folder)
    (hn : t.NamesBelow folder) (hnames : ['.', '.'] ∉ names) {e : Text × FileNode}
    (h : e ∈ (t.list here (base.join ⟨[], names⟩)).toOption.getD []) : Path.IsName e.1 := by
  unfold FileTree.list at h
  split at h
  · cases h
  · rename_i place hplace
    obtain rfl := Alike.place hl hnames hplace
    split at h
    · exact isName_of_mem_entriesAt hn h
    · cases h
    · cases h

theorem dots_not_mem_concat {names : List Text} {name : Text} (h : ['.', '.'] ∉ names)
    (hn : name ≠ ['.', '.']) : ['.', '.'] ∉ names ++ [name] := fun hm =>
  (List.mem_append.mp hm).elim h fun hm => hn (List.mem_singleton.mp hm).symm

/-- No step leads back, so neither does what is found. -/
theorem dots_not_mem_selectFrom {steps : List Step} {names : List Text}
    (hl : t.locate here base = .ok folder) (hn : t.NamesBelow folder) (hsteps : NoDots steps)
    (hnames : ['.', '.'] ∉ names) {found : List (List Text)}
    (h : t.selectFrom here base steps names = .ok found) : ∀ place ∈ found, ['.', '.'] ∉ place := by
  induction steps generalizing names found with
  | nil =>
    obtain rfl := Except.ok.inj h
    exact fun place hp => List.mem_singleton.mp hp ▸ hnames
  | cons step steps ih =>
    have hrest : NoDots steps := fun hm => hsteps (List.mem_cons_of_mem _ hm)
    cases step with
    | folder =>
      obtain rfl := Except.ok.inj h
      exact fun place hp => List.mem_singleton.mp hp ▸ hnames
    | anywhere =>
      rw [selectFrom] at h
      exact forall_of_mapM_flatten (fun a ha _ hpart => ih hrest (dots_not_mem_foldersFrom hl hn hnames ha) hpart) h
    | called name =>
      rw [selectFrom] at h
      have hname : name ≠ ['.', '.'] := fun e => hsteps (e ▸ List.mem_cons_self)
      have hgo {found} : t.selectFrom here base steps (names ++ [name]) = .ok found →
          ∀ place ∈ found, ['.', '.'] ∉ place := ih hrest (dots_not_mem_concat hnames hname)
      have hasked {r : Except FileError Bool} (h : (do
          let found ← r
          if found then t.selectFrom here base steps (names ++ [name]) else .ok []) = .ok found) :
          ∀ place ∈ found, ['.', '.'] ∉ place := by
        match r, h with
        | .ok true, h => exact hgo h
        | .ok false, h =>
          obtain rfl := Except.ok.inj h
          exact fun place hp => absurd hp List.not_mem_nil
      split at h
      · exact hasked h
      · exact hasked h
    | fitting pattern =>
      rw [selectFrom] at h
      generalize hfit : ((t.list here (base.join ⟨[], names⟩)).toOption.getD []).filter _ = fit at h
      have hmem : ∀ e ∈ fit, Path.IsName e.1 := fun e he =>
        isName_of_mem_list hl hn hnames (List.mem_filter.mp (hfit ▸ he)).1
      exact forall_of_mapM_flatten
        (fun e he _ hpart => ih hrest (dots_not_mem_concat hnames (hmem e he).2.2.1) hpart) h

namespace Alike

theorem foldersFrom (h : Alike here base folder t t') {names : List Text} (hnames : ['.', '.'] ∉ names) :
    t'.foldersFrom here base names = t.foldersFrom here base names := by
  unfold FileTree.foldersFrom
  rw [h.locate hnames]
  split
  · rfl
  · rename_i there hthere
    rw [h.below.below (h.prefix_place hnames hthere)]

/-- Steps lead to the same places. -/
theorem selectFrom (h : Alike here base folder t t') (hn : t.NamesBelow folder) {steps : List Step}
    (hsteps : NoDots steps) {names : List Text} (hnames : ['.', '.'] ∉ names) :
    t'.selectFrom here base steps names = t.selectFrom here base steps names := by
  induction steps generalizing names with
  | nil => rfl
  | cons step steps ih =>
    have hrest : NoDots steps := fun hm => hsteps (List.mem_cons_of_mem _ hm)
    cases step with
    | folder => rfl
    | anywhere =>
      rw [FileTree.selectFrom, FileTree.selectFrom, h.foldersFrom hnames,
        mapM_congr fun place hp => ih hrest (dots_not_mem_foldersFrom h.locate_left hn hnames hp)]
    | called name =>
      have hname : name ≠ ['.', '.'] := fun e => hsteps (e ▸ List.mem_cons_self)
      have hnext := dots_not_mem_concat hnames hname
      rw [FileTree.selectFrom, FileTree.selectFrom, ih hrest hnext, hasAny, hasFolder, h.ask hnext, h.ask hnext]
      rfl
    | fitting pattern =>
      rw [FileTree.selectFrom, FileTree.selectFrom, h.list hnames, mapM_congr fun e he => ih hrest (dots_not_mem_concat hnames
        (isName_of_mem_list h.locate_left hn hnames (List.mem_filter.mp he).1).2.2.1)]

/-- A search finds the same. -/
theorem select (h : Alike here base folder t t') (hn : t.NamesBelow folder) {steps : List Step}
    (hsteps : NoDots steps) : t'.select here base steps = t.select here base steps := by
  have hb := h.isFolder (List.not_mem_nil : ['.', '.'] ∉ ([] : List Text))
  rw [Path.join_nil] at hb
  unfold FileTree.select
  rw [hb, h.selectFrom hn hsteps List.not_mem_nil]

end Alike

/-- What is found by a search has no two dots in its path. -/
theorem dots_not_mem_select {steps : List Step} (hl : t.locate here base = .ok folder)
    (hn : t.NamesBelow folder) (hsteps : NoDots steps) {found : List (List Text)}
    (h : t.select here base steps = .ok found) : ∀ place ∈ found, ['.', '.'] ∉ place := by
  unfold FileTree.select at h
  split at h
  · obtain ⟨places, hs, h⟩ := except_bind_eq_ok.mp h
    obtain rfl := Except.ok.inj h
    exact fun place hp => dots_not_mem_selectFrom hl hn hsteps List.not_mem_nil hs place
      (List.mem_mergeSort.mp (List.mem_eraseDups.mp hp))
  · obtain rfl := Except.ok.inj h
    exact fun place hp => absurd hp List.not_mem_nil

end FileTree
end Lectern
