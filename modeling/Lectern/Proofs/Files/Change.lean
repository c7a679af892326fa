import Lectern.Proofs.Files

/-!
# What a change leaves alone

Files are made and written below one folder, the root of the change.  Everything that does not lie there
stays as it is; what lies there stays a folder or stays a file.

* `SameOutside`   two trees of files that differ below a root only, node by node;
* `Grows`         what stands somewhere goes on to stand there, as a folder or as a file;
* `Changed`       both, for a change that sets the content of certain places only;
* `newPlace_eq_resolve`, `Grows.newPlace`   where a new node stands, and that it stands there later on;
* `changed_write`, `changed_makeFolders`    the two changes that all others are made of.
-/

namespace Lectern.FileTree
open Text

/-- What stands at a place: `true` for a file, `false` for a folder. -/
def kind? (t : FileTree) (place : List Text) : Option Bool := (t.node? place).map FileNode.isFile

/-- The same nodes stand outside of a folder. -/
def SameOutside (root : List Text) (t t' : FileTree) : Prop :=
  t'.nodes.filter (fun e => ¬ root <+: e.1) = t.nodes.filter fun e => ¬ root <+: e.1

/-- What stands somewhere goes on to stand there, as a folder or as a file. -/
structure Grows (t t' : FileTree) : Prop where
  kind : ∀ {place b}, t.kind? place = some b → t'.kind? place = some b

/-- The second tree comes from the first by a change below a folder that sets the contents of no other files
than those at the places `W`. -/
structure Changed (root : List Text) (W : List Text → Prop) (t t' : FileTree) : Prop where
  outside : t.SameOutside root t'
  grows : t.Grows t'
  isTree : t'.IsTree
  contents : ∀ {place b}, t.node? place = some (.file b) → ¬ W place → t'.node? place = some (.file b)

section
variable {t t' t'' : FileTree} {place q root : List Text} {n : FileNode} {b : Bytes}

theorem kind?_eq_false : t.kind? place = some false ↔ t.node? place = some .folder := by
  unfold kind?
  rcases t.node? place with - | - | - <;> simp [FileNode.isFile]

theorem kind?_eq_true : t.kind? place = some true ↔ ∃ b, t.node? place = some (.file b) := by
  unfold kind?
  rcases t.node? place with - | - | - <;> simp [FileNode.isFile]

/-! ## one node -/

theorem lookup_filter {α β : Type} [BEq α] [LawfulBEq α] {p : α × β → Bool} {a : α} {l : List (α × β)}
    (h : ∀ e ∈ l, e.1 = a → p e = true) : (l.filter p).lookup a = l.lookup a := by
  induction l with
  | nil => rfl
  | cons e l ih =>
    have hl := ih fun d hd => h d (List.mem_cons_of_mem _ hd)
    obtain ⟨k, v⟩ := e
    by_cases hk : k = a
    · rw [List.filter_cons_of_pos (h _ List.mem_cons_self hk)]
      simp [hk]
    · have hne : (a == k) = false := by simpa using Ne.symm hk
      rw [List.filter_cons]
      split <;> simp only [List.lookup_cons, hne, hl]

theorem node?_put_of_ne (h : q ≠ place) (n : FileNode) : (t.put place n).node? q = t.node? q := by
  have hne : (q == place) = false := by simpa using h
  unfold node? put
  split
  · rfl
  · simp only [List.lookup_cons, hne]
    exact lookup_filter fun e _ he => by simpa [he] using h

theorem sameOutside_put (h : root <+: place) (n : FileNode) : t.SameOutside root (t.put place n) := by
  unfold SameOutside put
  rw [List.filter_cons_of_neg (by simpa using h), List.filter_filter]
  refine List.filter_congr fun e _ => ?_
  by_cases he : e.1 = place
  · simp [he, h]
  · simp [he]

namespace SameOutside

theorem refl (root : List Text) (t : FileTree) : t.SameOutside root t := rfl

theorem trans (h : t.SameOutside root t') (h' : t'.SameOutside root t'') : t.SameOutside root t'' :=
  Eq.trans h' h

theorem symm (h : t.SameOutside root t') : t'.SameOutside root t := Eq.symm h

theorem node? (h : t.SameOutside root t') (hq : ¬ root <+: q) : t'.node? q = t.node? q := by
  have hkeep (t : FileTree) : (t.nodes.filter fun e => ¬ root <+: e.1).lookup q = t.nodes.lookup q :=
    lookup_filter fun e _ he => by simpa [he] using hq
  unfold FileTree.node?
  rw [← hkeep t', ← hkeep t, h]

end SameOutside

namespace Grows

theorem refl (t : FileTree) : t.Grows t := ⟨id⟩

theorem trans (h : t.Grows t') (h' : t'.Grows t'') : t.Grows t'' := ⟨fun hk => h'.kind (h.kind hk)⟩

theorem folder (h : t.Grows t') (hn : t.node? q = some .folder) : t'.node? q = some .folder :=
  kind?_eq_false.mp (h.kind (kind?_eq_false.mpr hn))

theorem file (h : t.Grows t') (hn : t.node? q = some (.file b)) : ∃ b', t'.node? q = some (.file b') :=
  kind?_eq_true.mp (h.kind (kind?_eq_true.mpr ⟨b, hn⟩))

end Grows

theorem Changed.refl {W : List Text → Prop} (ht : t.IsTree) : Changed root W t t :=
  ⟨.refl root t, .refl t, ht, fun h _ => h⟩

theorem Changed.trans {W : List Text → Prop} (h : Changed root W t t') (h' : Changed root W t' t'') :
    Changed root W t t'' :=
  ⟨h.outside.trans h'.outside, h.grows.trans h'.grows, h'.isTree,
    fun hn hw => h'.contents (h.contents hn hw) hw⟩

theorem Changed.mono {W W' : List Text → Prop} (h : Changed root W t t') (hw : ∀ q, W q → W' q) :
    Changed root W' t t' :=
  ⟨h.outside, h.grows, h.isTree, fun hn hq => h.contents hn fun e => hq (hw _ e)⟩

/-- One node put below the root, into a folder that is there: a folder where nothing stood, or a file where no
folder stood. -/
theorem changed_put {init : List Text} {last : Text} {W : List Text → Prop} (ht : t.IsTree)
    (hroot : root <+: init ++ [last]) (hinit : t.node? init = some .folder) (hlast : last ≠ ['.', '.'])
    (hkind : t.kind? (init ++ [last]) = none ∨ t.kind? (init ++ [last]) = some n.isFile ∧ n.isFile = true)
    (hw : n.isFile = true → W (init ++ [last])) : Changed root W t (t.put (init ++ [last]) n) := by
  have hne : init ++ [last] ≠ [] := List.append_ne_nil_of_right_ne_nil _ (List.cons_ne_nil _ _)
  have hnot : t.node? (init ++ [last]) ≠ some .folder := fun e => by
    rcases hkind with h | ⟨h, hf⟩
    · rw [kind?_eq_false.mpr e] at h
      cases h
    · rw [kind?_eq_false.mpr e, hf] at h
      cases h
  refine ⟨sameOutside_put hroot n, ⟨fun {q b} hk => ?_⟩, ⟨fun {q name m} hm => ?_, fun {q m} hm => ?_⟩,
    fun {q b} hn hq => ?_⟩
  · by_cases hq : q = init ++ [last]
    · subst hq
      rcases hkind with h | ⟨h, -⟩
      · rw [h] at hk
        cases hk
      · rw [← hk, h, kind?, node?_put _ _ _ hne]
        rfl
    · rw [kind?, node?_put_of_ne hq]
      exact hk
  · by_cases hq : q ++ [name] = init ++ [last]
    · obtain ⟨rfl, -⟩ := List.append_inj' hq rfl
      rw [node?_put_of_ne (by simp), hinit]
    · rw [node?_put_of_ne hq] at hm
      have hparent := ht.parent hm
      have hne : q ≠ init ++ [last] := by
        rintro rfl
        exact hnot hparent
      rw [node?_put_of_ne hne, hparent]
  · by_cases hq : q = init ++ [last]
    · subst hq
      exact fun e => (List.mem_append.mp e).elim (ht.noDots hinit) fun e => hlast (List.mem_singleton.mp e).symm
    · rw [node?_put_of_ne hq] at hm
      exact ht.noDots hm
  · by_cases hp : q = init ++ [last]
    · subst hp
      rcases hkind with h | ⟨-, hf⟩
      · rw [kind?, hn] at h
        cases h
      · exact absurd (hw hf) hq
    · rw [node?_put_of_ne hp, hn]

end

/-! ## where a new node stands -/

section
variable {t t' : FileTree} {here place done cs : List Text} {p : Path}

theorem Grows.locateFrom (h : t.Grows t') (hl : t.locateFrom done cs = .ok place) :
    t'.locateFrom done cs = .ok place := by
  induction cs generalizing done with
  | nil => exact hl
  | cons c cs ih =>
    unfold FileTree.locateFrom at hl ⊢
    split at hl
    · cases hl
    · cases hl
    · rename_i hd
      rw [h.folder hd]
      dsimp only
      split at hl
      · rw [if_pos ‹_›]
        exact ih hl
      · rw [if_neg ‹_›]
        split at hl
        · cases hl
        · rw [if_neg ‹_›]
          split at hl
          · cases hl
          · rename_i n hn
            obtain ⟨n', hn'⟩ : ∃ n', t'.node? (done ++ [c]) = some n' := by
              have hk : t.kind? (done ++ [c]) = some n.isFile := by rw [kind?, hn]; rfl
              obtain ⟨n', hn', -⟩ := Option.map_eq_some_iff.mp (h.kind hk)
              exact ⟨n', hn'⟩
            rw [hn']
            exact ih hl

theorem locate_of_locateFrom (h : t.locate here p = .ok place) {t' : FileTree} {place' : List Text}
    (hl : t'.locateFrom (start here p) p.parts = .ok place') : t'.locate here p = .ok place' := by
  unfold locate at h ⊢
  split at h
  · cases h
  · rw [if_neg ‹_›]
    split at h
    · cases h
    · rw [if_neg ‹_›]
      exact hl

theorem Grows.locate (h : t.Grows t') (hl : t.locate here p = .ok place) : t'.locate here p = .ok place :=
  locate_of_locateFrom hl (h.locateFrom (locate_eq_ok hl))

/-- A place for a new node: an old folder, or a name in one. -/
inductive NewPlace (t : FileTree) (here : List Text) (p : Path) : List Text → Prop where
  | folder (h : t.node? (p.resolve here) = some .folder) : NewPlace t here p (p.resolve here)
  | name {init : List Text} {last : Text} (hp : p.parts.getLast? = some last) (hlast : last ≠ ['.', '.'])
      (hinit : init = p.parent.resolve here) (h : t.node? init = some .folder) :
      NewPlace t here p (init ++ [last])

theorem resolve_of_getLast? {last : Text} (hp : p.parts.getLast? = some last) (here : List Text) :
    p.resolve here = Path.collapse (p.parent.resolve here) [last] := by
  obtain ⟨init, hp⟩ := List.getLast?_eq_some_iff.mp hp
  obtain ⟨anchor, parts⟩ := p
  obtain rfl : parts = init ++ [last] := hp
  have hjoin : (⟨anchor, init ++ [last]⟩ : Path) = (⟨anchor, init⟩ : Path).join ⟨[], [last]⟩ := rfl
  rw [hjoin, Path.resolve_join, if_neg (by simp [Path.isAbsolute]), Path.join]
  simp [Path.parent, Path.isAbsolute]

theorem newPlace_of_newPlace (ht : t.IsTree) (hhere : t.node? here = some .folder)
    (h : t.newPlace here p = .ok place) : NewPlace t here p place := by
  unfold newPlace at h
  split at h
  · rename_i hp
    obtain rfl := Except.ok.inj h
    have hparts : p.parts = [] := List.getLast?_eq_none_iff.mp hp
    have hres : p.resolve here = start here p := by
      rw [Path.resolve, hparts, start]
      split
      · rfl
      · rw [List.append_nil, Path.collapse_of_dots_not_mem (ht.noDots hhere)]
        rfl
    have hstart : t.node? (start here p) = some .folder := by
      unfold start
      split
      · rfl
      · exact hhere
    rw [← hres]
    exact .folder (hres ▸ hstart)
  · rename_i last hlast
    have hres := resolve_of_getLast? hlast here
    split at h
    · cases h
    · split at h
      · cases h
      · rename_i mid hl
        obtain rfl := ht.locate_eq_resolve hhere hl
        split at h
        · rename_i hmid
          split at h
          · rename_i hdots
            obtain rfl := Except.ok.inj h
            rw [hdots, Path.collapse, if_pos rfl] at hres
            have hfolder : t.node? (p.resolve here) = some .folder := by
              rw [hres]
              exact ht.node?_dropLast hmid
            have : NewPlace t here p (p.resolve here) := .folder hfolder
            rwa [hres] at this
          · rename_i hdots
            split at h
            · cases h
            · obtain rfl := Except.ok.inj h
              exact .name hlast hdots rfl hmid
        · cases h

theorem newPlace_eq_resolve (ht : t.IsTree) (hhere : t.node? here = some .folder)
    (h : t.newPlace here p = .ok place) : place = p.resolve here := by
  cases newPlace_of_newPlace ht hhere h with
  | folder h => rfl
  | name hp hlast hinit h =>
    rw [resolve_of_getLast? hp, Path.collapse, if_neg hlast, Path.collapse, hinit]

/-- What has found a place goes on to find it. -/
theorem Grows.newPlace (h : t.Grows t') (hp : t.newPlace here p = .ok place) :
    t'.newPlace here p = .ok place := by
  unfold FileTree.newPlace at hp ⊢
  split at hp
  · exact hp
  · split at hp
    · cases hp
    · rw [if_neg ‹_›]
      split at hp
      · cases hp
      · rename_i mid hl
        rw [h.locate hl]
        dsimp only
        split at hp
        · rename_i hmid
          rw [h.folder hmid]
          exact hp
        · cases hp

end

/-! ## folders and files -/

section
variable {t t' : FileTree} {here root place : List Text} {p : Path} {b : Bytes} {W : List Text → Prop}

/-- A folder stands where the path leads. -/
structure FolderAt (t : FileTree) (here : List Text) (p : Path) (place : List Text) : Prop where
  newPlace : t.newPlace here p = .ok place
  folder : t.node? place = some .folder

theorem Grows.folderAt (h : t.Grows t') (hp : t.FolderAt here p place) : t'.FolderAt here p place :=
  ⟨h.newPlace hp.newPlace, h.folder hp.folder⟩

theorem FolderAt.makeFolder (h : t.FolderAt here p place) : t.makeFolder here p = .ok t := by
  rw [FileTree.makeFolder, h.newPlace]
  dsimp only
  rw [h.folder]

theorem FolderAt.makeFolders (h : t.FolderAt here p place) : t.makeFolders here p = .ok t := by
  unfold FileTree.makeFolders
  cases p.parts.length with
  | zero => exact h.makeFolder
  | succ count =>
    rw [makeFoldersAux, h.makeFolder]

/-- A file written: its place is a name in a folder that is there, and no folder stood there. -/
theorem exists_of_write (ht : t.IsTree) (hhere : t.node? here = some .folder)
    (h : t.write here p b = .ok t') :
    ∃ init last, p.resolve here = init ++ [last] ∧ last ≠ ['.', '.'] ∧ t.node? init = some .folder ∧
      t.newPlace here p = .ok (p.resolve here) ∧ t.node? (p.resolve here) ≠ some .folder ∧
      t' = t.put (p.resolve here) (.file b) := by
  unfold write at h
  split at h
  · cases h
  · rename_i place hp
    obtain rfl := newPlace_eq_resolve ht hhere hp
    split at h
    · cases h
    · rename_i hn
      obtain rfl := Except.ok.inj h
      have hnot : t.node? (p.resolve here) ≠ some .folder := hn
      generalize hq : p.resolve here = q at hp hnot
      cases newPlace_of_newPlace ht hhere hp with
      | folder h => exact absurd h hnot
      | name _ hlast _ hinit => exact ⟨_, _, rfl, hlast, hinit, hp, hnot, rfl⟩

theorem changed_write (ht : t.IsTree) (hhere : t.node? here = some .folder) (h : t.write here p b = .ok t')
    (hroot : root <+: p.resolve here) (hw : W (p.resolve here)) : Changed root W t t' := by
  obtain ⟨init, last, hp, hlast, hinit, -, hnot, rfl⟩ := exists_of_write ht hhere h
  rw [hp] at hroot hw hnot ⊢
  refine changed_put ht hroot hinit hlast ?_ fun _ => hw
  cases hk : t.kind? (init ++ [last]) with
  | none => exact .inl rfl
  | some k =>
    cases k with
    | true => exact .inr ⟨rfl, rfl⟩
    | false => exact absurd (kind?_eq_false.mp hk) hnot

/-- A written file holds what was written. -/
theorem node?_of_write (ht : t.IsTree) (hhere : t.node? here = some .folder) (h : t.write here p b = .ok t') :
    t'.node? (p.resolve here) = some (.file b) := by
  obtain ⟨init, last, hp, -, -, -, -, rfl⟩ := exists_of_write ht hhere h
  refine node?_put _ _ _ (hp ▸ ?_)
  exact List.append_ne_nil_of_right_ne_nil _ (List.cons_ne_nil _ _)

/-- Folders are made where nothing stood. -/
def OnlyFolders (t t' : FileTree) : Prop :=
  ∀ q, t'.node? q = t.node? q ∨ t.node? q = none ∧ t'.node? q = some .folder

theorem changed_makeFolder (ht : t.IsTree) (hhere : t.node? here = some .folder)
    (h : t.makeFolder here p = .ok t') (hroot : root <+: p.resolve here) :
    Changed root W t t' ∧ t.OnlyFolders t' ∧ t'.FolderAt here p (p.resolve here) := by
  unfold makeFolder at h
  split at h
  · cases h
  · rename_i place hp
    obtain rfl := newPlace_eq_resolve ht hhere hp
    split at h
    · rename_i hn
      obtain rfl := Except.ok.inj h
      generalize hq : p.resolve here = q at hp hn hroot
      cases newPlace_of_newPlace ht hhere hp with
      | folder h =>
        rw [hn] at h
        cases h
      | @name init last _ hlast _ hinit =>
        have hne : init ++ [last] ≠ [] := List.append_ne_nil_of_right_ne_nil _ (List.cons_ne_nil _ _)
        have hc : Changed root W t (t.put (init ++ [last]) .folder) :=
          changed_put ht hroot hinit hlast (.inl (by rw [kind?, hn]; rfl)) fun e => by cases e
        refine ⟨hc, fun q => ?_, hc.grows.newPlace hp, node?_put _ _ _ hne⟩
        by_cases hq : q = init ++ [last]
        · subst hq
          exact .inr ⟨hn, node?_put _ _ _ hne⟩
        · exact .inl (node?_put_of_ne hq _)
    · rename_i hn
      obtain rfl := Except.ok.inj h
      exact ⟨.refl ht, fun q => .inl rfl, hp, hn⟩
    · cases h

theorem OnlyFolders.trans {t'' : FileTree} (h : t.OnlyFolders t') (h' : t'.OnlyFolders t'') :
    t.OnlyFolders t'' := fun q => by
  rcases h' q with e | ⟨hn, e⟩
  · rw [e]
    exact h q
  · rcases h q with e' | ⟨hn', e'⟩
    · exact .inr ⟨e' ▸ hn, e⟩
    · rw [hn] at e'
      cases e'

/-- The path that leads on from another one by some names. -/
theorem resolve_join_names {q : Path} {names : List Text} (h : ['.', '.'] ∉ names) (here : List Text) :
    (q.join ⟨[], names⟩).resolve here = q.resolve here ++ names := by
  rw [Path.resolve_join, if_neg (by simp [Path.isAbsolute]), Path.collapse_of_dots_not_mem h]

theorem parent_join_names (q : Path) {names : List Text} (h : names ≠ []) :
    (q.join ⟨[], names⟩).parent = q.join ⟨[], names.dropLast⟩ := by
  simp [Path.join, Path.isAbsolute, Path.parent, List.dropLast_append_of_ne_nil h]

/-- Folders made on the way to a path below a folder. -/
theorem changed_makeFoldersAux {count : Nat} {base : Path} {names : List Text} (ht : t.IsTree)
    (hhere : t.node? here = some .folder) (hbase : t.FolderAt here base root) (hnames : ['.', '.'] ∉ names)
    (h : t.makeFoldersAux here count (base.join ⟨[], names⟩) = .ok t') :
    Changed root W t t' ∧ t.OnlyFolders t' ∧ t'.FolderAt here (base.join ⟨[], names⟩) (root ++ names) := by
  have hres : base.resolve here = root := (newPlace_eq_resolve ht hhere hbase.newPlace).symm
  have hone {t₀ t' : FileTree} (ht : t₀.IsTree) (hhere : t₀.node? here = some .folder)
      {names : List Text} (hnames : ['.', '.'] ∉ names)
      (h : t₀.makeFolder here (base.join ⟨[], names⟩) = .ok t') :
      Changed root W t₀ t' ∧ t₀.OnlyFolders t' ∧ t'.FolderAt here (base.join ⟨[], names⟩) (root ++ names) := by
    have hp := resolve_join_names (q := base) hnames here
    rw [hres] at hp
    have hroot : root <+: (base.join ⟨[], names⟩).resolve here := hp ▸ List.prefix_append _ _
    have hm := changed_makeFolder (W := W) ht hhere h hroot
    rwa [hp] at hm
  induction count generalizing names t' with
  | zero => exact hone ht hhere hnames h
  | succ count ih =>
    unfold makeFoldersAux at h
    split at h
    · rename_i hm
      obtain rfl := Except.ok.inj h
      exact hone ht hhere hnames hm
    · rename_i e hm
      split at h
      · split at h
        · cases h
        · rename_i hparent
          by_cases hnil : names = []
          · -- the folder itself is there, so that the walk back stops
            have hself : base.join ⟨[], names⟩ = base := by simp [Path.join, Path.isAbsolute, hnil]
            rw [hself, hbase.makeFolder] at hm
            cases hm
          · rw [parent_join_names base hnil] at hparent
            obtain ⟨hc, ho, -⟩ := ih (fun hd => hnames (List.dropLast_subset names hd)) hparent
            obtain ⟨hc', ho', hf⟩ := hone hc.isTree (hc.grows.folder hhere) hnames h
            exact ⟨hc.trans hc', ho.trans ho', hf⟩
      · cases h

theorem changed_makeFolders {base : Path} {names : List Text} (ht : t.IsTree)
    (hhere : t.node? here = some .folder) (hbase : t.FolderAt here base root) (hnames : ['.', '.'] ∉ names)
    (h : t.makeFolders here (base.join ⟨[], names⟩) = .ok t') :
    Changed root W t t' ∧ t.OnlyFolders t' ∧ t'.FolderAt here (base.join ⟨[], names⟩) (root ++ names) :=
  changed_makeFoldersAux ht hhere hbase hnames h

/-- Wherever it leads, a path at which folders were made has its folder. -/
theorem folderAt_makeFolders {count : Nat} (ht : t.IsTree) (hhere : t.node? here = some .folder)
    (h : t.makeFoldersAux here count p = .ok t') :
    (t.Grows t' ∧ t'.IsTree) ∧ t.OnlyFolders t' ∧ t'.FolderAt here p (p.resolve here) := by
  have hone {t₀ t' : FileTree} {p : Path} (ht : t₀.IsTree) (hhere : t₀.node? here = some .folder)
      (h : t₀.makeFolder here p = .ok t') :
      (t₀.Grows t' ∧ t'.IsTree) ∧ t₀.OnlyFolders t' ∧ t'.FolderAt here p (p.resolve here) := by
    obtain ⟨hc, ho, hf⟩ := changed_makeFolder (W := fun _ => True) ht hhere h
      (List.nil_prefix : [] <+: p.resolve here)
    exact ⟨⟨hc.grows, hc.isTree⟩, ho, hf⟩
  induction count generalizing p t' with
  | zero => exact hone ht hhere h
  | succ count ih =>
    unfold makeFoldersAux at h
    split at h
    · rename_i hm
      obtain rfl := Except.ok.inj h
      exact hone ht hhere hm
    · split at h
      · split at h
        · cases h
        · rename_i hparent
          obtain ⟨⟨hg, ht'⟩, ho, -⟩ := ih hparent
          obtain ⟨⟨hg', ht''⟩, ho', hf⟩ := hone ht' (hg.folder hhere) h
          exact ⟨⟨hg.trans hg', ht''⟩, ho.trans ho', hf⟩
      · cases h

end
end Lectern.FileTree
