import Lectern.Files.Copy
import Lectern.Proofs.Files.Alike

/-!
# What a copy writes

A file goes to its target, or into the folder that stands there; a folder goes to its end entry by entry.  A
copy of a folder of which nothing is reported did all of it (`copyFolderAux_eq_ok`), and it sets the contents
of no files but those at which the files of the folder land (`changed_copied`).
-/

namespace Lectern.FileTree
open Text

/-- A file that is copied to a place lands there, or under its own name in the folder that stands there. -/
def Lands (place rel q : List Text) : Prop :=
  q = place ++ rel ∨ ∃ last, rel.getLast? = some last ∧ q = place ++ rel ++ [last]

theorem Lands.place_isPrefix {place rel q : List Text} (h : Lands place rel q) : place <+: q := by
  rcases h with rfl | ⟨last, -, rfl⟩
  · exact List.prefix_append _ _
  · exact (List.prefix_append _ _).trans (List.prefix_append _ _)

/-- The tree with a copy of everything in a folder, if nothing is to be reported of it. -/
def copied (here : List Text) : Nat → FileTree → Path → Path → Option FileTree
  | 0, t, _, _ => some t
  | depth + 1, t, source, target => do
    let entries ← (t.list here source).toOption
    let t ← (t.makeFolders here target).toOption
    (entries.mergeSort fun a b => Text.le a.1 b.1).foldlM (fun t entry =>
      let old := source.child entry.1
      let new := target.child entry.1
      if entry.2.isFile then (t.copyFile here old new).toOption else copied here depth t old new) t

/-- The step for one entry. -/
def copyEntry (here : List Text) (depth : Nat) (source target : Path) (t : FileTree)
    (entry : Text × FileNode) : Option FileTree :=
  let old := source.child entry.1
  let new := target.child entry.1
  if entry.2.isFile then (t.copyFile here old new).toOption else copied here depth t old new

theorem copied_succ (here : List Text) (depth : Nat) (t : FileTree) (source target : Path) :
    copied here (depth + 1) t source target =
      (t.list here source).toOption.bind fun entries =>
        (t.makeFolders here target).toOption.bind fun t =>
          (entries.mergeSort fun a b => Text.le a.1 b.1).foldlM (copyEntry here depth source target) t :=
  rfl

theorem copyEntry_folder (here : List Text) (depth : Nat) (source target : Path) (t : FileTree)
    (name : Text) : copyEntry here depth source target t (name, .folder) =
      copied here depth t (source.child name) (target.child name) := rfl

theorem copyEntry_file (here : List Text) (depth : Nat) (source target : Path) (t : FileTree)
    (name : Text) (b : Bytes) : copyEntry here depth source target t (name, .file b) =
      (t.copyFile here (source.child name) (target.child name)).toOption := rfl

theorem sameItems_ne_nil (source target : Path) : sameItems source target ≠ [] := by
  unfold sameItems sameFileMessage
  intro h
  have := congrArg List.length h
  simp at this

section
variable {here root folder place names : List Text} {t t' : FileTree} {source target : Path} {b : Bytes}

/-- A fold that also gathers what goes wrong is the fold that stops there, where nothing has gone wrong. -/
theorem foldl_items {α : Type} {step : FileTree × List Text → α → FileTree × List Text}
    (one : FileTree → α → Option FileTree)
    (h : ∀ t items a, ∃ more, (step (t, items) a).2 = items ++ more ∧
      ∀ t', (step (t, items) a).1 = t' ∧ more = [] ↔ one t a = some t') (l : List α) :
    ∀ t items, l.foldl step (t, items) = (t', []) ↔ items = [] ∧ l.foldlM one t = some t' := by
  induction l with
  | nil =>
    intro t items
    rw [List.foldl_nil, List.foldlM_nil]
    constructor
    · rintro h
      obtain ⟨rfl, rfl⟩ := Prod.mk.inj h
      exact ⟨rfl, rfl⟩
    · rintro ⟨rfl, h⟩
      rw [Option.some.inj h]
  | cons a l ih =>
    intro t items
    obtain ⟨more, hmore, hone⟩ := h t items a
    have hstep : step (t, items) a = ((step (t, items) a).1, items ++ more) := Prod.ext rfl hmore
    rw [List.foldl_cons, List.foldlM_cons, hstep, ih, List.append_eq_nil_iff]
    constructor
    · rintro ⟨⟨rfl, rfl⟩, hl⟩
      refine ⟨rfl, ?_⟩
      rw [(hone _).mp ⟨rfl, rfl⟩]
      exact hl
    · rintro ⟨rfl, hl⟩
      obtain ⟨t₁, ht₁, hl⟩ := Option.bind_eq_some_iff.mp hl
      obtain ⟨rfl, rfl⟩ := (hone t₁).mpr ht₁
      exact ⟨⟨rfl, rfl⟩, hl⟩

/-- Nothing is reported of a copy that did everything. -/
theorem copyFolderAux_eq_ok {depth : Nat} : copyFolderAux here depth t source target = .ok (t', []) ↔
    copied here depth t source target = some t' := by
  induction depth generalizing t source target t' with
  | zero =>
    rw [copyFolderAux, copied]
    simp
  | succ depth ih =>
    rw [copyFolderAux, copied_succ]
    cases t.list here source with
    | error e => simp [Except.toOption]
    | ok entries =>
      cases hm : t.makeFolders here target with
      | error e => simp [Except.toOption]
      | ok t₁ =>
        simp only [Except.toOption, Option.bind_some, Except.ok.injEq]
        rw [foldl_items (copyEntry here depth source target)]
        · simp
        · rintro t items ⟨name, n⟩
          cases n with
          | folder =>
            rw [copyEntry_folder]
            dsimp only
            cases hc : copyFolderAux here depth t (source.child name) (target.child name) with
            | error e =>
              refine ⟨_, rfl, fun t' => ⟨fun h => (List.cons_ne_nil _ _ h.2).elim, fun h => ?_⟩⟩
              rw [← ih, hc] at h
              cases h
            | ok r =>
              refine ⟨r.2, rfl, fun t' => ?_⟩
              rw [← ih, hc]
              obtain ⟨t₂, more⟩ := r
              simp
          | file content =>
            rw [copyEntry_file]
            dsimp only
            cases hc : t.copyFile here (source.child name) (target.child name) with
            | ok t₂ => exact ⟨[], (List.append_nil _).symm, fun t' => by simp [Except.toOption]⟩
            | error e =>
              cases e with
              | file e =>
                exact ⟨_, rfl, fun t' => ⟨fun h => (List.cons_ne_nil _ _ h.2).elim, fun h => by cases h⟩⟩
              | sameFile s p inFolder =>
                exact ⟨_, rfl, fun t' => ⟨fun h => (sameItems_ne_nil s p h.2).elim, fun h => by cases h⟩⟩

/-! ## one file -/

theorem copyFile_eq_ok : t.copyFile here source target = .ok t' ↔
    ∃ b, t.readBytes here source = .ok b ∧ t.isSame here source (t.copyTarget here source target) = false ∧
      t.write here (t.copyTarget here source target) b = .ok t' := by
  unfold copyFile
  dsimp only
  constructor
  · intro h
    split at h
    · cases h
    · rename_i hsame
      split at h
      · cases h
      · rename_i b hb
        refine ⟨b, hb, Bool.eq_false_iff.mpr hsame, ?_⟩
        cases hw : t.write here (t.copyTarget here source target) b with
        | error e =>
          rw [hw] at h
          cases h
        | ok t₁ =>
          rw [hw] at h
          rw [Except.ok.inj h]
  · rintro ⟨b, hb, hsame, hw⟩
    rw [hsame, if_neg Bool.false_ne_true, hb]
    dsimp only
    rw [hw]
    rfl

/-- A copy goes to the target itself, or to its own name in the folder there. -/
theorem copyTarget_join (t : FileTree) (here : List Text) (base : Path) (names : List Text)
    (hname : Path.IsName source.name) :
    t.copyTarget here source (base.join ⟨[], names⟩) = base.join ⟨[], names⟩ ∨
      t.isFolder here (base.join ⟨[], names⟩) = true ∧
        t.copyTarget here source (base.join ⟨[], names⟩) = base.join ⟨[], names ++ [source.name]⟩ := by
  unfold copyTarget
  split
  · rename_i h
    refine .inr ⟨h, ?_⟩
    rw [Path.child_of_isName hname, Path.join_join_names]
  · exact .inl rfl

/-- A file copied to a name below a folder. -/
theorem changed_copyFile {base : Path} {last : Text} {W : List Text → Prop} (ht : t.IsTree)
    (hhere : t.node? here = some .folder) (hbase : t.FolderAt here base root)
    (hnames : ['.', '.'] ∉ names) (hlast : names.getLast? = some last) (hname : Path.IsName last)
    (hsource : source.name = last) (h : t.copyFile here source (base.join ⟨[], names⟩) = .ok t')
    (hw : ∀ q, Lands root names q → W q) : Changed root W t t' := by
  obtain ⟨b, -, -, hwrite⟩ := copyFile_eq_ok.mp h
  have hres : base.resolve here = root := (newPlace_eq_resolve ht hhere hbase.newPlace).symm
  rcases copyTarget_join t here base names (hsource ▸ hname) with he | ⟨-, he⟩
  · rw [he] at hwrite
    have hp := resolve_join_names (q := base) hnames here
    rw [hres] at hp
    exact changed_write ht hhere hwrite (hp ▸ List.prefix_append _ _) (hp ▸ hw _ (.inl rfl))
  · rw [he, hsource] at hwrite
    have hdots : ['.', '.'] ∉ names ++ [last] := fun hm => (List.mem_append.mp hm).elim hnames fun hm =>
      hname.2.2.1 (List.mem_singleton.mp hm).symm
    have hp := resolve_join_names (q := base) hdots here
    rw [hres] at hp
    refine changed_write ht hhere hwrite (hp ▸ List.prefix_append _ _) (hp ▸ hw _ (.inr ⟨last, hlast, ?_⟩))
    rw [List.append_assoc]

/-! ## a folder -/

/-- What a step of a fold keeps, the fold keeps. -/
theorem foldlM_keeps {α β : Type} {P : β → Prop} {step : β → α → Option β} {l : List α}
    (h : ∀ b a b', a ∈ l → P b → step b a = some b' → P b') {b b' : β} (hb : P b)
    (hl : l.foldlM step b = some b') : P b' := by
  induction l generalizing b with
  | nil => exact Option.some.inj hl ▸ hb
  | cons a l ih =>
    rw [List.foldlM_cons] at hl
    obtain ⟨b₁, hb₁, hl⟩ := Option.bind_eq_some_iff.mp hl
    exact ih (fun b a b' ha => h b a b' (List.mem_cons_of_mem _ ha)) (h b a b₁ List.mem_cons_self hb hb₁) hl

/-- The places at which the files below a folder land. -/
def LandsFrom (t : FileTree) (folder place q : List Text) : Prop :=
  ∃ rel b, t.node? (folder ++ rel) = some (.file b) ∧ Lands place rel q

theorem LandsFrom.cons {name : Text} {q : List Text} (h : t.LandsFrom (folder ++ [name]) (place ++ [name]) q) :
    t.LandsFrom folder place q := by
  obtain ⟨rel, b, hn, hq⟩ := h
  refine ⟨name :: rel, b, ?_, ?_⟩
  · rwa [List.append_assoc] at hn
  · rcases hq with rfl | ⟨last, hlast, rfl⟩
    · exact .inl (by simp)
    · exact .inr ⟨last, by rw [List.getLast?_cons, hlast]; rfl, by simp⟩

theorem toOption_eq_some {ε α : Type} {r : Except ε α} {a : α} : r.toOption = some a ↔ r = .ok a := by
  cases r <;> simp [Except.toOption]

theorem place_of_list {entries : List (Text × FileNode)} (h : t.list here source = .ok entries) :
    ∃ place, t.locate here source = .ok place ∧ t.node? place = some .folder ∧
      entries = t.entriesAt place := by
  unfold list at h
  split at h
  · cases h
  · rename_i place hl
    split at h
    · rename_i hn
      exact ⟨place, hl, hn, (Except.ok.inj h).symm⟩
    · cases h
    · cases h

/-- A folder at `source` that can be copied to some names below the root of the change, from which it lies
apart. -/
structure Copying (here root folder : List Text) (base source : Path) (names : List Text) (t : FileTree) :
    Prop where
  isTree : t.IsTree
  folderHere : t.node? here = some .folder
  base : t.FolderAt here base root
  noDots : ['.', '.'] ∉ names
  source : t.locate here source = .ok folder
  apart : Apart root folder
  below : t.NamesBelow folder

end

namespace Copying
variable {here root folder names : List Text} {base source : Path} {name : Text} {t t' : FileTree}
  {W : List Text → Prop}

theorem alike (h : Copying here root folder base source names t) (hc : Changed root W t t') :
    Alike here source folder t t' := hc.grows.alike hc.outside h.apart h.source

theorem later (h : Copying here root folder base source names t) (hc : Changed root W t t') :
    Copying here root folder base source names t' where
  isTree := hc.isTree
  folderHere := hc.grows.folder h.folderHere
  base := hc.grows.folderAt h.base
  noDots := h.noDots
  source := (h.alike hc).locate_right
  apart := h.apart
  below := (h.alike hc).below.namesBelow h.below

theorem noDots_concat (h : Copying here root folder base source names t) (hname : Path.IsName name) :
    ['.', '.'] ∉ names ++ [name] := fun hm =>
  (List.mem_append.mp hm).elim h.noDots fun hm => hname.2.2.1 (List.mem_singleton.mp hm).symm

theorem place_child (h : Copying here root folder base source names t) (hname : Path.IsName name)
    {place : List Text} (hl : t.locate here (source.join ⟨[], [name]⟩) = .ok place) :
    place = folder ++ [name] :=
  Alike.place h.source (fun hm => hname.2.2.1 (List.mem_singleton.mp hm).symm) hl

theorem child (h : Copying here root folder base source names t) (hname : Path.IsName name)
    {place : List Text} (hl : t.locate here (source.join ⟨[], [name]⟩) = .ok place) :
    Copying here root (folder ++ [name]) base (source.join ⟨[], [name]⟩) (names ++ [name]) t where
  isTree := h.isTree
  folderHere := h.folderHere
  base := h.base
  noDots := h.noDots_concat hname
  source := h.place_child hname hl ▸ hl
  apart := ⟨h.apart.not_isPrefix (List.prefix_append _ _),
    fun hp => h.apart.2 ((List.prefix_append _ _).trans hp)⟩
  below := h.below.append

theorem isName (h : Copying here root folder base source names t) {e : Text × FileNode}
    (he : e ∈ t.entriesAt folder) : Path.IsName e.1 := by
  rw [← List.append_nil folder] at he
  exact isName_of_mem_entriesAt h.below he

/-- One file of the folder. -/
theorem changed_file (h : Copying here root folder base source names t) (hname : Path.IsName name)
    (hcopy : t.copyFile here (source.join ⟨[], [name]⟩) (base.join ⟨[], names ++ [name]⟩) = .ok t')
    (hw : ∀ q, t.LandsFrom folder (root ++ names) q → W q) : Changed root W t t' := by
  refine changed_copyFile h.isTree h.folderHere h.base (h.noDots_concat hname) List.getLast?_concat hname
    (Path.name_join_concat source [] name) hcopy fun q hq => hw q ?_
  obtain ⟨b, hread, -, -⟩ := copyFile_eq_ok.mp hcopy
  obtain ⟨place, hl, hn⟩ := node?_of_readBytes hread
  obtain rfl := h.place_child hname hl
  refine ⟨[name], b, hn, ?_⟩
  rcases hq with rfl | ⟨last, hlast, rfl⟩
  · exact .inl (by simp)
  · rw [List.getLast?_concat] at hlast
    exact .inr ⟨last, hlast, by simp⟩

/-- One entry of the folder, where folders are copied well. -/
theorem changed_entry_of {depth : Nat} (h : Copying here root folder base source names t)
    {e : Text × FileNode} (hname : Path.IsName e.1)
    (hfolders : ∀ {folder names source t t'} {W : List Text → Prop},
      Copying here root folder base source names t →
        copied here depth t source (base.join ⟨[], names⟩) = some t' →
        (∀ q, t.LandsFrom folder (root ++ names) q → W q) → Changed root W t t')
    (hentry : copyEntry here depth source (base.join ⟨[], names⟩) t e = some t')
    (hw : ∀ q, t.LandsFrom folder (root ++ names) q → W q) : Changed root W t t' := by
  unfold copyEntry at hentry
  dsimp only at hentry
  rw [Path.child_of_isName hname, Path.child_of_isName hname, Path.join_join_names] at hentry
  split at hentry
  · exact h.changed_file hname (toOption_eq_some.mp hentry) hw
  · cases hl : t.locate here (source.join ⟨[], [e.1]⟩) with
    | error f =>
      -- a folder that cannot be found is copied only where nothing is copied at all
      cases depth with
      | zero => exact Option.some.inj hentry ▸ .refl h.isTree
      | succ depth =>
        obtain ⟨entries, hlist, -⟩ := Option.bind_eq_some_iff.mp hentry
        obtain ⟨place, hl', -⟩ := place_of_list (toOption_eq_some.mp hlist)
        rw [hl] at hl'
        cases hl'
    | ok place =>
      refine hfolders (h.child hname hl) hentry fun q hq => hw q ?_
      rw [← List.append_assoc] at hq
      exact LandsFrom.cons hq

/-- What the copy of a folder sets stays the same while other things change. -/
theorem landsFrom (h : Copying here root folder base source names t) (hc : Changed root W t t')
    {place q : List Text} (hq : t'.LandsFrom folder place q) : t.LandsFrom folder place q := by
  obtain ⟨rel, b, hn, hq⟩ := hq
  rw [(h.alike hc).below.node? (List.prefix_append _ _)] at hn
  exact ⟨rel, b, hn, hq⟩

/-- A folder copied to its end. -/
theorem changed {depth : Nat} (h : Copying here root folder base source names t)
    (hcopy : copied here depth t source (base.join ⟨[], names⟩) = some t')
    (hw : ∀ q, t.LandsFrom folder (root ++ names) q → W q) : Changed root W t t' := by
  induction depth generalizing t source folder names t' W with
  | zero => exact Option.some.inj hcopy ▸ .refl h.isTree
  | succ depth ih =>
    rw [copied_succ] at hcopy
    obtain ⟨entries, hlist, hcopy⟩ := Option.bind_eq_some_iff.mp hcopy
    obtain ⟨t₁, hmake, hcopy⟩ := Option.bind_eq_some_iff.mp hcopy
    obtain ⟨place, hl, -, rfl⟩ := place_of_list (toOption_eq_some.mp hlist)
    obtain rfl := Except.ok.inj (hl.symm.trans h.source)
    obtain ⟨hc, -, -⟩ := changed_makeFolders (W := W) h.isTree h.folderHere h.base h.noDots (toOption_eq_some.mp hmake)
    refine foldlM_keeps (P := Changed root W t) (fun t₂ e t₃ he hc hstep => hc.trans ?_) hc hcopy
    exact (h.later hc).changed_entry_of (h.isName (List.mem_mergeSort.mp he)) ih hstep
      fun q hq => hw q (h.landsFrom hc hq)

theorem changed_entry {depth : Nat} (h : Copying here root folder base source names t)
    {e : Text × FileNode} (hname : Path.IsName e.1)
    (hentry : copyEntry here depth source (base.join ⟨[], names⟩) t e = some t')
    (hw : ∀ q, t.LandsFrom folder (root ++ names) q → W q) : Changed root W t t' :=
  h.changed_entry_of hname (fun h => h.changed) hentry hw

end Copying
end Lectern.FileTree
