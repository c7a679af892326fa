import Lectern.Proofs.Files.Copied

/-!
# Doing it all again

Files are made and written a second time, in the tree that the first time left.  At every point the tree of the
second run is an echo of the tree that the first run had there: what stands somewhere is of the kind it was of
at the end of the first run, and it holds what it held at that point or at the end.  So whatever the first run
did can be done again (`Echo.makeFolders`, `Echo.write`, `Echo.copyFile`, `Echo.copied`), and at the end nothing
has changed.
-/

namespace Lectern.FileTree
open Text

/-- The tree `v` of a second run at a point where the first run had `u`; `last` is the tree that the first run
left. -/
structure Echo (root : List Text) (last u v : FileTree) : Prop where
  outside : u.SameOutside root v
  kind : ∀ q, v.kind? q = last.kind? q
  node : ∀ q, v.node? q = u.node? q ∨ v.node? q = last.node? q

theorem Grows.of_kind {t last v : FileTree} (h : t.Grows last) (hk : ∀ q, v.kind? q = last.kind? q) : t.Grows v :=
  ⟨fun hq => (hk _).trans (h.kind hq)⟩

theorem isTree_of_kind {last v : FileTree} (h : last.IsTree) (hk : ∀ q, v.kind? q = last.kind? q) :
    v.IsTree := by
  have hsome {q : List Text} {n : FileNode} (hn : v.node? q = some n) : ∃ m, last.node? q = some m := by
    have hq := hk q
    rw [FileTree.kind?, hn] at hq
    obtain ⟨m, hm, -⟩ := Option.map_eq_some_iff.mp hq.symm
    exact ⟨m, hm⟩
  constructor
  · intro place name n hn
    obtain ⟨m, hm⟩ := hsome hn
    exact kind?_eq_false.mp ((hk _).trans (kind?_eq_false.mpr (h.parent hm)))
  · intro place n hn
    obtain ⟨m, hm⟩ := hsome hn
    exact h.noDots hm

namespace Echo
variable {here root place names : List Text} {base source p : Path} {u u' v last : FileTree} {b : Bytes}

/-- The second run starts where the first one ended. -/
theorem start (h : u.SameOutside root last) : Echo root last u last :=
  ⟨h, fun _ => rfl, fun _ => .inr rfl⟩

theorem isTree (h : Echo root last u v) (hl : last.IsTree) : v.IsTree := isTree_of_kind hl h.kind

theorem grows (h : Echo root last u v) (hg : u.Grows last) : u.Grows v := hg.of_kind h.kind

/-- At the end nothing has changed. -/
theorem node?_eq (h : Echo root last last v) (q : List Text) : v.node? q = last.node? q :=
  (h.node q).elim id id

/-- The folders are there. -/
theorem makeFolders (h : Echo root last u v) (ho : u.OnlyFolders u') (hout : u.SameOutside root u')
    (hf : u'.FolderAt here p place) (hg : u'.Grows last) :
    v.makeFolders here p = .ok v ∧ Echo root last u' v := by
  refine ⟨((hg.of_kind h.kind).folderAt hf).makeFolders, hout.symm.trans h.outside, h.kind, fun q => ?_⟩
  rcases ho q with e | ⟨-, e⟩
  · rw [e]
    exact h.node q
  · refine .inl ?_
    rw [e]
    exact (hg.of_kind h.kind).folder e

/-- What was written can be written again. -/
theorem write (h : Echo root last u v) (hu : u.IsTree) (hhere : u.node? here = some .folder)
    (hw : u.write here p b = .ok u') (hroot : root <+: p.resolve here) (hg : u'.Grows last) :
    ∃ v', v.write here p b = .ok v' ∧ Echo root last u' v' := by
  have hc : Changed root (fun _ => True) u u' := changed_write hu hhere hw hroot trivial
  obtain ⟨init, name, hp, -, -, hplace, -, rfl⟩ := exists_of_write hu hhere hw
  have hne : p.resolve here ≠ [] := hp ▸ List.append_ne_nil_of_right_ne_nil _ (List.cons_ne_nil _ _)
  have hfile (t : FileTree) : (t.put (p.resolve here) (.file b)).kind? (p.resolve here) = some true := by
    rw [kind?, node?_put _ _ _ hne]
    rfl
  have hlast : last.kind? (p.resolve here) = some true := hg.kind (hfile u)
  have hnot : v.node? (p.resolve here) ≠ some .folder := fun e => by
    have hk := (h.kind (p.resolve here)).trans hlast
    rw [kind?_eq_false.mpr e] at hk
    cases hk
  refine ⟨v.put (p.resolve here) (.file b), ?_, ?_, fun q => ?_, fun q => ?_⟩
  · rw [FileTree.write, (h.grows (hc.grows.trans hg)).newPlace hplace]
    dsimp only
    split
    · exact absurd ‹_› hnot
    · rfl
  · exact (hc.outside.symm.trans h.outside).trans (sameOutside_put hroot _)
  · by_cases hq : q = p.resolve here
    · rw [hq, hfile, hlast]
    · rw [kind?, node?_put_of_ne hq]
      exact h.kind q
  · by_cases hq : q = p.resolve here
    · rw [hq, node?_put _ _ _ hne, node?_put _ _ _ hne]
      exact .inl rfl
    · rw [node?_put_of_ne hq, node?_put_of_ne hq]
      exact h.node q

/-- A copy finds a folder at its target in both runs or in none. -/
theorem isFolder_eq (h : Echo root last u v) (hl : last.IsTree)
    (hhere : u.node? here = some .folder) (hg : u.Grows last)
    (hp : u.isFolder here p = false → last.kind? (p.resolve here) = some true) :
    v.isFolder here p = u.isFolder here p := by
  cases hf : u.isFolder here p with
  | true =>
    unfold FileTree.isFolder at hf ⊢
    split at hf
    · rename_i q hq
      rw [(h.grows hg).locate hq]
      simpa using (h.grows hg).folder (by simpa using hf)
    · cases hf
  | false =>
    unfold FileTree.isFolder
    split
    · rename_i q hq
      obtain rfl := (h.isTree hl).locate_eq_resolve ((h.grows hg).folder hhere) hq
      have hk := (h.kind (p.resolve here)).trans (hp hf)
      obtain ⟨b, hb⟩ := kind?_eq_true.mp hk
      rw [hb]
      rfl
    · rfl

theorem copyFile (h : Echo root last u v) (hu : u.IsTree) (hl : last.IsTree)
    (hhere : u.node? here = some .folder) (hbase : u.FolderAt here base root) (hnames : ['.', '.'] ∉ names)
    (hname : Path.IsName source.name)
    (hread : v.readBytes here source = u.readBytes here source)
    (happart : ∀ q, v.locate here source = .ok q → ¬ root <+: q)
    (hc : u.copyFile here source (base.join ⟨[], names⟩) = .ok u') (hg : u'.Grows last) :
    ∃ v', v.copyFile here source (base.join ⟨[], names⟩) = .ok v' ∧ Echo root last u' v' := by
  obtain ⟨b, hb, -, hw⟩ := copyFile_eq_ok.mp hc
  have hres : base.resolve here = root := (newPlace_eq_resolve hu hhere hbase.newPlace).symm
  have hdots : ['.', '.'] ∉ names ++ [source.name] := fun hm => (List.mem_append.mp hm).elim hnames fun hm =>
    hname.2.2.1 (List.mem_singleton.mp hm).symm
  have hroot : root <+: (u.copyTarget here source (base.join ⟨[], names⟩)).resolve here := by
    rcases copyTarget_join u here base names hname with e | ⟨-, e⟩
    · rw [e, resolve_join_names hnames, hres]
      exact List.prefix_append _ _
    · rw [e, resolve_join_names hdots, hres]
      exact List.prefix_append _ _
  have hch : Changed root (fun _ => True) u u' := changed_write hu hhere hw hroot trivial
  have hgu := hch.grows.trans hg
  have hhere' := (h.grows hgu).folder hhere
  have htarget : v.copyTarget here source (base.join ⟨[], names⟩)
      = u.copyTarget here source (base.join ⟨[], names⟩) := by
    unfold copyTarget
    rw [h.isFolder_eq hl hhere hgu fun hf => ?_]
    have he : u.copyTarget here source (base.join ⟨[], names⟩) = base.join ⟨[], names⟩ := by
      rw [copyTarget, hf, if_neg Bool.false_ne_true]
    rw [he] at hw
    exact hg.kind (kind?_eq_true.mpr ⟨b, node?_of_write hu hhere hw⟩)
  obtain ⟨v', hv', he⟩ := h.write hu hhere hw hroot hg
  refine ⟨v', ?_, he⟩
  have hsame : v.isSame here source (u.copyTarget here source (base.join ⟨[], names⟩)) = false := by
    unfold isSame
    split
    · rename_i a c ha hcl
      obtain rfl := (h.isTree hl).locate_eq_resolve hhere' hcl
      exact decide_eq_false fun e => happart a ha (e ▸ hroot)
    · rfl
  exact copyFile_eq_ok.mpr ⟨b, hread.trans hb, htarget.symm ▸ hsame, htarget.symm ▸ hv'⟩

end Echo

/-! ## a folder -/

/-- How many nodes lie below a place. -/
def countBelow (t : FileTree) (place : List Text) : Nat :=
  (t.nodes.filter fun e => place <+: e.1 ∧ place.length < e.1.length).length

theorem countBelow_le (t : FileTree) (place : List Text) : t.countBelow place ≤ t.nodes.length :=
  List.length_filter_le _ _

/-- Fewer nodes lie below what is in a folder than below the folder. -/
theorem countBelow_lt {t : FileTree} {place : List Text} {e : Text × FileNode} (h : e ∈ t.entriesAt place) :
    t.countBelow (place ++ [e.1]) < t.countBelow place := by
  have hsub : (t.nodes.filter fun d => place ++ [e.1] <+: d.1 ∧ (place ++ [e.1]).length < d.1.length)
      = (t.nodes.filter fun d => place <+: d.1 ∧ place.length < d.1.length).filter fun d =>
        place ++ [e.1] <+: d.1 ∧ (place ++ [e.1]).length < d.1.length := by
    rw [List.filter_filter]
    refine List.filter_congr fun d _ => ?_
    by_cases hd : place ++ [e.1] <+: d.1
    · have hlen := hd.length_le
      have hp : place <+: d.1 := (List.prefix_append _ _).trans hd
      rw [List.length_append] at hlen
      simp only [hd, hp, true_and, List.length_append, List.length_singleton] at hlen ⊢
      rw [Bool.eq_iff_iff]
      simp only [decide_eq_true_eq, Bool.and_eq_true]
      omega
    · simp [hd]
  unfold countBelow
  rw [hsub]
  refine List.length_filter_lt_length_iff_exists.mpr ⟨_, List.mem_filter.mpr ⟨mem_entriesAt h, ?_⟩, ?_⟩
  · simp
  · simp

theorem SameBelow.countBelow {t t' : FileTree} {folder place : List Text} (h : t.SameBelow folder t')
    (hp : folder <+: place) : t'.countBelow place = t.countBelow place := by
  have hkeep (t : FileTree) : (t.nodes.filter (folder <+: ·.1)).filter (fun e => place <+: e.1 ∧
      place.length < e.1.length) = t.nodes.filter fun e => place <+: e.1 ∧ place.length < e.1.length := by
    rw [List.filter_filter]
    refine List.filter_congr fun e _ => ?_
    by_cases he : place <+: e.1
    · simp [he, hp.trans he]
    · simp [he]
  unfold FileTree.countBelow
  rw [← hkeep t', ← hkeep t, h]

/-- A fold of steps that let things grow. -/
theorem foldlM_grows {α : Type} {P : FileTree → Prop} {one : FileTree → α → Option FileTree} {l : List α}
    (hone : ∀ a ∈ l, ∀ {u u'}, P u → one u a = some u' → P u' ∧ u.Grows u') {u u' : FileTree} (hu : P u)
    (hl : l.foldlM one u = some u') : u.Grows u' :=
  (foldlM_keeps (P := fun t => P t ∧ u.Grows t) (fun _ a _ ha hb hs =>
    ⟨(hone a ha hb.1 hs).1, hb.2.trans (hone a ha hb.1 hs).2⟩) ⟨hu, .refl _⟩ hl).2

/-- The fold of a second run beside that of the first one. -/
theorem foldlM_echo {α : Type} {root : List Text} {last : FileTree} {P : FileTree → Prop}
    {one two : FileTree → α → Option FileTree} {l : List α}
    (hone : ∀ a ∈ l, ∀ {u u'}, P u → one u a = some u' → P u' ∧ u.Grows u')
    (htwo : ∀ a ∈ l, ∀ {u u' v}, P u → one u a = some u' → u'.Grows last → Echo root last u v →
      ∃ v', two v a = some v' ∧ Echo root last u' v')
    {u u' v : FileTree} (hu : P u) (hl : l.foldlM one u = some u') (hg : u'.Grows last) (h : Echo root last u v) :
    ∃ v', l.foldlM two v = some v' ∧ Echo root last u' v' := by
  induction l generalizing u v with
  | nil =>
    obtain rfl := Option.some.inj hl
    exact ⟨v, rfl, h⟩
  | cons a l ih =>
    rw [List.foldlM_cons] at hl
    obtain ⟨u₁, ha, hl⟩ := Option.bind_eq_some_iff.mp hl
    obtain ⟨hu₁, -⟩ := hone a List.mem_cons_self hu ha
    have hrest := foldlM_grows (fun a ha => hone a (List.mem_cons_of_mem _ ha)) hu₁ hl
    obtain ⟨v₁, hv₁, h₁⟩ := htwo a List.mem_cons_self hu ha (hrest.trans hg) h
    obtain ⟨v', hv', h'⟩ := ih (fun a ha => hone a (List.mem_cons_of_mem _ ha))
      (fun a ha => htwo a (List.mem_cons_of_mem _ ha)) hu₁ hl h₁
    refine ⟨v', ?_, h'⟩
    rw [List.foldlM_cons, hv₁]
    exact hv'

namespace Copying
variable {here root folder names : List Text} {base source : Path} {u u' v last : FileTree}

theorem alike_echo (h : Copying here root folder base source names u) (he : Echo root last u v)
    (hg : u.Grows last) : Alike here source folder u v :=
  (he.grows hg).alike he.outside h.apart h.source

/-- A folder that was copied can be copied again; the bound on the depth does not matter if it is large
enough. -/
theorem echo (h : Copying here root folder base source names u) (hl : last.IsTree) {depth depth' : Nat}
    (hd : u.countBelow folder < depth) (hd' : u.countBelow folder < depth')
    (hc : copied here depth u source (base.join ⟨[], names⟩) = some u') (hg : u'.Grows last)
    (he : Echo root last u v) :
    ∃ v', copied here depth' v source (base.join ⟨[], names⟩) = some v' ∧ Echo root last u' v' := by
  induction depth generalizing depth' u u' v folder source names with
  | zero => exact absurd hd (Nat.not_lt_zero _)
  | succ depth ih =>
    cases depth' with
    | zero => exact absurd hd' (Nat.not_lt_zero _)
    | succ depth' =>
      have hwhole : Changed root (fun _ => True) u u' := h.changed hc fun _ _ => trivial
      rw [copied_succ] at hc ⊢
      obtain ⟨entries, hlist, hc⟩ := Option.bind_eq_some_iff.mp hc
      obtain ⟨u₁, hmake, hc⟩ := Option.bind_eq_some_iff.mp hc
      have hsame := (h.alike_echo he (hwhole.grows.trans hg)).list (List.not_mem_nil : ['.', '.'] ∉ ([] : List Text))
      rw [Path.join_nil] at hsame
      obtain ⟨place, hplace, -, rfl⟩ := place_of_list (toOption_eq_some.mp hlist)
      obtain rfl := Except.ok.inj (hplace.symm.trans h.source)
      obtain ⟨hc₁, ho, hf⟩ := changed_makeFolders (W := fun _ => True) h.isTree h.folderHere h.base h.noDots
        (toOption_eq_some.mp hmake)
      rw [hsame, hlist, Option.bind_some]
      -- the entries one after the other, the folder being what it was
      have hstep : ∀ e ∈ (u.entriesAt place).mergeSort fun a b => Text.le a.1 b.1, ∀ {t t' : FileTree},
          Changed root (fun _ => True) u t →
          copyEntry here depth source (base.join ⟨[], names⟩) t e = some t' →
          Changed root (fun _ => True) u t' ∧ t.Grows t' := fun e hmem t t' ht hs => by
        have hch : Changed root (fun _ => True) t t' := (h.later ht).changed_entry
          (h.isName (List.mem_mergeSort.mp hmem)) hs fun _ _ => trivial
        exact ⟨ht.trans hch, hch.grows⟩
      obtain ⟨hmake', he₁⟩ := he.makeFolders ho hc₁.outside hf ((foldlM_grows hstep hc₁ hc).trans hg)
      rw [hmake']
      refine foldlM_echo hstep ?_ hc₁ hc hg he₁
      intro e hmem t t' w ht hs hgt hew
      have hentry := List.mem_mergeSort.mp hmem
      have hname := h.isName hentry
      have hcopying := h.later ht
      obtain ⟨-, htt'⟩ := hstep e hmem ht hs
      have halike := hcopying.alike_echo hew (htt'.trans hgt)
      unfold copyEntry at hs ⊢
      dsimp only at hs ⊢
      rw [Path.child_of_isName hname, Path.child_of_isName hname, Path.join_join_names] at hs ⊢
      have hone : ['.', '.'] ∉ [e.1] := fun hm => hname.2.2.1 (List.mem_singleton.mp hm).symm
      by_cases hfile : e.2.isFile
      · rw [if_pos hfile] at hs ⊢
        obtain ⟨v', hv', he'⟩ := hew.copyFile hcopying.isTree hl hcopying.folderHere hcopying.base
          (hcopying.noDots_concat hname) ((Path.name_join_concat source [] e.1).symm ▸ hname)
          (halike.readBytes hone)
          (fun q hq => h.apart.not_isPrefix (Alike.place halike.locate_right hone hq ▸ List.prefix_append _ _))
          (toOption_eq_some.mp hs) hgt
        exact ⟨v', toOption_eq_some.mpr hv', he'⟩
      · rw [if_neg hfile] at hs ⊢
        have hcount : t.countBelow (place ++ [e.1]) < u.countBelow place := by
          rw [(h.alike ht).below.countBelow (List.prefix_append _ _)]
          exact countBelow_lt hentry
        cases hq : t.locate here (source.join ⟨[], [e.1]⟩) with
        | ok q =>
          exact ih (hcopying.child hname hq) (by omega) (by omega) hs hgt hew
        | error f =>
          cases depth with
          | zero => omega
          | succ depth =>
            obtain ⟨entries, hlist, -⟩ := Option.bind_eq_some_iff.mp hs
            obtain ⟨q, hq', -⟩ := place_of_list (toOption_eq_some.mp hlist)
            rw [hq] at hq'
            cases hq'

end Copying
end Lectern.FileTree
