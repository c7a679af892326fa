import Lectern.Proofs.Site.Layout

/-!
# Whether a page survives its build

Pages, static files, the files of the theme and the style sheet are written into one folder, one after the other.
A page is what was compiled for its document at the end of the build, unless one of the later ones lands at its
place: the page of a later document, a static file that has the path of the page, a file of the theme, or the
style sheet (`page_survives`).
-/

namespace Lectern.Site
open Text Logged FileTree

variable {order : Order} {theme : Theme} {here root notes themed : List Text} {output : Path}
  {t : FileTree} {done done' : Built} {ms ms' : List Message} {c : Compiler}

/-- The page of one of these turns stands at the place. -/
def PageOf (c : Compiler) (input : Path) (root : List Text) (taken : List Turn) (q : List Text) : Prop :=
  ∃ t ∈ taken, ∃ d, t.verdict c input = .ok d ∧ q = root ++ d.path.parts

/-- A static file lands at the place. -/
def StaticAt (order : Order) (here root notes : List Text) (files : FileTree) (q : List Text) : Prop :=
  ∃ s ∈ statics order.settings files here order.input,
    (∃ b, files.node? (notes ++ s.parts) = some (.file b)) ∧ Lands root s.parts q

/-- A file of the theme lands at the place. -/
def AssetAt (theme : Theme) (root themed : List Text) (files : FileTree) (q : List Text) : Prop :=
  ∃ names name, theme.assetNames = .ok names ∧ .text name ∈ names ∧
    files.LandsFrom (themed ++ [name]) (root ++ [name]) q

namespace Layout

/-- Documents after one another set their pages. -/
theorem changed_foldlM_compileOne {sources : List Path} (h : Layout order theme here output root notes themed done.files)
    (hhere : c.here = here)
    (hnames : ∀ p ∈ sources, ∃ names, p = ⟨[], names⟩ ∧ ∀ n ∈ names, Path.IsName n)
    (hs : sources.foldlM (compileOne c order.input output) done ms = (.ok done', ms')) :
    Changed root (PageOf c order.input root (turns c order.input output done ms sources)) done.files done'.files := by
  induction sources generalizing done ms with
  | nil =>
    cases hs
    exact .refl h.ofNotes.isTree
  | cons p sources ih =>
    rw [List.foldlM_cons] at hs
    obtain ⟨done₁, ms₁, h₁, hrest⟩ := bind_eq_ok.mp hs
    obtain ⟨names, rfl, hn⟩ := hnames p List.mem_cons_self
    rw [turns, h₁]
    obtain ⟨hc, -⟩ := h.changed_compileOne (W := PageOf c order.input root (⟨⟨[], names⟩, done.files,
      ms ++ [announce ⟨[], names⟩]⟩ :: turns c order.input output done₁ ms₁ sources)) hhere hn h₁
      fun d hd => ⟨_, List.mem_cons_self, d, hd, rfl⟩
    refine hc.trans ((ih (h.later hc) (fun p hp => hnames p (List.mem_cons_of_mem _ hp)) hrest).mono ?_)
    rintro q ⟨t, ht, hq⟩
    exact ⟨t, List.mem_cons_of_mem _ ht, hq⟩

/-- A page stands after the documents, unless a later one has the same page. -/
theorem page_of_foldlM {sources : List Path} (h : Layout order theme here output root notes themed done.files)
    (hhere : c.here = here)
    (hnames : ∀ p ∈ sources, ∃ names, p = ⟨[], names⟩ ∧ ∀ n ∈ names, Path.IsName n)
    (hs : sources.foldlM (compileOne c order.input output) done ms = (.ok done', ms'))
    {before after : List Turn} {t : Turn}
    (ht : turns c order.input output done ms sources = before ++ t :: after) {d : Document}
    (hd : t.verdict c order.input = .ok d) :
    d.path.anchor = [] ∧ (∃ last, d.path.parts = t.source.parts.dropLast ++ [last]) ∧
      (done'.files.node? (root ++ d.path.parts) = some (.file (encode d.html)) ∨
        PageOf c order.input root after (root ++ d.path.parts)) := by
  induction sources generalizing done ms before with
  | nil => exact absurd ht (List.append_ne_nil_of_right_ne_nil _ (List.cons_ne_nil _ _)).symm
  | cons p sources ih =>
    rw [List.foldlM_cons] at hs
    obtain ⟨done₁, ms₁, h₁, hrest⟩ := bind_eq_ok.mp hs
    obtain ⟨names, rfl, hn⟩ := hnames p List.mem_cons_self
    have hlater : ∀ p ∈ sources, ∃ names, p = ⟨[], names⟩ ∧ ∀ n ∈ names, Path.IsName n :=
      fun p hp => hnames p (List.mem_cons_of_mem _ hp)
    obtain ⟨hc, hpage⟩ := h.changed_compileOne (W := fun _ => True) hhere hn h₁ fun _ _ => trivial
    rw [turns, h₁] at ht
    cases before with
    | nil =>
      obtain ⟨rfl, rfl⟩ := List.cons.inj ht
      obtain ⟨hanchor, hlast, hnode⟩ := hpage d hd
      refine ⟨hanchor, hlast, ?_⟩
      have hch := (h.later hc).changed_foldlM_compileOne hhere hlater hrest
      by_cases hq : PageOf c order.input root (turns c order.input output done₁ ms₁ sources) (root ++ d.path.parts)
      · exact .inr hq
      · exact .inl (hch.contents hnode hq)
    | cons t₀ before =>
      obtain ⟨-, ht⟩ := List.cons.inj ht
      exact ih (h.later hc) hlater hrest ht

/-- Static files after one another set what stands where they land. -/
theorem changed_foldlM_copyStatic {ps : List Path} (h : Layout order theme here output root notes themed done.files)
    (hps : ∀ p ∈ ps, ∃ names last, p = ⟨[], names ++ [last]⟩ ∧ ∀ n ∈ names ++ [last], Path.IsName n)
    (hs : ps.foldlM (copyStatic here order.input output) done ms = (.ok done', ms')) :
    Changed root (fun q => ∃ s ∈ ps, (∃ b, done.files.node? (notes ++ s.parts) = some (.file b)) ∧ Lands root s.parts q)
      done.files done'.files := by
  refine Logged.foldlM_keeps (P := fun d => Changed root (fun q => ∃ s ∈ ps,
    (∃ b, done.files.node? (notes ++ s.parts) = some (.file b)) ∧ Lands root s.parts q) done.files d.files)
    (fun d p d' ms ms' hp hc hstep => hc.trans ?_) (.refl h.ofNotes.isTree) hs
  obtain ⟨names, last, rfl, hn⟩ := hps p hp
  refine ((h.later hc).changed_copyStatic hn hstep fun b q hb hq => ?_).1
  rw [(h.ofNotes.alike hc).below.node? (List.prefix_append _ _)] at hb
  exact ⟨_, hp, ⟨b, hb⟩, hq⟩

theorem changed_copyStatics (h : Layout order theme here output root notes themed done.files)
    (hs : copyStatics order.settings here order.input output done ms = (.ok done', ms')) :
    Changed root (StaticAt order here root notes done.files) done.files done'.files := by
  obtain ⟨ms₁, hs, -⟩ := copyStatics_eq_ok.mp hs
  exact h.changed_foldlM_copyStatic (fun p hp => exists_of_mem_statics h.ofNotes.source h.ofNotes.below hp) hs

theorem changed_copyAssets (h : Layout order theme here output root notes themed done.files)
    (hs : copyAssets theme here output done ms = (.ok done', ms')) :
    Changed root (AssetAt theme root themed done.files) done.files done'.files := by
  obtain ⟨folders, hf, hs⟩ := copyAssets_eq_ok.mp hs
  refine Logged.foldlM_keeps (P := fun d => Changed root (AssetAt theme root themed done.files) done.files d.files)
    (fun d p d' ms ms' hp hc hstep => hc.trans ?_) (.refl h.ofNotes.isTree) hs
  obtain ⟨names, name, hnames, hmem, rfl, hthere⟩ := exists_of_mem_assets hf hp
  have hname := h.assets names hnames name hmem
  have halike := h.ofTheme.alike hc
  have hone : ['.', '.'] ∉ [name] := fun hm => hname.2.2.1 (List.mem_singleton.mp hm).symm
  refine (h.later hc).changed_copyAsset hname ?_ hstep fun q ⟨rel, b, hn, hq⟩ => ⟨names, name, hnames, hmem, rel, b, ?_, hq⟩
  · rwa [Path.child_of_isName hname, hasFolder, halike.ask hone, ← hasFolder, ← Path.child_of_isName hname]
  · rw [List.append_assoc] at hn ⊢
    rwa [halike.below.node? (List.prefix_append _ _)] at hn

/-- A static file lands at the place of a page only if it has the path of the page: it cannot go into a folder
of that name, since it would have to stand where the folder of the document stands. -/
theorem eq_path_of_staticAt {files : FileTree} (h : Layout order theme here output root notes themed files)
    {names : List Text} {b : Bytes} (hsource : files.node? (notes ++ names) = some (.file b)) {path : Path} {last : Text}
    (hanchor : path.anchor = []) (hparts : path.parts = names.dropLast ++ [last])
    (hs : StaticAt order here root notes files (root ++ path.parts)) :
    path ∈ statics order.settings files here order.input := by
  obtain ⟨s, hs, ⟨b', hb'⟩, hq⟩ := hs
  obtain ⟨init, l, rfl, -⟩ := exists_of_mem_statics h.ofNotes.source h.ofNotes.below hs
  rcases hq with hq | ⟨l', -, hq⟩
  · have hpath : path = ⟨[], init ++ [l]⟩ := by
      obtain ⟨anchor, parts⟩ := path
      obtain rfl : parts = init ++ [l] := List.append_cancel_left hq
      exact congrArg (Path.mk · _) hanchor
    rwa [hpath]
  · rw [List.append_assoc] at hq
    have hinit := List.append_cancel_left hq
    rw [hparts] at hinit
    have hdrop := List.append_inj_left' hinit rfl
    rcases List.eq_nil_or_concat names with rfl | ⟨folder, name, rfl⟩
    · exact absurd hdrop (by simp)
    · rw [List.concat_eq_append] at hsource hdrop
      rw [List.dropLast_concat] at hdrop
      rw [← List.append_assoc, hdrop] at hsource
      have hfolder := h.ofNotes.isTree.parent hsource
      rw [hb'] at hfolder
      cases hfolder

end Layout

namespace Course
variable {files : FileTree} {q : List Text} {b : Bytes}

/-- The documents have their names. -/
theorem names_of_found (course : Course order theme files here ms done ms')
    (h : Layout order theme here course.output root notes themed course.start) :
    ∀ p ∈ course.found, ∃ names, p = ⟨[], names⟩ ∧ ∀ n ∈ names, Path.IsName n := fun p hp => by
  obtain ⟨names, hp, hn, -⟩ := exists_of_mem_sources h.ofNotes.source h.ofNotes.below h.noDots course.searched hp
  exact ⟨names, hp, hn⟩

theorem changed_start_compiled (course : Course order theme files here ms done ms')
    (h : Layout order theme here course.output root notes themed course.start) :
    Changed root (fun _ => True) course.start course.compiled.files := by
  have hlayout : Layout order theme here course.output root notes themed ({ files := course.start } : Built).files := h
  exact (hlayout.changed_foldlM_compileOne rfl (course.names_of_found h) course.compiles).mono fun _ _ => trivial

/-- A file of the theme that lands somewhere was there from the start. -/
theorem assetAt_start {t : FileTree} (h : Layout order theme here output root notes themed t) {t' : FileTree}
    (hc : Changed root (fun _ => True) t t') (hq : AssetAt theme root themed t' q) : AssetAt theme root themed t q := by
  obtain ⟨names, name, hnames, hmem, rel, b, hb, hq⟩ := hq
  refine ⟨names, name, hnames, hmem, rel, b, ?_, hq⟩
  rw [List.append_assoc] at hb ⊢
  rwa [(h.ofTheme.alike hc).below.node? (List.prefix_append _ _)] at hb

/-- What stands when the static files are copied stands at the end, unless a file of the theme or the style sheet
lands there. -/
theorem stands_of_copied (course : Course order theme files here ms done ms')
    (h : Layout order theme here course.output root notes themed course.start)
    (hq : course.copied.files.node? q = some (.file b)) :
    done.files.node? q = some (.file b) ∨ AssetAt theme root themed course.start q ∨ q = root ++ sheetPlace := by
  have hc₁ := course.changed_start_compiled h
  have hc₂ := (h.later hc₁).changed_copyStatics course.copies
  have hlay := (h.later hc₁).later hc₂
  have hc₃ := hlay.changed_copyAssets course.dresses
  have hc₄ := (hlay.later hc₃).changed_writeSheet (W := (· = root ++ sheetPlace)) course.writes rfl
  by_cases hasset : AssetAt theme root themed course.copied.files q
  · exact .inr (.inl (assetAt_start h (hc₁.trans (hc₂.mono fun _ _ => trivial)) hasset))
  · by_cases hsheet : q = root ++ sheetPlace
    · exact .inr (.inr hsheet)
    · exact .inl (hc₄.contents (hc₃.contents hq hasset) hsheet)

end Course

/-- What becomes of the pages.  Every document that is found has its turn; a document that compiles has the page of
its own path, and at the end of the build this page holds what was compiled, unless a later document has the same
page, a static file has the path of the page, a file of the theme lands there, or the page is called as the style
sheet is. -/
theorem page_survives {files start : FileTree} {found : List Path} {labels : List (Text × Text)}
    (houtput : order.output? = some output) (hmade : files.makeFolders here output = .ok start)
    (hfound : sources order.settings start here order.input = .ok found) (hlabels : theme.labels = .ok labels)
    (hlayout : Layout order theme here output root notes themed start)
    (hrun : buildWith order theme files here ms = (.ok done, ms')) :
    let c := compilerOf order theme labels start here
    let taken := turns c order.input output { files := start } (ms ++ opening theme output found.length) found
    taken.map Turn.source = found ∧
    ∀ before t after d, taken = before ++ t :: after → t.verdict c order.input = .ok d →
      t.source.withSuffix order.settings.outputSuffix = .ok d.path ∧
      (done.files.node? (root ++ d.path.parts) = some (.file (encode d.html)) ∨
        (∃ t' ∈ after, ∃ d', t'.verdict c order.input = .ok d' ∧ d'.path = d.path) ∨
        d.path ∈ statics order.settings start here order.input ∨
        AssetAt theme root themed start (root ++ d.path.parts) ∨ d.path.parts = sheetPlace) := by
  intro c taken
  obtain ⟨course⟩ := buildWith_eq_ok.mp hrun
  obtain rfl : output = course.output := Option.some.inj (houtput.symm.trans course.hasOutput)
  obtain rfl : start = course.start := Except.ok.inj (hmade.symm.trans course.made)
  obtain rfl : found = course.found := Except.ok.inj (hfound.symm.trans course.searched)
  obtain rfl : labels = course.labels := Except.ok.inj (hlabels.symm.trans course.labelled)
  have hcompiles : course.found.foldlM (compileOne c order.input course.output) { files := course.start }
      (ms ++ opening theme course.output course.found.length) = (.ok course.compiled, course.journals.1) :=
    course.compiles
  have hnames := course.names_of_found hlayout
  have hmap : taken.map Turn.source = course.found := (turns_of_foldlM hcompiles).1
  refine ⟨hmap, fun before t after d ht hd => ?_⟩
  obtain ⟨hanchor, ⟨last, hlast⟩, hpage⟩ := hlayout.page_of_foldlM rfl hnames hcompiles ht hd
  have hmem : t.source ∈ course.found := by
    rw [← hmap, ht]
    simp
  obtain ⟨names, hsource, -, b, hb⟩ := exists_of_mem_sources hlayout.ofNotes.source hlayout.ofNotes.below
    hlayout.noDots course.searched hmem
  rw [hsource] at hlast ⊢
  refine ⟨?_, ?_⟩
  · obtain ⟨path, hpath, hsuffix⟩ := path_of_compileFile (Prod.ext hd rfl)
    rw [hsource, relativeTo?_join] at hpath
    obtain rfl := Option.some.inj hpath
    exact hsuffix
  rcases hpage with hstands | ⟨t', ht', d', hd', hq⟩
  · have hc := course.changed_start_compiled hlayout
    have hlay := hlayout.later hc
    have hstatics := (hlay.changed_copyStatics course.copies)
    by_cases hstatic : StaticAt order here root notes course.compiled.files (root ++ d.path.parts)
    · rw [← (hlayout.ofNotes.alike hc).below.node? (List.prefix_append _ _)] at hb
      have hs := hlay.eq_path_of_staticAt hb hanchor hlast hstatic
      rw [statics_of_alike (hlayout.ofNotes.alike hc)] at hs
      exact .inr (.inr (.inl hs))
    · rcases course.stands_of_copied hlayout (hstatics.contents hstands hstatic) with hend | hasset | hsheet
      · exact .inl hend
      · exact .inr (.inr (.inr (.inl hasset)))
      · exact .inr (.inr (.inr (.inr (List.append_cancel_left hsheet))))
  · -- a later turn with the same place has the same page
    refine .inr (.inl ⟨t', ht', d', hd', ?_⟩)
    obtain ⟨before', after', rfl⟩ := List.append_of_mem ht'
    have hlater : turns _ order.input course.output _ _ course.found = (before ++ t :: before') ++ t' :: after' :=
      ht.trans (by simp)
    obtain ⟨hanchor', -⟩ := hlayout.page_of_foldlM rfl hnames hcompiles hlater hd'
    change (⟨d'.path.anchor, d'.path.parts⟩ : Path) = ⟨d.path.anchor, d.path.parts⟩
    rw [hanchor', hanchor, List.append_cancel_left hq]

section
set_option maxRecDepth 10000

/-- The page of the first document of the small site stands at the end. -/
theorem page_survives_small : ∃ done ms',
    buildWith smallOrder smallTheme (smallSite smallText) [] [] = (.ok done, ms') ∧
      done.files.node? [['s'], "0.html".toList] = some (.file (encode ['A'])) := by
  obtain ⟨done, ms', hrun, -⟩ := built_small []
  refine ⟨done, ms', hrun, ?_⟩
  obtain ⟨ms₁, hturns⟩ := turns_small ([] ++ opening smallTheme ⟨[], [['s']]⟩ 2)
  obtain ⟨-, hpage⟩ := page_survives rfl (made_smallSite smallText) (sources_smallStart smallText) labels_smallTheme
    (layout_smallSite smallText) hrun
  have hfirst := compileFile_small (smallStart smallText) (.inl rfl) rfl
    ([] ++ opening smallTheme ⟨[], [['s']]⟩ 2 ++ [announce ⟨[], ["0.md".toList]⟩])
  have hsecond := compileFile_small smallPage (.inr rfl) rfl (ms₁ ++ [announce ⟨[], ["a.md".toList]⟩])
  rcases (hpage [] _ _ _ hturns (congrArg Prod.fst hfirst)).2 with hstands | ⟨t, ht, d, hd, hpath⟩ | hstatic | hasset |
    hsheet
  · exact hstands
  · -- the other document has another page
    obtain rfl := List.mem_singleton.mp ht
    have hsame := Except.ok.inj (hd.symm.trans (congrArg Prod.fst hsecond))
    rw [hsame] at hpath
    exact absurd hpath (by decide)
  · rw [show statics smallOrder.settings (smallStart smallText) [] smallOrder.input = _ from
      statics_smallStart smallText] at hstatic
    exact absurd hstatic (by decide)
  · -- the theme has no folder of that name
    obtain ⟨names, name, hnames, hname, rel, b, -, hq⟩ := hasset
    obtain rfl : [Yaml.Value.text "css".toList, .text "js".toList, .text "fonts".toList, .text "icons".toList] = names :=
      Except.ok.inj hnames
    have hprefix := hq.place_isPrefix
    simp only [List.mem_cons, Yaml.Value.text.injEq, List.not_mem_nil, or_false] at hname
    rcases hname with rfl | rfl | rfl | rfl
    all_goals exact absurd hprefix (by decide)
  · exact absurd hsheet (by decide)

/-- The static file of the small site has the path of the second page and takes its place: what is compiled for
the document is not what stands there. -/
theorem page_replaced : ∃ done ms' d ms₁,
    buildWith smallOrder smallTheme (smallSite smallText) [] [] = (.ok done, ms') ∧ done.failures = [] ∧
      (smallCompiler smallPage).compileFile (smallOrder.input.join ⟨[], ["a.md".toList]⟩) smallOrder.input []
        = (.ok d, ms₁) ∧
      done.files.node? ([['s']] ++ d.path.parts) ≠ some (.file (encode d.html)) := by
  obtain ⟨done, ms', hrun, hfailures, hnode⟩ := built_small []
  refine ⟨done, ms', _, _, hrun, hfailures, compileFile_small smallPage (.inr rfl) rfl [], ?_⟩
  rw [show done.files.node? ([['s']] ++ [['a'] ++ ".html".toList]) = _ from hnode]
  decide

end
end Lectern.Site
