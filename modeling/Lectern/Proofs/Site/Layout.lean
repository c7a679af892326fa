import Lectern.Proofs.Files.Found
import Lectern.Proofs.Site.Documents

/-!
# Where a build reads and where it writes

The notes and the theme of a site lie apart from its output folder (`Layout`).  Then each stage of a build changes
nothing but what lies in the output folder, and sets the contents of certain files there: the pages, the places
where the static files and the files of the theme land, and the style sheet.  All the while the notes and the
theme are what they were, so that the same documents, static files and asset folders are found.
-/

namespace Lectern.FileTree
open Text

theorem mem_nodes_of_file {t : FileTree} {place : List Text} {b : Bytes} (h : t.node? place = some (.file b)) :
    (place, .file b) ∈ t.nodes :=
  (mem_nodes_of_node? h).resolve_left fun ⟨_, hf⟩ => nomatch hf

end Lectern.FileTree

namespace Lectern.Site
open Text Logged FileTree

/-! ## what is found -/

section
variable {settings : Settings} {here folder : List Text} {input p : Path} {t t' : FileTree}

theorem sources_of_alike (h : Alike here input folder t t') (hn : t.NamesBelow folder)
    (hdots : ['.', '.'] ∉ (Path.ofText ('*' :: settings.sourceSuffix)).parts) :
    sources settings t' here input = sources settings t here input := by
  unfold sources
  cases hs : Glob.steps? ('*' :: settings.sourceSuffix) with
  | none => rfl
  | some steps =>
    have hsteps := Glob.noDots_of_steps? hdots hs
    dsimp only
    rw [h.select hn hsteps]
    cases hf : t.select here input steps with
    | error e => rfl
    | ok places =>
      refine congrArg Except.ok (List.filter_congr fun p hp => ?_)
      obtain ⟨place, hplace, rfl⟩ := List.mem_map.mp hp
      exact h.isFile (dots_not_mem_select h.locate_left hn hsteps hf place hplace)

/-- A document is a file below the folder of the notes. -/
theorem exists_of_mem_sources {found : List Path} (hl : t.locate here input = .ok folder)
    (hn : t.NamesBelow folder) (hdots : ['.', '.'] ∉ (Path.ofText ('*' :: settings.sourceSuffix)).parts)
    (h : sources settings t here input = .ok found) (hp : p ∈ found) :
    ∃ names, p = ⟨[], names⟩ ∧ (∀ c ∈ names, Path.IsName c) ∧
      ∃ b, t.node? (folder ++ names) = some (.file b) := by
  unfold sources at h
  cases hs : Glob.steps? ('*' :: settings.sourceSuffix) with
  | none =>
    rw [hs] at h
    cases h
  | some steps =>
    rw [hs] at h
    obtain ⟨places, hf, h⟩ := except_bind_eq_ok.mp h
    obtain rfl := Except.ok.inj h
    obtain ⟨hp, hfile⟩ := List.mem_filter.mp hp
    obtain ⟨names, hnames, rfl⟩ := List.mem_map.mp hp
    have hnodots := dots_not_mem_select hl hn (Glob.noDots_of_steps? hdots hs) (except_mapError_eq_ok.mp hf)
      names hnames
    unfold FileTree.isFile at hfile
    split at hfile
    · rename_i place hplace
      obtain rfl := Alike.place hl hnodots hplace
      obtain ⟨b, hnode⟩ : ∃ b, t.node? (folder ++ names) = some (.file b) := by
        rcases hnode : t.node? (folder ++ names) with - | - | b
        · rw [hnode] at hfile
          cases hfile
        · rw [hnode] at hfile
          cases hfile
        · exact ⟨b, rfl⟩
      refine ⟨names, rfl, fun c hc => ?_, b, hnode⟩
      exact hn _ (mem_nodes_of_file hnode) (List.prefix_append _ _) c (by rwa [List.drop_left])
    · cases hfile

theorem statics_of_alike (h : Alike here input folder t t') :
    statics settings t' here input = statics settings t here input := by
  unfold statics filesBelow
  rw [h.locate_left, h.locate_right]
  dsimp only
  rw [h.below.below (List.prefix_refl _)]

/-- A static file is a file below the folder of the notes. -/
theorem exists_of_mem_statics (hl : t.locate here input = .ok folder) (hn : t.NamesBelow folder)
    (hp : p ∈ statics settings t here input) :
    ∃ names last, p = ⟨[], names ++ [last]⟩ ∧ (∀ c ∈ names ++ [last], Path.IsName c) := by
  obtain ⟨hp, -⟩ := List.mem_filter.mp hp
  unfold filesBelow at hp
  rw [hl] at hp
  obtain ⟨⟨parts, n⟩, he, hp⟩ := List.mem_filterMap.mp hp
  obtain ⟨⟨place, m⟩, hm, hd⟩ := List.mem_filterMap.mp (List.mem_mergeSort.mp he)
  dsimp only at hd hp
  split at hd
  · rename_i hc
    obtain ⟨rfl, rfl⟩ := Prod.mk.inj (Option.some.inj hd)
    split at hp
    · obtain rfl := Option.some.inj hp
      have hlen : (place.drop folder.length).length ≠ 0 := by
        rw [List.length_drop]
        omega
      obtain ⟨names, last, hsplit⟩ := List.eq_nil_or_concat (place.drop folder.length) |>.resolve_left fun e =>
        hlen (List.length_eq_zero_iff.mpr e)
      rw [List.concat_eq_append] at hsplit
      exact ⟨names, last, congrArg (Path.mk []) hsplit, fun c hcm => hn _ hm hc.1 c (hsplit ▸ hcm)⟩
    · cases hp
  · cases hd

end

theorem mem_of_filterMapM {α β ε : Type} {f : α → Except ε (Option β)} {l : List α} {bs : List β}
    (h : l.filterMapM f = .ok bs) : ∀ b ∈ bs, ∃ a ∈ l, f a = .ok (some b) := by
  induction l generalizing bs with
  | nil =>
    rw [List.filterMapM_nil] at h
    obtain rfl := Except.ok.inj h
    exact fun b hb => absurd hb List.not_mem_nil
  | cons a l ih =>
    rw [List.filterMapM_cons] at h
    have hrest {bs} (h : l.filterMapM f = .ok bs) : ∀ b ∈ bs, ∃ a' ∈ a :: l, f a' = .ok (some b) := fun b hb => by
      obtain ⟨a', ha', hf⟩ := ih h b hb
      exact ⟨a', List.mem_cons_of_mem _ ha', hf⟩
    obtain ⟨found, ha, h⟩ := except_bind_eq_ok.mp h
    cases found with
    | none => exact hrest h
    | some b =>
      obtain ⟨rest, hl, h⟩ := except_bind_eq_ok.mp h
      obtain rfl := Except.ok.inj h
      exact List.forall_mem_cons.mpr ⟨⟨a, List.mem_cons_self, ha⟩, hrest hl⟩

theorem filterMapM_congr {α β ε : Type} {f g : α → Except ε (Option β)} {l : List α} (h : ∀ a ∈ l, f a = g a) :
    l.filterMapM f = l.filterMapM g := by
  induction l with
  | nil => rfl
  | cons a l ih =>
    rw [List.filterMapM_cons, List.filterMapM_cons, h a List.mem_cons_self,
      ih fun a ha => h a (List.mem_cons_of_mem _ ha)]

/-- An asset folder is a folder of the theme. -/
theorem exists_of_mem_assets {theme : Theme} {t : FileTree} {here : List Text} {folders : List Path} {p : Path}
    (h : theme.assets t here = .ok folders) (hp : p ∈ folders) :
    ∃ names name, theme.assetNames = .ok names ∧ .text name ∈ names ∧ p = theme.folder.child name ∧
      t.hasFolder here p = .ok true := by
  unfold Theme.assets at h
  obtain ⟨names, hn, h⟩ := except_bind_eq_ok.mp h
  obtain ⟨v, hv, hasset⟩ := mem_of_filterMapM h p hp
  unfold Theme.asset? at hasset
  split at hasset
  · rename_i name
    obtain ⟨there, hf, hasset⟩ := except_bind_eq_ok.mp hasset
    cases there with
    | false => cases hasset
    | true =>
      cases hasset
      exact ⟨names, name, hn, hv, rfl, except_mapError_eq_ok.mp hf⟩
  · cases hasset

theorem assets_of_alike {theme : Theme} {t t' : FileTree} {here folder : List Text}
    (h : Alike here theme.folder folder t t')
    (hnames : ∀ names, theme.assetNames = .ok names → ∀ n, .text n ∈ names → Path.IsName n) :
    theme.assets t' here = theme.assets t here := by
  unfold Theme.assets
  cases hn : theme.assetNames with
  | error e => rfl
  | ok names =>
    refine filterMapM_congr fun v hv => ?_
    unfold Theme.asset?
    split
    · rename_i name
      have hname := hnames names hn name hv
      rw [Path.child_of_isName hname]
      dsimp only
      rw [hasFolder, hasFolder, h.ask fun hm => hname.2.2.1 (List.mem_singleton.mp hm).symm]
    · rfl

/-! ## the path of a page -/

theorem relativeTo?_join (input : Path) (names : List Text) :
    (input.join ⟨[], names⟩).relativeTo? input = some ⟨[], names⟩ := by
  simp [Path.relativeTo?, Path.join, Path.isAbsolute]

/-- A page has the path of its document with the ending of pages. -/
theorem path_of_compileText (c : Compiler) (text : Text) (path folder : Path) :
    (c.compileText text path folder).Ends fun d => path.withSuffix c.settings.outputSuffix = .ok d.path := by
  unfold Compiler.compileText
  refine Ends.bind fun rendered => ?_
  -- whatever is parsed, the rest is the same
  extract_lets context rest
  have hrest : ∀ parsed, Ends (fun d => path.withSuffix c.settings.outputSuffix = .ok d.path) (rest parsed) :=
    fun parsed => Ends.bind fun body => by
      split
      · exact ends_throw _ _
      · refine Ends.bind fun _ => ?_
        split
        · exact ends_throw _ _
        · split
          · exact ends_throw _ _
          · exact ends_pure ‹_›
  split
  · exact Ends.bind hrest
  · exact Ends.bind hrest
  · exact Ends.bind hrest

theorem path_of_compileFile {c : Compiler} {file base : Path} {ms ms' : List Message} {d : Document}
    (h : c.compileFile file base ms = (.ok d, ms')) :
    ∃ path, file.relativeTo? base = some path ∧ path.withSuffix c.settings.outputSuffix = .ok d.path := by
  have hends : (c.compileFile file base).Ends fun d => ∃ path, file.relativeTo? base = some path ∧
      path.withSuffix c.settings.outputSuffix = .ok d.path := by
    unfold Compiler.compileFile
    split
    · exact ends_throw _ _
    · refine Ends.bind fun text => ?_
      split
      · exact ends_throw _ _
      · rename_i path hpath
        exact fun ms d ms' hr => ⟨path, hpath, path_of_compileText c _ _ _ ms d ms' hr⟩
  exact hends _ _ _ h

theorem parts_of_withSuffix {p page : Path} {ending : Text} (h : p.withSuffix ending = .ok page) :
    ∃ stem, page = ⟨p.anchor, p.parts.dropLast ++ [stem ++ ending]⟩ ∧ p.parts ≠ [] := by
  unfold Path.withSuffix at h
  split at h
  · cases h
  · split at h
    · cases h
    · cases h
      exact ⟨_, rfl, ‹_›⟩

/-- A document below the folder of the notes has its page in the same folder below the output. -/
theorem page_of_compileFile {c : Compiler} {input : Path} {names : List Text} {ms ms' : List Message} {d : Document}
    (hnames : ∀ n ∈ names, Path.IsName n) (h : c.compileFile (input.join ⟨[], names⟩) input ms = (.ok d, ms')) :
    ['.', '.'] ∉ names.dropLast ∧ ∃ last, d.path = ⟨[], names.dropLast ++ [last]⟩ := by
  obtain ⟨path, hpath, hpage⟩ := path_of_compileFile h
  rw [relativeTo?_join] at hpath
  obtain rfl := Option.some.inj hpath
  obtain ⟨stem, hd, -⟩ := parts_of_withSuffix hpage
  exact ⟨fun hm => (hnames _ (List.dropLast_subset names hm)).2.2.1 rfl, _, hd⟩

/-! ## the folders of an order -/

/-- The notes and the theme lie apart from the output folder, which is there; what lies in them has names, and
so do the asset folders. -/
structure Layout (order : Order) (theme : Theme) (here : List Text) (output : Path) (root notes themed : List Text)
    (t : FileTree) : Prop where
  ofNotes : Copying here root notes output order.input [] t
  ofTheme : Copying here root themed output theme.folder [] t
  noDots : ['.', '.'] ∉ (Path.ofText ('*' :: order.settings.sourceSuffix)).parts
  assets : ∀ names, theme.assetNames = .ok names → ∀ n, .text n ∈ names → Path.IsName n

section
variable {order : Order} {theme : Theme} {here root notes themed : List Text} {output source : Path}
  {t t' : FileTree} {done done' : Built} {ms ms' : List Message} {W : List Text → Prop} {c : Compiler}

namespace Layout

theorem later (h : Layout order theme here output root notes themed t) (hc : Changed root W t t') :
    Layout order theme here output root notes themed t' :=
  ⟨h.ofNotes.later hc, h.ofTheme.later hc, h.noDots, h.assets⟩

theorem resolve_output (h : Layout order theme here output root notes themed t) : output.resolve here = root :=
  (newPlace_eq_resolve h.ofNotes.isTree h.ofNotes.folderHere h.ofNotes.base.newPlace).symm

/-- A file that is written below the output folder stands where its names say: two dots as its last name lead to
a folder, where nothing can be written. -/
theorem resolve_of_write (h : Layout order theme here output root notes themed t) {init : List Text} {name : Text}
    {b : Bytes} (hinit : ['.', '.'] ∉ init) (hf : t.FolderAt here (output.join ⟨[], init⟩) (root ++ init))
    (hw : t.write here (output.join ⟨[], init ++ [name]⟩) b = .ok t') :
    (output.join ⟨[], init ++ [name]⟩).resolve here = root ++ (init ++ [name]) := by
  by_cases hname : name = ['.', '.']
  · obtain ⟨-, -, -, -, -, -, hnot, -⟩ := exists_of_write h.ofNotes.isTree h.ofNotes.folderHere hw
    have hres : (output.join ⟨[], init ++ [name]⟩).resolve here = (root ++ init).dropLast := by
      rw [Path.resolve_join, if_neg (by simp [Path.isAbsolute]), h.resolve_output, hname, Path.collapse_append,
        Path.collapse_of_dots_not_mem hinit]
      simp [Path.collapse]
    exact absurd (hres ▸ h.ofNotes.isTree.node?_dropLast hf.folder) hnot
  · have hdots : ['.', '.'] ∉ init ++ [name] := fun hm => (List.mem_append.mp hm).elim hinit fun hm =>
      hname (List.mem_singleton.mp hm).symm
    rw [resolve_join_names hdots, h.resolve_output]

/-- A page that is put below the output folder. -/
theorem changed_put (h : Layout order theme here output root notes themed t) {init : List Text} {name text : Text}
    (hinit : ['.', '.'] ∉ init) (hp : put t here (output.join ⟨[], init ++ [name]⟩) text = .ok t')
    (hw : W (root ++ (init ++ [name]))) :
    Changed root W t t' ∧ t'.node? (root ++ (init ++ [name])) = some (.file (encode text)) := by
  obtain ⟨mid, hm, hwrite⟩ := put_eq_ok.mp hp
  rw [parent_join_names output (by simp), List.dropLast_concat] at hm
  obtain ⟨hc, -, hf⟩ := changed_makeFolders (W := W) h.ofNotes.isTree h.ofNotes.folderHere h.ofNotes.base hinit hm
  have hhere := hc.grows.folder h.ofNotes.folderHere
  have hres := (h.later hc).resolve_of_write hinit hf hwrite
  have hn := node?_of_write hc.isTree hhere hwrite
  have hroot : root <+: (output.join ⟨[], init ++ [name]⟩).resolve here := hres ▸ List.prefix_append _ _
  have hcw := changed_write (W := W) hc.isTree hhere hwrite hroot (hres ▸ hw)
  rw [hres] at hn
  exact ⟨hc.trans hcw, hn⟩

/-- The turn of one document. -/
theorem changed_compileOne (h : Layout order theme here output root notes themed done.files) (hhere : c.here = here)
    {names : List Text} (hnames : ∀ n ∈ names, Path.IsName n)
    (hs : compileOne c order.input output done ⟨[], names⟩ ms = (.ok done', ms'))
    (hw : ∀ d, Turn.verdict c order.input ⟨⟨[], names⟩, done.files, ms ++ [announce ⟨[], names⟩]⟩ = .ok d →
      W (root ++ d.path.parts)) :
    Changed root W done.files done'.files ∧
      ∀ d, Turn.verdict c order.input ⟨⟨[], names⟩, done.files, ms ++ [announce ⟨[], names⟩]⟩ = .ok d →
        d.path.anchor = [] ∧ (∃ last, d.path.parts = names.dropLast ++ [last]) ∧
        done'.files.node? (root ++ d.path.parts) = some (.file (encode d.html)) := by
  subst hhere
  unfold Turn.verdict at hw ⊢
  rw [compileOne_eq] at hs
  split at hs
  · rename_i e ms₁ hv
    rw [hv]
    split at hs
    · cases hs
      exact ⟨.refl h.ofNotes.isTree, fun d hd => nomatch hd⟩
    · cases hs
  · rename_i d ms₁ hv
    rw [hv] at hw ⊢
    split at hs
    · cases hs
    · rename_i files hp
      cases hs
      obtain ⟨hinit, name, hd⟩ := page_of_compileFile hnames hv
      have hw := hw d rfl
      dsimp only at hp ⊢
      rw [hd] at hp hw
      obtain ⟨hc, hn⟩ := h.changed_put hinit hp hw
      refine ⟨hc, fun d' hd' => ?_⟩
      obtain rfl := Except.ok.inj hd'
      rw [hd]
      exact ⟨rfl, ⟨_, rfl⟩, hn⟩

/-- A static file lands at its place or in the folder there, and holds what it held. -/
theorem changed_copyStatic (h : Layout order theme here output root notes themed done.files) {names : List Text}
    {last : Text} (hnames : ∀ n ∈ names ++ [last], Path.IsName n)
    (hs : copyStatic here order.input output done ⟨[], names ++ [last]⟩ ms = (.ok done', ms'))
    (hw : ∀ b q, done.files.node? (notes ++ (names ++ [last])) = some (.file b) → Lands root (names ++ [last]) q → W q) :
    Changed root W done.files done'.files ∧ ∃ b, done.files.node? (notes ++ (names ++ [last])) = some (.file b) ∧
      ∃ q, Lands root (names ++ [last]) q ∧ done'.files.node? q = some (.file b) := by
  obtain ⟨mid, files, hm, hf, rfl, rfl⟩ := copyStatic_eq_ok.mp hs
  have hdots : ['.', '.'] ∉ names ++ [last] := fun hm => (hnames _ hm).2.2.1 rfl
  have hlast : Path.IsName last := hnames last (List.mem_append_right _ List.mem_cons_self)
  rw [parent_join_names output (by simp), List.dropLast_concat] at hm
  obtain ⟨hc, -, -⟩ := changed_makeFolders (W := W) h.ofNotes.isTree h.ofNotes.folderHere h.ofNotes.base
    (fun hm => hdots (List.mem_append_left _ hm)) hm
  have hlay := h.later hc
  obtain ⟨b, hread, -, hwrite⟩ := copyFile_eq_ok.mp hf
  obtain ⟨place, hl, hn⟩ := node?_of_readBytes hread
  obtain rfl := Alike.place hlay.ofNotes.source hdots hl
  rw [(h.ofNotes.alike hc).below.node? (List.prefix_append _ _)] at hn
  have hsource : (order.input.join ⟨[], names ++ [last]⟩).name = last := Path.name_join_concat _ _ _
  have hcf := changed_copyFile (W := W) hlay.ofNotes.isTree hlay.ofNotes.folderHere hlay.ofNotes.base hdots
    List.getLast?_concat hlast hsource hf fun q hq => hw b q hn hq
  refine ⟨hc.trans hcf, b, hn, (mid.copyTarget here (order.input.join ⟨[], names ++ [last]⟩)
    (output.join ⟨[], names ++ [last]⟩)).resolve here, ?_, node?_of_write hlay.ofNotes.isTree hlay.ofNotes.folderHere hwrite⟩
  rcases copyTarget_join mid here output (names ++ [last]) (hsource ▸ hlast) with e | ⟨-, e⟩
  · rw [e, resolve_join_names hdots, h.resolve_output]
    exact .inl rfl
  · rw [e, hsource]
    have hdots' : ['.', '.'] ∉ names ++ [last] ++ [last] := fun hm => (List.mem_append.mp hm).elim hdots fun hm =>
      hlast.2.2.1 (List.mem_singleton.mp hm).symm
    rw [resolve_join_names hdots', h.resolve_output]
    exact .inr ⟨last, List.getLast?_concat, (List.append_assoc _ _ _).symm⟩

/-- An asset folder lands under its name. -/
theorem changed_copyAsset (h : Layout order theme here output root notes themed done.files) {name : Text}
    (hname : Path.IsName name) (hthere : done.files.hasFolder here (theme.folder.child name) = .ok true)
    (hs : copyAsset here output done (theme.folder.child name) ms = (.ok done', ms'))
    (hw : ∀ q, done.files.LandsFrom (themed ++ [name]) (root ++ [name]) q → W q) :
    Changed root W done.files done'.files := by
  obtain ⟨files, hc, rfl, -⟩ := copyAsset_eq_ok.mp hs
  rw [Path.child_of_isName hname] at hthere hc
  have hfolder : (theme.folder.join ⟨[], [name]⟩).name = name := Path.name_join_concat theme.folder [] name
  rw [hfolder, Path.child_of_isName hname] at hc
  unfold hasFolder ask at hthere
  split at hthere
  · rename_i place hl
    exact (h.ofTheme.child hname hl).changed hc hw
  · cases hthere
  · cases hthere

/-- The style sheet. -/
theorem changed_writeSheet (h : Layout order theme here output root notes themed done.files)
    (hs : writeSheet theme here output done ms = (.ok done', ms')) (hw : W (root ++ sheetPlace)) :
    Changed root W done.files done'.files := by
  obtain ⟨mid, sheet, files, hm, -, hwrite, rfl, -⟩ := writeSheet_eq_ok.mp hs
  have hdots : ['.', '.'] ∉ sheetPlace := by decide
  rw [parent_join_names output (by decide)] at hm
  obtain ⟨hc, -, -⟩ := changed_makeFolders (W := W) h.ofNotes.isTree h.ofNotes.folderHere h.ofNotes.base
    (fun hm => hdots (List.dropLast_subset _ hm)) hm
  have hres := resolve_join_names (q := output) hdots here
  rw [h.resolve_output] at hres
  exact hc.trans (changed_write hc.isTree (hc.grows.folder h.ofNotes.folderHere) hwrite
    (hres ▸ List.prefix_append _ _) (hres ▸ hw))

end Layout
end

/-! ## a small site -/

section
set_option maxRecDepth 10000

/-- The nodes of a site: two documents, a file that has the name of a page, and a theme with one asset folder. -/
def smallNodes (b : Bytes) : List (List Text × FileNode) := [
  ([['n']], .folder), ([['n'], "0.md".toList], .file b), ([['n'], "a.html".toList], .file (encode "mine".toList)),
  ([['n'], "a.md".toList], .file (encode "# A".toList)), ([['t']], .folder), ([['t'], "js".toList], .folder),
  ([['t'], "js".toList, ['x']], .file []),
  ([['t'], "template.html".toList], .file (encode "\x7b\x7b title \x7d\x7d".toList)),
  ([['t'], "theme.yaml".toList], .file [])]

def smallSite (b : Bytes) : FileTree := ⟨smallNodes b⟩

def smallTheme : Theme := ⟨['t'], ⟨[], [['t']]⟩, .map [], ⟨[.output [.name "title".toList]], true⟩⟩

def smallOrder : Order := ⟨{}, ⟨[], [['n']]⟩, some ⟨[], [['s']]⟩, ['t'], ⟨[], []⟩⟩

/-- The site with its output folder. -/
def smallStart (b : Bytes) : FileTree := ⟨([['s']], .folder) :: smallNodes b⟩

theorem ready_smallSite (b : Bytes) : (smallSite b).Ready [] := by
  have hall : ((smallSite b).nodes.all fun e =>
      (smallSite b).node? e.1.dropLast == some .folder && decide (['.', '.'] ∉ e.1)) = true := rfl
  refine ⟨isTree_of_nodes fun e he => ?_, rfl⟩
  simpa using List.all_eq_true.mp hall e he

theorem made_smallSite (b : Bytes) : (smallSite b).makeFolders [] ⟨[], [['s']]⟩ = .ok (smallStart b) := rfl

theorem layout_smallSite (b : Bytes) :
    Layout smallOrder smallTheme [] ⟨[], [['s']]⟩ [['s']] [['n']] [['t']] (smallStart b) := by
  obtain ⟨hc, hf⟩ := (ready_smallSite b).makeFolders (W := fun _ => True) (made_smallSite b)
  have hnames : ∀ folder, (smallStart b).NamesBelow folder := fun folder e he hp c hc => by
    have hall : ((smallStart b).nodes.flatMap Prod.fst).all (fun c => decide (Path.IsName c)) = true := rfl
    simpa using List.all_eq_true.mp hall c (List.mem_flatMap.mpr ⟨e, he, List.mem_of_mem_drop hc⟩)
  have hcopying {folder : List Text} {p : Path} (hp : (smallStart b).locate [] p = .ok folder)
      (ha : Apart [['s']] folder) : Copying [] [['s']] folder ⟨[], [['s']]⟩ p [] (smallStart b) :=
    ⟨hc.isTree, rfl, hf, List.not_mem_nil, hp, ha, hnames folder⟩
  refine ⟨hcopying rfl ⟨by decide, by decide⟩, hcopying rfl ⟨by decide, by decide⟩, by decide, fun names h n hn => ?_⟩
  obtain rfl : [Yaml.Value.text "css".toList, .text "js".toList, .text "fonts".toList, .text "icons".toList] = names :=
    Except.ok.inj h
  simp only [List.mem_cons, Yaml.Value.text.injEq, List.not_mem_nil, or_false] at hn
  rcases hn with rfl | rfl | rfl | rfl <;> decide

theorem below_smallStart (b : Bytes) : (smallStart b).below [['n']] = [(["0.md".toList], .file b),
    (["a.html".toList], .file (encode "mine".toList)), (["a.md".toList], .file (encode "# A".toList))] := by
  have hsorted : List.Pairwise (fun p q => Path.partsLe p q = true)
      [["0.md".toList], ["a.html".toList], ["a.md".toList]] := by decide +kernel
  exact List.mergeSort_of_pairwise (List.Pairwise.of_map Prod.fst (fun _ _ h => h) hsorted)

theorem sources_smallStart (b : Bytes) : sources {} (smallStart b) [] ⟨[], [['n']]⟩ =
    .ok [⟨[], ["0.md".toList]⟩, ⟨[], ["a.md".toList]⟩] := by
  have hsteps : Glob.steps? ('*' :: ({} : Settings).sourceSuffix)
      = some [.anywhere, .fitting (Glob.ofText "*.md".toList)] := by decide +kernel
  have hfolders : (smallStart b).foldersFrom [] ⟨[], [['n']]⟩ [] = [[]] := by
    unfold FileTree.foldersFrom
    rw [show (smallStart b).locate [] ((⟨[], [['n']]⟩ : Path).join ⟨[], []⟩) = .ok [['n']] from rfl]
    dsimp only
    rw [below_smallStart]
    rfl
  have hfound : (smallStart b).selectFrom [] ⟨[], [['n']]⟩ [.anywhere, .fitting (Glob.ofText "*.md".toList)] []
      = .ok [["0.md".toList], ["a.md".toList]] := by
    rw [FileTree.selectFrom, hfolders]
    rfl
  unfold sources FileTree.select
  rw [hsteps]
  dsimp only
  rw [hfound, if_pos (show (smallStart b).isFolder [] ⟨[], [['n']]⟩ = true from rfl)]
  change Except.ok _ = _
  rw [List.mergeSort_of_pairwise (by decide +kernel)]
  rfl

theorem statics_smallStart (b : Bytes) : statics {} (smallStart b) [] ⟨[], [['n']]⟩ = [⟨[], ["a.html".toList]⟩] := by
  unfold statics filesBelow
  rw [show (smallStart b).locate [] (⟨[], [['n']]⟩ : Path) = .ok [['n']] from rfl]
  dsimp only
  rw [below_smallStart]
  rfl

theorem labels_smallTheme : smallTheme.labels = .ok [] := rfl

/-- What the documents of the site are compiled with. -/
def smallCompiler (files : FileTree) : Compiler := compilerOf smallOrder smallTheme [] files []

/-- A document that is a heading has its page, whatever the other files are. -/
theorem compileFile_small (files : FileTree) {stem : Text} (hstem : stem = ['0'] ∨ stem = ['a'])
    (hread : files.readText [] ⟨[], [['n'], stem ++ ".md".toList]⟩ = .ok "# A".toList) (ms : List Message) :
    (smallCompiler files).compileFile (smallOrder.input.join ⟨[], [stem ++ ".md".toList]⟩) smallOrder.input ms
      = (.ok ⟨⟨[], [stem ++ ".html".toList]⟩, ['A'], [], ['A']⟩,
        ms ++ [.note 2 (stem ++ ".md: 'A' (prefix '')".toList)]) := by
  have hrendered : Markdown.render [] "# A".toList ms = (.ok "<h1>A</h1>\n".toList, ms) := by
    have hblocks : Markdown.parseBlocks (Markdown.normalized "# A".toList) = .ok [.heading 1 ['A']] := rfl
    have hshown : Markdown.Block.renderAll (Markdown.Block.definitionsAll [.heading 1 ['A']]) [] false false
        [.heading 1 ['A']] = "<h1>A</h1>\n".toList := by decide +kernel
    unfold Markdown.render
    rw [hblocks]
    exact congrArg (fun t => (Except.ok t, ms)) hshown
  have hbody : Html.Node.parse ("<body>".toList ++ "<h1>A</h1>\n".toList ++ "</body>".toList)
      = .ok [.element { name := "body".toList } [.element { name := "h1".toList, serial := 1 } [.text ['A']],
        .text ['\n']]] := rfl
  rw [compileFile_of_noReference hread (by decide) (relativeTo?_join _ [stem ++ ".md".toList])]
  unfold Compiler.compileText
  refine (bind_of_ok (show _ = (Except.ok "<h1>A</h1>\n".toList, ms) from ?_)).trans ?_
  · unfold Logged.mapError
    dsimp only [smallCompiler, compilerOf]
    rw [hrendered]
  · dsimp only
    rw [hbody]
    rcases hstem with rfl | rfl
    · rfl
    · rfl

/-- The turn of such a document. -/
theorem compileOne_small (files : FileTree) (done : Built) {t : FileTree} {stem : Text} (hstem : stem = ['0'] ∨ stem = ['a'])
    (hread : done.files.readText [] ⟨[], [['n'], stem ++ ".md".toList]⟩ = .ok "# A".toList)
    (hput : put done.files [] ⟨[], [['s'], stem ++ ".html".toList]⟩ ['A'] = .ok t) (ms : List Message) :
    ∃ ms', compileOne (smallCompiler files) smallOrder.input ⟨[], [['s']]⟩ done ⟨[], [stem ++ ".md".toList]⟩ ms
      = (.ok { done with files := t, pages := done.pages ++ [⟨[], [stem ++ ".html".toList]⟩] }, ms') := by
  have hrun := compileFile_small done.files hstem hread (ms ++ [announce ⟨[], [stem ++ ".md".toList]⟩])
  rw [compileOne_eq]
  unfold smallCompiler compilerOf at hrun ⊢
  dsimp only at hrun ⊢
  rw [hrun]
  dsimp only
  rw [show put done.files [] ((⟨[], [['s']]⟩ : Path).join ⟨[], [stem ++ ".html".toList]⟩) ['A'] = .ok t from hput]
  exact ⟨_, rfl⟩

/-- The text of the first document, where it has a page. -/
def smallText : Bytes := encode "# A".toList

/-- The site with its first page, and with both. -/
def smallPage : FileTree := ⟨([['s'], "0.html".toList], .file (encode ['A'])) :: (smallStart smallText).nodes⟩

def smallPages : FileTree := ⟨([['s'], "a.html".toList], .file (encode ['A'])) :: smallPage.nodes⟩

/-- The site when the static file is copied, and when the asset folder is. -/
def smallCopied : FileTree := ⟨([['s'], "a.html".toList], .file (encode "mine".toList)) :: smallPage.nodes⟩

def smallDressed : FileTree :=
  ⟨([['s'], "js".toList, ['x']], .file []) :: ([['s'], "js".toList], .folder) :: smallCopied.nodes⟩

/-- The paths of the pages. -/
def smallPaths : List Path := [⟨[], ["0.html".toList]⟩, ⟨[], ["a.html".toList]⟩]

theorem copied_small (depth : Nat) :
    copied [] (depth + 1) smallCopied ⟨[], [['t'], "js".toList]⟩ ⟨[], [['s'], "js".toList]⟩ = some smallDressed := by
  have hlist : smallCopied.list [] ⟨[], [['t'], "js".toList]⟩ = .ok [(['x'], .file [])] := rfl
  have hmade : smallCopied.makeFolders [] ⟨[], [['s'], "js".toList]⟩
      = .ok ⟨([['s'], "js".toList], .folder) :: smallCopied.nodes⟩ := rfl
  rw [copied_succ, hlist, hmade]
  simp only [Except.toOption, Option.bind_some, List.mergeSort_singleton]
  rfl

theorem copyStatics_small (ms : List Message) : ∃ ms',
    copyStatics {} [] ⟨[], [['n']]⟩ ⟨[], [['s']]⟩ ⟨smallPages, smallPaths, [], 0⟩ ms
      = (.ok ⟨smallCopied, smallPaths, [], 1⟩, ms') := by
  have hlist : statics {} smallPages [] ⟨[], [['n']]⟩ = [⟨[], ["a.html".toList]⟩] := by
    rw [← statics_smallStart smallText]
    unfold statics filesBelow
    rw [show smallPages.locate [] (⟨[], [['n']]⟩ : Path) = .ok [['n']] from rfl,
      show (smallStart smallText).locate [] (⟨[], [['n']]⟩ : Path) = .ok [['n']] from rfl]
    rfl
  refine ⟨_, copyStatics_eq_ok.mpr ⟨ms, ?_, rfl⟩⟩
  rw [hlist, List.foldlM_cons]
  exact bind_eq_ok.mpr ⟨_, ms, copyStatic_eq_ok.mpr ⟨smallPages, smallCopied, rfl, rfl, rfl, rfl⟩, rfl⟩

theorem copyAssets_small (ms : List Message) : ∃ ms',
    copyAssets smallTheme [] ⟨[], [['s']]⟩ ⟨smallCopied, smallPaths, [], 1⟩ ms
      = (.ok ⟨smallDressed, smallPaths, [], 1⟩, ms') := by
  refine ⟨ms ++ [.note 3 "Copied theme js/ to output".toList],
    copyAssets_eq_ok.mpr ⟨[⟨[], [['t'], "js".toList]⟩], rfl, ?_⟩⟩
  rw [List.foldlM_cons]
  exact bind_eq_ok.mpr ⟨_, _, copyAsset_eq_ok.mpr ⟨smallDressed, copied_small _, rfl, rfl⟩, rfl⟩

theorem sheet_smallTheme : ∃ sheet, smallTheme.sheet = .ok sheet := by
  have hsheet : smallTheme.sheet.toBool = true := by decide +kernel
  cases h : smallTheme.sheet with
  | ok sheet => exact ⟨sheet, rfl⟩
  | error fault =>
    rw [h] at hsheet
    cases hsheet

theorem writeSheet_small {sheet : Text} (hsheet : smallTheme.sheet = .ok sheet) (ms : List Message) :
    writeSheet smallTheme [] ⟨[], [['s']]⟩ ⟨smallDressed, smallPaths, [], 1⟩ ms
      = (.ok ⟨⟨(['s'] :: sheetPlace, .file (encode sheet)) :: ([['s'], "css".toList], .folder) ::
        smallDressed.nodes⟩, smallPaths, [], 1⟩, ms) :=
  writeSheet_eq_ok.mpr ⟨⟨([['s'], "css".toList], .folder) :: smallDressed.nodes⟩, sheet, _, rfl, hsheet, rfl, rfl, rfl⟩

/-- The pages of both documents are written. -/
theorem pages_small (ms : List Message) : ∃ ms₁ ms₂,
    compileOne (smallCompiler (smallStart smallText)) smallOrder.input ⟨[], [['s']]⟩
      { files := smallStart smallText } ⟨[], ["0.md".toList]⟩ ms
        = (.ok ⟨smallPage, [⟨[], ["0.html".toList]⟩], [], 0⟩, ms₁) ∧
    compileOne (smallCompiler (smallStart smallText)) smallOrder.input ⟨[], [['s']]⟩
      ⟨smallPage, [⟨[], ["0.html".toList]⟩], [], 0⟩ ⟨[], ["a.md".toList]⟩ ms₁
        = (.ok ⟨smallPages, smallPaths, [], 0⟩, ms₂) := by
  have hput : put (smallStart smallText) [] ⟨[], [['s'], ['0'] ++ ".html".toList]⟩ ['A'] = .ok smallPage := rfl
  have hput' : put smallPage [] ⟨[], [['s'], ['a'] ++ ".html".toList]⟩ ['A'] = .ok smallPages := rfl
  obtain ⟨ms₁, h₁⟩ := compileOne_small (smallStart smallText) { files := smallStart smallText } (.inl rfl) rfl hput ms
  obtain ⟨ms₂, h₂⟩ := compileOne_small (smallStart smallText) ⟨smallPage, [⟨[], ["0.html".toList]⟩], [], 0⟩ (.inr rfl)
    rfl hput' ms₁
  exact ⟨ms₁, ms₂, h₁, h₂⟩

/-- Both documents have their turns. -/
theorem turns_small (ms : List Message) : ∃ ms₁,
    turns (smallCompiler (smallStart smallText)) smallOrder.input ⟨[], [['s']]⟩ { files := smallStart smallText } ms
      [⟨[], ["0.md".toList]⟩, ⟨[], ["a.md".toList]⟩] =
      [⟨⟨[], ["0.md".toList]⟩, smallStart smallText, ms ++ [announce ⟨[], ["0.md".toList]⟩]⟩,
        ⟨⟨[], ["a.md".toList]⟩, smallPage, ms₁ ++ [announce ⟨[], ["a.md".toList]⟩]⟩] := by
  obtain ⟨ms₁, ms₂, h₁, h₂⟩ := pages_small ms
  refine ⟨ms₁, ?_⟩
  rw [turns, h₁]
  dsimp only
  rw [turns, h₂]
  rfl

/-- The site is built: no document fails, but the static file takes the place of a page. -/
theorem built_small (ms : List Message) :
    ∃ done ms', buildWith smallOrder smallTheme (smallSite smallText) [] ms = (.ok done, ms') ∧ done.failures = [] ∧
      done.files.node? [['s'], "a.html".toList] = some (.file (encode "mine".toList)) := by
  obtain ⟨ms₁, ms₂, h₁, h₂⟩ := pages_small (ms ++ opening smallTheme ⟨[], [['s']]⟩ 2)
  have hcompiles : compileAll (smallCompiler (smallStart smallText)) smallOrder.input ⟨[], [['s']]⟩
      [⟨[], ["0.md".toList]⟩, ⟨[], ["a.md".toList]⟩] (ms ++ opening smallTheme ⟨[], [['s']]⟩ 2)
      = (.ok ⟨smallPages, smallPaths, [], 0⟩, ms₂) := by
    unfold compileAll
    rw [List.foldlM_cons]
    refine bind_eq_ok.mpr ⟨_, ms₁, h₁, ?_⟩
    rw [List.foldlM_cons]
    exact bind_eq_ok.mpr ⟨_, ms₂, h₂, rfl⟩
  obtain ⟨ms₃, hcopies⟩ := copyStatics_small ms₂
  obtain ⟨ms₄, hdresses⟩ := copyAssets_small ms₃
  obtain ⟨sheet, hsheet⟩ := sheet_smallTheme
  have hwrites := writeSheet_small hsheet ms₄
  exact ⟨_, _, buildWith_eq_ok.mpr ⟨⟨⟨[], [['s']]⟩, smallStart smallText, _, [], _, _, _, (ms₂, ms₃, ms₄, ms₄), rfl,
    made_smallSite _, sources_smallStart _, labels_smallTheme, hcompiles, hcopies, hdresses, hwrites, rfl⟩⟩, rfl, rfl⟩

end
end Lectern.Site
