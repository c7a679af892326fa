import Lectern.Proofs.Files.Echo
import Lectern.Proofs.Site.Survival

/-!
# Building a site again

A site is built a second time, on the files that the first build left.  The second build does what the first one
did, step by step, on files that are an echo of those that the first one had there (`Echoes`).  So it ends as the
first one ended and changes nothing (`build_again`), as long as what the documents read does not depend on the
output folder (`Turn.Blind`).
-/

namespace Lectern.FileTree
open Text

section
variable {here : List Text} {t t' : FileTree} {p : Path} {b : Bytes}

theorem Grows.hasFolder (h : t.Grows t') (hf : t.hasFolder here p = .ok true) : t'.hasFolder here p = .ok true := by
  unfold FileTree.hasFolder ask at hf ⊢
  split at hf
  · rename_i place hl
    rw [h.locate hl]
    rcases hn : t.node? place with - | - | b
    · simp [hn] at hf
    · simp [h.folder hn]
    · simp [hn] at hf
  · cases hf
  · cases hf

theorem Grows.hasAny (h : t.Grows t') (ha : t.hasAny here p = .ok true) : t'.hasAny here p = .ok true := by
  unfold FileTree.hasAny ask at ha ⊢
  split at ha
  · rename_i place hl
    rw [h.locate hl]
    rcases hn : t.node? place with - | - | b
    · simp [hn] at ha
    · simp [h.folder hn]
    · obtain ⟨b', hb'⟩ := h.file hn
      simp [hb']
  · cases ha
  · cases ha

/-- What can be read is read the same when folders have been made. -/
theorem OnlyFolders.readBytes (ho : t.OnlyFolders t') (hg : t.Grows t') (h : t.readBytes here p = .ok b) :
    t'.readBytes here p = .ok b := by
  obtain ⟨place, hl, hn⟩ := node?_of_readBytes h
  have hn' : t'.node? place = some (.file b) := by
    rcases ho place with e | ⟨e, -⟩
    · rw [e, hn]
    · rw [hn] at e
      cases e
  rw [FileTree.readBytes, hg.locate hl]
  dsimp only
  rw [hn']

end
end Lectern.FileTree

namespace Lectern.Theme
open Text FileTree

variable {here : List Text} {t t' : FileTree} {themes : Path} {name : Text} {theme : Theme}

/-- What is asked must be so for the theme to be loaded. -/
theorem asked_eq_ok {α : Type} {r : Except FileError Bool} {e : Fault} {k : Except Fault α} {f : PUnit → Except Fault α} {a : α} :
    (r.mapError Fault.file >>= fun there => if (!there) = true then throw e >>= f else k) = .ok a ↔
      r = .ok true ∧ k = .ok a := by
  cases r with
  | error e => exact ⟨fun h => (nomatch h), fun ⟨h, _⟩ => (nomatch h)⟩
  | ok there =>
    cases there with
    | false => exact ⟨fun h => (nomatch h), fun ⟨h, _⟩ => (nomatch h)⟩
    | true => exact ⟨fun h => ⟨rfl, h⟩, fun ⟨_, h⟩ => h⟩

/-- The folder of a theme, and what is read of it. -/
theorem load_eq_ok : load t here themes name = .ok theme ↔
    t.hasFolder here (themes.child name) = .ok true ∧
    t.hasAny here ((themes.child name).child "theme.yaml".toList) = .ok true ∧
    t.hasAny here ((themes.child name).child "template.html".toList) = .ok true ∧
    ∃ config template, loadConfig t here ((themes.child name).child "theme.yaml".toList) = .ok config ∧
      loadTemplate t here ((themes.child name).child "template.html".toList) = .ok template ∧
      theme = ⟨name, themes.child name, config, template⟩ := by
  unfold load
  simp only [asked_eq_ok]
  constructor
  · rintro ⟨hfolder, hconfig, h⟩
    obtain ⟨config, hload, h⟩ := except_bind_eq_ok.mp h
    obtain ⟨htemplate, h⟩ := asked_eq_ok.mp h
    obtain ⟨template, hloaded, h⟩ := except_bind_eq_ok.mp h
    cases h
    exact ⟨hfolder, hconfig, htemplate, config, template, hload, hloaded, rfl⟩
  · rintro ⟨hfolder, hconfig, htemplate, config, template, hload, hloaded, rfl⟩
    exact ⟨hfolder, hconfig, except_bind_eq_ok.mpr ⟨config, hload, asked_eq_ok.mpr ⟨htemplate,
      except_bind_eq_ok.mpr ⟨template, hloaded, rfl⟩⟩⟩⟩

/-- A theme can be loaded again from files that have grown, if what was read of it is read the same. -/
theorem load_of_grows (hg : t.Grows t')
    (hread : ∀ file ∈ ["theme.yaml".toList, "template.html".toList], ∀ b,
      t.readBytes here ((themes.child name).child file) = .ok b →
        t'.readBytes here ((themes.child name).child file) = .ok b)
    (h : load t here themes name = .ok theme) : load t' here themes name = .ok theme := by
  obtain ⟨hfolder, hconfig, htemplate, config, template, hc, ht, rfl⟩ := load_eq_ok.mp h
  refine load_eq_ok.mpr ⟨hg.hasFolder hfolder, hg.hasAny hconfig, hg.hasAny htemplate, config, template, ?_, ?_, rfl⟩
  · rw [← hc]
    unfold loadConfig FileTree.readText at hc ⊢
    cases hb : t.readBytes here ((themes.child name).child "theme.yaml".toList) with
    | error e =>
      rw [hb] at hc
      cases hc
    | ok b => rw [hread _ List.mem_cons_self b hb]
  · rw [← ht]
    unfold loadTemplate FileTree.readText at ht ⊢
    cases hb : t.readBytes here ((themes.child name).child "template.html".toList) with
    | error e =>
      rw [hb] at ht
      cases ht
    | ok b => rw [hread _ (List.mem_cons_of_mem _ List.mem_cons_self) b hb]

end Lectern.Theme

namespace Lectern.Site
open Text Logged FileTree

/-- What has been done by the second build where the first one had done `d`. -/
structure Echoes (root : List Text) (last : FileTree) (d e : Built) : Prop where
  files : Echo root last d.files e.files
  pages : e.pages = d.pages
  failures : e.failures = d.failures
  copied : e.copied = d.copied

/-- What the document reads does not depend on the output folder: whatever comes to stand there, compiling ends
the same. -/
def Turn.Blind (c : Compiler) (input : Path) (root : List Text) (t : Turn) : Prop :=
  ∀ files, t.files.SameOutside root files → t.files.Grows files →
    ({ c with files } : Compiler).compileFile (input.join t.source) input t.journal
      = ({ c with files := t.files } : Compiler).compileFile (input.join t.source) input t.journal

section
variable {order : Order} {theme : Theme} {here root notes themed : List Text} {output : Path}
  {t t' v last : FileTree} {d d' e : Built} {ms ms' : List Message} {c : Compiler}

namespace Layout

/-- A page can be put again. -/
theorem put_echo (h : Layout order theme here output root notes themed t) {init : List Text} {name text : Text}
    (hinit : ['.', '.'] ∉ init) (hp : put t here (output.join ⟨[], init ++ [name]⟩) text = .ok t')
    (hg : t'.Grows last) (he : Echo root last t v) :
    ∃ v', put v here (output.join ⟨[], init ++ [name]⟩) text = .ok v' ∧ Echo root last t' v' := by
  obtain ⟨mid, hm, hwrite⟩ := put_eq_ok.mp hp
  have hparent : (output.join ⟨[], init ++ [name]⟩).parent = output.join ⟨[], init⟩ := by
    rw [parent_join_names output (by simp), List.dropLast_concat]
  rw [hparent] at hm
  obtain ⟨hc, ho, hf⟩ := changed_makeFolders (W := fun _ => True) h.ofNotes.isTree h.ofNotes.folderHere h.ofNotes.base
    hinit hm
  have hmid := h.later hc
  have hroot : root <+: (output.join ⟨[], init ++ [name]⟩).resolve here :=
    hmid.resolve_of_write hinit hf hwrite ▸ List.prefix_append _ _
  have hcw : Changed root (fun _ => True) mid t' :=
    changed_write hmid.ofNotes.isTree hmid.ofNotes.folderHere hwrite hroot trivial
  obtain ⟨hmake, he'⟩ := he.makeFolders ho hc.outside hf (hcw.grows.trans hg)
  obtain ⟨v', hv', he''⟩ := he'.write hmid.ofNotes.isTree hmid.ofNotes.folderHere hwrite hroot hg
  exact ⟨v', put_eq_ok.mpr ⟨v, hparent ▸ hmake, hv'⟩, he''⟩

/-- A document that looks at nothing in the output folder has the same turn again. -/
theorem compileOne_echo (h : Layout order theme here output root notes themed d.files) (hhere : c.here = here)
    {names : List Text} (hnames : ∀ n ∈ names, Path.IsName n)
    (hblind : Turn.Blind c order.input root ⟨⟨[], names⟩, d.files, ms ++ [announce ⟨[], names⟩]⟩)
    (hs : compileOne c order.input output d ⟨[], names⟩ ms = (.ok d', ms')) (hg : d'.files.Grows last)
    (he : Echoes root last d e) (files : FileTree) :
    ∃ e', compileOne { c with files } order.input output e ⟨[], names⟩ ms = (.ok e', ms') ∧
      Echoes root last d' e' := by
  subst hhere
  have hgrows : d.files.Grows e.files :=
    he.files.grows (((h.changed_compileOne (W := fun _ => True) rfl hnames hs fun _ _ => trivial).1.grows).trans hg)
  have hsame := hblind e.files he.files.outside hgrows
  rw [compileOne_eq] at hs ⊢
  dsimp only at hsame hs ⊢
  rw [hsame]
  split at hs
  · rename_i fault ms₁ hv
    split at hs
    · rename_i label hl
      cases hs
      exact ⟨_, rfl, he.files, he.pages, congrArg (· ++ _) he.failures, he.copied⟩
    · cases hs
  · rename_i page ms₁ hv
    split at hs
    · cases hs
    · rename_i t' hp
      cases hs
      obtain ⟨hinit, name, hd⟩ := page_of_compileFile hnames hv
      rw [hd] at hp ⊢
      obtain ⟨v', hv', he'⟩ := h.put_echo hinit hp hg he.files
      rw [hv']
      exact ⟨_, rfl, he', congrArg (· ++ _) he.pages, he.failures, he.copied⟩

/-- A static file can be copied again. -/
theorem copyStatic_echo (h : Layout order theme here output root notes themed d.files) (hl : last.IsTree)
    {names : List Text} {name : Text} (hnames : ∀ n ∈ names ++ [name], Path.IsName n)
    (hs : copyStatic here order.input output d ⟨[], names ++ [name]⟩ ms = (.ok d', ms')) (hg : d'.files.Grows last)
    (he : Echoes root last d e) :
    ∃ e', copyStatic here order.input output e ⟨[], names ++ [name]⟩ ms = (.ok e', ms') ∧ Echoes root last d' e' := by
  obtain ⟨mid, files, hm, hf, rfl, rfl⟩ := copyStatic_eq_ok.mp hs
  have hdots : ['.', '.'] ∉ names ++ [name] := fun hm => (hnames _ hm).2.2.1 rfl
  have hname : Path.IsName name := hnames name (List.mem_append_right _ List.mem_cons_self)
  have hparent : (output.join ⟨[], names ++ [name]⟩).parent = output.join ⟨[], names⟩ := by
    rw [parent_join_names output (by simp), List.dropLast_concat]
  rw [hparent] at hm
  obtain ⟨hc, ho, hfolder⟩ := changed_makeFolders (W := fun _ => True) h.ofNotes.isTree h.ofNotes.folderHere
    h.ofNotes.base (fun hm => hdots (List.mem_append_left _ hm)) hm
  have hmid := (h.later hc).ofNotes
  have hsource : (order.input.join ⟨[], names ++ [name]⟩).name = name := Path.name_join_concat _ _ _
  have hcf : Changed root (fun _ => True) mid files := changed_copyFile hmid.isTree hmid.folderHere hmid.base hdots
    List.getLast?_concat hname hsource hf fun _ _ => trivial
  obtain ⟨hmake, he'⟩ := he.files.makeFolders ho hc.outside hfolder (hcf.grows.trans hg)
  have halike := hmid.alike_echo he' (hcf.grows.trans hg)
  obtain ⟨v', hv', he''⟩ := he'.copyFile hmid.isTree hl hmid.folderHere hmid.base hdots (hsource.symm ▸ hname)
    (halike.readBytes hdots)
    (fun q hq => hmid.apart.not_isPrefix (Alike.place halike.locate_right hdots hq ▸ List.prefix_append _ _)) hf hg
  exact ⟨_, copyStatic_eq_ok.mpr ⟨e.files, v', hparent ▸ hmake, hv', rfl, rfl⟩, he'', he.pages, he.failures,
    congrArg (· + 1) he.copied⟩

/-- An asset folder can be copied again. -/
theorem copyAsset_echo (h : Layout order theme here output root notes themed d.files) (hl : last.IsTree)
    {name : Text} (hname : Path.IsName name) (hthere : d.files.hasFolder here (theme.folder.child name) = .ok true)
    (hs : copyAsset here output d (theme.folder.child name) ms = (.ok d', ms')) (hg : d'.files.Grows last)
    (he : Echoes root last d e) :
    ∃ e', copyAsset here output e (theme.folder.child name) ms = (.ok e', ms') ∧ Echoes root last d' e' := by
  have hch : Changed root (fun _ => True) d.files d'.files := h.changed_copyAsset hname hthere hs fun _ _ => trivial
  obtain ⟨files, hc, rfl, rfl⟩ := copyAsset_eq_ok.mp hs
  have hone : ['.', '.'] ∉ [name] := fun hm => hname.2.2.1 (List.mem_singleton.mp hm).symm
  have hfolder : (theme.folder.child name).name = name := by
    rw [Path.child_of_isName hname]
    exact Path.name_join_concat theme.folder [] name
  obtain ⟨place, hplace⟩ : ∃ place, d.files.locate here (theme.folder.child name) = .ok place := by
    unfold hasFolder ask at hthere
    split at hthere
    · exact ⟨_, ‹_›⟩
    · cases hthere
    · cases hthere
  rw [Path.child_of_isName hname] at hplace
  have hchild := h.ofTheme.child hname hplace
  have hcopying := h.ofTheme.alike_echo he.files (hch.grows.trans hg)
  have hcount : d.files.countBelow (themed ++ [name]) < e.files.nodes.length + 1 := by
    rw [← hcopying.below.countBelow (List.prefix_append _ _)]
    exact Nat.lt_succ_of_le (countBelow_le _ _)
  rw [hfolder] at hc
  have htarget : output.child name = output.join ⟨[], [name]⟩ := Path.child_of_isName hname output
  rw [htarget, Path.child_of_isName hname] at hc
  obtain ⟨v', hv', he'⟩ := hchild.echo hl (Nat.lt_succ_of_le (countBelow_le _ _)) hcount hc hg he.files
  refine ⟨_, copyAsset_eq_ok.mpr ⟨v', ?_, rfl, rfl⟩, he', he.pages, he.failures, he.copied⟩
  rw [hfolder, htarget, Path.child_of_isName hname]
  exact hv'

/-- The style sheet can be written again. -/
theorem writeSheet_echo (h : Layout order theme here output root notes themed d.files)
    (hs : writeSheet theme here output d ms = (.ok d', ms')) (hg : d'.files.Grows last)
    (he : Echoes root last d e) :
    ∃ e', writeSheet theme here output e ms = (.ok e', ms') ∧ Echoes root last d' e' := by
  obtain ⟨mid, sheet, files, hm, hsheet, hwrite, rfl, rfl⟩ := writeSheet_eq_ok.mp hs
  have hdots : ['.', '.'] ∉ sheetPlace := by decide
  have hparent : (output.join ⟨[], sheetPlace⟩).parent = output.join ⟨[], sheetPlace.dropLast⟩ :=
    parent_join_names output (by decide)
  rw [hparent] at hm
  obtain ⟨hc, ho, hf⟩ := changed_makeFolders (W := fun _ => True) h.ofNotes.isTree h.ofNotes.folderHere h.ofNotes.base
    (fun hm => hdots (List.dropLast_subset _ hm)) hm
  have hmid := (h.later hc).ofNotes
  have hroot : root <+: (output.join ⟨[], sheetPlace⟩).resolve here := by
    rw [resolve_join_names hdots, h.resolve_output]
    exact List.prefix_append _ _
  have hcw : Changed root (fun _ => True) mid files := changed_write hmid.isTree hmid.folderHere hwrite hroot trivial
  obtain ⟨hmake, he'⟩ := he.files.makeFolders ho hc.outside hf (hcw.grows.trans hg)
  obtain ⟨v', hv', he''⟩ := he'.write hmid.isTree hmid.folderHere hwrite hroot hg
  exact ⟨_, writeSheet_eq_ok.mpr ⟨e.files, sheet, v', hparent ▸ hmake, hsheet, hv', rfl, rfl⟩, he'', he.pages,
    he.failures, he.copied⟩

/-- The documents after one another. -/
theorem foldlM_compileOne_echo {sources : List Path} (h : Layout order theme here output root notes themed d.files)
    (hhere : c.here = here) (hnames : ∀ p ∈ sources, ∃ names, p = ⟨[], names⟩ ∧ ∀ n ∈ names, Path.IsName n)
    (hblind : ∀ t ∈ turns c order.input output d ms sources, t.Blind c order.input root)
    (hs : sources.foldlM (compileOne c order.input output) d ms = (.ok d', ms')) (hg : d'.files.Grows last)
    (he : Echoes root last d e) (files : FileTree) :
    ∃ e', sources.foldlM (compileOne { c with files } order.input output) e ms = (.ok e', ms') ∧
      Echoes root last d' e' := by
  induction sources generalizing d e ms with
  | nil =>
    cases hs
    exact ⟨e, rfl, he⟩
  | cons p sources ih =>
    rw [List.foldlM_cons] at hs
    obtain ⟨d₁, ms₁, h₁, hrest⟩ := bind_eq_ok.mp hs
    rw [turns, h₁] at hblind
    obtain ⟨hfirst, hlater⟩ := List.forall_mem_cons.mp hblind
    obtain ⟨names, rfl, hn⟩ := hnames p List.mem_cons_self
    obtain ⟨hc, -⟩ := h.changed_compileOne (W := fun _ => True) hhere hn h₁ fun _ _ => trivial
    have hlay := h.later hc
    have hgrows : d₁.files.Grows d'.files := (changed_foldlM (fun _ _ _ _ _ _ hr hs => Site.changed_compileOne hr hs)
      ⟨hlay.ofNotes.isTree, hhere.symm ▸ hlay.ofNotes.folderHere⟩ hrest).grows
    obtain ⟨e₁, he₁, hech⟩ := h.compileOne_echo hhere hn hfirst h₁ (hgrows.trans hg) he files
    obtain ⟨e', he', hech'⟩ := ih hlay (fun p hp => hnames p (List.mem_cons_of_mem _ hp)) hlater hrest hech
    exact ⟨e', by rw [List.foldlM_cons]; exact bind_eq_ok.mpr ⟨e₁, ms₁, he₁, he'⟩, hech'⟩

end Layout

/-- Steps after one another, each of which can be done again. -/
theorem foldlM_echo {α : Type} {P : Built → Prop} {step : Built → α → Logged Fault Built} {l : List α}
    (hone : ∀ a ∈ l, ∀ {d d' ms ms'}, P d → step d a ms = (.ok d', ms') → P d' ∧ d.files.Grows d'.files)
    (htwo : ∀ a ∈ l, ∀ {d d' e ms ms'}, P d → step d a ms = (.ok d', ms') → d'.files.Grows last →
      Echoes root last d e → ∃ e', step e a ms = (.ok e', ms') ∧ Echoes root last d' e')
    (hd : P d) (hl : l.foldlM step d ms = (.ok d', ms')) (hg : d'.files.Grows last) (he : Echoes root last d e) :
    ∃ e', l.foldlM step e ms = (.ok e', ms') ∧ Echoes root last d' e' := by
  induction l generalizing d e ms with
  | nil =>
    cases hl
    exact ⟨e, rfl, he⟩
  | cons a l ih =>
    rw [List.foldlM_cons] at hl
    obtain ⟨d₁, ms₁, h₁, hrest⟩ := bind_eq_ok.mp hl
    have hd₁ := (hone a List.mem_cons_self hd h₁).1
    have hlater := fun a ha => @hone a (List.mem_cons_of_mem _ ha)
    have hgrows : P d' ∧ d₁.files.Grows d'.files :=
      Logged.foldlM_keeps (P := fun d => P d ∧ d₁.files.Grows d.files) (fun b a b' ms ms' ha hb hs =>
        ⟨(hlater a ha hb.1 hs).1, hb.2.trans (hlater a ha hb.1 hs).2⟩) ⟨hd₁, .refl _⟩ hrest
    obtain ⟨e₁, he₁, hech⟩ := htwo a List.mem_cons_self hd h₁ (hgrows.2.trans hg) he
    obtain ⟨e', he', hech'⟩ := ih hlater (fun a ha => htwo a (List.mem_cons_of_mem _ ha)) hd₁ hrest hech
    exact ⟨e', by rw [List.foldlM_cons]; exact bind_eq_ok.mpr ⟨e₁, ms₁, he₁, he'⟩, hech'⟩

namespace Layout

theorem copyStatics_echo (h : Layout order theme here output root notes themed d.files) (hl : last.IsTree)
    (hs : copyStatics order.settings here order.input output d ms = (.ok d', ms')) (hg : d'.files.Grows last)
    (he : Echoes root last d e) :
    ∃ e', copyStatics order.settings here order.input output e ms = (.ok e', ms') ∧ Echoes root last d' e' := by
  obtain ⟨ms₁, hfold, rfl⟩ := copyStatics_eq_ok.mp hs
  have hone : ∀ p ∈ statics order.settings d.files here order.input, ∀ {b b' ms ms'},
      Changed root (fun _ => True) d.files b.files → copyStatic here order.input output b p ms = (.ok b', ms') →
        Changed root (fun _ => True) d.files b'.files ∧ b.files.Grows b'.files := fun p hp b b' ms ms' hb hs => by
    obtain ⟨names, name, rfl, hn⟩ := exists_of_mem_statics h.ofNotes.source h.ofNotes.below hp
    have hc := ((h.later hb).changed_copyStatic (W := fun _ => True) hn hs fun _ _ _ _ => trivial).1
    exact ⟨hb.trans hc, hc.grows⟩
  obtain ⟨e', he', hech⟩ := foldlM_echo hone (fun p hp d' d'' e ms ms' hd' hs hg he => by
    obtain ⟨names, name, rfl, hn⟩ := exists_of_mem_statics h.ofNotes.source h.ofNotes.below hp
    exact (h.later hd').copyStatic_echo hl hn hs hg he) (.refl h.ofNotes.isTree) hfold hg he
  have hgrows : d.files.Grows d'.files := (Logged.foldlM_keeps
    (P := fun b : Built => Changed root (fun _ => True) d.files b.files)
    (fun b p b' ms ms' hp hb hs => (hone p hp hb hs).1) (.refl h.ofNotes.isTree) hfold).grows
  refine ⟨e', copyStatics_eq_ok.mpr ⟨ms₁, ?_, hech.copied ▸ rfl⟩, hech⟩
  rwa [statics_of_alike (h.ofNotes.alike_echo he.files (hgrows.trans hg))]

theorem copyAssets_echo (h : Layout order theme here output root notes themed d.files) (hl : last.IsTree)
    (hs : copyAssets theme here output d ms = (.ok d', ms')) (hg : d'.files.Grows last)
    (he : Echoes root last d e) :
    ∃ e', copyAssets theme here output e ms = (.ok e', ms') ∧ Echoes root last d' e' := by
  obtain ⟨folders, hfolders, hfold⟩ := copyAssets_eq_ok.mp hs
  have hthere : ∀ p ∈ folders, ∃ name, Path.IsName name ∧ p = theme.folder.child name ∧
      ∀ b : Built, Changed root (fun _ => True) d.files b.files →
        b.files.hasFolder here (theme.folder.child name) = .ok true := fun p hp => by
    obtain ⟨names, name, hnames, hmem, rfl, hthere⟩ := exists_of_mem_assets hfolders hp
    exact ⟨name, h.assets names hnames name hmem, rfl, fun b hb => hb.grows.hasFolder hthere⟩
  have hone : ∀ p ∈ folders, ∀ {b b' ms ms'}, Changed root (fun _ => True) d.files b.files →
      copyAsset here output b p ms = (.ok b', ms') →
        Changed root (fun _ => True) d.files b'.files ∧ b.files.Grows b'.files := fun p hp b b' ms ms' hb hs => by
    obtain ⟨name, hname, rfl, hthere⟩ := hthere p hp
    have hc : Changed root (fun _ => True) b.files b'.files :=
      (h.later hb).changed_copyAsset hname (hthere b hb) hs fun _ _ => trivial
    exact ⟨hb.trans hc, hc.grows⟩
  obtain ⟨e', he', hech⟩ := foldlM_echo hone (fun p hp b b' e ms ms' hb hs hg he => by
    obtain ⟨name, hname, rfl, hthere⟩ := hthere p hp
    exact (h.later hb).copyAsset_echo hl hname (hthere b hb) hs hg he) (.refl h.ofNotes.isTree) hfold hg he
  have hgrows : d.files.Grows d'.files := (Logged.foldlM_keeps
    (P := fun b : Built => Changed root (fun _ => True) d.files b.files)
    (fun b p b' ms ms' hp hb hs => (hone p hp hb hs).1) (.refl h.ofNotes.isTree) hfold).grows
  refine ⟨e', copyAssets_eq_ok.mpr ⟨folders, ?_, he'⟩, hech⟩
  rwa [assets_of_alike (h.ofTheme.alike_echo he.files (hgrows.trans hg)) h.assets]

end Layout

/-! ## the whole build -/

/-- What is said first. -/
def checking : Message := .note 2 "Checking environment...".toList

/-- A build that comes to its end has its folder of notes and its theme. -/
theorem build_eq_built {files : FileTree} {done : Built} : build order files here ms = (.ok (.built done), ms') ↔
    files.hasFolder here order.input = .ok true ∧ ∃ theme,
      Theme.load files here order.themes order.theme = .ok theme ∧
      buildWith order theme files here (ms ++ [checking]) = (.ok done, ms') := by
  unfold build
  rw [note_run]
  constructor
  · intro h
    obtain ⟨there, ms₁, h₁, hrest⟩ := bind_eq_ok.mp h
    obtain ⟨hthere, rfl⟩ := orStop_eq_ok.mp h₁
    cases there with
    | false => cases hrest
    | true =>
      refine ⟨hthere, ?_⟩
      cases hload : Theme.load files here order.themes order.theme with
      | error fault =>
        rw [hload] at hrest
        dsimp only at hrest
        rw [if_neg (by decide : ¬ (!true) = true)] at hrest
        split at hrest
        · obtain ⟨names, ms₂, -, hend⟩ := bind_eq_ok.mp hrest
          cases hend
        · cases hrest
      | ok theme =>
        rw [hload] at hrest
        obtain ⟨built, ms₂, hbuilt, hend⟩ := bind_eq_ok.mp hrest
        cases hend
        exact ⟨theme, rfl, hbuilt⟩
  · rintro ⟨hthere, theme, hload, hbuilt⟩
    refine bind_eq_ok.mpr ⟨true, ms ++ [checking], orStop_eq_ok.mpr ⟨hthere, rfl⟩, ?_⟩
    rw [hload]
    exact bind_eq_ok.mpr ⟨done, ms', hbuilt, rfl⟩

/-- Each stage changes nothing but what lies in the output folder. -/
theorem Course.changed_below {files : FileTree} {done : Built} (course : Course order theme files here ms done ms')
    (h : Layout order theme here course.output root notes themed course.start) :
    Changed root (fun _ => True) course.start course.compiled.files ∧
      Changed root (fun _ => True) course.compiled.files course.copied.files ∧
      Changed root (fun _ => True) course.copied.files course.dressed.files ∧
      Changed root (fun _ => True) course.dressed.files done.files := by
  have hc₁ := course.changed_start_compiled h
  have hc₂ := (h.later hc₁).changed_copyStatics course.copies
  have hlay := (h.later hc₁).later hc₂
  have hc₃ := hlay.changed_copyAssets course.dresses
  exact ⟨hc₁, hc₂.mono fun _ _ => trivial, hc₃.mono fun _ _ => trivial,
    (hlay.later hc₃).changed_writeSheet course.writes trivial⟩

/-- A site is built again as it was built.  If what the documents read does not depend on the output folder, and
neither the notes nor the theme lie in it, then a second build from the files that the first one left says what the
first one said, makes the same pages and copies and reports the same documents; and every file and folder is what
it was. -/
theorem build_again {files start : FileTree} {done : Built} {found : List Path} {labels : List (Text × Text)}
    (hready : files.Ready here) (hload : Theme.load files here order.themes order.theme = .ok theme)
    (houtput : order.output? = some output) (hmade : files.makeFolders here output = .ok start)
    (hfound : sources order.settings start here order.input = .ok found) (hlabels : theme.labels = .ok labels)
    (hlayout : Layout order theme here output root notes themed start)
    (hblind : ∀ t ∈ turns (compilerOf order theme labels start here) order.input output { files := start }
      (ms ++ [checking] ++ opening theme output found.length) found,
      t.Blind (compilerOf order theme labels start here) order.input root)
    (hrun : build order files here ms = (.ok (.built done), ms')) :
    ∃ again, build order done.files here ms = (.ok (.built again), ms') ∧
      (∀ place, again.files.node? place = done.files.node? place) ∧
      again.pages = done.pages ∧ again.failures = done.failures ∧ again.copied = done.copied := by
  obtain ⟨hthere, theme', hload', hwith⟩ := build_eq_built.mp hrun
  obtain rfl := Except.ok.inj (hload.symm.trans hload')
  obtain ⟨course⟩ := buildWith_eq_ok.mp hwith
  obtain rfl : output = course.output := Option.some.inj (houtput.symm.trans course.hasOutput)
  obtain rfl : start = course.start := Except.ok.inj (hmade.symm.trans course.made)
  obtain rfl : found = course.found := Except.ok.inj (hfound.symm.trans course.searched)
  obtain rfl : labels = course.labels := Except.ok.inj (hlabels.symm.trans course.labelled)
  have hcompiles : course.found.foldlM (compileOne (compilerOf order theme course.labels course.start here) order.input
      course.output) { files := course.start } (ms ++ [checking] ++ opening theme course.output course.found.length)
      = (.ok course.compiled, course.journals.1) := course.compiles
  obtain ⟨hc₁, hc₂, hc₃, hc₄⟩ := course.changed_below hlayout
  have hlay₁ := hlayout.later hc₁
  have hlay₂ := hlay₁.later hc₂
  have hlay₃ := hlay₂.later hc₃
  have hwhole : Changed root (fun _ => True) course.start done.files := ((hc₁.trans hc₂).trans hc₃).trans hc₄
  -- what is there when the second build starts
  obtain ⟨⟨hgrows, -⟩, honly, hfolder⟩ := folderAt_makeFolders hready.isTree hready.folder course.made
  have hstart := hgrows.trans hwhole.grows
  have halike := hlayout.ofTheme.alike hwhole
  have hloaded : Theme.load done.files here order.themes order.theme = .ok theme := by
    refine Theme.load_of_grows hstart (fun file hfile b hb => ?_) hload
    have hfolder : theme.folder = order.themes.child order.theme := by
      obtain ⟨-, -, -, config, template, -, -, rfl⟩ := Theme.load_eq_ok.mp hload
      rfl
    have hname : Path.IsName file := by
      revert hfile
      exact (by decide : ∀ f ∈ ["theme.yaml".toList, "template.html".toList], Path.IsName f) file
    have hone : ['.', '.'] ∉ [file] := fun hm => hname.2.2.1 (List.mem_singleton.mp hm).symm
    rw [Path.child_of_isName hname, ← hfolder, halike.readBytes hone, hfolder, ← Path.child_of_isName hname]
    exact honly.readBytes hgrows hb
  have hmade' : done.files.makeFolders here course.output = .ok done.files :=
    (hwhole.grows.folderAt hfolder).makeFolders
  have hnotes := hlayout.ofNotes.alike hwhole
  -- the stages one after the other
  have he₀ : Echoes root done.files { files := course.start } { files := done.files } :=
    ⟨.start hwhole.outside, rfl, rfl, rfl⟩
  have hnames : ∀ p ∈ course.found, ∃ names, p = ⟨[], names⟩ ∧ ∀ n ∈ names, Path.IsName n := fun p hp => by
    obtain ⟨names, hp, hn, -⟩ := exists_of_mem_sources hlayout.ofNotes.source hlayout.ofNotes.below hlayout.noDots
      course.searched hp
    exact ⟨names, hp, hn⟩
  obtain ⟨e₁, h₁, he₁⟩ := Layout.foldlM_compileOne_echo hlayout rfl hnames hblind hcompiles
    ((hc₂.grows.trans hc₃.grows).trans hc₄.grows) he₀ done.files
  obtain ⟨e₂, h₂, he₂⟩ := hlay₁.copyStatics_echo hc₄.isTree course.copies (hc₃.grows.trans hc₄.grows) he₁
  obtain ⟨e₃, h₃, he₃⟩ := hlay₂.copyAssets_echo hc₄.isTree course.dresses hc₄.grows he₂
  obtain ⟨again, h₄, he₄⟩ := hlay₃.writeSheet_echo course.writes (.refl _) he₃
  have hclosing : closing course.output done = closing course.output again := by
    unfold closing
    rw [he₄.pages, he₄.failures, he₄.copied]
  refine ⟨again, build_eq_built.mpr ⟨hstart.hasFolder hthere, theme, hloaded, buildWith_eq_ok.mpr ⟨?_⟩⟩,
    he₄.files.node?_eq, he₄.pages, he₄.failures, he₄.copied⟩
  exact ⟨course.output, done.files, course.found, course.labels, e₁, e₂, e₃, course.journals, course.hasOutput, hmade',
    (sources_of_alike hnotes hlayout.ofNotes.below hlayout.noDots).trans course.searched, course.labelled, h₁, h₂, h₃,
    h₄, course.reported.trans (congrArg _ hclosing)⟩

end

section
set_option maxRecDepth 10000

theorem load_smallTheme {t : FileTree} (hfolder : t.hasFolder [] ⟨[], [['t']]⟩ = .ok true)
    (hconfig : t.hasAny [] ⟨[], [['t'], "theme.yaml".toList]⟩ = .ok true)
    (htemplate : t.hasAny [] ⟨[], [['t'], "template.html".toList]⟩ = .ok true)
    (hempty : t.readText [] ⟨[], [['t'], "theme.yaml".toList]⟩ = .ok [])
    (hread : t.readText [] ⟨[], [['t'], "template.html".toList]⟩ = .ok "\x7b\x7b title \x7d\x7d".toList) :
    Theme.load t [] ⟨[], []⟩ ['t'] = .ok smallTheme := by
  have hyaml : Yaml.parse [] = .ok .null := rfl
  have hparsed : Theme.Template.parse "\x7b\x7b title \x7d\x7d".toList = .ok [.output [.name "title".toList]] := by
    with_unfolding_all rfl
  have hload : Theme.loadConfig t [] ⟨[], [['t'], "theme.yaml".toList]⟩ = .ok (.map []) := by
    unfold Theme.loadConfig
    rw [hempty]
    dsimp only
    rw [hyaml]
  have hloaded : Theme.loadTemplate t [] ⟨[], [['t'], "template.html".toList]⟩
      = .ok ⟨[.output [.name "title".toList]], true⟩ := by
    unfold Theme.loadTemplate
    rw [hread]
    dsimp only
    rw [hparsed]
  exact Theme.load_eq_ok.mpr ⟨hfolder, hconfig, htemplate, _, _, hload, hloaded, rfl⟩

/-- The documents of the small site read nothing of the output folder. -/
theorem blind_small {t : Turn} {stem : Text} (hstem : stem = ['0'] ∨ stem = ['a'])
    (hsource : t.source = ⟨[], [stem ++ ".md".toList]⟩)
    (hread : t.files.readText [] ⟨[], [['n'], stem ++ ".md".toList]⟩ = .ok "# A".toList) (files : FileTree) :
    t.Blind (smallCompiler files) smallOrder.input [['s']] := by
  intro v hout hgrows
  obtain ⟨b, s, hb, hs, htext⟩ := readBytes_of_readText hread
  obtain ⟨place, hl, hn⟩ := node?_of_readBytes hb
  have hplace : place = [['n'], stem ++ ".md".toList] := by
    have hdots : ['.', '.'] ∉ [['n'], stem ++ ".md".toList] := by
      rcases hstem with rfl | rfl <;> decide
    exact locateFrom_of_dots_not_mem hdots (locate_eq_ok hl)
  have hread' : v.readText [] ⟨[], [['n'], stem ++ ".md".toList]⟩ = .ok "# A".toList := by
    have hapart : ¬ [['s']] <+: place := by
      rw [hplace]
      simp
    unfold FileTree.readText FileTree.readBytes
    rw [hgrows.locate hl]
    dsimp only
    rw [hout.node? hapart, hn]
    dsimp only
    rw [hs, ← htext]
  rw [hsource]
  exact (compileFile_small _ hstem hread' _).trans (compileFile_small _ hstem hread _).symm

theorem blind_turns_small (ms : List Message) : ∀ t ∈ turns (smallCompiler (smallStart smallText)) smallOrder.input
    ⟨[], [['s']]⟩ { files := smallStart smallText } ms [⟨[], ["0.md".toList]⟩, ⟨[], ["a.md".toList]⟩],
    t.Blind (smallCompiler (smallStart smallText)) smallOrder.input [['s']] := by
  obtain ⟨ms₁, hturns⟩ := turns_small ms
  rw [hturns]
  refine List.forall_mem_cons.mpr ⟨blind_small (.inl rfl) rfl rfl _, List.forall_mem_cons.mpr ⟨?_, ?_⟩⟩
  · exact blind_small (.inr rfl) rfl rfl _
  · exact fun t ht => absurd ht List.not_mem_nil

/-- The small site is built twice. -/
theorem build_again_small : ∃ done again ms',
    build smallOrder (smallSite smallText) [] [] = (.ok (.built done), ms') ∧ done.failures = [] ∧
      build smallOrder done.files [] [] = (.ok (.built again), ms') ∧
      ∀ place, again.files.node? place = done.files.node? place := by
  obtain ⟨done, ms', hwith, hfailures, -⟩ := built_small ([] ++ [checking])
  have hthere : (smallSite smallText).hasFolder [] smallOrder.input = .ok true := rfl
  have hload : Theme.load (smallSite smallText) [] smallOrder.themes smallOrder.theme = .ok smallTheme :=
    load_smallTheme rfl rfl rfl rfl rfl
  have hrun : build smallOrder (smallSite smallText) [] [] = (.ok (.built done), ms') :=
    build_eq_built.mpr ⟨hthere, smallTheme, hload, hwith⟩
  have hfound : sources smallOrder.settings (smallStart smallText) [] smallOrder.input
      = .ok [⟨[], ["0.md".toList]⟩, ⟨[], ["a.md".toList]⟩] := sources_smallStart _
  have hblind := blind_turns_small ([] ++ [checking] ++ opening smallTheme ⟨[], [['s']]⟩ 2)
  obtain ⟨again, hagain, hsame, -⟩ := build_again (ready_smallSite smallText) hload rfl (made_smallSite smallText)
    hfound labels_smallTheme (layout_smallSite smallText) hblind hrun
  exact ⟨done, again, ms', hrun, hfailures, hagain, hsame⟩

/-! ## an output folder below the notes -/

/-- An empty folder of notes and a theme; the site is to be built into the folder of the notes. -/
def nestedSite : FileTree := ⟨[
  ([['n']], .folder), ([['t']], .folder),
  ([['t'], "template.html".toList], .file (encode "\x7b\x7b title \x7d\x7d".toList)),
  ([['t'], "theme.yaml".toList], .file [])]⟩

def nestedOrder : Order := { smallOrder with output? := some ⟨[], [['n'], ['s']]⟩ }

/-- The site with its output folder, and as the first build leaves it. -/
def nestedStart : FileTree := ⟨([['n'], ['s']], .folder) :: nestedSite.nodes⟩

def nestedDone (sheet : Bytes) : FileTree :=
  ⟨(['n'] :: ['s'] :: sheetPlace, .file sheet) :: ([['n'], ['s'], "css".toList], .folder) :: nestedStart.nodes⟩

theorem below_nestedStart : nestedStart.below [['n']] = [([['s']], .folder)] := by
  unfold FileTree.below
  exact List.mergeSort_singleton _

/-- The node at a place below the notes, as the first build leaves them. -/
def nestedNode (sheet : Bytes) (place : List Text) : FileNode :=
  if place = ['s'] :: sheetPlace then .file sheet else .folder

theorem below_nestedDone (sheet : Bytes) : (nestedDone sheet).below [['n']] = [([['s']], .folder),
    ([['s'], "css".toList], .folder), (['s'] :: sheetPlace, .file sheet)] := by
  -- the order is that of the places alone
  have hsorted : List.mergeSort [['s'] :: sheetPlace, [['s'], "css".toList], [['s']]] Path.partsLe
      = [[['s']], [['s'], "css".toList], ['s'] :: sheetPlace] := by
    simp [List.mergeSort, List.MergeSort.Internal.splitInTwo, Path.partsLe, sheetPlace]
  have hlist : ((nestedDone sheet).nodes.filterMap fun e =>
      if [['n']] <+: e.1 ∧ e.1.length > [['n']].length then some (e.1.drop [['n']].length, e.2) else none)
      = [['s'] :: sheetPlace, [['s'], "css".toList], [['s']]].map fun p => (p, nestedNode sheet p) := rfl
  have hmap := List.map_mergeSort (r := Path.partsLe) (s := fun a b => Path.partsLe a.1 b.1)
    (f := fun p => (p, nestedNode sheet p)) (l := [['s'] :: sheetPlace, [['s'], "css".toList], [['s']]])
    fun _ _ _ _ => rfl
  unfold FileTree.below
  rw [hlist, ← hmap, hsorted]
  rfl

/-- No file of the notes has the ending of documents. -/
theorem sources_nested {t : FileTree} {folders : List (List Text)} (hfolder : t.isFolder [] ⟨[], [['n']]⟩ = true)
    (hfolders : t.foldersFrom [] ⟨[], [['n']]⟩ [] = folders)
    (hnone : folders.mapM (t.selectFrom [] ⟨[], [['n']]⟩ [.fitting (Glob.ofText "*.md".toList)])
      = .ok (folders.map fun _ => [])) :
    sources {} t [] ⟨[], [['n']]⟩ = .ok [] := by
  have hsteps : Glob.steps? ('*' :: ({} : Settings).sourceSuffix)
      = some [.anywhere, .fitting (Glob.ofText "*.md".toList)] := by decide +kernel
  have hempty : (folders.map fun _ => ([] : List (List Text))).flatten = [] := by simp
  unfold sources FileTree.select
  rw [hsteps]
  dsimp only
  rw [FileTree.selectFrom, hfolders, hnone, if_pos hfolder]
  change (Except.ok _ : Except Fault (List Path)) = _
  rw [hempty]
  simp

theorem sources_nestedStart : sources {} nestedStart [] ⟨[], [['n']]⟩ = .ok [] := by
  have hfolders : nestedStart.foldersFrom [] ⟨[], [['n']]⟩ [] = [[], [['s']]] := by
    unfold FileTree.foldersFrom
    rw [show nestedStart.locate [] ((⟨[], [['n']]⟩ : Path).join ⟨[], []⟩) = .ok [['n']] from rfl]
    dsimp only
    rw [below_nestedStart]
    rfl
  exact sources_nested rfl hfolders rfl

theorem sources_nestedDone (sheet : Bytes) : sources {} (nestedDone sheet) [] ⟨[], [['n']]⟩ = .ok [] := by
  have hfolders : (nestedDone sheet).foldersFrom [] ⟨[], [['n']]⟩ [] = [[], [['s']], [['s'], "css".toList]] := by
    unfold FileTree.foldersFrom
    rw [show (nestedDone sheet).locate [] ((⟨[], [['n']]⟩ : Path).join ⟨[], []⟩) = .ok [['n']] from rfl]
    dsimp only
    rw [below_nestedDone]
    rfl
  exact sources_nested rfl hfolders rfl

/-- A site without documents is built if what is copied and the style sheet are. -/
theorem build_nested {files start t t' : FileTree} {count : Nat} {ms₁ : List Message}
    (hfolder : files.hasFolder [] ⟨[], [['n']]⟩ = .ok true)
    (hload : Theme.load files [] nestedOrder.themes nestedOrder.theme = .ok smallTheme)
    (hmade : files.makeFolders [] ⟨[], [['n'], ['s']]⟩ = .ok start)
    (hfound : sources {} start [] ⟨[], [['n']]⟩ = .ok [])
    (hcopies : copyStatics {} [] ⟨[], [['n']]⟩ ⟨[], [['n'], ['s']]⟩ { files := start }
      ([] ++ [checking] ++ opening smallTheme ⟨[], [['n'], ['s']]⟩ 0) = (.ok ⟨t, [], [], count⟩, ms₁))
    (hassets : smallTheme.assets t [] = .ok [])
    (hwrites : writeSheet smallTheme [] ⟨[], [['n'], ['s']]⟩ ⟨t, [], [], count⟩ ms₁ = (.ok ⟨t', [], [], count⟩, ms₁)) :
    build nestedOrder files [] [] = (.ok (.built ⟨t', [], [], count⟩), ms₁ ++ closing ⟨[], [['n'], ['s']]⟩ ⟨t', [], [], count⟩) := by
  have hdresses : copyAssets smallTheme [] ⟨[], [['n'], ['s']]⟩ ⟨t, [], [], count⟩ ms₁ = (.ok ⟨t, [], [], count⟩, ms₁) :=
    copyAssets_eq_ok.mpr ⟨[], hassets, rfl⟩
  exact build_eq_built.mpr ⟨hfolder, smallTheme, hload, buildWith_eq_ok.mpr ⟨⟨⟨[], [['n'], ['s']]⟩, start, [], [], _, _, _,
    (_, ms₁, ms₁, ms₁), rfl, hmade, hfound, labels_smallTheme, rfl, hcopies, hdresses, hwrites, rfl⟩⟩⟩

theorem build_nestedSite {sheet : Text} (hsheet : smallTheme.sheet = .ok sheet) : ∃ ms,
    build nestedOrder nestedSite [] [] = (.ok (.built ⟨nestedDone (encode sheet), [], [], 0⟩), ms) := by
  have hstatics : statics {} nestedStart [] ⟨[], [['n']]⟩ = [] := by
    unfold statics filesBelow
    rw [show nestedStart.locate [] (⟨[], [['n']]⟩ : Path) = .ok [['n']] from rfl]
    dsimp only
    rw [below_nestedStart]
    rfl
  obtain ⟨ms₁, hcopies⟩ : ∃ ms₁, copyStatics {} [] ⟨[], [['n']]⟩ ⟨[], [['n'], ['s']]⟩ { files := nestedStart }
      ([] ++ [checking] ++ opening smallTheme ⟨[], [['n'], ['s']]⟩ 0) = (.ok ⟨nestedStart, [], [], 0⟩, ms₁) := by
    generalize [] ++ [checking] ++ opening smallTheme ⟨[], [['n'], ['s']]⟩ 0 = ms
    refine ⟨_, copyStatics_eq_ok.mpr ⟨ms, ?_, rfl⟩⟩
    rw [hstatics]
    rfl
  have hwrites : writeSheet smallTheme [] ⟨[], [['n'], ['s']]⟩ ⟨nestedStart, [], [], 0⟩ ms₁
      = (.ok ⟨nestedDone (encode sheet), [], [], 0⟩, ms₁) :=
    writeSheet_eq_ok.mpr ⟨⟨([['n'], ['s'], "css".toList], .folder) :: nestedStart.nodes⟩, sheet, _, rfl, hsheet, rfl,
      rfl, rfl⟩
  exact ⟨_, build_nested rfl (load_smallTheme rfl rfl rfl rfl rfl) rfl sources_nestedStart hcopies rfl hwrites⟩

/-- What the second build makes of what the first one left. -/
def nestedFolders (sheet : Bytes) : FileTree :=
  ⟨([['n'], ['s'], ['s'], "css".toList], .folder) :: ([['n'], ['s'], ['s']], .folder) :: (nestedDone sheet).nodes⟩

def nestedAgain (sheet : Bytes) : FileTree :=
  ⟨(['n'] :: ['s'] :: ['s'] :: sheetPlace, .file sheet) :: (nestedFolders sheet).nodes⟩

theorem copyStatic_nestedDone (b : Bytes) (ms : List Message) :
    copyStatic [] ⟨[], [['n']]⟩ ⟨[], [['n'], ['s']]⟩ { files := nestedDone b } ⟨[], ['s'] :: sheetPlace⟩ ms
      = (.ok ⟨nestedAgain b, [], [], 1⟩, ms) := by
  have hmade : (nestedDone b).makeFolders [] ⟨[], [['n'], ['s'], ['s'], "css".toList]⟩ = .ok (nestedFolders b) := rfl
  have hread : (nestedFolders b).readBytes [] ⟨[], ['n'] :: ['s'] :: sheetPlace⟩ = .ok b := rfl
  have hwritten : (nestedFolders b).write [] ⟨[], ['n'] :: ['s'] :: ['s'] :: sheetPlace⟩ b = .ok (nestedAgain b) := rfl
  have htarget : (nestedFolders b).copyTarget [] ⟨[], ['n'] :: ['s'] :: sheetPlace⟩
      ⟨[], ['n'] :: ['s'] :: ['s'] :: sheetPlace⟩ = ⟨[], ['n'] :: ['s'] :: ['s'] :: sheetPlace⟩ := rfl
  have hsame : (nestedFolders b).isSame [] ⟨[], ['n'] :: ['s'] :: sheetPlace⟩
      ⟨[], ['n'] :: ['s'] :: ['s'] :: sheetPlace⟩ = false := rfl
  have hcopied : (nestedFolders b).copyFile [] ⟨[], ['n'] :: ['s'] :: sheetPlace⟩
      ⟨[], ['n'] :: ['s'] :: ['s'] :: sheetPlace⟩ = .ok (nestedAgain b) :=
    copyFile_eq_ok.mpr ⟨b, hread, htarget.symm ▸ hsame, htarget.symm ▸ hwritten⟩
  exact copyStatic_eq_ok.mpr ⟨_, _, hmade, hcopied, rfl, rfl⟩

theorem build_nestedDone {sheet : Text} (hsheet : smallTheme.sheet = .ok sheet) : ∃ again ms,
    build nestedOrder (nestedDone (encode sheet)) [] [] = (.ok (.built again), ms) ∧
      again.files.node? (['n'] :: ['s'] :: ['s'] :: sheetPlace) = some (.file (encode sheet)) := by
  have hstatics : statics {} (nestedDone (encode sheet)) [] ⟨[], [['n']]⟩ = [⟨[], ['s'] :: sheetPlace⟩] := by
    unfold statics filesBelow
    rw [show (nestedDone (encode sheet)).locate [] (⟨[], [['n']]⟩ : Path) = .ok [['n']] from rfl]
    dsimp only
    rw [below_nestedDone]
    rfl
  obtain ⟨ms₁, hcopies⟩ : ∃ ms₁, copyStatics {} [] ⟨[], [['n']]⟩ ⟨[], [['n'], ['s']]⟩
      { files := nestedDone (encode sheet) } ([] ++ [checking] ++ opening smallTheme ⟨[], [['n'], ['s']]⟩ 0)
      = (.ok ⟨nestedAgain (encode sheet), [], [], 1⟩, ms₁) := by
    generalize [] ++ [checking] ++ opening smallTheme ⟨[], [['n'], ['s']]⟩ 0 = ms
    refine ⟨_, copyStatics_eq_ok.mpr ⟨ms, ?_, rfl⟩⟩
    rw [hstatics, List.foldlM_cons, bind_of_ok (copyStatic_nestedDone _ ms)]
    rfl
  have hwrites : writeSheet smallTheme [] ⟨[], [['n'], ['s']]⟩ ⟨nestedAgain (encode sheet), [], [], 1⟩ ms₁
      = (.ok ⟨(nestedAgain (encode sheet)).put (['n'] :: ['s'] :: sheetPlace) (.file (encode sheet)), [], [], 1⟩, ms₁) :=
    writeSheet_eq_ok.mpr ⟨nestedAgain (encode sheet), sheet, _, rfl, hsheet, rfl, rfl, rfl⟩
  exact ⟨_, _, build_nested rfl (load_smallTheme rfl rfl rfl rfl rfl) rfl (sources_nestedDone _) hcopies rfl hwrites, rfl⟩

/-- A site that is built into the folder of its notes is not what it was when it is built again: the second build
takes what the first one wrote for static files, and copies it. -/
theorem build_again_nested : ∃ done again ms₁ ms₂,
    build nestedOrder nestedSite [] [] = (.ok (.built done), ms₁) ∧
      build nestedOrder done.files [] [] = (.ok (.built again), ms₂) ∧
      done.files.node? (['n'] :: ['s'] :: ['s'] :: sheetPlace) = none ∧
      again.files.node? (['n'] :: ['s'] :: ['s'] :: sheetPlace) ≠ none := by
  obtain ⟨sheet, hsheet⟩ := sheet_smallTheme
  obtain ⟨ms₁, hfirst⟩ := build_nestedSite hsheet
  obtain ⟨again, ms₂, hsecond, hnode⟩ := build_nestedDone hsheet
  exact ⟨_, again, ms₁, ms₂, hfirst, hsecond, rfl, hnode ▸ Option.some_ne_none _⟩

end
end Lectern.Site
