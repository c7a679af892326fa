import Lectern.Proofs.Files.Copied
import Lectern.Proofs.Journal
import Lectern.Site.Build

/-!
# The stages of a build

Each step of a build as an equation (`compileOne_eq`, `copyStatic_eq_ok`, `copyAsset_eq_ok`,
`writeSheet_eq_ok`), and a build that comes to its end as its stages one after the other (`Course`).

Every step of a build makes folders and writes files: what stands somewhere goes on to stand there, as a folder
or as a file, and what a step has written is a file to the end.  So every step is a change below the root of all
files (`Course.changed_…`).
-/

namespace Lectern.Site
open Text Logged

variable {α ε : Type} {here : List Text} {input output : Path} {done done' : Built} {ms ms' : List Message}

theorem orStop_eq_ok {f : ε → Fault} {r : Except ε α} {a : α} :
    orStop f r ms = (.ok a, ms') ↔ r = .ok a ∧ ms' = ms := by
  cases r with
  | ok b =>
    constructor
    · intro h
      cases h
      exact ⟨rfl, rfl⟩
    · rintro ⟨h, rfl⟩
      cases h
      rfl
  | error e =>
    constructor
    · intro h
      cases h
    · rintro ⟨h, -⟩
      cases h

theorem note_run {level : Nat} {text : Text} {α : Type} (f : Unit → Logged Fault α) (ms : List Message) :
    (note level text >>= f) ms = f () (ms ++ [.note level text]) := rfl

theorem attempt_run {ε' : Type} {run : Logged ε α} {r : Except ε α} (h : run ms = (r, ms')) :
    (attempt run : Logged ε' (Except ε α)) ms = (.ok r, ms') := by
  unfold attempt
  rw [h]

/-! ## one document -/

/-- The announcement of a document. -/
def announce (source : Path) : Message := .note 2 ("Compiling ".toList ++ source.toText)

/-- The line about a document that fails alone. -/
def failure (source : Path) (label : String) (e : Document.Fault) : Path × Text :=
  (source, label.toList ++ ": ".toList ++ e.message)

/-- A document is reported if its fault has a label; if it has a page, the page is written. -/
theorem compileOne_eq (c : Compiler) (input output : Path) (done : Built) (source : Path)
    (ms : List Message) : compileOne c input output done source ms =
      match ({ c with files := done.files } : Compiler).compileFile (input.join source) input
        (ms ++ [announce source]) with
      | (.error e, ms) =>
        match e.label? with
        | some label => (.ok { done with failures := done.failures ++ [failure source label e] }, ms)
        | none => (.error (.document e), ms)
      | (.ok d, ms) =>
        match put done.files c.here (output.join d.path) d.html with
        | .error e => (.error (.file e), ms)
        | .ok files => (.ok { done with files, pages := done.pages ++ [d.path] },
            ms ++ [.note 3 ("Wrote ".toList ++ (output.join d.path).toText)]) := by
  unfold compileOne
  rw [note_run]
  rcases hv : ({ c with files := done.files } : Compiler).compileFile (input.join source) input
    (ms ++ [announce source]) with ⟨e | d, ms₁⟩
  · refine (bind_of_ok (attempt_run hv)).trans ?_
    dsimp only
    cases e.label? with
    | none => rfl
    | some label => rfl
  · refine (bind_of_ok (attempt_run hv)).trans ?_
    dsimp only
    cases put done.files c.here (output.join d.path) d.html with
    | error e => rfl
    | ok files => rfl

/-! ## what is copied -/

theorem copyStatic_eq_ok {p : Path} : copyStatic here input output done p ms = (.ok done', ms') ↔
    ∃ mid files, done.files.makeFolders here (output.join p).parent = .ok mid ∧
      mid.copyFile here (input.join p) (output.join p) = .ok files ∧
      done' = { done with files, copied := done.copied + 1 } ∧ ms' = ms := by
  unfold copyStatic
  constructor
  · intro h
    obtain ⟨mid, ms₁, h₁, hrest⟩ := bind_eq_ok.mp h
    obtain ⟨files, ms₂, h₂, hend⟩ := bind_eq_ok.mp hrest
    obtain ⟨hm, rfl⟩ := orStop_eq_ok.mp h₁
    obtain ⟨hf, rfl⟩ := orStop_eq_ok.mp h₂
    cases hend
    exact ⟨mid, files, hm, hf, rfl, rfl⟩
  · rintro ⟨mid, files, hm, hf, rfl, rfl⟩
    exact bind_eq_ok.mpr ⟨mid, _, orStop_eq_ok.mpr ⟨hm, rfl⟩,
      bind_eq_ok.mpr ⟨files, _, orStop_eq_ok.mpr ⟨hf, rfl⟩, rfl⟩⟩

/-- The static files of a folder. -/
def statics (settings : Settings) (files : FileTree) (here : List Text) (input : Path) : List Path :=
  (filesBelow files here input).filter (isStatic settings)

theorem copyStatics_eq_ok {settings : Settings} : copyStatics settings here input output done ms = (.ok done', ms') ↔
    ∃ ms₁, (statics settings done.files here input).foldlM (copyStatic here input output) done ms
        = (.ok done', ms₁) ∧
      ms' = ms₁ ++ [.note 2 ("Copied ".toList ++ (toString done'.copied).toList ++ " static file(s)".toList)] := by
  unfold copyStatics
  constructor
  · intro h
    obtain ⟨done₁, ms₁, h₁, h⟩ := bind_eq_ok.mp h
    cases h
    exact ⟨ms₁, h₁, rfl⟩
  · rintro ⟨ms₁, h, rfl⟩
    exact bind_eq_ok.mpr ⟨done', ms₁, h, rfl⟩

theorem copyAsset_eq_ok {folder : Path} : copyAsset here output done folder ms = (.ok done', ms') ↔
    ∃ files, FileTree.copied here (done.files.nodes.length + 1) done.files folder (output.child folder.name)
        = some files ∧
      done' = { done with files } ∧
      ms' = ms ++ [.note 3 ("Copied theme ".toList ++ folder.name ++ "/ to output".toList)] := by
  unfold copyAsset
  constructor
  · intro h
    obtain ⟨⟨files, failed⟩, ms₁, h₁, h⟩ := bind_eq_ok.mp h
    obtain ⟨hc, rfl⟩ := orStop_eq_ok.mp h₁
    dsimp only at h
    cases failed with
    | nil =>
      cases h
      exact ⟨files, FileTree.copyFolderAux_eq_ok.mp hc, rfl, rfl⟩
    | cons item failed => cases h
  · rintro ⟨files, hc, rfl, rfl⟩
    exact bind_eq_ok.mpr ⟨(files, []), ms, orStop_eq_ok.mpr ⟨FileTree.copyFolderAux_eq_ok.mpr hc, rfl⟩, rfl⟩

theorem copyAssets_eq_ok {theme : Theme} : copyAssets theme here output done ms = (.ok done', ms') ↔
    ∃ folders, theme.assets done.files here = .ok folders ∧
      folders.foldlM (copyAsset here output) done ms = (.ok done', ms') := by
  unfold copyAssets
  constructor
  · intro h
    obtain ⟨folders, ms₁, h₁, hrest⟩ := bind_eq_ok.mp h
    obtain ⟨hf, rfl⟩ := orStop_eq_ok.mp h₁
    exact ⟨folders, hf, hrest⟩
  · rintro ⟨folders, hf, h⟩
    exact bind_eq_ok.mpr ⟨folders, ms, orStop_eq_ok.mpr ⟨hf, rfl⟩, h⟩

/-- The place of the style sheet for code, as seen from the output folder. -/
def sheetPlace : List Text := ["css".toList, "pygments.css".toList]

theorem writeSheet_eq_ok {theme : Theme} : writeSheet theme here output done ms = (.ok done', ms') ↔
    ∃ mid sheet files, done.files.makeFolders here (output.join ⟨[], sheetPlace⟩).parent = .ok mid ∧
      theme.sheet = .ok sheet ∧ mid.write here (output.join ⟨[], sheetPlace⟩) (encode sheet) = .ok files ∧
      done' = { done with files } ∧ ms' = ms := by
  unfold writeSheet
  constructor
  · intro h
    obtain ⟨mid, ms₁, h₁, hsheet⟩ := bind_eq_ok.mp h
    obtain ⟨sheet, ms₂, h₂, hwrite⟩ := bind_eq_ok.mp hsheet
    obtain ⟨files, ms₃, h₃, hend⟩ := bind_eq_ok.mp hwrite
    obtain ⟨hm, rfl⟩ := orStop_eq_ok.mp h₁
    obtain ⟨hs, rfl⟩ := orStop_eq_ok.mp h₂
    obtain ⟨hf, rfl⟩ := orStop_eq_ok.mp h₃
    cases hend
    exact ⟨mid, sheet, files, hm, hs, hf, rfl, rfl⟩
  · rintro ⟨mid, sheet, files, hm, hs, hf, rfl, rfl⟩
    exact bind_eq_ok.mpr ⟨mid, _, orStop_eq_ok.mpr ⟨hm, rfl⟩, bind_eq_ok.mpr ⟨sheet, _,
      orStop_eq_ok.mpr ⟨hs, rfl⟩, bind_eq_ok.mpr ⟨files, _, orStop_eq_ok.mpr ⟨hf, rfl⟩, rfl⟩⟩⟩

/-! ## the whole -/

/-- What the documents of an order are compiled with. -/
def compilerOf (order : Order) (theme : Theme) (labels : List (Text × Text)) (files : FileTree)
    (here : List Text) : Compiler :=
  { settings := order.settings, colours := order.settings.highlightCode, theme, labels, files, here }

/-- What has been said when the first document gets its turn. -/
def opening (theme : Theme) (output : Path) (count : Nat) : List Message :=
  [.note 2 ("Theme: ".toList ++ theme.shown), .note 2 ("Output directory: ".toList ++ output.toText),
    .note 1 ("Found ".toList ++ s!"{count}".toList ++ " document(s)".toList)]

/-- How much was done, as it is reported. -/
def closing (output : Path) (done : Built) : List Message :=
  [.note 1 ("Pages: ".toList ++ s!"{done.pages.length}".toList),
      .note 1 ("Static files: ".toList ++ s!"{done.copied}".toList)]
    ++ if done.failures.isEmpty then [.note 1 ("✓ Site written to ".toList ++ output.toText)] else []

theorem report_run (output : Path) (done : Built) (ms : List Message) :
    report output done ms = (.ok (), ms ++ closing output done) := by
  unfold report closing
  rw [note_run, note_run]
  split
  · change (_, _ ++ _) = _
    simp
  · change (_, _) = _
    simp

/-- A build with a theme that comes to its end, stage by stage. -/
structure Course (order : Order) (theme : Theme) (files : FileTree) (here : List Text)
    (ms : List Message) (done : Built) (ms' : List Message) where
  output : Path
  start : FileTree
  found : List Path
  labels : List (Text × Text)
  compiled : Built
  copied : Built
  dressed : Built
  journals : List Message × List Message × List Message × List Message
  hasOutput : order.output? = some output
  made : files.makeFolders here output = .ok start
  searched : sources order.settings start here order.input = .ok found
  labelled : theme.labels = .ok labels
  compiles : compileAll (compilerOf order theme labels start here) order.input output found
    (ms ++ opening theme output found.length) = (.ok compiled, journals.1)
  copies : copyStatics order.settings here order.input output compiled journals.1 = (.ok copied, journals.2.1)
  dresses : copyAssets theme here output copied journals.2.1 = (.ok dressed, journals.2.2.1)
  writes : writeSheet theme here output dressed journals.2.2.1 = (.ok done, journals.2.2.2)
  reported : ms' = journals.2.2.2 ++ closing output done

theorem buildWith_eq_ok {order : Order} {theme : Theme} {files : FileTree} :
    buildWith order theme files here ms = (.ok done, ms') ↔
      Nonempty (Course order theme files here ms done ms') := by
  unfold buildWith
  rw [note_run]
  constructor
  · intro h
    cases ho : order.output? with
    | none =>
      rw [ho] at h
      cases h
    | some output =>
      rw [ho] at h
      obtain ⟨start, ms₁, h₁, hfind⟩ := bind_eq_ok.mp h
      rw [note_run] at hfind
      obtain ⟨found, ms₂, h₂, hlabels⟩ := bind_eq_ok.mp hfind
      rw [note_run] at hlabels
      obtain ⟨labels, ms₃, h₃, hcompile⟩ := bind_eq_ok.mp hlabels
      obtain ⟨compiled, ms₄, h₄, hcopy⟩ := bind_eq_ok.mp hcompile
      obtain ⟨copied, ms₅, h₅, hdress⟩ := bind_eq_ok.mp hcopy
      obtain ⟨dressed, ms₆, h₆, hwrite⟩ := bind_eq_ok.mp hdress
      obtain ⟨done₁, ms₇, h₇, hreport⟩ := bind_eq_ok.mp hwrite
      obtain ⟨⟨⟩, ms₈, h₈, hend⟩ := bind_eq_ok.mp hreport
      cases hend
      obtain ⟨hm, rfl⟩ := orStop_eq_ok.mp h₁
      obtain ⟨hs, rfl⟩ := orStop_eq_ok.mp h₂
      obtain ⟨hl, rfl⟩ := orStop_eq_ok.mp h₃
      rw [report_run] at h₈
      cases h₈
      rw [List.append_assoc, List.append_assoc] at h₄
      exact ⟨⟨output, start, found, labels, compiled, copied, dressed, (ms₄, ms₅, ms₆, ms₇), ho, hm, hs, hl, h₄, h₅,
        h₆, h₇, rfl⟩⟩
  · rintro ⟨course⟩
    rw [course.hasOutput]
    refine bind_eq_ok.mpr ⟨course.start, _, orStop_eq_ok.mpr ⟨course.made, rfl⟩, ?_⟩
    rw [note_run]
    refine bind_eq_ok.mpr ⟨course.found, _, orStop_eq_ok.mpr ⟨course.searched, rfl⟩, ?_⟩
    rw [note_run]
    refine bind_eq_ok.mpr ⟨course.labels, _, orStop_eq_ok.mpr ⟨course.labelled, rfl⟩, ?_⟩
    rw [List.append_assoc, List.append_assoc]
    refine bind_eq_ok.mpr ⟨course.compiled, _, course.compiles, ?_⟩
    refine bind_eq_ok.mpr ⟨course.copied, _, course.copies, ?_⟩
    refine bind_eq_ok.mpr ⟨course.dressed, _, course.dresses, ?_⟩
    refine bind_eq_ok.mpr ⟨done, _, course.writes, ?_⟩
    refine bind_eq_ok.mpr ⟨(), _, report_run _ _ _, ?_⟩
    exact congrArg (Prod.mk (Except.ok done)) course.reported.symm

end Lectern.Site

/-! ## a build only adds -/

namespace Lectern.FileTree
open Text

/-- Nothing lies outside of the root of all files. -/
theorem sameOutside_nil (t t' : FileTree) : t.SameOutside [] t' := by
  have hnone (l : List (List Text × FileNode)) : l.filter (fun e => ¬ [] <+: e.1) = [] :=
    List.filter_eq_nil_iff.mpr fun e _ => by simp
  exact (hnone _).trans (hnone _).symm

/-- A tree of files in which the folder stands from which paths are seen. -/
structure Ready (here : List Text) (t : FileTree) : Prop where
  isTree : t.IsTree
  folder : t.node? here = some .folder

section
variable {here root : List Text} {t t' : FileTree} {source p : Path} {W : List Text → Prop}

theorem Ready.later (h : t.Ready here) (hc : Changed root W t t') : t'.Ready here :=
  ⟨hc.isTree, hc.grows.folder h.folder⟩

theorem Ready.makeFolders (h : t.Ready here) (hm : t.makeFolders here p = .ok t') :
    Changed [] W t t' ∧ t'.FolderAt here p (p.resolve here) := by
  obtain ⟨⟨hg, ht⟩, ho, hf⟩ := folderAt_makeFolders h.isTree h.folder hm
  refine ⟨⟨sameOutside_nil t t', hg, ht, fun {q b} hn _ => ?_⟩, hf⟩
  rcases ho q with e | ⟨e, -⟩
  · rw [e, hn]
  · rw [hn] at e
    cases e

theorem Ready.write {b : Bytes} (h : t.Ready here) (hw : t.write here p b = .ok t') (hp : W (p.resolve here)) :
    Changed [] W t t' ∧ t'.node? (p.resolve here) = some (.file b) :=
  ⟨changed_write h.isTree h.folder hw List.nil_prefix hp, node?_of_write h.isTree h.folder hw⟩

theorem Ready.copyFile (h : t.Ready here) (hc : t.copyFile here source p = .ok t')
    (hp : W ((t.copyTarget here source p).resolve here)) :
    Changed [] W t t' ∧ ∃ b, t'.node? ((t.copyTarget here source p).resolve here) = some (.file b) := by
  obtain ⟨b, -, -, hw⟩ := copyFile_eq_ok.mp hc
  obtain ⟨hch, hn⟩ := h.write hw hp
  exact ⟨hch, b, hn⟩

theorem Ready.copied {depth : Nat} (h : t.Ready here) (hc : copied here depth t source p = some t') :
    Changed [] (fun _ => True) t t' := by
  induction depth generalizing t source p t' with
  | zero => exact Option.some.inj hc ▸ .refl h.isTree
  | succ depth ih =>
    rw [copied_succ] at hc
    obtain ⟨entries, -, hc⟩ := Option.bind_eq_some_iff.mp hc
    obtain ⟨t₁, hmake, hc⟩ := Option.bind_eq_some_iff.mp hc
    obtain ⟨hc₁, -⟩ := h.makeFolders (W := fun _ => True) (toOption_eq_some.mp hmake)
    refine FileTree.foldlM_keeps (P := Changed [] (fun _ => True) t) (fun t₂ e t₃ _ hc₂ hstep => hc₂.trans ?_)
      hc₁ hc
    obtain ⟨name, n⟩ := e
    cases n with
    | folder => exact ih (h.later hc₂) hstep
    | file b => exact ((h.later hc₂).copyFile (toOption_eq_some.mp hstep) trivial).1

end
end Lectern.FileTree

namespace Lectern.Site
open Text Logged FileTree

variable {here : List Text} {input output p : Path} {t t' : FileTree} {done done' : Built}
  {ms ms' : List Message} {W : List Text → Prop}

theorem put_eq_ok {text : Text} : put t here p text = .ok t' ↔
    ∃ mid, t.makeFolders here p.parent = .ok mid ∧ mid.write here p (encode text) = .ok t' := by
  unfold put
  cases t.makeFolders here p.parent with
  | error e =>
    constructor
    · intro h
      cases h
    · rintro ⟨mid, h, -⟩
      cases h
  | ok mid =>
    constructor
    · intro h
      exact ⟨mid, rfl, h⟩
    · rintro ⟨mid', h, hw⟩
      obtain rfl := Except.ok.inj h
      exact hw

/-- A page that is put somewhere stands there. -/
theorem changed_put {text : Text} (h : t.Ready here) (hp : put t here p text = .ok t') (hw : W (p.resolve here)) :
    Changed [] W t t' ∧ t'.node? (p.resolve here) = some (.file (encode text)) := by
  obtain ⟨mid, hm, hp⟩ := put_eq_ok.mp hp
  obtain ⟨hc, -⟩ := h.makeFolders (W := W) hm
  obtain ⟨hc', hn⟩ := (h.later hc).write hp hw
  exact ⟨hc.trans hc', hn⟩

theorem changed_compileOne {c : Compiler} {source : Path} (h : done.files.Ready c.here)
    (hs : compileOne c input output done source ms = (.ok done', ms')) :
    Changed [] (fun _ => True) done.files done'.files := by
  rw [compileOne_eq] at hs
  split at hs
  · split at hs
    · cases hs
      exact .refl h.isTree
    · cases hs
  · split at hs
    · cases hs
    · rename_i files hp
      cases hs
      exact (changed_put h hp trivial).1

theorem changed_copyStatic (h : done.files.Ready here)
    (hs : copyStatic here input output done p ms = (.ok done', ms')) :
    Changed [] (fun _ => True) done.files done'.files ∧
      ∃ q, (q = output.join p ∨ q = (output.join p).child (input.join p).name) ∧
        ∃ b, done'.files.node? (q.resolve here) = some (.file b) := by
  obtain ⟨mid, files, hm, hf, rfl, rfl⟩ := copyStatic_eq_ok.mp hs
  obtain ⟨hc, -⟩ := h.makeFolders (W := fun _ => True) hm
  obtain ⟨hc', hn⟩ := (h.later hc).copyFile (W := fun _ => True) hf trivial
  refine ⟨hc.trans hc', mid.copyTarget here (input.join p) (output.join p), ?_, hn⟩
  unfold copyTarget
  split
  · exact .inr rfl
  · exact .inl rfl

theorem changed_copyAsset {folder : Path} (h : done.files.Ready here)
    (hs : copyAsset here output done folder ms = (.ok done', ms')) :
    Changed [] (fun _ => True) done.files done'.files := by
  obtain ⟨files, hc, rfl, -⟩ := copyAsset_eq_ok.mp hs
  exact h.copied hc

theorem changed_writeSheet {theme : Theme} (h : done.files.Ready here)
    (hs : writeSheet theme here output done ms = (.ok done', ms')) :
    Changed [] (fun _ => True) done.files done'.files := by
  obtain ⟨mid, sheet, t, hm, -, hw, rfl, -⟩ := writeSheet_eq_ok.mp hs
  obtain ⟨hc, -⟩ := h.makeFolders (W := fun _ => True) hm
  exact hc.trans ((h.later hc).write hw trivial).1

/-- A fold of steps that only add. -/
theorem changed_foldlM {α : Type} {step : Built → α → Logged Fault Built} {l : List α}
    (hstep : ∀ done a done' ms ms', a ∈ l → done.files.Ready here → step done a ms = (.ok done', ms') →
      Changed [] (fun _ => True) done.files done'.files)
    (h : done.files.Ready here) (hl : l.foldlM step done ms = (.ok done', ms')) :
    Changed [] (fun _ => True) done.files done'.files :=
  Logged.foldlM_keeps (P := fun d => Changed [] (fun _ => True) done.files d.files)
    (fun b a b' ms ms' ha hb hs => hb.trans (hstep b a b' ms ms' ha (h.later hb) hs)) (.refl h.isTree) hl

namespace Course
variable {order : Order} {theme : Theme} {files : FileTree}

theorem ready (course : Course order theme files here ms done ms') (h : files.Ready here) :
    Changed [] (fun _ => True) files course.start ∧ course.start.Ready here := by
  obtain ⟨hc, -⟩ := h.makeFolders (W := fun _ => True) course.made
  exact ⟨hc, h.later hc⟩

theorem changed_compiled (course : Course order theme files here ms done ms') (h : files.Ready here) :
    Changed [] (fun _ => True) course.start course.compiled.files :=
  changed_foldlM (fun _ _ _ _ _ _ hr hs => changed_compileOne hr hs)
    (show ({ files := course.start } : Built).files.Ready here from (course.ready h).2) course.compiles

theorem changed_copied (course : Course order theme files here ms done ms') (h : files.Ready here) :
    Changed [] (fun _ => True) course.compiled.files course.copied.files := by
  obtain ⟨ms₁, hc, -⟩ := copyStatics_eq_ok.mp course.copies
  exact changed_foldlM (fun _ _ _ _ _ _ hr hs => (changed_copyStatic hr hs).1)
    ((course.ready h).2.later (course.changed_compiled h)) hc

theorem changed_dressed (course : Course order theme files here ms done ms') (h : files.Ready here) :
    Changed [] (fun _ => True) course.copied.files course.dressed.files := by
  obtain ⟨folders, -, hc⟩ := copyAssets_eq_ok.mp course.dresses
  exact changed_foldlM (fun _ _ _ _ _ _ hr hs => changed_copyAsset hr hs)
    (((course.ready h).2.later (course.changed_compiled h)).later (course.changed_copied h)) hc

theorem changed_done (course : Course order theme files here ms done ms') (h : files.Ready here) :
    Changed [] (fun _ => True) course.dressed.files done.files :=
  changed_writeSheet ((((course.ready h).2.later (course.changed_compiled h)).later (course.changed_copied h)).later
    (course.changed_dressed h)) course.writes

end Course
end Lectern.Site
