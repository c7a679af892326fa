import Lectern.Proofs.Site.Survival

/-!
# A document that fails alone

A document whose fault goes by a label is reported, and the build goes on: every other document has its page,
the static files are copied, and the report names the documents that failed and no others (`fails_alone`).  A
fault without a label, or a page that cannot be written, stops the build instead (`stopped_by_rejection`).
-/

namespace Lectern.Site
open Text Logged FileTree

variable {order : Order} {theme : Theme} {here root notes themed : List Text} {output : Path}
  {t : FileTree} {done done' : Built} {ms ms' : List Message} {c : Compiler}

namespace Layout

/-- Two static files do not land at the same place. -/
theorem eq_of_lands (h : Layout order theme here output root notes themed t) {names names' : List Text} {b b' : Bytes}
    (hn : t.node? (notes ++ names) = some (.file b)) (hn' : t.node? (notes ++ names') = some (.file b')) {q : List Text}
    (hq : Lands root names q) (hq' : Lands root names' q) : names = names' := by
  -- a file does not stand in another file
  have hbelow {names names' : List Text} {b b' : Bytes} {last : Text} (hn : t.node? (notes ++ names) = some (.file b))
      (hn' : t.node? (notes ++ names') = some (.file b')) (he : root ++ names = root ++ names' ++ [last]) : False := by
    rw [List.append_assoc] at he
    rw [List.append_cancel_left he, ← List.append_assoc] at hn
    have hfolder := h.ofNotes.isTree.parent hn
    rw [hn'] at hfolder
    cases hfolder
  rcases hq with rfl | ⟨last, -, rfl⟩
  · rcases hq' with he | ⟨last', -, he⟩
    · exact List.append_cancel_left he
    · exact (hbelow hn hn' he).elim
  · rcases hq' with he | ⟨last', -, he⟩
    · exact (hbelow hn' hn he.symm).elim
    · exact List.append_cancel_left (List.append_inj_left' he rfl)

/-- Static files after one another hold what they held in the folder of the notes. -/
theorem static_of_foldlM {ps : List Path} (h : Layout order theme here output root notes themed done.files)
    (hps : ∀ p ∈ ps, ∃ names last, p = ⟨[], names ++ [last]⟩ ∧ ∀ n ∈ names ++ [last], Path.IsName n)
    (hs : ps.foldlM (copyStatic here order.input output) done ms = (.ok done', ms')) :
    Changed root (fun _ => True) done.files done'.files ∧ done'.copied = done.copied + ps.length ∧
      done'.failures = done.failures ∧ done'.pages = done.pages ∧
      ∀ p ∈ ps, ∃ b q, done.files.node? (notes ++ p.parts) = some (.file b) ∧ Lands root p.parts q ∧
        done'.files.node? q = some (.file b) := by
  induction ps generalizing done ms with
  | nil =>
    cases hs
    exact ⟨.refl h.ofNotes.isTree, rfl, rfl, rfl, fun p hp => absurd hp List.not_mem_nil⟩
  | cons p ps ih =>
    rw [List.foldlM_cons] at hs
    obtain ⟨done₁, ms₁, h₁, hrest⟩ := bind_eq_ok.mp hs
    obtain ⟨⟨names, last, rfl, hn⟩, hothers⟩ := List.forall_mem_cons.mp hps
    obtain ⟨hc, b, hb, q, hq, hnode⟩ := h.changed_copyStatic (W := fun _ => True) hn h₁ fun _ _ _ _ => trivial
    have hlay := h.later hc
    have hsame {names : List Text} : done₁.files.node? (notes ++ names) = done.files.node? (notes ++ names) :=
      (h.ofNotes.alike hc).below.node? (List.prefix_append _ _)
    obtain ⟨hrestc, hcopied, hfailures, hpages, hfiles⟩ := ih hlay hothers hrest
    have hfiles' : ∀ p ∈ ps, ∃ b q, done.files.node? (notes ++ p.parts) = some (.file b) ∧ Lands root p.parts q ∧
        done'.files.node? q = some (.file b) := fun p hp => by
      obtain ⟨b, q, hb, hq, hnode⟩ := hfiles p hp
      exact ⟨b, q, hsame ▸ hb, hq, hnode⟩
    obtain ⟨mid, files, -, -, rfl, -⟩ := copyStatic_eq_ok.mp h₁
    refine ⟨hc.trans hrestc, ?_, hfailures, hpages, List.forall_mem_cons.mpr ⟨?_, hfiles'⟩⟩
    · rw [hcopied, List.length_cons]
      dsimp only
      omega
    · -- whatever lands here later is the same file
      by_cases hlater : ∃ p ∈ ps, (∃ b, files.node? (notes ++ p.parts) = some (.file b)) ∧ Lands root p.parts q
      · obtain ⟨p, hp, ⟨b', hb'⟩, hq'⟩ := hlater
        rw [hsame] at hb'
        obtain ⟨b'', q'', hb'', hq'', hnode''⟩ := hfiles' p hp
        rw [h.eq_of_lands hb' hb hq' hq] at hb'' hq''
        exact ⟨b'', q'', hb'', hq'', hnode''⟩
      · exact ⟨b, q, hb, hq, (hlay.changed_foldlM_copyStatic hothers hrest).contents hnode hlater⟩

/-- The page of a document is written in its turn, and is a file to the end. -/
theorem page_of_turn {sources : List Path} (h : Layout order theme here output root notes themed done.files)
    (hhere : c.here = here) (hnames : ∀ p ∈ sources, ∃ names, p = ⟨[], names⟩ ∧ ∀ n ∈ names, Path.IsName n)
    (hs : sources.foldlM (compileOne c order.input output) done ms = (.ok done', ms')) {t : Turn}
    (ht : t ∈ turns c order.input output done ms sources) {d : Document} (hd : t.verdict c order.input = .ok d) :
    ∃ files, put t.files here (output.join d.path) d.html = .ok files ∧
      files.node? (root ++ d.path.parts) = some (.file (encode d.html)) ∧ files.Grows done'.files := by
  induction sources generalizing done ms with
  | nil => exact absurd ht List.not_mem_nil
  | cons p sources ih =>
    rw [List.foldlM_cons] at hs
    obtain ⟨done₁, ms₁, h₁, hrest⟩ := bind_eq_ok.mp hs
    obtain ⟨⟨names, rfl, hn⟩, hothers⟩ := List.forall_mem_cons.mp hnames
    obtain ⟨hc, hpage⟩ := h.changed_compileOne (W := fun _ => True) hhere hn h₁ fun _ _ => trivial
    rw [turns, h₁] at ht
    rcases List.mem_cons.mp ht with rfl | ht
    · have hgrows := ((h.later hc).changed_foldlM_compileOne hhere hothers hrest).grows
      obtain ⟨-, -, hnode⟩ := hpage d hd
      rw [compileOne_eq] at h₁
      unfold Turn.verdict at hd
      split at h₁
      · rename_i e ms₂ hv
        rw [hv] at hd
        cases hd
      · rename_i d' ms₂ hv
        rw [hv] at hd
        cases hd
        split at h₁
        · cases h₁
        · rename_i files hp
          cases h₁
          exact ⟨files, hhere ▸ hp, hnode, hgrows⟩
    · exact ih (h.later hc) hothers hrest ht

end Layout

/-- What a build that comes to its end has done with its documents, which had their turns, and with the static
files. -/
structure DealtWith (order : Order) (theme : Theme) (here root notes themed : List Text) (output : Path)
    (start : FileTree) (c : Compiler) (taken : List Turn) (done : Built) : Prop where
  /-- No document had a fault without a label. -/
  labelled : ∀ t ∈ taken, ∀ e, t.verdict c order.input = .error e → ∃ label, e.label? = some label
  failures : done.failures = taken.filterMap (Turn.failure? c order.input)
  pages : done.pages = taken.filterMap (Turn.page? c order.input)
  /-- The page of a document was written in its turn, and a file stands there. -/
  written : ∀ t ∈ taken, ∀ d, t.verdict c order.input = .ok d →
    ∃ files, put t.files here (output.join d.path) d.html = .ok files ∧
      files.node? (root ++ d.path.parts) = some (.file (encode d.html)) ∧
      ∃ b, done.files.node? (root ++ d.path.parts) = some (.file b)
  count : done.copied = (statics order.settings start here order.input).length
  /-- A static file holds what it held, unless a file of the theme or the style sheet lands there. -/
  copied : ∀ s ∈ statics order.settings start here order.input, ∃ b q,
    start.node? (notes ++ s.parts) = some (.file b) ∧ Lands root s.parts q ∧
      (done.files.node? q = some (.file b) ∨ AssetAt theme root themed start q ∨ q = root ++ sheetPlace)
  good : (Outcome.built done).isGood = true ↔ ∀ t ∈ taken, ∃ d, t.verdict c order.input = .ok d

/-- A document that fails fails alone.  All documents get dealt with if and only if no turn stops: no document has
a fault that goes by no label, or a page that cannot be written.  A build that comes to its end gave every document
its turn; the ones that failed are reported, all of them and no others; every other one had its page written, and
the static files were copied.  The build ends well if no document failed. -/
theorem fails_alone {files start : FileTree} {found : List Path} {labels : List (Text × Text)}
    (houtput : order.output? = some output) (hmade : files.makeFolders here output = .ok start)
    (hfound : sources order.settings start here order.input = .ok found) (hlabels : theme.labels = .ok labels)
    (hlayout : Layout order theme here output root notes themed start) :
    let c := compilerOf order theme labels start here
    let opened := ms ++ opening theme output found.length
    let taken := turns c order.input output { files := start } opened found
    ((∃ compiled ms₁, compileAll c order.input output found opened = (.ok compiled, ms₁)) ↔
      ∀ t ∈ taken, ¬ t.Stops c order.input output) ∧
    ∀ done ms', buildWith order theme files here ms = (.ok done, ms') →
      taken.map Turn.source = found ∧ DealtWith order theme here root notes themed output start c taken done := by
  intro c opened taken
  refine ⟨foldlM_eq_ok_iff, fun done ms' hrun => ?_⟩
  obtain ⟨course⟩ := buildWith_eq_ok.mp hrun
  obtain rfl : output = course.output := Option.some.inj (houtput.symm.trans course.hasOutput)
  obtain rfl : start = course.start := Except.ok.inj (hmade.symm.trans course.made)
  obtain rfl : found = course.found := Except.ok.inj (hfound.symm.trans course.searched)
  obtain rfl : labels = course.labels := Except.ok.inj (hlabels.symm.trans course.labelled)
  have hcompiles : course.found.foldlM (compileOne c order.input course.output) { files := course.start } opened
      = (.ok course.compiled, course.journals.1) := course.compiles
  obtain ⟨hsources, hfailures, hpages, hcopied⟩ := turns_of_foldlM hcompiles
  -- the static files are those that were there at the start
  have hc := course.changed_start_compiled hlayout
  have hlay := hlayout.later hc
  obtain ⟨ms₁, hstatics, -⟩ := copyStatics_eq_ok.mp course.copies
  rw [statics_of_alike (hlayout.ofNotes.alike hc)] at hstatics
  obtain ⟨hc', hcount, hfailures', hpages', hheld⟩ := hlay.static_of_foldlM
    (fun p hp => exists_of_mem_statics hlayout.ofNotes.source hlayout.ofNotes.below hp) hstatics
  obtain ⟨hf, hp, hn⟩ := course.counts
  have hrest : course.copied.files.Grows done.files :=
    ((hlay.later hc').changed_copyAssets course.dresses).grows.trans
      (((hlay.later hc').later ((hlay.later hc').changed_copyAssets course.dresses)).changed_writeSheet
        (W := fun _ => True) course.writes trivial).grows
  have hlabel : ∀ t ∈ taken, ∀ e, t.verdict c order.input = .error e → ∃ label, e.label? = some label :=
    fun t ht e he => by
      have hs := foldlM_eq_ok_iff.mp ⟨_, _, hcompiles⟩ t ht
      rw [Turn.stops_iff_of_error he] at hs
      exact Option.ne_none_iff_exists'.mp hs
  have hall : done.failures = taken.filterMap (Turn.failure? c order.input) := (hf.trans hfailures').trans hfailures
  refine ⟨hsources, hlabel, hall, (hp.trans hpages').trans hpages, fun t ht d hd => ?_, ?_, fun s hs => ?_, ?_⟩
  · obtain ⟨files, hput, hnode, hgrows⟩ := hlayout.page_of_turn rfl (course.names_of_found hlayout) hcompiles ht hd
    exact ⟨files, hput, hnode, ((hgrows.trans hc'.grows).trans hrest).file hnode⟩
  · rw [hn, hcount, hcopied]
    exact Nat.zero_add _
  · obtain ⟨b, q, hb, hq, hnode⟩ := hheld s hs
    rw [(hlayout.ofNotes.alike hc).below.node? (List.prefix_append _ _)] at hb
    exact ⟨b, q, hb, hq, course.stands_of_copied hlayout hnode⟩
  · rw [isGood_built_iff, hall, List.filterMap_eq_nil_iff]
    refine forall₂_congr fun t ht => ?_
    cases hv : t.verdict c order.input with
    | ok d => exact ⟨fun _ => ⟨d, rfl⟩, fun _ => Turn.failure?_of_ok hv⟩
    | error e =>
      obtain ⟨label, hl⟩ := hlabel t ht e hv
      rw [Turn.failure?_of_error hv, hl]
      exact ⟨fun h => (nomatch h), fun ⟨d, hd⟩ => (nomatch hd)⟩

section
set_option maxRecDepth 10000

/-- The turns where the first document is no text. -/
theorem turns_unreadable (ms : List Message) : ∃ e ms₁,
    turns (smallCompiler (smallStart [0xff])) smallOrder.input ⟨[], [['s']]⟩ { files := smallStart [0xff] } ms
      [⟨[], ["0.md".toList]⟩, ⟨[], ["a.md".toList]⟩] =
      [⟨⟨[], ["0.md".toList]⟩, smallStart [0xff], ms ++ [announce ⟨[], ["0.md".toList]⟩]⟩,
        ⟨⟨[], ["a.md".toList]⟩, smallStart [0xff], ms₁⟩] ∧
    (∀ ms, Turn.verdict (smallCompiler (smallStart [0xff])) smallOrder.input
      ⟨⟨[], ["0.md".toList]⟩, smallStart [0xff], ms⟩ = .error (.unreadable (.encoding e))) ∧
    ∀ ms, Turn.verdict (smallCompiler (smallStart [0xff])) smallOrder.input
      ⟨⟨[], ["a.md".toList]⟩, smallStart [0xff], ms⟩ = .ok ⟨⟨[], ["a.html".toList]⟩, ['A'], [], ['A']⟩ := by
  obtain ⟨e, hfirst⟩ : ∃ e, ∀ ms, (smallCompiler (smallStart [0xff])).compileFile
      (smallOrder.input.join ⟨[], ["0.md".toList]⟩) smallOrder.input ms = (.error (.unreadable (.encoding e)), ms) :=
    ⟨_, fun _ => rfl⟩
  have hsecond := compileFile_small (smallStart [0xff]) (.inr rfl) rfl
  obtain ⟨done, ms₁, h₁, hdone⟩ : ∃ done ms₁, compileOne (smallCompiler (smallStart [0xff])) smallOrder.input
      ⟨[], [['s']]⟩ { files := smallStart [0xff] } ⟨[], ["0.md".toList]⟩ ms = (.ok done, ms₁) ∧
        done.files = smallStart [0xff] := by
    rw [compileOne_eq, show ({ smallCompiler (smallStart [0xff]) with files := smallStart [0xff] } : Compiler)
      = smallCompiler (smallStart [0xff]) from rfl, hfirst]
    exact ⟨_, _, rfl, rfl⟩
  refine ⟨e, ms₁ ++ [announce ⟨[], ["a.md".toList]⟩], ?_, fun ms => congrArg Prod.fst (hfirst ms),
    fun ms => congrArg Prod.fst (hsecond ms)⟩
  rw [turns, h₁]
  dsimp only
  rw [turns_singleton, hdone]

/-- In such a site the first document is reported, and the second one has its page. -/
theorem fails_alone_unreadable : ∃ compiled ms,
    compileAll (smallCompiler (smallStart [0xff])) smallOrder.input ⟨[], [['s']]⟩
      [⟨[], ["0.md".toList]⟩, ⟨[], ["a.md".toList]⟩] ([] ++ opening smallTheme ⟨[], [['s']]⟩ 2) = (.ok compiled, ms) ∧
    compiled.failures.map Prod.fst = [⟨[], ["0.md".toList]⟩] ∧ compiled.pages = [⟨[], ["a.html".toList]⟩] := by
  obtain ⟨e, ms₁, hturns, hfirst, hsecond⟩ := turns_unreadable ([] ++ opening smallTheme ⟨[], [['s']]⟩ 2)
  have hstops : (∃ compiled ms₁, compileAll (smallCompiler (smallStart [0xff])) smallOrder.input ⟨[], [['s']]⟩
      [⟨[], ["0.md".toList]⟩, ⟨[], ["a.md".toList]⟩] ([] ++ opening smallTheme ⟨[], [['s']]⟩ 2) = (.ok compiled, ms₁)) ↔
      ∀ t ∈ turns (smallCompiler (smallStart [0xff])) smallOrder.input ⟨[], [['s']]⟩ { files := smallStart [0xff] }
        ([] ++ opening smallTheme ⟨[], [['s']]⟩ 2) [⟨[], ["0.md".toList]⟩, ⟨[], ["a.md".toList]⟩],
        ¬ t.Stops (smallCompiler (smallStart [0xff])) smallOrder.input ⟨[], [['s']]⟩ :=
    (fails_alone rfl (made_smallSite [0xff]) (sources_smallStart [0xff]) labels_smallTheme (layout_smallSite [0xff])).1
  obtain ⟨compiled, ms, hcompiles⟩ := hstops.mpr (by
    rw [hturns]
    refine List.forall_mem_cons.mpr ⟨?_, List.forall_mem_cons.mpr ⟨?_, fun t ht => absurd ht List.not_mem_nil⟩⟩
    · rw [Turn.stops_iff_of_error (hfirst _)]
      exact Option.some_ne_none _
    · rw [Turn.stops_iff_of_ok (hsecond _)]
      rintro ⟨fault, hput⟩
      cases hput)
  have hfold : [⟨[], ["0.md".toList]⟩, ⟨[], ["a.md".toList]⟩].foldlM
      (compileOne (smallCompiler (smallStart [0xff])) smallOrder.input ⟨[], [['s']]⟩) { files := smallStart [0xff] }
      ([] ++ opening smallTheme ⟨[], [['s']]⟩ 2) = (.ok compiled, ms) := hcompiles
  obtain ⟨-, hfailures, hpages, -⟩ := turns_of_foldlM hfold
  refine ⟨compiled, ms, hcompiles, ?_, ?_⟩
  · rw [hfailures, hturns, List.filterMap_cons_some ((Turn.failure?_of_error (hfirst _)).trans rfl),
      List.filterMap_cons_none (Turn.failure?_of_ok (hsecond _))]
    rfl
  · rw [hpages, hturns, List.filterMap_cons_none (Turn.page?_of_error (hfirst _)),
      List.filterMap_cons_some (Turn.page?_of_ok (hsecond _))]
    rfl

/-- A document that holds a marked section for which the reader of markup has no use. -/
def rejected : Text := "<div><![foo[bar]]></div>".toList

theorem render_rejected (ms : List Message) : Markdown.render [] rejected ms = (.ok rejected, ms) := by
  have hblocks : Markdown.parseBlocks (Markdown.normalized rejected) = .ok [.markup rejected] := rfl
  have hnotes : Markdown.captionNotes [.markup rejected] = [] := by decide +kernel
  have hshown : Markdown.Block.renderAll (Markdown.Block.definitionsAll [.markup rejected]) [] false false
      [.markup rejected] = rejected := by decide +kernel
  unfold Markdown.render
  rw [hblocks]
  dsimp only
  rw [hnotes, hshown]
  rfl

theorem parse_rejected : ∃ e, Html.Node.parse ("<body>".toList ++ rejected ++ "</body>".toList) = .error e := by
  have hbad : (Html.Node.parse ("<body>".toList ++ rejected ++ "</body>".toList)).toBool = false := by decide +kernel
  cases h : Html.Node.parse ("<body>".toList ++ rejected ++ "</body>".toList) with
  | error e => exact ⟨e, rfl⟩
  | ok nodes =>
    rw [h] at hbad
    cases hbad
/-- A document with such markup stops the build, though the other one has its page. -/
theorem stopped_by_rejection : ∃ e ms d ms₁,
    compileAll (smallCompiler (smallStart (encode rejected))) smallOrder.input ⟨[], [['s']]⟩
      [⟨[], ["0.md".toList]⟩, ⟨[], ["a.md".toList]⟩] [] = (.error (.document (.markup e)), ms) ∧
    (smallCompiler (smallStart (encode rejected))).compileFile (smallOrder.input.join ⟨[], ["a.md".toList]⟩)
      smallOrder.input [] = (.ok d, ms₁) ∧
    ∀ done ms', buildWith smallOrder smallTheme (smallSite (encode rejected)) [] [] ≠ (.ok done, ms') := by
  obtain ⟨e, hparsed⟩ := parse_rejected
  have hrejected (ms : List Message) : (smallCompiler (smallStart (encode rejected))).compileFile
      (smallOrder.input.join ⟨[], ["0.md".toList]⟩) smallOrder.input ms = (.error (.markup e), ms) := by
    have hread : (smallStart (encode rejected)).readText [] (smallOrder.input.join ⟨[], ["0.md".toList]⟩)
      = .ok rejected := rfl
    rw [compileFile_of_noReference hread (by decide) (relativeTo?_join _ ["0.md".toList])]
    unfold Compiler.compileText
    refine (bind_of_ok (show _ = (Except.ok rejected, ms) from ?_)).trans ?_
    · unfold Logged.mapError
      dsimp only [smallCompiler, compilerOf]
      rw [render_rejected]
    · dsimp only
      rw [hparsed]
      rfl
  have hturn (ms : List Message) : compileOne (smallCompiler (smallStart (encode rejected))) smallOrder.input
      ⟨[], [['s']]⟩ { files := smallStart (encode rejected) } ⟨[], ["0.md".toList]⟩ ms
      = (.error (.document (.markup e)), ms ++ [announce ⟨[], ["0.md".toList]⟩]) := by
    rw [compileOne_eq, show ({ smallCompiler (smallStart (encode rejected)) with files := smallStart (encode rejected) } :
      Compiler) = smallCompiler (smallStart (encode rejected)) from rfl, hrejected]
    rfl
  have hstopped (ms : List Message) : compileAll (smallCompiler (smallStart (encode rejected))) smallOrder.input
      ⟨[], [['s']]⟩ [⟨[], ["0.md".toList]⟩, ⟨[], ["a.md".toList]⟩] ms
      = (.error (.document (.markup e)), ms ++ [announce ⟨[], ["0.md".toList]⟩]) := by
    unfold compileAll
    rw [List.foldlM_cons]
    exact bind_of_error (hturn ms)
  refine ⟨e, _, _, _, hstopped [], compileFile_small (smallStart (encode rejected)) (.inr rfl) rfl [],
    fun done ms' hrun => ?_⟩
  obtain ⟨course⟩ := buildWith_eq_ok.mp hrun
  have hcompiles := course.compiles
  obtain hout : ⟨[], [['s']]⟩ = course.output := Option.some.inj course.hasOutput
  obtain hstart : smallStart (encode rejected) = course.start :=
    Except.ok.inj ((hout ▸ made_smallSite (encode rejected)).symm.trans course.made)
  obtain hfound : [⟨[], ["0.md".toList]⟩, ⟨[], ["a.md".toList]⟩] = course.found :=
    Except.ok.inj ((hstart ▸ sources_smallStart (encode rejected)).symm.trans course.searched)
  obtain hlabels : [] = course.labels := Except.ok.inj (labels_smallTheme.symm.trans course.labelled)
  rw [← hout, ← hstart, ← hfound, ← hlabels, show compilerOf smallOrder smallTheme [] (smallStart (encode rejected)) []
    = smallCompiler (smallStart (encode rejected)) from rfl, hstopped] at hcompiles
  cases hcompiles

end

end Lectern.Site
