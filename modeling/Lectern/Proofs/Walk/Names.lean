import Lectern.Proofs.Markdown.Paged
import Lectern.Proofs.Walk.Images
import Lectern.Proofs.Walk.Video

/-!
# Names on their way to a page

A page of notes may hold nothing but names, each behind the sigil that takes it.  What a name goes through is the
reading of blocks and of running text, typography, markup and its reading, and the walk; a name that running text
leaves alone arrives as it was written.

* `parse_paragraphs`   the tree of a page of paragraphs;
* `Arrived`            what the walk makes of a paragraph with a name;
* `arrived`            the page that the names end up on;
* `names_arrive`       what becomes of a page of names.
-/

namespace Lectern.Page
open Text Html Html.Node Markdown

/-! ## the tree of the page -/

theorem reads_paragraph {t : Text} (h : ∀ c ∈ t, isPlain c = true) (hne : t ≠ []) :
    Reads (Markdown.element "p" [] t)
      [.opening "p".toList [] false, .text t, .closing "p".toList, .text ['\n']] := by
  have hname : IsName "p".toList := ⟨rfl, rfl, by decide⟩
  have hopen : Reads ("<p>".toList) [.opening "p".toList [] false] :=
    reads_opening hname (by decide) .nil .plain
  have hclose : Reads ("</p>".toList) [.closing "p".toList] := reads_closing hname
  have hend : Reads ['\n'] [.text ['\n']] := reads_plain rfl
  have hall := ((hopen.append (reads_text h hne)).append hclose).append hend
  have heq : Markdown.element "p" [] t = "<p>".toList ++ t ++ "</p>".toList ++ ['\n'] := by
    simp [Markdown.element]
  rw [heq]
  exact hall

/-- The body of a page stands open and holds some nodes, last first. -/
def InBody (b : Builder) (held : List Node) : Prop :=
  ∃ k, b.flush = { open_ := [⟨.of "body" [], held⟩], opened := k }

theorem InBody.paragraph {b : Builder} {held : List Node} (hb : InBody b held) {t : Text}
    (ht : t.all Builder.isPlainBlank = false) :
    ∃ tag : Tag, tag.name = "p".toList ∧ tag.spent = false ∧
      InBody ([.opening "p".toList [] false, .text t, .closing "p".toList, .text ['\n']].foldl Builder.step b)
        (.text ['\n'] :: .element tag [.text t] :: held) := by
  obtain ⟨k, hk⟩ := hb
  refine ⟨Tag.of "p" [] 0 k, rfl, rfl, k + 1, ?_⟩
  have hopen : b.step (.opening "p".toList [] false) =
      { open_ := [⟨Tag.of "p" [] 0 k, []⟩, ⟨.of "body" [], held⟩], opened := k + 1 } := by
    rw [Builder.step, Builder.opening_open (by decide), hk]
    rfl
  have hshrunk (b : Builder) : b.shrunk t = t := by
    rw [Builder.shrunk, ht, Bool.and_false, if_neg Bool.false_ne_true]
  have hclose : ({ open_ := [⟨Tag.of "p" [] 0 k, []⟩, ⟨.of "body" [], held⟩], opened := k + 1, pending := some t } :
      Builder).closing "p".toList =
      { open_ := [⟨.of "body" [], .element (Tag.of "p" [] 0 k) [.text t] :: held⟩], opened := k + 1 } := by
    rw [Builder.closing, if_neg (by simp), Builder.close, Builder.flush, Builder.flushAs]
    simp only [hshrunk]
    rfl
  rw [List.foldl_cons, hopen, List.foldl_cons, List.foldl_cons]
  show ((Builder.closing _ { open_ := _, opened := _, pending := some t }).step (.text ['\n'])).flush = _
  rw [hclose]
  rfl

/-- Paragraphs, each with the end of its line. -/
inductive Paragraphs : List Text → List Node → Prop where
  | nil : Paragraphs [] []
  | cons {t : Text} {ts : List Text} {tag : Tag} {ns : List Node} (hn : tag.name = "p".toList)
    (hs : tag.spent = false) (h : Paragraphs ts ns) :
    Paragraphs (t :: ts) (.element tag [.text t] :: .text ['\n'] :: ns)

theorem InBody.paragraphs {ts : List Text} (h : ∀ t ∈ ts, t.all Builder.isPlainBlank = false) {b : Builder}
    {held : List Node} (hb : InBody b held) : ∃ ns, Paragraphs ts ns ∧
      InBody ((ts.flatMap fun t => [.opening "p".toList [] false, .text t, .closing "p".toList, .text ['\n']]).foldl
        Builder.step b) (ns.reverse ++ held) := by
  induction ts generalizing b held with
  | nil => exact ⟨[], .nil, hb⟩
  | cons t ts ih =>
    obtain ⟨tag, hn, hs, hb'⟩ := hb.paragraph (h t List.mem_cons_self)
    obtain ⟨ns, hns, hb''⟩ := ih (fun u hu => h u (List.mem_cons_of_mem _ hu)) hb'
    refine ⟨_, .cons hn hs hns, ?_⟩
    rw [List.flatMap_cons, List.foldl_append]
    simpa using hb''

/-- The tree of a page of paragraphs. -/
theorem parse_paragraphs {ts : List Text} (h : ∀ t ∈ ts, t ≠ [] ∧ ∀ c ∈ t, isPlain c = true)
    (hb : ∀ t ∈ ts, t.all Builder.isPlainBlank = false) : ∃ tag ns, Paragraphs ts ns ∧
      Node.parse ("<body>".toList ++ ts.flatMap (Markdown.element "p" []) ++ "</body>".toList) =
        .ok [.element tag ns] := by
  have hname : IsName "body".toList := ⟨rfl, rfl, by decide⟩
  have hopen : Reads ("<body>".toList) [.opening "body".toList [] false] :=
    reads_opening hname (by decide) .nil .plain
  have hclose : Reads ("</body>".toList) [.closing "body".toList] := reads_closing hname
  have hinside : Reads (ts.flatMap (Markdown.element "p" []))
      (ts.flatMap fun t => [.opening "p".toList [] false, .text t, .closing "p".toList, .text ['\n']]) := by
    induction ts with
    | nil => exact reads_nil
    | cons t ts ih =>
      obtain ⟨hne, hplain⟩ := h t List.mem_cons_self
      exact (reads_paragraph hplain hne).append
        (ih (fun u hu => h u (List.mem_cons_of_mem _ hu)) fun u hu => hb u (List.mem_cons_of_mem _ hu))
  obtain ⟨b₀, hb₀⟩ : ∃ b, [.opening "body".toList [] false].foldl Builder.step {} = b := ⟨_, rfl⟩
  have hbody : InBody b₀ [] := ⟨1, by rw [← hb₀]; rfl⟩
  obtain ⟨ns, hns, k, hk⟩ := hbody.paragraphs hb
  refine ⟨.of "body" [], ns, hns, ?_⟩
  rw [parse_eq_read, ((hopen.append hinside).append hclose).read, List.foldl_append, List.foldl_append,
    hb₀]
  generalize (ts.flatMap _).foldl Builder.step b₀ = b at hk
  have hvoids : b.closedVoids = [] := by rw [← Builder.flush_closedVoids, hk]
  have hend : ([.closing "body".toList].foldl Builder.step b).finish = [.element (.of "body" []) ns] := by
    show (b.closing "body".toList).finish = _
    rw [Builder.closing_eq hvoids, Builder.close_flush, hk, List.append_nil]
    show [Node.element _ ns.reverse.reverse] = _
    rw [List.reverse_reverse]
  exact congrArg Except.ok hend

/-! ## names and where they arrive -/

/-- A sigil that takes one name, and the name it is given. -/
structure Named where
  sigil : Sigil
  name : Text

/-- The paragraph of a name. -/
def Named.line (e : Named) : Text := e.sigil.mark ++ e.name

/-- The sigil takes one name, and running text leaves the name alone. -/
def Named.isKept (e : Named) : Bool := [Sigil.lecture, .video, .anchor].contains e.sigil && isInert e.name

/-- The path of a video of this name. -/
def videoPath (settings : Settings) (name : Text) : Text := settings.videoDir ++ ['/'] ++ name

/-- The sources of the lecture video, in the order of the page. -/
def lectureSources (settings : Settings) (es : List Named) : List Node :=
  (es.filter (·.sigil = .lecture)).map fun e => sourceNode (videoPath settings e.name)

/-- What stands in place of the paragraphs, each with the end of its line; `lecture?` is the lecture video if it is
still to come. -/
def arrived (settings : Settings) (lecture? : Option Node) : List Named → List Node
  | [] => []
  | e :: es =>
    match e.sigil with
    | .lecture => lecture?.toList ++ .text ['\n'] :: arrived settings none es
    | .video =>
      figure "video" (.element (.made "video" [("src", videoPath settings e.name), ("controls", [])]) [])
        :: .text ['\n'] :: arrived settings lecture? es
    | _ => .element (.made "a" [("class", "anchor"), ("id", e.name)]) [] :: .text ['\n'] :: arrived settings lecture? es

/-- What the walk makes of the paragraph of a name behind a lecture video. -/
inductive Arrived (settings : Settings) (e : Named) : Node → Prop where
  | lecture {tag : Tag} (h : e.sigil = .lecture) (hn : tag.name = "p".toList) (hs : tag.spent = true) :
    Arrived settings e (.element tag [.text e.line])
  | video (h : e.sigil = .video) : Arrived settings e
    (figure "video" (.element (.made "video" [("src", videoPath settings e.name), ("controls", [])]) []))
  | anchor (h : e.sigil = .anchor) : Arrived settings e (.element (.made "a" [("class", "anchor"), ("id", e.name)]) [])

namespace Named
variable {e : Named}

theorem sigil_of_isKept (h : e.isKept = true) : e.sigil = .lecture ∨ e.sigil = .video ∨ e.sigil = .anchor := by
  have hs := (Bool.and_eq_true_iff.mp h).1
  simpa using hs

theorem isInert_of_isKept (h : e.isKept = true) : isInert e.name = true := (Bool.and_eq_true_iff.mp h).2

theorem isEntry_line (h : e.isKept = true) : isEntry e.line = true := by
  have hn : (true && isInert e.name) = true := isInert_of_isKept h
  rw [line]
  rcases sigil_of_isKept h with hs | hs | hs <;> rw [hs] <;> exact hn

/-- The name is a name of letters, digits, points, hyphens and underscores. -/
theorem calm (h : e.isKept = true) : ∀ c ∈ e.name, isFileChar c = true := by
  have hi := isInert_of_isKept h
  simp only [isInert, Bool.and_eq_true] at hi
  exact List.all_eq_true.mp hi.1.1.1.1

theorem exists_head (h : e.isKept = true) : ∃ d r, e.name = d :: r ∧ isLetterOrDigit d = true := by
  have hi := isInert_of_isKept h
  simp only [isInert, Bool.and_eq_true] at hi
  have hhead := hi.1.1.1.2
  cases hn : e.name with
  | nil =>
    rw [hn] at hhead
    exact Bool.noConfusion hhead
  | cons d r =>
    rw [hn] at hhead
    exact ⟨d, r, rfl, hhead⟩

theorem not_mem (h : e.isKept = true) {c : Char} (hc : isFileChar c = false) : c ∉ e.name := fun hm =>
  Bool.noConfusion ((calm h c hm).symm.trans hc)

theorem select?_line (h : e.isKept = true) : Sigil.select? Sigil.all e.line = some e.sigil := by
  obtain ⟨d, r, hname, hd⟩ := exists_head h
  have hne {c : Char} (hc : isLetterOrDigit c = false) : d ≠ c := fun he =>
    Bool.noConfusion ((he ▸ hd).symm.trans hc)
  have hcolon : ':' ≠ d := (hne (by decide)).symm
  have hpercent : '%' ≠ d := (hne (by decide)).symm
  have hat : '@' ≠ d := (hne (by decide)).symm
  rw [line, hname]
  rcases sigil_of_isKept h with hs | hs | hs <;> rw [hs] <;>
    simp [Sigil.select?, Sigil.all, Sigil.fires, Sigil.mark, Sigil.doubled, startsWith, stripPrefix?, hcolon, hpercent,
      hat]

theorem spells_self {t : Text} (h : '&' ∉ t) : Spells t t := by
  induction t with
  | nil => exact spells_nil
  | cons c t ih =>
    exact (spells_char fun hc => h (hc ▸ List.mem_cons_self)).append (ih fun hm => h (List.mem_cons_of_mem _ hm))

theorem strip_name (h : e.isKept = true) : strip e.name = e.name := by
  have hblank : ∀ c ∈ e.name, isBlank c = false := fun c hc =>
    isBlank_of_isCalm (by rw [isCalm, calm h c hc, Bool.true_or])
  rw [strip, stripLeft, dropWhile_none hblank, stripRight,
    dropWhile_none fun c hc => hblank c (List.mem_reverse.mp hc), List.reverse_reverse]

theorem unescape_name (h : e.isKept = true) : unescape (strip e.name) = .ok e.name := by
  rw [strip_name h]
  exact (spells_self (not_mem h (by decide))).unescape

theorem fields_name (h : e.isKept = true) : Sigil.video.fields e.name = .ok [e.name] := by
  have hname : splitOn ['%'] (strip e.name) = [e.name] := by
    rw [strip_name h]
    exact splitOn_of_not_mem (not_mem h (by decide))
  have hun := unescape_name h
  rw [strip_name h] at hun
  show (((splitOn ['%'] (strip e.name)).mapM unescape).mapError Sigil.FieldFault.number) = _
  rw [hname, List.mapM_cons, hun]
  rfl

theorem hasScheme_name (h : e.isKept = true) : Image.hasScheme e.name = false := by
  obtain ⟨d, r, hname, -⟩ := exists_head h
  have hcolon : ':' ∉ r := fun hm => not_mem h (c := ':') (by decide) (hname ▸ List.mem_cons_of_mem _ hm)
  rw [Image.hasScheme, hname, Image.afterScheme?]
  split
  · split
    · rename_i r' heq
      exact absurd ((List.dropWhile_sublist _).subset (heq ▸ List.mem_cons_self)) hcolon
    · rfl
  · rfl

end Named

/-! ## the walk -/

section
variable {c : Context} {e : Named} {tag : Tag} {p : Progress}

/-- The walk goes on behind a lecture video, and nothing waits for one. -/
structure Behind (p : Progress) : Prop where
  waiting : p.sources.waiting = []
  passed : p.sources.passed = true

theorem writeInner_line (h : e.isKept = true) (hn : tag.name = "p".toList) :
    (Node.element tag [.text e.line]).writeInner = e.line := by
  have hv : isVerbatim tag = false := by
    rw [isVerbatim, hn]
    decide
  obtain ⟨m, d, r, hshape⟩ := exists_entry (Named.isEntry_line h)
  rw [writeInner, writeAllIn, writeIn, hv, if_neg Bool.false_ne_true, writeAllIn, List.append_nil]
  exact flatMap_signs fun c hc =>
    forall_calm (p := fun c => Html.escapeChar c = [c]) (by decide +kernel) (hshape.calm c hc)

/-- The sigil acts on the paragraph. -/
theorem finishParagraph_line (hc : c.sigils = Sigil.all) (h : e.isKept = true) (hn : tag.name = "p".toList)
    (walk : List Node → Walk (List Node)) (p : Progress) (ms : List Message) :
    ∃ ms', finishParagraph c walk false tag [.text e.line] p ms =
      actOn c walk false tag [.text e.line] e.name e.sigil { p with taken := tag :: p.taken } ms' := by
  have hdrop : e.line.drop e.sigil.mark.length = e.name := List.drop_left
  have hselect : Sigil.select? c.sigils (Node.element tag [.text e.line]).writeInner = some e.sigil := by
    rw [hc, writeInner_line h hn, Named.select?_line h]
  obtain ⟨m, hm⟩ : ∃ m, Message.note 3 ("Sigil ".toList ++ e.sigil.name.toList ++ " on <".toList ++ tag.name ++ ['>'])
    = m := ⟨_, rfl⟩
  have htake : take tag p ms = ((.ok (), { p with taken := tag :: p.taken }), ms) := rfl
  have htell (p : Progress) : tell m p ms = ((.ok (), p), ms ++ [m]) := rfl
  refine ⟨ms ++ [m], ?_⟩
  rw [finishParagraph, bind_of_walk_ok htake]
  dsimp only
  rw [hselect]
  dsimp only
  rw [hm, bind_of_walk_ok (htell _), writeInner_line h hn, hdrop]

theorem readRemainder_name (h : e.isKept = true) (p : Progress) (ms : List Message) :
    readRemainder e.name p ms = ((.ok e.name, p), ms) := by
  rw [readRemainder, Named.unescape_name h]
  rfl

theorem videoNode_name (h : e.isKept = true) (settings : Settings) : videoNode settings [e.name] =
    figure "video" (.element (.made "video" [("src", videoPath settings e.name), ("controls", [])]) []) := by
  simp [videoNode, Named.hasScheme_name h, videoPath]

/-- What the sigil makes of the paragraph. -/
theorem actOn_line (h : e.isKept = true) (hn : tag.name = "p".toList) (walk : List Node → Walk (List Node))
    (hp : Behind p) (ms : List Message) :
    ∃ n p' ms', actOn c walk false tag [.text e.line] e.name e.sigil p ms = ((.ok n, p'), ms') ∧ Behind p' ∧
      Arrived c.appearance.settings e n := by
  rcases Named.sigil_of_isKept h with hs | hs | hs <;> rw [hs, actOn]
  · obtain ⟨address, ha⟩ : ∃ a, c.appearance.settings.videoDir ++ ['/'] ++ e.name = a := ⟨_, rfl⟩
    obtain ⟨m, hm⟩ : ∃ m, Message.note 3 ("Lecture source ".toList ++ address) = m := ⟨_, rfl⟩
    have htell : tell m p ms = ((.ok (), p), ms ++ [m]) := rfl
    have hget : (get : Walk Progress) p (ms ++ [m]) = ((.ok p, p), ms ++ [m]) := rfl
    refine ⟨.element { tag with spent := true } [.text e.line], { p with
      sources := { p.sources with late := p.sources.late ++ [sourceNode address] }, spent := p.spent + 1 },
      ms ++ [m], ?_, ⟨hp.waiting, hp.passed⟩, .lecture hs hn rfl⟩
    rw [attachSource, bind_of_walk_ok (readRemainder_name h p ms), ha, hm, bind_of_walk_ok htell, bind_of_walk_ok hget,
      Sources.attach, if_pos hp.passed]
    rfl
  · refine ⟨_, p, ms, ?_, hp, .video hs⟩
    have hread : readFields .video e.name p ms = ((.ok [e.name], p), ms) := by
      rw [readFields, Named.fields_name h]
      rfl
    rw [bind_of_walk_ok hread, videoNode_name h]
    rfl
  · refine ⟨_, p, ms, ?_, hp, .anchor hs⟩
    rw [bind_of_walk_ok (readRemainder_name h p ms)]
    rfl

/-- What the walk makes of the paragraphs, each with the end of its line. -/
inductive ArrivedAll (settings : Settings) : List Named → List Node → Prop where
  | nil : ArrivedAll settings [] []
  | cons {e : Named} {es : List Named} {n : Node} {ns : List Node} (h : Arrived settings e n)
    (hs : ArrivedAll settings es ns) : ArrivedAll settings (e :: es) (n :: .text ['\n'] :: ns)

theorem visitAll_cons {v : Bool → Node → Walk Node} {n n' : Node} {ns : List Node} {p p' : Progress}
    {ms ms' : List Message} (hp : Behind p) (h : v (ns.any holdsLecture) n p ms = ((.ok n', p'), ms'))
    (hp' : Behind p') : ∃ p'' , Behind p'' ∧ visitAll v false (n :: ns) p ms =
      (visitAll v false ns >>= fun ns' => pure (n' :: ns')) p'' ms' := by
  refine ⟨{ p' with sources := p'.sources.pass n' }, ⟨hp'.waiting, by simp [Sources.pass, hp'.passed]⟩, ?_⟩
  have hpass : pass n' p' ms' = ((.ok (), { p' with sources := p'.sources.pass n' }), ms') := rfl
  rw [visitAll, bind_of_walk_ok (deliver_of_waiting hp.waiting n ms), Bool.false_or, bind_of_walk_ok h,
    bind_of_walk_ok hpass]

theorem holdsLecture_paragraphs {ts : List Text} {ns : List Node} (h : Paragraphs ts ns) :
    ns.any holdsLecture = false := by
  induction h with
  | nil => rfl
  | @cons t ts tag ns hn hs h ih =>
    have hp : holdsLecture (.element tag [.text t]) = false := by
      have hl : isLecture tag = false := isLecture_of_name (hn ▸ by decide)
      simp [holdsLecture, elements, elementsAll, tag?, hl]
    have htext : holdsLecture (.text ['\n']) = false := rfl
    rw [List.any_cons, hp, List.any_cons, htext, ih]
    rfl

theorem visit_line (hc : c.sigils = Sigil.all) (h : e.isKept = true) (hn : tag.name = "p".toList) (fuel : Nat)
    (hp : Behind p) (ms : List Message) :
    ∃ n p' ms', visit c (fuel + 2) .flow false (.element tag [.text e.line]) p ms = ((.ok n, p'), ms') ∧ Behind p' ∧
      Arrived c.appearance.settings e n := by
  have hpart : Part.ofName tag.name = .paragraph := by
    rw [hn]
    decide
  have hvisit : visit c (fuel + 2) .flow false (.element tag [.text e.line]) =
      finishParagraph c (visitAll (visit c fuel .flow) false) false tag [.text e.line] := by
    rw [visit, hpart]
    rfl
  obtain ⟨ms₁, hact⟩ := finishParagraph_line hc h hn (visitAll (visit c fuel .flow) false) p ms
  rw [hvisit, hact]
  exact actOn_line (p := { p with taken := tag :: p.taken }) h hn _ ⟨hp.waiting, hp.passed⟩ ms₁

/-- The walk over a page of names behind a lecture video. -/
theorem visitAll_names (hc : c.sigils = Sigil.all) {es : List Named} (h : ∀ e ∈ es, e.isKept = true) {ns : List Node}
    (hns : Paragraphs (es.map Named.line) ns) (fuel : Nat) (hp : Behind p) (ms : List Message) :
    ∃ ns' p' ms', visitAll (visit c (fuel + 2) .flow) false ns p ms = ((.ok ns', p'), ms') ∧
      ArrivedAll c.appearance.settings es ns' := by
  induction es generalizing ns p ms with
  | nil =>
    cases hns
    exact ⟨[], p, ms, rfl, .nil⟩
  | cons e es ih =>
    cases hns with
    | @cons t ts tag ns hn hs hns =>
      have hahead := holdsLecture_paragraphs hns
      have hrest : (.text ['\n'] :: ns).any holdsLecture = false := hahead
      obtain ⟨n, p₁, ms₁, hvisit, hp₁, harrived⟩ := visit_line hc (h e List.mem_cons_self) hn fuel hp ms
      rw [← hrest] at hvisit
      obtain ⟨p₂, hp₂, hfirst⟩ := visitAll_cons hp hvisit hp₁
      have htext : visit c (fuel + 2) .flow (ns.any holdsLecture) (.text ['\n']) p₂ ms₁ =
          ((.ok (.text ['\n']), p₂), ms₁) := rfl
      obtain ⟨p₃, hp₃, hsecond⟩ := visitAll_cons hp₂ htext hp₂
      obtain ⟨ns', p₄, ms₂, hall, harrivedAll⟩ := ih (fun e he => h e (List.mem_cons_of_mem _ he)) hns hp₃ ms₁
      refine ⟨n :: .text ['\n'] :: ns', p₄, ms₂, ?_, .cons harrived harrivedAll⟩
      have hsecond' : visitAll (visit c (fuel + 2) .flow) false (.text ['\n'] :: ns) p₂ ms₁ =
          ((.ok (.text ['\n'] :: ns'), p₄), ms₂) := by
        rw [hsecond, bind_of_walk_ok hall]
        rfl
      rw [hfirst, bind_of_walk_ok hsecond']
      rfl

/-! ## the page at the end -/

theorem spents_arrived {n : Node} (h : Arrived c.appearance.settings e n) :
    spents [n] = if e.sigil = .lecture then [n] else [] := by
  cases h with
  | lecture h hn hs => rw [spents_of_spent hs, if_pos h]; rfl
  | video h => rw [if_neg (by rw [h]; decide)]; rfl
  | anchor h => rw [if_neg (by rw [h]; decide)]; rfl

theorem address_line (h : e.isKept = true) (hl : e.sigil = .lecture) (hn : tag.name = "p".toList) :
    address c (.element tag [.text e.line]) = videoPath c.appearance.settings e.name := by
  have hdrop : e.line.drop Sigil.lecture.mark.length = e.name := by
    rw [← hl]
    exact List.drop_left
  rw [address, writeInner_line h hn, hdrop, Named.unescape_name h]
  rfl

/-- The sources of the lecture video are those of the names behind its sigil. -/
theorem sourcesOf_arrived {es : List Named} (hes : ∀ e ∈ es, e.isKept = true) {ns : List Node}
    (h : ArrivedAll c.appearance.settings es ns) : sourcesOf c ns = lectureSources c.appearance.settings es := by
  induction h with
  | nil => rfl
  | @cons e es n ns h hs ih =>
    have he := hes e List.mem_cons_self
    have hrest : sourcesOf c (.text ['\n'] :: ns) = lectureSources c.appearance.settings es :=
      ih fun e he => hes e (List.mem_cons_of_mem _ he)
    rw [sourcesOf_cons, hrest, sourcesOf, spents_arrived h, lectureSources, lectureSources]
    by_cases hl : e.sigil = .lecture
    · rw [if_pos hl, List.filter_cons_of_pos (p := fun e : Named => e.sigil = .lecture) (decide_eq_true hl),
        List.map_cons, List.map_cons]
      cases h with
      | lecture h hn hs => rw [address_line he hl hn]; rfl
      | video h => exact absurd (h.symm.trans hl) (by decide)
      | anchor h => exact absurd (h.symm.trans hl) (by decide)
    · rw [if_neg hl, List.filter_cons_of_neg (by simpa using hl)]
      rfl

/-- Behind the lecture video. -/
theorem pruneAll_arrived {settings : Settings} {es : List Named} {ns : List Node} (h : ArrivedAll settings es ns) :
    pruneAll ns = arrived settings none es := by
  induction h with
  | nil => rfl
  | @cons e es n ns h hs ih =>
    rw [pruneAll_cons, pruneAll_cons, ih, arrived]
    cases h with
    | lecture h hn hs =>
      rw [h, prune, if_pos hs]
      rfl
    | video h => rw [h]; rfl
    | anchor h => rw [h]; rfl

theorem prune_lectureVideo {settings : Settings} (es : List Named) :
    prune (lectureVideo (lectureSources settings es)) = [lectureVideo (lectureSources settings es)] := by
  have hall (es : List Named) : pruneAll (es.map fun e => sourceNode (videoPath settings e.name)) =
      es.map fun e => sourceNode (videoPath settings e.name) := by
    induction es with
    | nil => rfl
    | cons e es ih =>
      rw [List.map_cons, pruneAll_cons, ih]
      rfl
  have hvideo (ns : List Node) : prune (lectureVideo ns) = [lectureVideo (pruneAll ns)] := rfl
  rw [hvideo, lectureSources, hall]

/-- The lecture video put in place of the first name behind its sigil. -/
theorem pruneAll_exchanged_arrived {settings : Settings} {v : Node} (hv : prune v = [v]) {es : List Named}
    {ns : List Node} (h : ArrivedAll settings es ns) : pruneAll (exchanged v ns) = arrived settings (some v) es := by
  induction h with
  | nil => rfl
  | @cons e es n ns h hs ih =>
    have htext : exchanged v (.text ['\n'] :: ns) = .text ['\n'] :: exchanged v ns := exchanged_cons_of_nil rfl v ns
    rw [arrived]
    cases h with
    | @lecture tag h hn hspent =>
      have hne : spents [.element tag [.text e.line]] ≠ [] := by
        rw [spents_of_spent hspent]
        exact List.cons_ne_nil _ _
      rw [h, exchanged_cons_of_ne hne, exchanged_of_spent hspent, List.singleton_append, pruneAll_cons, hv,
        pruneAll_cons, pruneAll_arrived hs]
      rfl
    | video h =>
      rw [h, exchanged_cons_of_nil rfl, htext, pruneAll_cons, pruneAll_cons, ih]
      rfl
    | anchor h =>
      rw [h, exchanged_cons_of_nil rfl, htext, pruneAll_cons, pruneAll_cons, ih]
      rfl

end

/-- A page of names, each in a paragraph of its own behind the sigil that takes it.  A name that running text leaves
alone arrives as it was written: in the source of the lecture video, in the source of a video, or as the name of an
anchor. -/
theorem names_arrive {c : Context} (hc : c.sigils = Sigil.all) (labels : Labels) {es : List Named}
    (h : ∀ e ∈ es, e.isKept = true) :
    ∃ after ms, finished? c labels (paged (es.map Named.line)) = some (after, ms) ∧
      after.children = arrived c.appearance.settings
        (some (lectureVideo (lectureSources c.appearance.settings es))) es := by
  have hlines : ∀ t ∈ es.map Named.line, isEntry t = true := fun t ht => by
    obtain ⟨e, he, rfl⟩ := List.mem_map.mp ht
    exact Named.isEntry_line (h e he)
  have hsigns : ∀ t ∈ es.map Named.line, (t ≠ [] ∧ ∀ c ∈ t, isPlain c = true) ∧ t.all Builder.isPlainBlank = false := by
    intro t ht
    obtain ⟨m, d, r, hshape⟩ := exists_entry (hlines t ht)
    refine ⟨⟨hshape.eq ▸ List.cons_ne_nil _ _, fun c hc => ?_⟩, ?_⟩
    · exact forall_calm (p := fun c => isPlain c = true) (by decide +kernel) (hshape.calm c hc)
    · have hm : Builder.isPlainBlank m = false :=
        forall_calm (p := fun c => Builder.isPlainBlank c = false) (by decide +kernel)
          (hshape.calm m (hshape.eq ▸ List.mem_cons_self))
      rw [hshape.eq, List.all_cons, hm, Bool.false_and]
  obtain ⟨notes, hrender⟩ := render_paged labels hlines
  obtain ⟨tag, cs, hcs, hparse⟩ := parse_paragraphs (fun t ht => (hsigns t ht).1) fun t ht => (hsigns t ht).2
  obtain ⟨ns, hns, hgrown, hapart⟩ := tree_render (isPlainNotes_paged labels hlines) hrender
  rw [hparse] at hns
  obtain rfl := Except.ok.inj hns
  have ht : Tidy 0 [.element tag cs] := ⟨hgrown, fun t ht => (of_mem_tagsAll_parse hparse ht).1, hapart⟩
  have htag : isLecture tag = false := isLecture_eq_false (ht.isNoteName List.mem_cons_self)
  have hclear : Clear 0 cs := ht.clear.children
  obtain ⟨r, new, hends, hr⟩ := @finds_walkBelow c 0 tag cs [] hclear rfl
  -- behind a lecture video the walk makes of each paragraph what its sigil says
  obtain ⟨fuel, hfuel⟩ : ∃ n, depthBound (.element tag cs) = n + 2 := 
    ⟨8 * ((Node.element tag cs).write.length + 8) - 2, by rw [depthBound]; omega⟩
  obtain ⟨ns, p, ms, hbehind, harrived⟩ := visitAll_names (p := { sources := { passed := true } }) hc h hcs fuel
    ⟨rfl, rfl⟩ []
  have hwalk : walkBelow c (.element tag cs) [] { sources := { passed := true } } [] = ((.ok ns, p), ms) := by
    rw [walkBelow, hfuel]
    exact hbehind
  cases r with
  | error e =>
    obtain ⟨p', hrun⟩ := hends { sources := { passed := true } } [] rfl
    cases hwalk.symm.trans hrun
  | ok a =>
    obtain ⟨a', p', hrun', hsame, -⟩ := hends { sources := { passed := true } } [] rfl
    obtain rfl : a = ns := by
      obtain rfl : a' = a := hsame
      cases hwalk.symm.trans hrun'
      rfl
    -- from the start of the page, the video stands in place of the first of them
    obtain ⟨a₀, p₀, hrun, hshown, hgains⟩ := hends {} [] rfl
    obtain rfl : a₀ = shown c false a := hshown
    have hsettle := settle_shown htag (hr a rfl).lectures hgains.late
    have hafter := outcome_finish hrun
    rw [hsettle, sourcesOf_arrived h harrived] at hafter
    obtain ⟨written, hwritten⟩ : ∃ ms, (finish c (.element tag cs) []).outcome = (.ok _, ms) := ⟨_, hafter⟩
    refine ⟨.element tag _, written, ?_, pruneAll_exchanged_arrived (prune_lectureVideo es) harrived⟩
    simp only [finished?, hrender, hparse, hwritten]
    rfl

/-- A page of all three, two lecture sources among them. -/
theorem names_arrive_of_four :
    let es : List Named := [⟨.lecture, "a_b.mp4".toList⟩, ⟨.video, "c-d_2----e.mp4".toList⟩, ⟨.anchor, "x.1_".toList⟩,
      ⟨.lecture, "B.mp4".toList⟩]
    Context.bare.sigils = Sigil.all ∧ (∀ e ∈ es, e.isKept = true) ∧
      ∃ after ms, finished? .bare [] (paged (es.map Named.line)) = some (after, ms) ∧
        after.children = arrived Context.bare.appearance.settings
          (some (lectureVideo (lectureSources Context.bare.appearance.settings es))) es := by
  intro es
  have hkept : ∀ e ∈ es, e.isKept = true := by decide +kernel
  exact ⟨rfl, hkept, names_arrive rfl [] hkept⟩

/-- Typography makes a dash of two hyphens. -/
theorem name_with_hyphens_altered :
    (finished? .bare [] ":a--b.mp4\n".toList).map (·.1.writeInner)
      = some "<video class=\"reader-lecture\"><source src=\"vid/a–b.mp4\"/></video>\n".toList := by decide +kernel

end Lectern.Page
