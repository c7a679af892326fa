import Lectern.Markdown.Render
import Lectern.Proofs.Html.Grown

/-!
# Directives in their wrappers

Markup is read here tag by tag, and all that counts is which elements are open, innermost first.  A
directive opens up to three elements around its content and closes the same ones.  So between the
openings and closings of a nested sequence of directives just their wrappers are open, and a piece of
content stands in the innermost one.

* `Nests s t s'`        where `s` is open before `t`, `s'` is open behind it;
* `Nests.append`, `Nests.frame`, `Nests.unique`   texts one after the other, inside others, and that
  only one thing can be open behind a text;
* `Balanced`            a text that leaves open what was open before it;
* `Directive.wrappers`  what is open inside a directive;
* `nests_opening`, `nests_closing`   which its two markups open and close;
* `Piece.nests`         one step in a sequence of directives, and `nests_renderAll` the whole;
* `balanced_directive`  a block as it is rendered;
* `balanced_renderAll`  sequences of directives are balanced, and so is all between two that match.
-/

namespace Lectern.Html
open Text

/-- The name and the attributes of an element that is open. -/
abbrev OpenTag := Text × List (Text × Text)

/-- What is open behind a token, innermost first; `none` if it closes what is not innermost. -/
def Token.nest? (open_ : List OpenTag) : Token → Option (List OpenTag)
  | .opening name attributes closed =>
    some (if closed || isVoidName name then open_ else (name, attributes) :: open_)
  | .closing name =>
    match open_ with
    | (inner, _) :: around => if inner = name then some around else none
    | [] => none
  | .text _ | .note _ _ => some open_

/-- Where `s` is open before a text, `s'` is open behind it, whatever follows. -/
inductive Nests : List OpenTag → Text → List OpenTag → Prop where
  | nil (s : List OpenTag) : Nests s [] s
  | char {s s' : List OpenTag} {c : Char} {t : Text} (hc : c ≠ '<') (h : Nests s t s') :
    Nests s (c :: t) s'
  | markup {s s₁ s' : List OpenTag} {t rest : Text} {ts : List Token}
    (hread : ∀ u, readMarkup (t ++ (rest ++ u)) = .ok (some (ts, rest ++ u)))
    (hnest : ts.foldlM Token.nest? s = some s₁) (h : Nests s₁ rest s') :
    Nests s ('<' :: (t ++ rest)) s'

/-- The text leaves open what was open before it. -/
def Balanced (t : Text) : Prop := Nests [] t []

section
variable {s s' s₁ s₂ : List OpenTag} {t u : Text}

theorem Nests.append (ht : Nests s t s₁) (hu : Nests s₁ u s₂) : Nests s (t ++ u) s₂ := by
  induction ht with
  | nil => exact hu
  | char hc _ ih => exact .char hc (ih hu)
  | @markup s s₁ s' t rest ts hread hnest _ ih =>
    have hmore : ∀ v, readMarkup (t ++ ((rest ++ u) ++ v)) = .ok (some (ts, (rest ++ u) ++ v)) := by
      intro v
      rw [List.append_assoc]
      exact hread (u ++ v)
    rw [List.cons_append, List.append_assoc]
    exact .markup hmore hnest (ih hu)

theorem Token.nest?_frame {token : Token} (h : token.nest? s = some s') (around : List OpenTag) :
    token.nest? (s ++ around) = some (s' ++ around) := by
  cases token with
  | opening name attributes closed =>
    obtain rfl := Option.some.inj h
    simp only [nest?]
    split <;> rfl
  | closing name =>
    cases s with
    | nil => exact nomatch h
    | cons top s =>
      obtain ⟨inner, attributes⟩ := top
      simp only [nest?, List.cons_append] at h ⊢
      split at h
      · obtain rfl := Option.some.inj h
        rw [if_pos ‹_›]
      · exact nomatch h
  | text content | note kind content =>
    obtain rfl := Option.some.inj h
    rfl

theorem foldlM_nest?_frame {ts : List Token} (h : ts.foldlM Token.nest? s = some s')
    (around : List OpenTag) : ts.foldlM Token.nest? (s ++ around) = some (s' ++ around) := by
  induction ts generalizing s with
  | nil =>
    obtain rfl := Option.some.inj h
    rfl
  | cons token ts ih =>
    rw [List.foldlM_cons] at h ⊢
    obtain ⟨s₁, hs₁, hrest⟩ := Option.bind_eq_some_iff.mp h
    rw [Token.nest?_frame hs₁ around]
    exact ih hrest

/-- What a text opens and closes does not depend on what is open around it. -/
theorem Nests.frame (h : Nests s t s') (around : List OpenTag) : Nests (s ++ around) t (s' ++ around) := by
  induction h with
  | nil s => exact .nil _
  | char hc _ ih => exact .char hc ih
  | markup hread hnest _ ih => exact .markup hread (foldlM_nest?_frame hnest around) ih

/-- Where the same is open before a text, the same is open behind it. -/
theorem Nests.unique (h₁ : Nests s t s₁) (h₂ : Nests s t s₂) : s₁ = s₂ := by
  induction h₁ with
  | nil s =>
    cases h₂
    rfl
  | char hc _ ih =>
    cases h₂ with
    | char _ h => exact ih h
    | markup => exact absurd rfl hc
  | @markup s s₁ s' t rest ts hread hnest _ ih =>
    generalize htext : '<' :: (t ++ rest) = text at h₂
    cases h₂ with
    | nil => exact nomatch htext
    | char hc => exact absurd (List.cons.inj htext).1.symm hc
    | @markup _ s₃ _ t' rest' ts' hread' hnest' h =>
      -- The two readings of the markup are readings of one text.
      have hsame := (List.cons.inj htext).2
      have hboth : Except.ok (some (ts, rest)) = (Except.ok (some (ts', rest')) : Except Rejection _) := by
        have hread₁ := hread []
        have hread₂ := hread' []
        rw [List.append_nil] at hread₁ hread₂
        rw [← hread₁, ← hread₂, hsame]
      obtain ⟨rfl, rfl⟩ := Prod.mk.inj (Option.some.inj (Except.ok.inj hboth))
      obtain rfl := Option.some.inj (hnest.symm.trans hnest')
      exact ih h

theorem Balanced.nests (h : Balanced t) (s : List OpenTag) : Nests s t s := h.frame s

theorem nests_text (h : '<' ∉ t) : Nests s t s := by
  induction t with
  | nil => exact .nil s
  | cons c t ih =>
    have hc : c ≠ '<' := fun e => h (e ▸ List.mem_cons_self)
    exact .char hc (ih fun ht => h (List.mem_cons_of_mem c ht))

end

/-! ## tags -/

/-- The name of an element that holds other elements. -/
structure IsHolder (name : Text) : Prop where
  isName : IsName name
  verbatim : isVerbatimName name = false
  void : isVoidName name = false

section
variable {s : List OpenTag} {name : Text}

theorem IsHolder.nests_opening (h : IsHolder name) {as : List (Text × Text)} {ts : List Text}
    (ha : List.Forall₂ WritesAttribute as ts) :
    Nests s ('<' :: name ++ ts.flatten ++ ['>']) ((name, as) :: s) := by
  have hread : ∀ u, readMarkup ((name ++ ts.flatten ++ ['>']) ++ ([] ++ u))
      = .ok (some ([.opening name as false], [] ++ u)) := readMarkup_opening h.isName h.verbatim ha .plain
  have hnest : [Token.opening name as false].foldlM Token.nest? s = some ((name, as) :: s) := by
    simp [Token.nest?, h.void]
  have hall := Nests.markup hread hnest (.nil _)
  rwa [List.append_nil] at hall

theorem IsHolder.nests_plain (h : IsHolder name) : Nests s ('<' :: name ++ ['>']) ((name, []) :: s) := by
  have hall := h.nests_opening (s := s) .nil
  rwa [List.flatten_nil, List.append_nil] at hall

theorem IsHolder.nests_closing (h : IsHolder name) (as : List (Text × Text)) :
    Nests ((name, as) :: s) ("</".toList ++ name ++ ['>']) s := by
  have hread : ∀ u, readMarkup (('/' :: name ++ ['>']) ++ ([] ++ u))
      = .ok (some ([.closing name], [] ++ u)) := readMarkup_closing h.isName
  have hnest : [Token.closing name].foldlM Token.nest? ((name, as) :: s) = some s := by
    simp [Token.nest?]
  have hall := Nests.markup hread hnest (.nil _)
  rwa [List.append_nil] at hall

/-- A class that is written between quotes as it is. -/
structure IsClass (className : Text) : Prop where
  quote : '"' ∉ className
  value : unescape className = .ok className

/-- A tag with a class. -/
def classed (name className : Text) : OpenTag := (name, [("class", className)])

theorem IsHolder.nests_classed (h : IsHolder name) {className : Text} (hclass : IsClass className) :
    Nests s ('<' :: name ++ " class=\"".toList ++ className ++ "\">".toList)
      (classed name className :: s) := by
  have hname : IsAttributeName "class".toList := ⟨by decide, by decide, by decide⟩
  have hall := h.nests_opening (s := s)
    (.cons (.quoted (a := ("class", className)) '"' className (.inl rfl) hclass.quote hclass.value hname) .nil)
  simpa [classed] using hall

end
end Lectern.Html

namespace Lectern
open Text Html

namespace Directive

/-- What is open inside the directive beside what is open around it, innermost first. -/
def wrappers : Directive → List OpenTag
  | warning => [classed "blockquote" "warning"]
  | question => [classed "blockquote" "question"]
  | answer => [classed "details" "answer"]
  | file => [classed "details" "file"]
  | part => [classed "details" "section"]
  | item => [classed "div" "item-content", classed "div" "item"]
  | times => [classed "pre" "times"]
  | slide => [classed "div" "slide-main", classed "div" "slide-container", classed "div" "slide"]

/-! ## titles -/

theorem lt_not_mem_title {labels : Labels} (hlabels : ∀ l ∈ labels, '<' ∉ l.2) {params : Text}
    (hparams : '<' ∉ params) (d : Directive) : '<' ∉ d.title labels params := by
  unfold title
  split
  · cases hl : labels.lookup d.name.toList with
    | none => cases d <;> decide
    | some label =>
      obtain ⟨before, after, hsplit, -⟩ := List.lookup_eq_some_iff.mp hl
      have hmem : (d.name.toList, label) ∈ labels := hsplit ▸ by simp
      exact hlabels _ hmem
  · refine not_mem_join (by decide) ?_
    intro w hw hlt
    exact hparams (mem_of_mem_words hw hlt)

/-! ## the two markups of a directive -/

section
variable {s : List OpenTag} {title : Text}

/-- The elements that directives are written with hold other elements. -/
theorem isHolder : ∀ name ∈ ["blockquote", "details", "div", "p", "pre", "summary"], IsHolder name.toList := by
  intro name hname
  simp only [List.mem_cons, List.not_mem_nil, or_false] at hname
  rcases hname with rfl | rfl | rfl | rfl | rfl | rfl <;> exact ⟨⟨rfl, rfl, by decide⟩, rfl, rfl⟩

theorem nests_line {t : Text} {s' : List OpenTag} (h : Nests s t s') : Nests s (t ++ ['\n']) s' :=
  h.append (nests_text (by decide))

/-- A title in an element of its own. -/
theorem nests_titled {name : Text} (hname : IsHolder name) (htitle : '<' ∉ title) :
    Nests s ('<' :: name ++ ['>'] ++ title ++ ("</".toList ++ name ++ ['>'])) s :=
  (hname.nests_plain.append (nests_text htitle)).append (hname.nests_closing [])

/-- An element with a class and a title in it. -/
theorem nests_framed {outer inner className : Text} (houter : IsHolder outer) (hinner : IsHolder inner)
    (hclass : IsClass className) (htitle : '<' ∉ title) :
    Nests s ('<' :: outer ++ " class=\"".toList ++ className ++ "\">".toList ++ ['\n'] ++
      ('<' :: inner ++ ['>'] ++ title ++ ("</".toList ++ inner ++ ['>']) ++ ['\n']))
      (classed outer className :: s) := by
  have hopen := nests_line (houter.nests_classed (s := s) hclass)
  exact hopen.append (nests_line (nests_titled hinner htitle))

theorem nests_quoted {className : Text} (hclass : IsClass className) (htitle : '<' ∉ title) :
    Nests s (quoted className title) (classed "blockquote" className :: s) := by
  have hall := nests_framed (s := s) (isHolder "blockquote" (by simp)) (isHolder "p" (by simp)) hclass htitle
  unfold Directive.quoted
  simpa using hall

theorem nests_summary {className : Text} (hclass : IsClass className) (htitle : '<' ∉ title) :
    Nests s (summary className title) (classed "details" className :: s) := by
  have hall := nests_framed (s := s) (isHolder "details" (by simp)) (isHolder "summary" (by simp)) hclass htitle
  unfold summary
  simpa using hall

theorem nests_div (className : Text) (hclass : IsClass className) :
    Nests s ("<div class=\"".toList ++ className ++ "\">\n".toList) (classed "div" className :: s) := by
  have hall := nests_line ((isHolder "div" (by simp)).nests_classed (s := s) hclass)
  simpa using hall

theorem nests_div_closing (className : Text) : Nests (classed "div" className :: s) "</div>\n".toList s :=
  nests_line ((isHolder "div" (by simp)).nests_closing [("class", className)])

/-- A title in a line of its own, in an element with a class. -/
theorem nests_heading (className : Text) (hclass : IsClass className) (htitle : '<' ∉ title) :
    Nests s ("<div class=\"".toList ++ className ++ "\">\n".toList ++ title ++ "\n</div>\n".toList) s := by
  have hline := (nests_div (s := s) className hclass).append (nests_line (nests_text htitle))
  have hall := hline.append (nests_div_closing className)
  simpa using hall

/-- The markup before the content opens the wrappers of a directive. -/
theorem nests_opening (htitle : '<' ∉ title) (d : Directive) :
    Nests s (d.opening title) (d.wrappers ++ s) := by
  cases d with
  | warning | question => exact nests_quoted ⟨by decide, rfl⟩ htitle
  | answer | file | part => exact nests_summary ⟨by decide, rfl⟩ htitle
  | item =>
    have houter : Nests s _ _ := nests_div "item" ⟨by decide, rfl⟩
    have hmarker := houter.append (nests_heading "item-marker" ⟨by decide, rfl⟩ htitle)
    have hall := hmarker.append (nests_div "item-content" ⟨by decide, rfl⟩)
    unfold opening wrappers
    simpa using hall
  | times =>
    have hclass : IsClass "times" := ⟨by decide, rfl⟩
    exact nests_line ((isHolder "pre" (by simp)).nests_classed hclass)
  | slide =>
    have houter : Nests s _ _ := nests_div "slide" ⟨by decide, rfl⟩
    have hinner := houter.append (nests_div "slide-container" ⟨by decide, rfl⟩)
    have hheader := hinner.append (nests_heading "slide-header" ⟨by decide, rfl⟩ htitle)
    have hall := hheader.append (nests_div "slide-main" ⟨by decide, rfl⟩)
    unfold opening wrappers
    simpa using hall

/-- The markup after the content closes them again. -/
theorem nests_closing (d : Directive) : Nests (d.wrappers ++ s) d.closing s := by
  cases d with
  | warning | question => exact nests_line ((isHolder "blockquote" (by simp)).nests_closing _)
  | answer | file | part => exact nests_line ((isHolder "details" (by simp)).nests_closing _)
  | item => exact (nests_div_closing "item-content").append (nests_div_closing "item")
  | times => exact nests_line ((isHolder "pre" (by simp)).nests_closing _)
  | slide =>
    have hinner := (nests_div_closing (s := classed "div" "slide" :: s) "slide-container").append
      (nests_div_closing "slide")
    exact (nests_div_closing "slide-main").append hinner

end

/-! ## sequences of directives -/

/-- A step in the rendering of directives: one is opened or closed, or there is something in between. -/
inductive Piece where
  | opening (d : Directive) (params : Text)
  | closing (d : Directive)
  | content (markup : Text)

namespace Piece

/-- What is written for a piece. -/
def render (labels : Labels) : Piece → Text
  | opening d params => d.opening (d.title labels params)
  | closing d => d.closing
  | content markup => markup

def renderAll (labels : Labels) (ps : List Piece) : Text := ps.flatMap (render labels)

/-- The directives that are open behind a piece, innermost first; `none` if it closes one that is not
innermost. -/
def nest? (ds : List Directive) : Piece → Option (List Directive)
  | opening d _ => some (d :: ds)
  | closing d =>
    match ds with
    | inner :: around => if inner = d then some around else none
    | [] => none
  | content _ => some ds

/-- The directives that are open behind a sequence, if it is nested so far. -/
def open? (ps : List Piece) : Option (List Directive) := ps.foldlM nest? []

/-- There are no tags in the words of a directive, and the markup in between is balanced. -/
def Sound : Piece → Prop
  | opening _ params => '<' ∉ params
  | closing _ => True
  | content markup => Balanced markup

section
variable {labels : Labels} {ds ds' : List Directive} {p : Piece} {ps : List Piece}

theorem renderAll_append (labels : Labels) (ps qs : List Piece) :
    renderAll labels (ps ++ qs) = renderAll labels ps ++ renderAll labels qs := List.flatMap_append

theorem renderAll_cons (labels : Labels) (p : Piece) (ps : List Piece) :
    renderAll labels (p :: ps) = p.render labels ++ renderAll labels ps := List.flatMap_cons

theorem renderAll_nil (labels : Labels) : renderAll labels [] = [] := rfl

/-- A piece opens and closes the wrappers of the directives that it opens and closes. -/
theorem nests (hlabels : ∀ l ∈ labels, '<' ∉ l.2) (hp : p.Sound) (h : p.nest? ds = some ds') :
    Nests (ds.flatMap wrappers) (p.render labels) (ds'.flatMap wrappers) := by
  cases p with
  | opening d params =>
    obtain rfl := Option.some.inj h
    rw [List.flatMap_cons]
    exact nests_opening (lt_not_mem_title hlabels hp d) d
  | closing d =>
    cases ds with
    | nil => exact nomatch h
    | cons inner around =>
      rw [nest?] at h
      split at h
      · rename_i hd
        obtain rfl := Option.some.inj h
        obtain rfl := hd
        rw [List.flatMap_cons]
        exact nests_closing inner
      · exact nomatch h
  | content markup =>
    obtain rfl := Option.some.inj h
    exact Balanced.nests hp _

theorem nests_renderAll (hlabels : ∀ l ∈ labels, '<' ∉ l.2) (hps : ∀ p ∈ ps, p.Sound)
    (h : ps.foldlM nest? ds = some ds') :
    Nests (ds.flatMap wrappers) (renderAll labels ps) (ds'.flatMap wrappers) := by
  induction ps generalizing ds with
  | nil =>
    obtain rfl := Option.some.inj h
    exact .nil _
  | cons p ps ih =>
    rw [List.foldlM_cons] at h
    obtain ⟨ds₁, hp, hrest⟩ := Option.bind_eq_some_iff.mp h
    have hfirst := nests hlabels (hps p List.mem_cons_self) hp
    exact hfirst.append (ih (fun q hq => hps q (List.mem_cons_of_mem p hq)) hrest)

end

/-- The rendering of a nested sequence of directives is balanced.  Behind any part of it just the
wrappers of the directives that are open so far are open.  Between the opening of a directive and the
closing that matches it everything is put into its wrappers, and behind that closing the same is open as
before the opening. -/
theorem balanced_renderAll (labels : Labels) (hlabels : ∀ l ∈ labels, '<' ∉ l.2) (ps : List Piece)
    (hps : ∀ p ∈ ps, p.Sound) (hnested : open? ps = some []) :
    Balanced (renderAll labels ps) ∧
    (∀ before after, ps = before ++ after → ∃ ds, open? before = some ds ∧
      ∀ s, Nests [] (renderAll labels before) s ↔ s = ds.flatMap wrappers) ∧
    (∀ before d params inside after,
      ps = before ++ opening d params :: inside ++ closing d :: after → open? inside = some [] →
      ∀ s, Nests [] (renderAll labels before) s →
        Nests [] (renderAll labels (before ++ [opening d params])) (d.wrappers ++ s) ∧
        Nests [] (renderAll labels (before ++ opening d params :: inside)) (d.wrappers ++ s) ∧
        Nests [] (renderAll labels (before ++ opening d params :: inside ++ [closing d])) s) := by
  refine ⟨nests_renderAll hlabels hps hnested, ?_, ?_⟩
  · rintro before after rfl
    rw [open?, List.foldlM_append] at hnested
    obtain ⟨ds, hbefore, -⟩ := Option.bind_eq_some_iff.mp hnested
    have hopen : Nests [] (renderAll labels before) (ds.flatMap wrappers) :=
      nests_renderAll hlabels (fun p hp => hps p (List.mem_append_left _ hp)) hbefore
    refine ⟨ds, hbefore, fun s => ⟨fun hs => hs.unique hopen, ?_⟩⟩
    rintro rfl
    exact hopen
  · rintro before d params inside after rfl hinside s hs
    have hparams : '<' ∉ params := hps (opening d params) (by simp)
    have hbody : Balanced (renderAll labels inside) :=
      nests_renderAll hlabels (fun p hp => hps p (by simp [hp])) hinside
    have hopened := hs.append (nests_opening (lt_not_mem_title hlabels hparams d) d)
    have hfilled := hopened.append (hbody.nests (d.wrappers ++ s))
    have hclosed := hfilled.append (nests_closing d)
    simp only [renderAll_append, renderAll_cons, renderAll_nil, render, List.append_nil,
      ← List.append_assoc]
    exact ⟨hopened, hfilled, hclosed⟩

/-- A question in a slide. -/
def quiz : List Piece :=
  [.opening .slide "Quiz", .opening .question [], .content "<p>1 + 1</p>".toList, .closing .question,
    .closing .slide]

/-- With a label for questions, its content is put into the question, and the slide goes on behind it. -/
theorem balanced_renderAll_quiz :
    (∀ p ∈ quiz, p.Sound) ∧ open? quiz = some [] ∧
    Balanced (renderAll [("question", "Task")] quiz) ∧
    Nests [] (renderAll [("question", "Task")] (quiz.take 3)) (question.wrappers ++ slide.wrappers) ∧
    Nests [] (renderAll [("question", "Task")] (quiz.take 4)) slide.wrappers := by
  have hcontent : Balanced "<p>1 + 1</p>".toList :=
    nests_titled (isHolder "p" (by simp)) (show '<' ∉ "1 + 1".toList by decide)
  have hsound : ∀ p ∈ quiz, p.Sound := by
    simp only [quiz, List.forall_mem_cons]
    have hwords : '<' ∉ "Quiz".toList := by decide
    exact ⟨hwords, List.not_mem_nil, hcontent, trivial, trivial, fun p hp => absurd hp List.not_mem_nil⟩
  have hspec := balanced_renderAll [("question", "Task")] (by decide) quiz hsound rfl
  obtain ⟨ds, hds, hopen⟩ := hspec.2.1 (quiz.take 1) (quiz.drop 1) rfl
  obtain rfl := Option.some.inj hds
  have hbefore := (hopen slide.wrappers).mpr rfl
  obtain ⟨-, hfilled, hclosed⟩ :=
    hspec.2.2 (quiz.take 1) question [] [.content "<p>1 + 1</p>".toList] [.closing slide] rfl rfl _ hbefore
  exact ⟨hsound, rfl, hspec.1, hfilled, hclosed⟩

end Piece
end Directive

/-! ## blocks -/

namespace Markdown.Block
open Directive (Piece)

section
variable (definitions : List Definition) (labels : Labels)

mutual

/-- A block as it is rendered, piece by piece; the content of a directive stands between two. -/
def pieces (hidden : Bool) : Block → List Piece
  | .directive d params body => .opening d params :: piecesAll false false body ++ [.closing d]
  | b => [.content (Block.render definitions labels hidden b)]

def piecesAll (tight afterHidden : Bool) : List Block → List Piece
  | [] => []
  | b :: bs =>
    if b.isDefinition then piecesAll tight afterHidden bs
    else
      (if afterHidden && b.opensLine && !b.isHidden tight then [Piece.content ['\n']] else [])
        ++ pieces (b.isHidden tight) b ++ piecesAll tight (b.isHidden tight) bs

end

mutual

theorem renderAll_pieces (hidden : Bool) : (b : Block) →
    Piece.renderAll labels (pieces definitions labels hidden b) = Block.render definitions labels hidden b
  | .directive d params body => by
    have hbody := renderAll_piecesAll false false body
    show Piece.renderAll labels (.opening d params :: piecesAll definitions labels false false body ++ [.closing d])
      = d.opening (d.title labels params) ++ Block.renderAll definitions labels false false body ++ d.closing
    rw [Piece.renderAll_append, Piece.renderAll_cons, hbody, Piece.renderAll_cons, Piece.renderAll_nil,
      List.append_nil]
    rfl
  | .paragraph _ | .heading _ _ | .code _ | .fence _ _ | .markup _ | .rule | .math _ _ | .table _ _ _
  | .definition _ | .quote _ | .list _ _ _ => List.append_nil _

theorem renderAll_piecesAll (tight afterHidden : Bool) : (bs : List Block) →
    Piece.renderAll labels (piecesAll definitions labels tight afterHidden bs) =
      Block.renderAll definitions labels tight afterHidden bs
  | [] => rfl
  | b :: bs => by
    have hb := renderAll_pieces (b.isHidden tight) b
    have hbs := fun after => renderAll_piecesAll tight after bs
    show Piece.renderAll labels (if b.isDefinition then piecesAll definitions labels tight afterHidden bs
        else (if afterHidden && b.opensLine && !b.isHidden tight then [Piece.content ['\n']] else [])
          ++ pieces definitions labels (b.isHidden tight) b
          ++ piecesAll definitions labels tight (b.isHidden tight) bs)
      = if b.isDefinition then Block.renderAll definitions labels tight afterHidden bs
        else (if afterHidden && b.opensLine && !b.isHidden tight then ['\n'] else [])
          ++ Block.render definitions labels (b.isHidden tight) b
          ++ Block.renderAll definitions labels tight (b.isHidden tight) bs
    split
    · exact hbs afterHidden
    · rw [Piece.renderAll_append, Piece.renderAll_append, hb, hbs]
      split <;> rfl

end

mutual

/-- A directive is closed where it ends, so behind a block the same directives are open as before it. -/
theorem nest?_pieces (hidden : Bool) (ds : List Directive) : (b : Block) →
    (pieces definitions labels hidden b).foldlM Piece.nest? ds = some ds
  | .directive d params body => by
    have hbody := nest?_piecesAll false false (d :: ds) body
    show (piecesAll definitions labels false false body ++ [Piece.closing d]).foldlM Piece.nest? (d :: ds) = some ds
    rw [List.foldlM_append, hbody]
    show (if d = d then some ds else none).bind some = some ds
    rw [if_pos rfl]
    rfl
  | .paragraph _ | .heading _ _ | .code _ | .fence _ _ | .markup _ | .rule | .math _ _ | .table _ _ _
  | .definition _ | .quote _ | .list _ _ _ => rfl

theorem nest?_piecesAll (tight afterHidden : Bool) (ds : List Directive) : (bs : List Block) →
    (piecesAll definitions labels tight afterHidden bs).foldlM Piece.nest? ds = some ds
  | [] => rfl
  | b :: bs => by
    have hb := nest?_pieces (b.isHidden tight) ds b
    have hbs := fun after => nest?_piecesAll tight after ds bs
    show (if b.isDefinition then piecesAll definitions labels tight afterHidden bs
        else (if afterHidden && b.opensLine && !b.isHidden tight then [Piece.content ['\n']] else [])
          ++ pieces definitions labels (b.isHidden tight) b
          ++ piecesAll definitions labels tight (b.isHidden tight) bs).foldlM Piece.nest? ds = some ds
    have hline : ∀ begins : Bool,
        (if begins then [Piece.content ['\n']] else []).foldlM Piece.nest? ds = some ds := by
      intro begins
      cases begins <;> rfl
    split
    · exact hbs afterHidden
    · rw [List.foldlM_append, List.foldlM_append, hline]
      show (List.foldlM Piece.nest? ds _).bind _ = some ds
      rw [hb]
      exact hbs (b.isHidden tight)

end

/-- Blocks are rendered balanced where all that stands beside and inside their directives is. -/
theorem balanced_blocks (hlabels : ∀ l ∈ labels, '<' ∉ l.2) (tight afterHidden : Bool) (bs : List Block)
    (hbs : ∀ p ∈ piecesAll definitions labels tight afterHidden bs, p.Sound) :
    Html.Balanced (Block.renderAll definitions labels tight afterHidden bs) := by
  rw [← renderAll_piecesAll]
  have hnested := nest?_piecesAll definitions labels tight afterHidden [] bs
  exact Piece.nests_renderAll hlabels hbs hnested

end
end Markdown.Block
end Lectern
