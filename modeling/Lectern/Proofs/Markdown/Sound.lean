import Lectern.Markdown.Render
import Lectern.Proofs.Html.Apart
import Lectern.Proofs.Html.Back
import Lectern.Proofs.Journal

/-!
# Rendered notes are read as they were meant

Notes without raw markup are rendered to text and to tags of a few plain names.  Such markup is read
without surprises: its tokens fit, wherever it stands.

* `NoteOpening`     the openings that notes are rendered to;
* `Sound`           markup of such openings, of closing tags and of text, without rows of tables;
* `Laid`            such markup with rows that stand apart;
* `Block.isPlain`   blocks without raw markup;
* `tree_render`     the page that notes without raw markup are rendered to is read as a tree.
-/

namespace Lectern.Markdown
open Text Html

/-! ## names -/

/-- The names of the elements that notes are rendered to, but for headings and rows of tables. -/
def noteNames : List String :=
  ["body", "p", "pre", "code", "div", "span", "a", "hr", "br", "img", "table", "thead", "tbody", "th", "td",
    "blockquote", "ul", "ol", "li", "details", "summary", "em", "strong", "s", "kbd"]

def noteAttributes : List String := ["class", "id", "href", "src", "alt", "title", "style", "start"]

/-- The name of an element that notes are rendered to, but for rows; a heading may have any rank. -/
def IsFreeName (name : Text) : Prop :=
  (∃ n ∈ noteNames, n.toList = name) ∨ ∃ rank : Nat, 'h' :: Nat.toDigits 10 rank = name

def IsNoteName (name : Text) : Prop := IsFreeName name ∨ name = "tr".toList

def IsNoteAttribute (name : Text) : Prop := ∃ n ∈ noteAttributes, n.toList = name

/-- The openings that notes are rendered to. -/
def NoteOpening : Kind := fun name as => IsNoteName name ∧ ∀ a ∈ as, IsNoteAttribute a.1

theorem lowerAux_eq_self {t : Text} (h : ∀ c ∈ t, c.toNat < 0x80 ∧ c.isUpper = false) (before : Text) :
    lowerAux before t = t := by
  induction t generalizing before with
  | nil => rfl
  | cons c t ih =>
    obtain ⟨hc, hu⟩ := h c List.mem_cons_self
    have hsigma : c ≠ 'Σ' := fun e => absurd hc (by subst e; decide)
    have hlower : c.toLower = c := dif_neg (of_decide_eq_false hu)
    rw [lowerAux, if_neg hsigma, lowerChar, if_pos hc, hlower, ih fun d hd => h d (List.mem_cons_of_mem _ hd)]
    rfl

theorem isDigit_rank {rank : Nat} {c : Char} (h : c ∈ Nat.toDigits 10 rank) : c.isDigit = true :=
  Nat.isDigit_of_mem_toDigits (by decide) (Nat.le_refl 10) h

theorem isName_heading (rank : Nat) : IsName ('h' :: Nat.toDigits 10 rank) where
  head := rfl
  all := by
    refine List.all_eq_true.mpr fun c hc => ?_
    rcases List.mem_cons.mp hc with rfl | hc
    · rfl
    · exact Bool.or_eq_true_iff.mpr (.inr (isDigit_rank hc))
  lower := by
    refine lowerAux_eq_self (fun c hc => ?_) []
    rcases List.mem_cons.mp hc with rfl | hc
    · decide
    · have hd := Char.isDigit_iff_toNat.mp (isDigit_rank hc)
      have h₁ : '0'.toNat = 48 ∧ '9'.toNat = 57 := ⟨rfl, rfl⟩
      rw [h₁.1, h₁.2] at hd
      refine ⟨by omega, decide_eq_false fun hu => ?_⟩
      have hu : 65 ≤ c.toNat := hu.1
      omega

/-- A name whose second letter is no digit is no heading's. -/
theorem heading_ne {name : String} (h : (name.toList.drop 1).all Char.isDigit = false) (rank : Nat) :
    name.toList ≠ 'h' :: Nat.toDigits 10 rank := fun e => by
  rw [e, List.drop_one, List.tail_cons] at h
  rw [List.all_eq_true.mpr fun c hc => isDigit_rank hc] at h
  exact nomatch h

theorem isVoidName_heading (rank : Nat) : isVoidName ('h' :: Nat.toDigits 10 rank) = false :=
  List.any_eq_false.mpr fun n hn e =>
    heading_ne ((by decide : ∀ n ∈ Tag.voidNames, (n.toList.drop 1).all Char.isDigit = false) n hn) rank
      (of_decide_eq_true e)

theorem IsFreeName.ne_row {name : Text} (h : IsFreeName name) : name ≠ "tr".toList := by
  rcases h with ⟨n, hn, rfl⟩ | ⟨rank, rfl⟩
  · exact (by decide : ∀ n ∈ noteNames, n.toList ≠ "tr".toList) n hn
  · exact (heading_ne (by decide) rank).symm

theorem writable_noteOpening : NoteOpening.Writable where
  name := by
    rintro name as ⟨(⟨n, hn, rfl⟩ | ⟨rank, rfl⟩) | rfl, -⟩
    · have hall : ∀ n ∈ noteNames, n.toList.head?.any isLetter = true ∧ n.toList.all isLetterOrDigit = true ∧
          lower n.toList = n.toList := by decide +kernel
      obtain ⟨h₁, h₂, h₃⟩ := hall n hn
      exact ⟨h₁, h₂, h₃⟩
    · exact isName_heading rank
    · exact ⟨rfl, rfl, by decide⟩
  attributes := by
    rintro name as ⟨-, ha⟩ a hm
    obtain ⟨n, hn, he⟩ := ha a hm
    have hall : ∀ n ∈ noteAttributes, n.toList ≠ [] ∧ n.toList.all isAttributeNameChar = true ∧
        lower n.toList = n.toList := by decide +kernel
    obtain ⟨h₁, h₂, h₃⟩ := hall n hn
    exact he ▸ ⟨h₁, h₂, h₃⟩
  ordinary := by
    rintro name as ⟨(⟨n, hn, rfl⟩ | ⟨rank, rfl⟩) | rfl, -⟩
    · exact (by decide : ∀ n ∈ noteNames, isAsideName n.toList = false ∧ n.toList ≠ "meta".toList) n hn
    · refine ⟨List.any_eq_false.mpr fun n hn e => ?_, fun e => ?_⟩
      · refine heading_ne ?_ rank (of_decide_eq_true e)
        exact (by decide : ∀ n ∈ ["script", "style", "template", "rt", "rp"],
          (n.toList.drop 1).all Char.isDigit = false) n hn
      · exact heading_ne (by decide) rank e.symm
    · exact ⟨by decide, by decide⟩
  kept := by
    rintro name as ⟨hn, ha⟩
    refine ⟨hn, fun a hm => ?_⟩
    obtain ⟨b, hb, rfl⟩ := Tag.mem_kept hm
    exact keptAttribute_fst name b ▸ ha b hb

/-! ## sound markup -/

/-- Markup that is read, wherever it stands, as openings of notes, closing tags and text, but not as rows of
tables. -/
def Sound (t : Text) : Prop :=
  ∃ ts, Reads t ts ∧ ∀ u ∈ ts, Html.Token.Fits NoteOpening u ∧ u.opens "tr".toList = false

theorem sound_nil : Sound [] := ⟨[], reads_nil, fun _ hu => absurd hu List.not_mem_nil⟩

theorem Sound.append {s t : Text} (hs : Sound s) (ht : Sound t) : Sound (s ++ t) := by
  obtain ⟨ss, hrs, hfs⟩ := hs
  obtain ⟨ts, hrt, hft⟩ := ht
  exact ⟨ss ++ ts, hrs.append hrt, fun u hu => (List.mem_append.mp hu).elim (hfs u) (hft u)⟩

theorem Sound.flatMap {α : Type} {f : α → Text} {l : List α} (h : ∀ a ∈ l, Sound (f a)) :
    Sound (l.flatMap f) := by
  induction l with
  | nil => exact sound_nil
  | cons a l ih =>
    exact (h a List.mem_cons_self).append (ih fun b hb => h b (List.mem_cons_of_mem _ hb))

theorem Sound.of_reads {t : Text} {u : Html.Token} (h : Reads t [u]) (hu : u.Fits NoteOpening)
    (hr : u.opens "tr".toList = false) : Sound t :=
  ⟨[u], h, fun _ hm => List.mem_singleton.mp hm ▸ ⟨hu, hr⟩⟩

theorem sound_text {t : Text} (h : ∀ c ∈ t, isPlain c = true) : Sound t := by
  cases t with
  | nil => exact sound_nil
  | cons c t => exact .of_reads (reads_text h (List.cons_ne_nil c t)) trivial rfl

theorem sound_escapeMarkup (t : Text) : Sound (escapeMarkup t) := by
  cases t with
  | nil => exact sound_nil
  | cons c t => exact .of_reads (reads_escapeMarkup (List.cons_ne_nil c t)) trivial rfl

/-- The written attributes of a tag. -/
def SoundAttributes (t : Text) : Prop :=
  ∃ as ts, List.Forall₂ WritesAttribute as ts ∧ ts.flatten = t ∧ ∀ a ∈ as, IsNoteAttribute a.1

theorem soundAttributes_nil : SoundAttributes [] := ⟨[], [], .nil, rfl, fun _ ha => absurd ha List.not_mem_nil⟩

theorem soundAttributes_attr (name : String) (h : name ∈ noteAttributes) (value : Text) :
    SoundAttributes (attr name value) := by
  have hp : NoteOpening "p".toList [(name.toList, [])] :=
    ⟨.inl (.inl ⟨"p", by decide, rfl⟩), fun a ha => ⟨name, h, by rw [List.mem_singleton.mp ha]⟩⟩
  have hn : IsAttributeName name.toList := writable_noteOpening.attributes hp _ List.mem_cons_self
  exact ⟨[(name.toList, value)], [attr name value], .cons (writesAttribute_attr hn value) .nil,
    List.append_nil _, fun a ha => ⟨name, h, by rw [List.mem_singleton.mp ha]⟩⟩

theorem SoundAttributes.append {s t : Text} (hs : SoundAttributes s) (ht : SoundAttributes t) :
    SoundAttributes (s ++ t) := by
  obtain ⟨as, ss, hws, rfl, has⟩ := hs
  obtain ⟨bs, ts, hwt, rfl, hbs⟩ := ht
  exact ⟨as ++ bs, ss ++ ts, List.rel_append hws hwt, List.flatten_append,
    fun a ha => (List.mem_append.mp ha).elim (has a) (hbs a)⟩

section
variable {name attributes : Text}

theorem reads_noteOpening (hn : IsNoteName name) (hv : isVoidName name = false)
    (ha : SoundAttributes attributes) : ∃ as, Reads ('<' :: name ++ attributes ++ ['>']) [.opening name as false] ∧
      (Html.Token.opening name as false).Fits NoteOpening := by
  obtain ⟨as, ts, hw, rfl, has⟩ := ha
  have hp : NoteOpening name as := ⟨hn, has⟩
  have hverbatim := (@isVerbatim_eq_false { name } (writable_noteOpening.ordinary hp).1).2
  exact ⟨as, reads_opening (writable_noteOpening.name hp) hverbatim hw .plain,
    hp, fun h => absurd h (by simp [hv])⟩

theorem reads_noteClosing (hn : IsNoteName name) : Reads ("</".toList ++ name ++ ['>']) [.closing name] := by
  have hp : NoteOpening name [] := ⟨hn, fun _ ha => absurd ha List.not_mem_nil⟩
  exact reads_closing (writable_noteOpening.name hp)

theorem sound_opening (hn : IsFreeName name) (hv : isVoidName name = false) (ha : SoundAttributes attributes) :
    Sound ('<' :: name ++ attributes ++ ['>']) := by
  obtain ⟨as, hr, hf⟩ := reads_noteOpening (.inl hn) hv ha
  exact .of_reads hr hf (decide_eq_false hn.ne_row)

theorem sound_closed (hn : IsFreeName name) (ha : SoundAttributes attributes) :
    Sound ('<' :: name ++ attributes ++ [' ', '/', '>']) := by
  obtain ⟨as, ts, hw, rfl, has⟩ := ha
  have hp : NoteOpening name as := ⟨.inl hn, has⟩
  have hverbatim := (@isVerbatim_eq_false { name } (writable_noteOpening.ordinary hp).1).2
  exact .of_reads (reads_opening (writable_noteOpening.name hp) hverbatim hw .spaced) ⟨hp, fun _ => rfl⟩
    (decide_eq_false hn.ne_row)

theorem sound_closing (hn : IsFreeName name) : Sound ("</".toList ++ name ++ ['>']) :=
  .of_reads (reads_noteClosing (.inl hn)) trivial rfl

end

theorem sound_signs (t : String) (h : t.toList.all isPlain = true) : Sound t.toList :=
  sound_text (List.all_eq_true.mp h)

section
variable (name : String)

theorem isFreeName (h : name ∈ noteNames) : IsFreeName name.toList := .inl ⟨name, h, rfl⟩

theorem sound_open (h : name ∈ noteNames) (hv : isVoidName name.toList = false) {attributes : Text}
    (ha : SoundAttributes attributes) : Sound ('<' :: name.toList ++ attributes ++ ['>']) :=
  sound_opening (isFreeName name h) hv ha

theorem sound_close (h : name ∈ noteNames) : Sound ("</".toList ++ name.toList ++ ['>']) :=
  sound_closing (isFreeName name h)

theorem soundAttributes_optional (h : name ∈ noteAttributes) (value : Text) :
    SoundAttributes (if value.isEmpty then [] else attr name value) := by
  split
  · exact soundAttributes_nil
  · exact soundAttributes_attr name h value

end

/-- Sound markup with rows of tables that stand apart. -/
def Laid (t : Text) : Prop :=
  ∃ ts, Reads t ts ∧ (∀ u ∈ ts, Html.Token.Fits NoteOpening u) ∧ TokensApart "tr".toList ts

theorem Sound.laid {t : Text} (h : Sound t) : Laid t := by
  obtain ⟨ts, hr, hf⟩ := h
  exact ⟨ts, hr, fun u hu => (hf u hu).1, .of_forall fun u hu => (hf u hu).2⟩

theorem laid_nil : Laid [] := sound_nil.laid

theorem Laid.append {s t : Text} (hs : Laid s) (ht : Laid t) : Laid (s ++ t) := by
  obtain ⟨ss, hrs, hfs, has⟩ := hs
  obtain ⟨ts, hrt, hft, hat⟩ := ht
  exact ⟨ss ++ ts, hrs.append hrt, fun u hu => (List.mem_append.mp hu).elim (hfs u) (hft u), has.append hat⟩

theorem Laid.flatMap {α : Type} {f : α → Text} {l : List α} (h : ∀ a ∈ l, Laid (f a)) : Laid (l.flatMap f) := by
  induction l with
  | nil => exact laid_nil
  | cons a l ih => exact (h a List.mem_cons_self).append (ih fun b hb => h b (List.mem_cons_of_mem _ hb))

section
variable {name : String} {attributes body : Text}

/-- An element in a line of its own. -/
theorem sound_element (hn : IsFreeName name.toList) (hv : isVoidName name.toList = false)
    (ha : SoundAttributes attributes) (hb : Sound body) : Sound (element name attributes body) := by
  have := (((sound_opening hn hv ha).append hb).append (sound_closing hn)).append (sound_signs "\n" (by decide))
  simpa [element] using this

theorem laid_element (hn : IsFreeName name.toList) (hv : isVoidName name.toList = false)
    (ha : SoundAttributes attributes) (hb : Laid body) : Laid (element name attributes body) := by
  have := (((sound_opening hn hv ha).laid.append hb).append (sound_closing hn).laid).append
    (sound_signs "\n" (by decide)).laid
  simpa [element] using this

theorem laid_row (hb : Sound body) : Laid (element "tr" [] body) := by
  have hn : IsNoteName "tr".toList := .inr rfl
  obtain ⟨as, hro, hfo⟩ := reads_noteOpening hn (by decide) soundAttributes_nil
  have hrc := reads_noteClosing hn
  obtain ⟨us, hr, hf⟩ := hb
  obtain ⟨ts, hrt, hft, hat⟩ := (sound_signs "\n" (by decide)).laid
  refine ⟨.opening "tr".toList as false :: (us ++ .closing "tr".toList :: ts), ?_, ?_, .element (fun u hu => (hf u hu).2) hat⟩
  · have := ((hro.append hr).append hrc).append hrt
    simpa [element] using this
  · refine List.forall_mem_cons.mpr ⟨hfo, List.forall_mem_append.mpr ⟨fun u hu => (hf u hu).1, ?_⟩⟩
    exact List.forall_mem_cons.mpr ⟨trivial, hft⟩

end

/-! ## running text -/

def Token.isMarkup : Token → Bool
  | markup _ => true
  | _ => false

theorem sound_mathMarkup (display : Bool) (t : Text) : Sound (mathMarkup display t) := by
  cases display
  · exact ((sound_signs "\\(" (by decide)).append (sound_escapeMarkup t)).append
      (sound_signs "\\)" (by decide))
  · exact ((sound_signs "\\[" (by decide)).append (sound_escapeMarkup t)).append
      (sound_signs "\\]" (by decide))

theorem Span.isNote (s : Span) : s.name ∈ noteNames ∧ isVoidName s.name.toList = false := by
  have hall : ∀ n ∈ ["em", "strong", "s", "kbd", "span", "a"], n ∈ noteNames ∧ isVoidName n.toList = false := by
    decide
  cases s <;> exact hall _ (by simp [Span.name])

theorem Span.soundAttributes (s : Span) : SoundAttributes s.attributes := by
  cases s with
  | colour name => exact soundAttributes_attr "class" (by decide) _
  | link address title automatic =>
    exact (soundAttributes_attr "href" (by decide) _).append
      (soundAttributes_optional "title" (by decide) title)
  | _ => exact soundAttributes_nil

theorem sound_token {t : Token} (h : t.isMarkup = false) : Sound t.render := by
  cases t with
  | text t => exact sound_escapeMarkup t
  | literal t => exact sound_escapeMarkup t
  | softBreak => exact sound_signs "\n" (by decide)
  | hardBreak =>
    exact (sound_closed (isFreeName "br" (by decide)) soundAttributes_nil).append
      (sound_signs "\n" (by decide))
  | code t =>
    exact ((sound_open "code" (by decide) (by decide) soundAttributes_nil).append
      (sound_escapeMarkup t)).append (sound_close "code" (by decide))
  | markup t => exact nomatch h
  | math t =>
    exact ((sound_open "span" (by decide) (by decide)
      (soundAttributes_attr "class" (by decide) "math inline")).append
      (sound_mathMarkup false (strip t))).append (sound_close "span" (by decide))
  | image address title source alt altInside =>
    have := sound_closed (isFreeName "img" (by decide))
      (((soundAttributes_attr "src" (by decide) address).append
        (soundAttributes_attr "alt" (by decide) alt)).append
        (soundAttributes_optional "title" (by decide) title))
    rw [← List.append_assoc, ← List.append_assoc] at this
    exact this
  | opening s => exact sound_open s.name s.isNote.1 s.isNote.2 s.soundAttributes
  | closing s => exact sound_close s.name s.isNote.1

/-- A piece of running text without raw markup. -/
def IsPlainText (definitions : List Definition) (t : Text) : Prop :=
  ∀ u ∈ typeset t (parseInline definitions t), u.isMarkup = false

instance (definitions : List Definition) (t : Text) : Decidable (IsPlainText definitions t) :=
  inferInstanceAs (Decidable (∀ u ∈ typeset t (parseInline definitions t), u.isMarkup = false))

theorem sound_renderText {definitions : List Definition} {t : Text} (h : IsPlainText definitions t) :
    Sound (renderText definitions t) :=
  .flatMap fun u hu => sound_token (h u hu)

/-! ## blocks -/

mutual

/-- There is no raw markup in the block, and no sign of markup in the titles in it, which are written as
they are. -/
def Block.isPlain (labels : Labels) : Block → Bool
  | .markup _ => false
  | .quote body => Block.isPlainAll labels body
  | .list _ _ items => Block.isPlainItems labels items
  | .directive d params body => (d.title labels params).all Html.isPlain && Block.isPlainAll labels body
  | _ => true

def Block.isPlainAll (labels : Labels) : List Block → Bool
  | [] => true
  | b :: bs => b.isPlain labels && Block.isPlainAll labels bs

def Block.isPlainItems (labels : Labels) : List (List Block) → Bool
  | [] => true
  | i :: is => Block.isPlainAll labels i && Block.isPlainItems labels is

end

section
variable {definitions : List Definition}

theorem sound_renderFence (info content : Text) : Sound (renderFence info content) := by
  have hclose := ((sound_close "code" (by decide)).append (sound_close "pre" (by decide))).append
    (sound_signs "\n" (by decide))
  have hfence {s : Text} (hlanguage : SoundAttributes s) :
      Sound ("<pre><code".toList ++ s ++ ['>'] ++ escapeMarkup content ++ "</code></pre>\n".toList) :=
    (((sound_open "pre" (by decide) (by decide) soundAttributes_nil).append
      (sound_open "code" (by decide) (by decide) hlanguage)).append (sound_escapeMarkup content)).append hclose
  unfold renderFence
  cases fenceLanguage? info with
  | none => exact hfence soundAttributes_nil
  | some l => exact hfence (soundAttributes_attr "class" (by decide) _)

theorem sound_renderMath (label : Option Text) (content : Text) : Sound (renderMath label content) := by
  have hbody : Sound (mathMarkup true (strip content) ++ "\n</div>\n".toList) :=
    (sound_mathMarkup true _).append (((sound_signs "\n" (by decide)).append
      (sound_close "div" (by decide))).append (sound_signs "\n" (by decide)))
  unfold renderMath
  cases label with
  | none =>
    exact ((sound_open "div" (by decide) (by decide) (soundAttributes_attr "class" (by decide) "math block")).append
      (sound_signs "\n" (by decide))).append hbody
  | some l =>
    have hdiv := sound_open "div" (by decide) (by decide)
      ((soundAttributes_attr "id" (by decide) l).append (soundAttributes_attr "class" (by decide) "math block"))
    have hlink := sound_open "a" (by decide) (by decide)
      (((soundAttributes_attr "href" (by decide) ('#' :: l)).append
        (soundAttributes_attr "class" (by decide) "mathlabel")).append
        (soundAttributes_attr "title" (by decide) "Permalink to this equation"))
    have := ((((hdiv.append (sound_signs "\n" (by decide))).append hlink).append
      (sound_signs "¶" (by decide))).append (sound_close "a" (by decide))).append
      (sound_signs "\n" (by decide))
    have := this.append hbody
    simpa [attr, escapeMarkup, escapeChar] using this

theorem sound_align (a : Align) : SoundAttributes a.attr := by
  cases a with
  | none => exact soundAttributes_nil
  | left => exact soundAttributes_attr "style" (by decide) _
  | center => exact soundAttributes_attr "style" (by decide) _
  | right => exact soundAttributes_attr "style" (by decide) _

theorem laid_renderRow {name : String} (hn : name ∈ noteNames) (hv : isVoidName name.toList = false)
    (aligns : List Align) {cells : List Text} (h : ∀ t ∈ cells, IsPlainText definitions t) :
    Laid (renderRow (renderText definitions) name aligns cells) := by
  refine laid_row ((sound_signs "\n" (by decide)).append (.flatMap fun cell hc => ?_))
  have hcell := (List.of_mem_zip hc).1
  exact sound_element (isFreeName name hn) hv (sound_align cell.2) (sound_renderText (h _ hcell))

theorem laid_renderTable (aligns : List Align) {header : List Text} {rows : List (List Text)}
    (hh : ∀ t ∈ header, IsPlainText definitions t) (hr : ∀ row ∈ rows, ∀ t ∈ row, IsPlainText definitions t) :
    Laid (renderTable (renderText definitions) aligns header rows) := by
  have line : Laid "\n".toList := (sound_signs "\n" (by decide)).laid
  refine laid_element (isFreeName "table" (by decide)) (by decide) soundAttributes_nil
    ((line.append ?_).append ?_)
  · exact laid_element (isFreeName "thead" (by decide)) (by decide) soundAttributes_nil
      (line.append (laid_renderRow (by decide) (by decide) aligns hh))
  · split
    · exact laid_nil
    · exact laid_element (isFreeName "tbody" (by decide)) (by decide) soundAttributes_nil
        (line.append (.flatMap fun row hrow => laid_renderRow (by decide) (by decide) aligns (hr row hrow)))

theorem sound_directive (d : Directive) {title : Text} (h : title.all isPlain = true) :
    Sound (d.opening title) ∧ Sound d.closing := by
  have htitle : Sound title := sound_text (List.all_eq_true.mp h)
  have line (name : String) (hn : name ∈ noteNames) : Sound ("</".toList ++ name.toList ++ ['>'] ++ ['\n']) :=
    (sound_close name hn).append (sound_signs "\n" (by decide))
  have classed (name : String) (hn : name ∈ noteNames) (hv : isVoidName name.toList = false) (value : Text) :
      Sound ('<' :: name.toList ++ attr "class" value ++ ['>'] ++ ['\n']) :=
    (sound_open name hn hv (soundAttributes_attr "class" (by decide) value)).append
      (sound_signs "\n" (by decide))
  have quoted (value : Text) : Sound ('<' :: "blockquote".toList ++ attr "class" value ++ ['>'] ++ ['\n']
      ++ "<p>".toList ++ title ++ "</p>\n".toList) :=
    (((classed "blockquote" (by decide) (by decide) value).append
      (sound_open "p" (by decide) (by decide) soundAttributes_nil)).append htitle).append (line "p" (by decide))
  have summary (value : Text) : Sound ('<' :: "details".toList ++ attr "class" value ++ ['>'] ++ ['\n']
      ++ "<summary>".toList ++ title ++ "</summary>\n".toList) :=
    (((classed "details" (by decide) (by decide) value).append
      (sound_open "summary" (by decide) (by decide) soundAttributes_nil)).append htitle).append
      (line "summary" (by decide))
  cases d with
  | warning => exact ⟨quoted "warning", line "blockquote" (by decide)⟩
  | question => exact ⟨quoted "question", line "blockquote" (by decide)⟩
  | answer => exact ⟨summary "answer", line "details" (by decide)⟩
  | file => exact ⟨summary "file", line "details" (by decide)⟩
  | part => exact ⟨summary "section", line "details" (by decide)⟩
  | item =>
    refine ⟨?_, (line "div" (by decide)).append (line "div" (by decide))⟩
    exact (((classed "div" (by decide) (by decide) "item").append
      (classed "div" (by decide) (by decide) "item-marker")).append htitle).append
      (((sound_signs "\n" (by decide)).append (line "div" (by decide))).append
        (classed "div" (by decide) (by decide) "item-content"))
  | times => exact ⟨classed "pre" (by decide) (by decide) "times", line "pre" (by decide)⟩
  | slide =>
    refine ⟨?_, ((line "div" (by decide)).append (line "div" (by decide))).append (line "div" (by decide))⟩
    exact ((((classed "div" (by decide) (by decide) "slide").append
      (classed "div" (by decide) (by decide) "slide-container")).append
      (classed "div" (by decide) (by decide) "slide-header")).append htitle).append
      (((sound_signs "\n" (by decide)).append (line "div" (by decide))).append
        (classed "div" (by decide) (by decide) "slide-main"))

end


theorem sound_lineBefore (begins : Bool) : Sound (lineBefore begins) := by
  cases begins
  · exact sound_nil
  · exact sound_signs "\n" (by decide)

theorem isFreeName_rank (level : Nat) : IsFreeName ("h" ++ toString level).toList ∧
    isVoidName ("h" ++ toString level).toList = false := by
  have hname : ("h" ++ toString level).toList = 'h' :: Nat.toDigits 10 level := by
    rw [String.toList_append]
    exact congrArg ('h' :: ·) String.toList_ofList
  rw [hname]
  exact ⟨.inr ⟨level, rfl⟩, isVoidName_heading level⟩

/-- The number that a list starts with. -/
theorem soundAttributes_start (start : Option Nat) : SoundAttributes (match start with
    | some n => if n = 1 then [] else attr "start" (Text.ofNat n)
    | none => []) := by
  split
  · split
    · exact soundAttributes_nil
    · exact soundAttributes_attr "start" (by decide) _
  · exact soundAttributes_nil

section
variable {definitions : List Definition} {labels : Labels}

mutual

/-- Blocks without raw markup are rendered to markup that is laid so. -/
theorem laid_render (hidden : Bool) : (b : Block) → b.isPlain labels = true →
    (∀ t ∈ b.contents, IsPlainText definitions t) → Laid (Block.render definitions labels hidden b)
  | .paragraph t, _, ht => by
    have hsound := sound_renderText (ht t List.mem_cons_self)
    show Laid (if hidden then renderText definitions t else element "p" [] (renderText definitions t))
    split
    · exact hsound.laid
    · exact (sound_element (isFreeName "p" (by decide)) (by decide) soundAttributes_nil hsound).laid
  | .heading level t, _, ht => by
    obtain ⟨hn, hv⟩ := isFreeName_rank level
    exact (sound_element hn hv soundAttributes_nil (sound_renderText (ht t List.mem_cons_self))).laid
  | .code t, _, _ => (sound_renderFence [] t).laid
  | .fence info t, _, _ => (sound_renderFence info t).laid
  | .markup _, h, _ => nomatch h
  | .rule, _, _ =>
    ((sound_closed (isFreeName "hr" (by decide)) soundAttributes_nil).append (sound_signs "\n" (by decide))).laid
  | .math label t, _, _ => (sound_renderMath label t).laid
  | .table aligns header rows, _, ht => by
    refine laid_renderTable aligns (fun t h => ht t (List.mem_append_left _ h)) fun row hrow t h => ?_
    exact ht t (List.mem_append_right _ (List.mem_flatten.mpr ⟨row, hrow, h⟩))
  | .definition _, _, _ => laid_nil
  | .quote body, h, ht =>
    laid_element (isFreeName "blockquote" (by decide)) (by decide) soundAttributes_nil
      ((sound_lineBefore _).laid.append (laid_renderAll false false body h ht))
  | .list start tight items, h, ht => by
    have hitems := (sound_signs "\n" (by decide)).laid.append (laid_renderItems tight items h ht)
    show Laid (element (if start.isSome then "ol" else "ul") _ _)
    split
    · exact laid_element (isFreeName "ol" (by decide)) (by decide) (soundAttributes_start start) hitems
    · exact laid_element (isFreeName "ul" (by decide)) (by decide) (soundAttributes_start start) hitems
  | .directive d params body, h, ht => by
    obtain ⟨htitle, hbody⟩ := Bool.and_eq_true_iff.mp h
    obtain ⟨hopen, hclose⟩ := sound_directive d htitle
    exact (hopen.laid.append (laid_renderAll false false body hbody ht)).append hclose.laid

theorem laid_renderAll (tight afterHidden : Bool) : (bs : List Block) → Block.isPlainAll labels bs = true →
    (∀ t ∈ Block.contentsAll bs, IsPlainText definitions t) →
    Laid (Block.renderAll definitions labels tight afterHidden bs)
  | [], _, _ => laid_nil
  | b :: bs, h, ht => by
    obtain ⟨hb, hbs⟩ := Bool.and_eq_true_iff.mp h
    have hfirst := fun hidden => laid_render hidden b hb fun t hm => ht t (List.mem_append_left _ hm)
    have hrest := fun after => laid_renderAll tight after bs hbs fun t hm => ht t (List.mem_append_right _ hm)
    show Laid (if b.isDefinition then Block.renderAll definitions labels tight afterHidden bs
      else (if afterHidden && b.opensLine && !b.isHidden tight then ['\n'] else [])
        ++ Block.render definitions labels (b.isHidden tight) b
        ++ Block.renderAll definitions labels tight (b.isHidden tight) bs)
    split
    · exact hrest _
    · refine Laid.append (Laid.append ?_ (hfirst _)) (hrest _)
      split
      · exact (sound_signs "\n" (by decide)).laid
      · exact laid_nil

theorem laid_renderItems (tight : Bool) : (is : List (List Block)) → Block.isPlainItems labels is = true →
    (∀ t ∈ Block.contentsItems is, IsPlainText definitions t) →
    Laid (Block.renderItems definitions labels tight is)
  | [], _, _ => laid_nil
  | i :: is, h, ht => by
    obtain ⟨hi, his⟩ := Bool.and_eq_true_iff.mp h
    have hitem := laid_renderAll tight false i hi fun t hm => ht t (List.mem_append_left _ hm)
    have hrest := laid_renderItems tight is his fun t hm => ht t (List.mem_append_right _ hm)
    exact (laid_element (isFreeName "li" (by decide)) (by decide) soundAttributes_nil
      ((sound_lineBefore _).laid.append hitem)).append hrest

end

end

/-! ## the page -/

/-- The notes can be read, and hold no raw markup. -/
def isPlainNotes (labels : Labels) (t : Text) : Bool :=
  match parseBlocks (normalized t) with
  | .ok blocks => Block.isPlainAll labels blocks &&
    (Block.contentsAll blocks).all fun u => IsPlainText (Block.definitionsAll blocks) u
  | .error _ => false

theorem gives_forM_write {ε : Type} (ms : List Message) :
    Logged.Gives (ms.forM Logged.write : Logged ε PUnit) (.ok ()) := by
  induction ms with
  | nil => exact Logged.gives_pure _
  | cons m ms ih => exact Logged.Gives.bind (a := ()) (fun _ => rfl) ih

/-- What notes are rendered to. -/
theorem gives_render (labels : Labels) {t : Text} {blocks : List Block} (h : parseBlocks (normalized t) = .ok blocks) :
    (render labels t).Gives (.ok (Block.renderAll (Block.definitionsAll blocks) labels false false blocks)) := by
  unfold render
  rw [h]
  exact (gives_forM_write _).bind (Logged.gives_pure _)

/-- Notes without raw markup are rendered to a tree of their elements and of text, in which no row stands in a
row. -/
theorem tree_render {labels : Labels} {t : Text} (h : isPlainNotes labels t = true) {rendered : Text}
    {notes : List Message} (hr : (render labels t).outcome = (.ok rendered, notes)) :
    ∃ ns, Node.parse ("<body>".toList ++ rendered ++ "</body>".toList) = .ok ns ∧
      Grown NoteOpening ns ∧ Apart "tr".toList ns := by
  unfold isPlainNotes at h
  split at h
  · rename_i blocks hblocks
    obtain ⟨hplain, htexts⟩ := Bool.and_eq_true_iff.mp h
    have hrendered := (gives_render labels hblocks).outcome
    rw [hr] at hrendered
    obtain rfl := Except.ok.inj hrendered
    obtain ⟨ts, hr, hf, ha⟩ := ((sound_open "body" (by decide) (by decide) soundAttributes_nil).laid.append
      (laid_renderAll false false blocks hplain fun u hu => of_decide_eq_true (List.all_eq_true.mp htexts u hu))).append
      (sound_close "body" (by decide)).laid
    exact apart_of_reads (fun _ _ hp => (writable_noteOpening.ordinary hp).1) hr hf ha 0
  · exact absurd h Bool.false_ne_true

end Lectern.Markdown
