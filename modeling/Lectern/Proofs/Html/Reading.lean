import Lectern.Html.Written
import Lectern.Proofs.Html.Scan

/-!
# What has been read of a page

A page is read from the front, and what has been read of it is a `Builder`.  `Reads t ts` says that
the text `t` is read as the tokens `ts`, whatever was read before it and whatever follows it.

* `Reads.append`      pieces are read one after the other;
* `reads_text`, `reads_escape`, `reads_escapeMarkup`   text, plain and with references;
* `reads_opening`, `reads_closing`   tags.
-/

namespace Lectern.Html
open Text

namespace Builder

/-- Goes on reading. -/
def read (b : Builder) (t : Text) : Except Rejection Builder :=
  (scan t).map (·.foldl step b)

theorem read_nil (b : Builder) : b.read [] = .ok b := rfl

end Builder

theorem parse_eq_read (t : Text) (g : Nat) :
    Node.parse t g = (Builder.read { generation := g } t).map Builder.finish := by
  unfold Node.parse Builder.read
  cases scan t <;> rfl

/-- The text is read as these tokens. -/
def Reads (t : Text) (ts : List Token) : Prop :=
  ∀ (b : Builder) (rest : Text), b.read (t ++ rest) = (ts.foldl Builder.step b).read rest

theorem reads_nil : Reads [] [] := fun _ _ => rfl

theorem Reads.append {s t : Text} {ss ts : List Token} (hs : Reads s ss) (ht : Reads t ts) :
    Reads (s ++ t) (ss ++ ts) := fun b rest => by
  rw [List.append_assoc, hs, ht, List.foldl_append]

theorem Reads.read {t : Text} {ts : List Token} (h : Reads t ts) (b : Builder) :
    b.read t = .ok (ts.foldl Builder.step b) := by
  have := h b []
  rwa [List.append_nil, Builder.read_nil] at this

/-! ## text -/

theorem step_text_text (b : Builder) (s t : Text) :
    (b.step (.text s)).step (.text t) = b.step (.text (s ++ t)) := by
  simp [Builder.step]

/-- Characters that stand for themselves. -/
def isPlain (c : Char) : Bool := c ≠ '<' && c ≠ '&'

theorem scan_plain {c : Char} (hc : isPlain c = true) (rest : Text) :
    scan (c :: rest) = (scan (rest.dropWhile isPlain)).map (.text (c :: rest.takeWhile isPlain) :: ·) := by
  obtain ⟨h₁, h₂⟩ := Bool.and_eq_true_iff.mp hc
  have hspan : (rest.span fun d => d ≠ '<' && d ≠ '&')
      = (rest.takeWhile isPlain, rest.dropWhile isPlain) :=
    List.span_eq_takeWhile_dropWhile ..
  have hlt : (rest.dropWhile isPlain).length < rest.length + 1 :=
    Nat.lt_succ_of_le (List.dropWhile_sublist _).length_le
  rw [scan, List.length_cons, scanAux, if_neg (of_decide_eq_true h₁), if_neg (of_decide_eq_true h₂), hspan]
  dsimp only
  rw [scanAux_eq_of_lt hlt (Nat.lt_succ_self _), ← scan]
  cases scan (rest.dropWhile isPlain) <;> rfl

theorem reads_plain {c : Char} (hc : isPlain c = true) : Reads [c] [.text [c]] := by
  intro b rest
  rw [Builder.read, List.cons_append, List.nil_append, scan_plain hc, Builder.read]
  cases rest with
  | nil => rfl
  | cons d rest =>
    by_cases hd : isPlain d = true
    · rw [scan_plain hd, List.takeWhile_cons_of_pos hd, List.dropWhile_cons_of_pos hd]
      cases scan (rest.dropWhile isPlain) with
      | error e => rfl
      | ok us =>
        show Except.ok _ = Except.ok _
        simp only [List.foldl_cons, List.foldl_nil, step_text_text, List.cons_append, List.nil_append]
    · rw [List.takeWhile_cons_of_neg hd, List.dropWhile_cons_of_neg hd]
      cases scan (d :: rest) <;> rfl

/-- A text read sign by sign. -/
theorem Reads.of_signs {f : Char → Text} {t : Text} (h : ∀ c ∈ t, Reads (f c) [.text [c]]) (ht : t ≠ []) :
    Reads (t.flatMap f) [.text t] := by
  induction t with
  | nil => exact absurd rfl ht
  | cons c t ih =>
    have hc := h c List.mem_cons_self
    cases t with
    | nil => simpa using hc
    | cons d t =>
      intro b rest
      have hrest := ih (fun e he => h e (List.mem_cons_of_mem _ he)) (List.cons_ne_nil _ _)
      rw [List.flatMap_cons, hc.append hrest b rest, List.foldl_append]
      simp only [List.foldl_cons, List.foldl_nil, step_text_text, List.cons_append, List.nil_append]

theorem reads_text {t : Text} (h : ∀ c ∈ t, isPlain c = true) (ht : t ≠ []) : Reads t [.text t] := by
  have := Reads.of_signs (f := fun c => [c]) (fun c hc => reads_plain (h c hc)) ht
  rwa [List.flatMap_singleton' t] at this

theorem scan_reference {t rest text : Text} (h : readReference t = .ok (.means text rest)) :
    scan ('&' :: t) = (scan rest).map (.text text :: ·) := by
  have hlt : rest.length < t.length + 1 := Nat.lt_succ_of_le (length_readReference_le h)
  rw [scan, List.length_cons, scanAux, if_neg (by decide), if_pos rfl, h]
  show (do return Token.text text :: (← scanAux (t.length + 1) false rest)) = _
  rw [scanAux_eq_of_lt hlt (Nat.lt_succ_self _), ← scan]
  cases scan rest <;> rfl

theorem reads_reference (name : Text) {text : Text}
    (h : ∀ rest, readReference (name ++ ';' :: rest) = .ok (.means text rest)) :
    Reads ('&' :: name ++ [';']) [.text text] := by
  intro b rest
  have ht : '&' :: name ++ [';'] ++ rest = '&' :: (name ++ ';' :: rest) := by simp
  rw [Builder.read, ht, scan_reference (h rest), Builder.read]
  cases scan rest <;> rfl

theorem scan_markup {t rest : Text} {ts : List Token} (h : readMarkup t = .ok (some (ts, rest))) :
    scan ('<' :: t) = (scan rest).map (ts ++ ·) := by
  have hlt : rest.length < t.length + 1 := Nat.lt_succ_of_le (length_readMarkup_le h)
  rw [scan, List.length_cons, scanAux, if_pos rfl, h]
  show (do return ts ++ (← scanAux (t.length + 1) false rest)) = _
  rw [scanAux_eq_of_lt hlt (Nat.lt_succ_self _), ← scan]
  cases scan rest <;> rfl

theorem reads_markup {t : Text} {ts : List Token}
    (h : ∀ rest, readMarkup (t ++ rest) = .ok (some (ts, rest))) : Reads ('<' :: t) ts := by
  intro b rest
  rw [Builder.read, List.cons_append, scan_markup (h rest), Builder.read]
  cases scan rest with
  | error e => rfl
  | ok us => exact congrArg Except.ok List.foldl_append

theorem reads_amp : Reads "&amp;".toList [.text ['&']] := reads_reference "amp" fun _ => rfl

theorem reads_lt : Reads "&lt;".toList [.text ['<']] := reads_reference "lt" fun _ => rfl

theorem reads_gt : Reads "&gt;".toList [.text ['>']] := reads_reference "gt" fun _ => rfl

theorem reads_quot : Reads "&quot;".toList [.text ['"']] := reads_reference "quot" fun _ => rfl

theorem reads_escapeChar (c : Char) : Reads (escapeChar c) [.text [c]] := by
  unfold escapeChar
  split
  · exact reads_amp
  · exact reads_lt
  · exact reads_gt
  · refine reads_plain ?_
    simp_all [isPlain]

theorem reads_escape {t : Text} (ht : t ≠ []) : Reads (escape t) [.text t] :=
  Reads.of_signs (fun c _ => reads_escapeChar c) ht

/-! ## tags -/

/-- A name of plain letters and digits, in small letters. -/
structure IsName (name : Text) : Prop where
  head : name.head?.any isLetter = true
  all : name.all isLetterOrDigit = true
  lower : lower name = name

section
variable {c : Char}

theorem toNat_of_alphanum (h : isLetterOrDigit c = true) :
    (48 ≤ c.toNat ∧ c.toNat ≤ 57) ∨ (65 ≤ c.toNat ∧ c.toNat ≤ 90) ∨ (97 ≤ c.toNat ∧ c.toNat ≤ 122) := by
  have hupper (h : c.isUpper = true) : 65 ≤ c.toNat ∧ c.toNat ≤ 90 := of_decide_eq_true h
  have hlower (h : c.isLower = true) : 97 ≤ c.toNat ∧ c.toNat ≤ 122 :=
    (Bool.and_eq_true_iff.mp h).imp of_decide_eq_true of_decide_eq_true
  rcases Bool.or_eq_true_iff.mp h with h | h
  · rcases Bool.or_eq_true_iff.mp h with h | h
    · exact .inr (.inl (hupper h))
    · exact .inr (.inr (hlower h))
  · exact .inl (Char.isDigit_iff_toNat.mp h)

theorem isBlank_eq_false_of_alphanum (h : isLetterOrDigit c = true) : isBlank c = false := by
  have := toNat_of_alphanum h
  simp only [isBlank, inRanges, blankRanges, List.any_cons, List.any_nil, Bool.or_false,
    Bool.or_eq_false_iff, Bool.and_eq_false_iff, decide_eq_false_iff_not]
  omega

theorem not_mem_of_alphanum {cs : Text} (hcs : cs.all (!isLetterOrDigit ·) = true)
    (h : isLetterOrDigit c = true) : c ∉ cs := fun hc => by
  have := List.all_eq_true.mp hcs c hc
  rw [h] at this
  exact nomatch this

theorem isTagNameChar_of_alphanum (h : isLetterOrDigit c = true) : isTagNameChar c = true := by
  rw [isTagNameChar, List.contains_eq_mem, decide_eq_false (not_mem_of_alphanum (by decide) h)]
  rfl

end

theorem span_append {p : Char → Bool} {s t : Text} (hs : s.all p = true)
    (ht : t.head?.all (!p ·) = true) : (s ++ t).span p = (s, t) := by
  rw [List.span_eq_takeWhile_dropWhile]
  induction s with
  | nil =>
    cases t with
    | nil => rfl
    | cons c t =>
      have hc : ¬ p c = true := by simpa using ht
      rw [List.nil_append, List.takeWhile_cons_of_neg hc, List.dropWhile_cons_of_neg hc]
  | cons c s ih =>
    obtain ⟨hc, hs⟩ := Bool.and_eq_true_iff.mp hs
    obtain ⟨h₁, h₂⟩ := Prod.mk.inj (ih hs)
    rw [List.cons_append, List.takeWhile_cons_of_pos hc, List.dropWhile_cons_of_pos hc, h₁, h₂]

theorem indexOf?_append_cons {c : Char} {s : Text} (h : c ∉ s) (t : Text) :
    indexOf? [c] (s ++ c :: t) = some s.length := by
  induction s with
  | nil => simp [indexOf?, startsWith, stripPrefix?]
  | cons d s ih =>
    have hd : c ≠ d := fun e => h (e ▸ List.mem_cons_self)
    have hs : startsWith [c] (d :: (s ++ c :: t)) = false := by simp [startsWith, stripPrefix?, hd]
    rw [List.cons_append, indexOf?, hs, ih fun hc => h (List.mem_cons_of_mem _ hc)]
    rfl

namespace IsName
variable {name : Text} (h : IsName name)
include h

theorem not_mem {c : Char} (hc : isLetterOrDigit c = false) : c ∉ name := fun hm => by
  rw [List.all_eq_true.mp h.all c hm] at hc
  exact nomatch hc

theorem exists_cons : ∃ c cs, name = c :: cs ∧ isLetter c = true := by
  have hh := h.head
  cases name with
  | nil => exact nomatch hh
  | cons c cs => exact ⟨c, cs, rfl, by simpa using hh⟩

end IsName

theorem readMarkup_closing {name : Text} (h : IsName name) (rest : Text) :
    readMarkup ('/' :: name ++ ['>'] ++ rest) = .ok (some ([.closing name], rest)) := by
  obtain ⟨c, cs, hname, hc⟩ := h.exists_cons
  have hcut : cutAt? '>' (name ++ '>' :: rest) = some (name, rest) := by
    rw [cutAt?, indexOf?_append_cons (h.not_mem (by decide))]
    simp
  have hblank : name.dropWhile isBlank = name := by
    rw [hname, List.dropWhile_cons_of_neg]
    rw [isBlank_eq_false_of_alphanum (List.all_eq_true.mp h.all c (hname ▸ List.mem_cons_self))]
    decide
  have hspan : (name.span fun c => isLetterOrDigit c || "-.:_".toList.contains c) = (name, []) := by
    have := span_append (p := fun c => isLetterOrDigit c || "-.:_".toList.contains c) (s := name) (t := [])
      (List.all_eq_true.mpr fun d hd => by rw [List.all_eq_true.mp h.all d hd]; rfl) rfl
    rwa [List.append_nil] at this
  show Except.ok (readClosing? (name ++ ['>'] ++ rest)) = _
  rw [List.append_assoc, List.cons_append, List.nil_append, readClosing?, hcut, Option.map_some]
  dsimp only
  rw [hblank, hspan]
  subst hname
  dsimp only
  rw [hc, h.lower]
  rfl

theorem reads_closing {name : Text} (h : IsName name) :
    Reads ("</".toList ++ name ++ ['>']) [.closing name] := reads_markup (readMarkup_closing h)

/-! ## attributes -/

structure IsAttributeName (name : Text) : Prop where
  nonempty : name ≠ []
  all : name.all isAttributeNameChar = true
  lower : lower name = name

/-- An attribute as it may be written, from the blank before it on. -/
inductive WritesAttribute (a : Text × Text) : Text → Prop where
  | quoted (q : Char) (w : Text) (hq : q = '"' ∨ q = '\'') (hw : q ∉ w) (hv : unescape w = .ok a.2)
    (hn : IsAttributeName a.1) : WritesAttribute a (' ' :: a.1 ++ '=' :: q :: w ++ [q])

theorem IsAttributeName.exists_cons {name : Text} (h : IsAttributeName name) :
    ∃ c cs, name = c :: cs ∧ (isBlank c || c = '/') = false ∧ c ≠ '>' ∧
      cs.all isAttributeNameChar = true := by
  obtain ⟨hne, hall, -⟩ := h
  cases name with
  | nil => exact absurd rfl hne
  | cons c cs =>
    obtain ⟨hc, hcs⟩ := Bool.and_eq_true_iff.mp hall
    rw [isAttributeNameChar, Bool.not_eq_true', Bool.or_eq_false_iff, List.contains_eq_mem,
      decide_eq_false_iff_not] at hc
    refine ⟨c, cs, rfl, ?_, fun e => hc.2 (e ▸ by decide), hcs⟩
    rw [hc.1, Bool.false_or]
    exact decide_eq_false fun e => hc.2 (e ▸ by decide)

/-- What stands behind the attributes in a tag, and whether it closes it. -/
inductive WritesEnd : Bool → Text → Prop where
  | plain : WritesEnd false ['>']
  | closed : WritesEnd true ['/', '>']
  | spaced : WritesEnd true [' ', '/', '>']

/-- The end of a tag without the blank before it. -/
def endMarks (closed : Bool) : Text := if closed then ['/', '>'] else ['>']

theorem skipFiller_end {closed : Bool} {e : Text} (h : WritesEnd closed e) (rest : Text) :
    skipFiller (e ++ rest) = endMarks closed ++ rest := by
  cases h <;> rfl

theorem skipFiller_space {c : Char} (hc : (isBlank c || c = '/') = false) (t : Text) :
    skipFiller (' ' :: c :: t) = c :: t := by
  obtain ⟨hb, hs⟩ := Bool.or_eq_false_iff.mp hc
  have hslash : c ≠ '/' := of_decide_eq_false hs
  have hself : skipFiller (c :: t) = c :: t := by
    rw [skipFiller, if_neg (by simp [hb, hslash])]
    exact fun _ e => absurd e hslash
  rw [skipFiller, if_pos (by decide), hself]
  exact nofun

theorem readValue_written {q : Char} (hq : q = '"' ∨ q = '\'') {w : Text} (hw : q ∉ w) (rest : Text) :
    readValue? ('=' :: q :: w ++ q :: rest) = some (w, q, rest) := by
  have hindex := indexOf?_append_cons hw rest
  have hequals : isBlank '=' = false := rfl
  have hquote : isBlank q = false ∧ q ≠ '=' := by rcases hq with rfl | rfl <;> decide
  have hisq : (decide (q = '"') || decide (q = '\'')) = true := by rcases hq with rfl | rfl <;> rfl
  simp [readValue?, List.span_eq_takeWhile_dropWhile, hequals, hquote, hisq, hindex]

theorem readAttributes_written {as : List (Text × Text)} {ts : List Text}
    (h : List.Forall₂ WritesAttribute as ts) {closed : Bool} {e : Text} (he : WritesEnd closed e)
    (rest : Text) {fuel : Nat} (hf : as.length < fuel) {before : Char} (hb : endsPiece before = true) :
    ∃ ws, readAttributes fuel before (skipFiller (ts.flatten ++ e ++ rest))
        = (ws, endMarks closed ++ rest) ∧
      ws.mapM (fun a : Text × Text => (unescape a.2).map (a.1, ·)) = .ok as := by
  induction h generalizing fuel before with
  | nil =>
    refine ⟨[], ?_, rfl⟩
    rw [List.flatten_nil, List.nil_append, skipFiller_end he]
    cases fuel with
    | zero => rfl
    | succ fuel => cases closed <;> simp [endMarks, readAttributes, hb]
  | @cons a t as ts ha hs ih =>
    obtain ⟨q, w, hq, hw, hv, hn⟩ := ha
    obtain ⟨c, cs, hname, hc, hgt, hcs⟩ := hn.exists_cons
    cases fuel with
    | zero => exact absurd hf (Nat.not_lt_zero _)
    | succ fuel =>
      have hendq : endsPiece q = true := by rcases hq with rfl | rfl <;> rfl
      generalize hmore : ts.flatten ++ e ++ rest = more at ih
      have hnext : endsPiece (if (skipFiller more).length < more.length then ' ' else q) = true := by
        split
        · rfl
        · exact hendq
      obtain ⟨ws, hws, hread⟩ := ih (Nat.lt_of_succ_lt_succ hf) hnext
      have htext : ((' ' :: a.1 ++ '=' :: q :: w ++ [q]) :: ts).flatten ++ e ++ rest
          = ' ' :: c :: (cs ++ '=' :: q :: w ++ q :: more) := by
        simp [hname, ← hmore]
      have hspan : (cs ++ '=' :: q :: w ++ q :: more).span isAttributeNameChar
          = (cs, '=' :: q :: w ++ q :: more) := by
        rw [List.append_assoc]
        exact span_append hcs rfl
      have hstart : (!endsPiece before || isBlank c || c = '/' || c = '>') = false := by
        rw [hb, Bool.not_true, Bool.false_or, hc]
        exact decide_eq_false hgt
      refine ⟨(a.1, w) :: ws, ?_, ?_⟩
      · rw [htext, skipFiller_space hc, readAttributes, hstart, hspan]
        dsimp only
        rw [readValue_written hq hw, Option.getD_some]
        dsimp only
        rw [hws, ← hname, hn.lower]
        rfl
      · rw [List.mapM_cons, hread]
        dsimp only
        rw [hv]
        rfl

theorem two_mul_length_le {as : List (Text × Text)} {ts : List Text}
    (h : List.Forall₂ WritesAttribute as ts) : 2 * as.length ≤ ts.flatten.length := by
  induction h with
  | nil => exact Nat.le_refl _
  | cons ha _ ih =>
    obtain ⟨q, w, -, -, -, -⟩ := ha
    rw [List.flatten_cons, List.length_append, List.length_cons]
    simp only [List.length_append, List.length_cons]
    omega

theorem readTag_written {name : Text} (h : IsName name) {as : List (Text × Text)} {ts : List Text}
    (ha : List.Forall₂ WritesAttribute as ts) {closed : Bool} {e : Text} (he : WritesEnd closed e)
    (rest : Text) :
    readTag (name ++ (ts.flatten ++ e ++ rest)) = .ok (.tag (.opening name as closed) rest) := by
  have hname : name.all isTagNameChar = true :=
    List.all_eq_true.mpr fun c hc => isTagNameChar_of_alphanum (List.all_eq_true.mp h.all c hc)
  cases ha with
  | nil =>
    have hspan : (name ++ (e ++ rest)).span isTagNameChar = (name, e ++ rest) :=
      span_append hname (by cases he <;> rfl)
    rw [List.flatten_nil, List.nil_append, readTag, hspan]
    cases he <;> (show Except.ok (TagReading.tag (.opening (lower name) [] _) rest) = _; rw [h.lower]; rfl)
  | @cons a t as ts ha hs =>
    have hall : List.Forall₂ WritesAttribute (a :: as) (t :: ts) := .cons ha hs
    have hlength : 2 * (a :: as).length ≤ ((t :: ts).flatten ++ e ++ rest).length := by
      refine Nat.le_trans (two_mul_length_le hall) ?_
      rw [List.append_assoc, List.length_append]
      exact Nat.le_add_right _ _
    generalize hafter : (t :: ts).flatten ++ e ++ rest = after at hlength
    have hread := fun fuel (hf : (a :: as).length < fuel) =>
      readAttributes_written hall he rest hf (show endsPiece ' ' = true from rfl)
    rw [hafter] at hread
    obtain ⟨q, w, hq, hw, hv, hn⟩ := ha
    obtain ⟨c, cs, hc, hfill, hgt, -⟩ := hn.exists_cons
    obtain ⟨more, hmore⟩ : ∃ more, after = ' ' :: c :: more :=
      ⟨cs ++ '=' :: q :: w ++ q :: (ts.flatten ++ e ++ rest), by simp [← hafter, hc]⟩
    have hspan : (name ++ after).span isTagNameChar = (name, after) :=
      span_append hname (by rw [hmore]; rfl)
    have hfiller : (after.span fun c => isBlank c || c = '/') = ([' '], c :: more) := by
      rw [hmore]
      exact span_append (s := [' ']) rfl (by simpa using hfill)
    have hbody : skipFiller after = c :: more := by rw [hmore, skipFiller_space hfill]
    have hlen : (a :: as).length < (c :: more).length + 1 := by
      have : after.length = (c :: more).length + 1 := by rw [hmore]; rfl
      rw [List.length_cons] at hlength ⊢
      omega
    obtain ⟨ws, hws, hvalues⟩ := hread _ hlen
    rw [hbody] at hws
    rw [readTag, hspan]
    dsimp only
    rw [hfiller]
    dsimp only
    split
    · rename_i h'
      exact absurd (List.cons.inj h').1 hgt
    · have hlast : (([' '].getLast?).or name.getLast?).getD ' ' = ' ' := rfl
      rw [hlast, hws]
      cases closed
      · show Except.map _ (ws.mapM _) = _
        rw [hvalues, h.lower]
        rfl
      · show Except.map _ (ws.mapM _) = _
        rw [hvalues, h.lower]
        rfl

section
variable {name : Text} (h : IsName name) (hv : isVerbatimName name = false)
  {as : List (Text × Text)} {ts : List Text} (ha : List.Forall₂ WritesAttribute as ts) {closed : Bool}
  {e : Text} (he : WritesEnd closed e)
include h hv ha he

theorem readMarkup_opening (rest : Text) :
    readMarkup (name ++ ts.flatten ++ e ++ rest) = .ok (some ([.opening name as closed], rest)) := by
  obtain ⟨c, cs, hname, hc⟩ := h.exists_cons
  have hassoc : name ++ ts.flatten ++ e ++ rest = name ++ (ts.flatten ++ e ++ rest) := by
    simp only [List.append_assoc]
  have htag := readTag_written h ha he rest
  have hletters : c ≠ '/' ∧ c ≠ '!' ∧ c ≠ '?' := by
    refine ⟨?_, ?_, ?_⟩ <;> (rintro rfl; exact absurd hc (by decide))
  rw [hassoc]
  generalize ts.flatten ++ e ++ rest = after at htag
  subst hname
  rw [List.cons_append] at htag ⊢
  unfold readMarkup
  split
  · contradiction
  · rename_i heq
    exact absurd (List.cons.inj heq).1 hletters.1
  · rename_i heq
    exact absurd (List.cons.inj heq).1 hletters.2.1
  · rename_i heq
    exact absurd (List.cons.inj heq).1 hletters.2.2
  · rename_i heq
    obtain ⟨rfl, rfl⟩ := List.cons.inj heq
    rw [if_pos hc, htag]
    cases closed
    · show (if isVerbatimName (c :: cs) then _ else _) = _
      rw [hv]
      rfl
    · rfl

theorem reads_opening : Reads ('<' :: name ++ ts.flatten ++ e) [.opening name as closed] :=
  reads_markup (readMarkup_opening h hv ha he)

end

end Lectern.Html
