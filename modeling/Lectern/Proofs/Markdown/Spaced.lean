import Lectern.Markdown.Render
import Lectern.Proofs.Html.Said
import Lectern.Proofs.Html.Back
import Lectern.Proofs.Markdown.Running
import Lectern.Proofs.Words

/-!
# Running text of plain words

Running text of several lines may hold nothing but words of letters, digits and the signs of numbers.  Such text keeps
its words.  The ends of its lines become breaks, and the spaces around them go.

* `isQuiet`            the characters of such text;
* `Spaced`             a cursor that has read some of a text, which its tokens say but for how it is spaced;
* `exists_forest`      the markup of such text is read as text and line breaks of the same words.
-/

namespace Lectern.Markdown
open Text

/-- Letters, digits, the signs of numbers, and the space. -/
def isQuiet (c : Char) : Bool := isLetterOrDigit c || c = '.' || c = '-' || c = '+' || c = ' '

theorem toNat_lt_of_isQuiet {c : Char} (h : isQuiet c = true) : c.toNat < 0x80 := by
  simp only [isQuiet, Bool.or_eq_true, decide_eq_true_eq] at h
  rcases h with (((h | rfl) | rfl) | rfl) | rfl
  · exact toNat_lt_of_isCalm (by simp [isCalm, isFileChar, h])
  all_goals decide

theorem forall_quiet {p : Char → Prop} (h : ∀ n < 0x80, isQuiet (Char.ofNat n) = true → p (Char.ofNat n)) {c : Char}
    (hc : isQuiet c = true) : p c := by
  have hn := h c.toNat (toNat_lt_of_isQuiet hc)
  rw [Char.ofNat_toNat] at hn
  exact hn hc

/-- The token is text or the end of a line. -/
def Token.isRunning : Token → Bool
  | .text _ | .softBreak | .hardBreak => true
  | _ => false

/-- A cursor that has read `s`, which its tokens and the pending text say, but for how it is spaced; `r` is still to
be read. -/
structure Spaced (s r : Text) (c : Cursor) : Prop extends Reading s r c where
  bare : c.delimiters = #[]
  running : ∀ t ∈ c.tokens.toList, t.isRunning = true
  said : SameWords (Token.spoken true c.tokens.toList ++ c.pending.reverse) s

namespace Spaced
variable {s r : Text} {c : Cursor}

theorem start (definitions : List Definition) (t : Text) : Spaced [] t (Cursor.start definitions t) where
  toReading := .start definitions t
  bare := rfl
  running := fun _ h => absurd h List.not_mem_nil
  said := .refl []

/-- Plain characters read. -/
theorem say {w : Text} (h : Spaced s (w ++ r) c) : Spaced (s ++ w) r ((c.say w).moveTo (s.length + w.length)) where
  toReading := h.move rfl rfl rfl rfl
  bare := h.bare
  running := h.running
  said := by
    show SameWords (_ ++ (w.reverse ++ c.pending).reverse) (s ++ w)
    rw [List.reverse_append, List.reverse_reverse, ← List.append_assoc]
    exact h.said.append (.refl w)

theorem spoken_flush (c : Cursor) :
    Token.spoken true c.flush.tokens.toList = Token.spoken true c.tokens.toList ++ c.pending.reverse := by
  unfold Cursor.flush
  split
  · rename_i h
    rw [List.isEmpty_iff.mp h, List.reverse_nil, List.append_nil]
  · simp [Token.spoken, Token.spokenPart]

theorem running_flush (h : ∀ t ∈ c.tokens.toList, t.isRunning = true) :
    ∀ t ∈ c.flush.tokens.toList, t.isRunning = true := by
  unfold Cursor.flush
  split
  · exact h
  · intro t ht
    rw [Array.toList_push] at ht
    rcases List.mem_append.mp ht with ht | ht
    · exact h t ht
    · obtain rfl := List.mem_singleton.mp ht
      rfl

theorem flush (h : Spaced s r c) : Spaced s r c.flush := by
  refine ⟨⟨?_, ?_, ?_, ?_, ?_⟩, ?_, running_flush h.running, ?_⟩
  case refine_7 =>
    rw [spoken_flush, pending_flush, List.reverse_nil, List.append_nil]
    exact h.said
  all_goals
    unfold Cursor.flush
    split
  all_goals first | exact h.src | exact h.pos | exact h.stop | exact h.depth | exact h.ended | exact h.bare

/-! ## the end of a line -/

/-- The end of a line becomes a token; spaces before it are left out. -/
theorem exists_sayBreak (c : Cursor) : ∃ u p b, c.pending = u ++ p ∧ isAllBlank u = true ∧
    (b = Token.softBreak ∨ b = Token.hardBreak) ∧ sayBreak false c = ({ c with pending := p } : Cursor).push b := by
  unfold sayBreak
  rw [if_neg Bool.false_ne_true]
  split
  · rename_i r hp
    refine ⟨' ' :: ' ' :: r.takeWhile (· = ' '), r.dropWhile (· = ' '), .hardBreak, ?_, ?_, .inr rfl, rfl⟩
    · rw [hp, List.cons_append, List.cons_append, List.takeWhile_append_dropWhile]
    · refine List.all_eq_true.mpr fun d hd => ?_
      have hd : d = ' ' := by
        rcases List.mem_cons.mp hd with rfl | hd
        · rfl
        · rcases List.mem_cons.mp hd with rfl | hd
          · rfl
          · exact of_decide_eq_true (List.all_eq_true.mp List.all_takeWhile d hd)
      rw [hd]
      decide
  · rename_i r _ hp
    exact ⟨[' '], r, .softBreak, hp, by decide, .inl rfl, rfl⟩
  · exact ⟨[], c.pending, .softBreak, rfl, rfl, .inl rfl, rfl⟩

theorem skipSpaces_eq {src : Array Char} {s w r : Text} (hsrc : src = (s ++ (w ++ r)).toArray)
    (hw : ∀ d ∈ w, isSpace d = true) (hr : r.head?.any isSpace = false) (fuel : Nat) (hf : w.length ≤ fuel) :
    skipSpaces src (s ++ (w ++ r)).length fuel s.length = s.length + w.length := by
  induction w generalizing s fuel with
  | nil =>
    cases fuel with
    | zero => rfl
    | succ fuel =>
      rw [skipSpaces, if_neg]
      · rfl
      · rintro ⟨-, h⟩
        rw [hsrc, List.getElem?_toArray, List.getElem?_append_right (Nat.le_refl _), Nat.sub_self, List.nil_append,
          ← List.head?_eq_getElem?] at h
        exact Bool.false_ne_true (hr.symm.trans h)
  | cons d w ih =>
    cases fuel with
    | zero => exact absurd hf (Nat.not_succ_le_zero _)
    | succ fuel =>
      have hmove : s ++ (d :: w ++ r) = (s ++ [d]) ++ (w ++ r) := by simp
      have hlen : (s ++ [d]).length = s.length + 1 := List.length_append
      have hrest := ih (s := s ++ [d]) (hsrc.trans (by rw [hmove])) (fun e he => hw e (List.mem_cons_of_mem _ he))
        fuel (Nat.le_of_succ_le_succ hf)
      rw [hlen, ← hmove] at hrest
      rw [skipSpaces, if_pos, hrest, List.length_cons]
      · omega
      · refine ⟨by simp, ?_⟩
        rw [hsrc, List.getElem?_toArray, List.getElem?_append_right (Nat.le_refl _), Nat.sub_self]
        exact hw d List.mem_cons_self

theorem isAllBlank_of_isSpace {w : Text} (hw : ∀ d ∈ w, isSpace d = true) : isAllBlank w = true :=
  List.all_eq_true.mpr fun d hd => by
    have h := hw d hd
    simp only [isSpace, Bool.or_eq_true, decide_eq_true_eq] at h
    rcases h with rfl | rfl <;> decide

/-- The end of a line read, with the spaces that follow. -/
theorem lineBreak {w : Text} (h : Spaced s ('\n' :: (w ++ r)) c) (hw : ∀ d ∈ w, isSpace d = true)
    (hr : r.head?.any isSpace = false) (walk : Walk) :
    ∃ c', tryRules false (inlineRules walk) c = (true, c') ∧ Spaced (s ++ '\n' :: w) r c' := by
  obtain ⟨u, p, b, hpending, hu, hb, hsay⟩ := exists_sayBreak c
  have hmove : s ++ '\n' :: (w ++ r) = (s ++ ['\n']) ++ (w ++ r) := by simp
  have hlen : (s ++ ['\n']).length = s.length + 1 := List.length_append
  have hafter : afterBreak c c.pos = s.length + ('\n' :: w).length := by
    have hsrc : c.src = ((s ++ ['\n']) ++ (w ++ r)).toArray := h.src.trans (by rw [hmove])
    have hskip := skipSpaces_eq hsrc hw hr (c.stop - (s.length + 1)) (by
      rw [h.stop, hmove, List.length_append, hlen, List.length_append]
      omega)
    rw [← hmove, ← h.stop, hlen] at hskip
    rw [afterBreak, h.pos, hskip, List.length_cons]
    omega
  have hrule : lineBreakRule false c = (true, (sayBreak false c).moveTo (afterBreak c c.pos)) := by
    rw [lineBreakRule, h.head?_eq, List.head?_cons, if_neg (by simp)]
  have htry : tryRules false (inlineRules walk) c = (true, (sayBreak false c).moveTo (afterBreak c c.pos)) := by
    have hplain : plainRule false c = (false, c) := h.plainRule_eq rfl
    rw [inlineRules, tryRules, hplain]
    show tryRules false (lineBreakRule :: _) c = _
    rw [tryRules, hrule]
  refine ⟨_, htry, ?_⟩
  rw [hsay, hafter]
  have hspaced : ∀ t ∈ ({ c with pending := p } : Cursor).flush.tokens.toList, t.isRunning = true :=
    running_flush (c := { c with pending := p }) h.running
  have hsaid := spoken_flush { c with pending := p }
  have hkeep : ∀ c : Cursor, (c.push b).src = c.src ∧ (c.push b).stop = c.stop ∧ (c.push b).depth = c.depth ∧
      (c.push b).ended = c.ended ∧ (c.push b).delimiters = c.delimiters := fun c => by
    unfold Cursor.push Cursor.flush
    split <;> exact ⟨rfl, rfl, rfl, rfl, rfl⟩
  obtain ⟨h₁, h₂, h₃, h₄, h₅⟩ := hkeep { c with pending := p }
  refine ⟨Reading.move (w := '\n' :: w) h.toReading h₁ h₂ h₃ h₄, h₅.trans h.bare, fun t ht => ?_, ?_⟩
  · have ht : t ∈ ({ c with pending := p } : Cursor).flush.tokens.toList ++ [b] := by
      rw [← Array.toList_push]
      exact ht
    rcases List.mem_append.mp ht with ht | ht
    · exact hspaced t ht
    · obtain rfl := List.mem_singleton.mp ht
      rcases hb with rfl | rfl <;> rfl
  · show SameWords (Token.spoken true (({ c with pending := p } : Cursor).flush.tokens.push b).toList ++
      ({ c with pending := p } : Cursor).flush.pending.reverse) _
    have hb' : Token.spoken true [b] = ['\n'] := by rcases hb with rfl | rfl <;> rfl
    rw [pending_flush, List.reverse_nil, List.append_nil, Array.toList_push, Token.spoken, List.flatMap_append,
      ← Token.spoken, ← Token.spoken, hsaid, hb', List.append_assoc]
    have hblank : SameWords ['\n'] (u.reverse ++ '\n' :: w) := by
      refine .blanks (by decide) ?_ (List.cons_ne_nil _ _) (by simp)
      have hw := isAllBlank_of_isSpace hw
      simp only [isAllBlank, List.all_append, List.all_reverse, List.all_cons] at hu hw ⊢
      rw [hu, hw]
      decide
    have hs := h.said.append (.refl ('\n' :: w))
    rw [hpending, List.reverse_append, List.append_assoc, List.append_assoc] at hs
    exact (SameWords.append (.refl _) (.append (.refl _) hblank)).trans hs

/-- The rest of the text is read as text and breaks. -/
theorem readWindow (walk : Walk) (fuel : Nat) (h : Spaced s r c) (hf : r.length ≤ fuel)
    (hq : ∀ d ∈ r, isQuiet d = true ∨ d = '\n') :
    Spaced (s ++ r) [] (Markdown.readWindow walk (s ++ r).length fuel c) ∧
      (Markdown.readWindow walk (s ++ r).length fuel c).pending = [] := by
  induction fuel generalizing s r c with
  | zero =>
    obtain rfl := List.length_eq_zero_iff.mp (Nat.le_zero.mp hf)
    rw [List.append_nil]
    exact ⟨h.flush, pending_flush c⟩
  | succ fuel ih =>
    rw [Markdown.readWindow]
    cases r with
    | nil =>
      rw [List.append_nil, if_pos (Nat.le_of_eq h.pos.symm)]
      exact ⟨h.flush, pending_flush c⟩
    | cons d r =>
      have hpos : ¬ c.pos ≥ (s ++ d :: r).length := by
        rw [h.pos, List.length_append, List.length_cons]
        omega
      have hdepth : c.depth < maxSpanDepth := by
        rw [h.depth]
        decide
      rw [if_neg hpos, if_pos hdepth]
      have hnext {w r' : Text} {c' : Cursor} (hw : d :: r = w ++ r') (hne : w ≠ []) (h' : Spaced (s ++ w) r' c') :
          Spaced (s ++ d :: r) [] (Markdown.readWindow walk (s ++ d :: r).length fuel c') ∧
            (Markdown.readWindow walk (s ++ d :: r).length fuel c').pending = [] := by
        have hlen := congrArg List.length hw
        rw [List.length_append] at hlen
        have hpos := List.length_pos_iff.mpr hne
        rw [hw, ← List.append_assoc]
        exact ih h' (by rw [List.length_cons] at hlen hf; omega) fun e he => hq e (hw ▸ List.mem_append_right _ he)
      by_cases hbreak : d = '\n'
      · -- the end of a line and the spaces that follow
        subst hbreak
        have hsplit : r = r.takeWhile isSpace ++ r.dropWhile isSpace := List.takeWhile_append_dropWhile.symm
        have hr : (r.dropWhile isSpace).head?.any isSpace = false := by
          have := List.head?_dropWhile_not isSpace r
          cases hh : (r.dropWhile isSpace).head? with
          | none => rfl
          | some e => simpa [hh] using this
        rw [hsplit] at h
        obtain ⟨c', htry, h'⟩ := h.lineBreak (List.all_eq_true.mp List.all_takeWhile) hr walk
        rw [htry]
        exact hnext (by rw [List.cons_append, ← hsplit]) (List.cons_ne_nil _ _) h'
      · have hd := (hq d List.mem_cons_self).resolve_right hbreak
        by_cases hterm : isTerminator d = true
        · -- a sign that begins nothing
          have hdull : isDull d = true ∧ d ≠ '_' :=
            forall_quiet (p := fun c => isDull c = true ∧ c ≠ '_') (by decide +kernel) hd
          rw [h.tryRules_none hdull.1 hdull.2 hterm walk]
          dsimp only
          rw [if_neg Bool.false_ne_true, h.head?_eq, h.pos]
          exact hnext (w := [d]) rfl (List.cons_ne_nil _ _) (say (w := [d]) h)
        · -- plain characters up to the next terminator
          obtain ⟨w, r', hsplit, hne, -, htry⟩ := h.exists_plain (Bool.eq_false_iff.mpr hterm) walk
          rw [htry]
          rw [hsplit] at h
          exact hnext hsplit hne h.say

end Spaced

/-! ## the tokens of the text -/

/-- The names of the elements that plain words are rendered to. -/
def plainNames : List String := ["br", "code", "h1", "p", "pre"]

/-- The openings of these elements, without attributes. -/
def PlainOpening : Html.Kind := fun name as => (∃ n ∈ plainNames, n.toList = name) ∧ as = []

/-- What a token of plain words is read as. -/
def Token.nodes : Token → List Html.Node
  | .text t => [.text t]
  | .softBreak => [.text ['\n']]
  | .hardBreak => [.element (.of "br" []) [], .text ['\n']]
  | _ => []

end Lectern.Markdown
