import Lectern.Proofs.Markdown.Running
import Lectern.Proofs.Markdown.Sound

/-!
# Pages of names

A page may hold nothing but names, each behind the mark of a sigil and in a paragraph of its own.

* `isEntry`         such a paragraph;
* `paged`           the page of some paragraphs, each in one line;
* `blockAt_entry`   at the line of an entry no block begins but a paragraph;
* `render_paged`    what a page of entries is rendered to.
-/

namespace Lectern.Markdown
open Text

/-- A mark and a name that running text leaves alone. -/
def isEntry : Text → Bool
  | m :: name => isLead m && isInert name
  | [] => false

/-- The page whose paragraphs are these lines. -/
def paged (ts : List Text) : Text := join ['\n', '\n'] ts ++ ['\n']

/-- The beginning of an entry, and what it is made of. -/
structure EntryShape (t : Text) (m d : Char) (r : Text) : Prop where
  eq : t = m :: d :: r
  lead : isLead m = true
  word : isLetterOrDigit d = true
  calm : ∀ c ∈ t, isCalm c = true
  inert : isInert (d :: r) = true

theorem exists_entry {t : Text} (h : isEntry t = true) : ∃ m d r, EntryShape t m d r := by
  cases t with
  | nil => exact Bool.noConfusion h
  | cons m name =>
    obtain ⟨hm, hn⟩ := Bool.and_eq_true_iff.mp h
    have hinert := hn
    simp only [isInert, Bool.and_eq_true] at hn
    obtain ⟨⟨⟨⟨hall, hhead⟩, -⟩, -⟩, -⟩ := hn
    cases name with
    | nil => exact Bool.noConfusion hhead
    | cons d r =>
      refine ⟨m, d, r, rfl, hm, hhead, fun c hc => ?_, hinert⟩
      rcases List.mem_cons.mp hc with rfl | hc
      · rw [isCalm, hm, Bool.or_true]
      · rw [isCalm, List.all_eq_true.mp hall c hc, Bool.true_or]

namespace EntryShape
variable {t r : Text} {m d : Char}

theorem not_mem (h : EntryShape t m d r) {c : Char} (hc : isCalm c = false) : c ∉ t := fun hm =>
  Bool.noConfusion ((h.calm c hm).symm.trans hc)

theorem head_ne (h : EntryShape t m d r) {c : Char} (hc : isLead c = false) : m ≠ c := fun e =>
  Bool.noConfusion ((e ▸ h.lead).symm.trans hc)

end EntryShape

/-! ## running text -/

theorem strokes_cons {m : Char} {t : Text} (hm : m ≠ '_') (h : t.head? ≠ some '_') : strokes (m :: t) = strokes t := by
  cases t with
  | nil => exact strokesFrom_cons hm
  | cons d r =>
    have hd : d ≠ '_' := fun e => h (congrArg some e)
    rw [strokes, strokes, strokesFrom_cons hm, strokesFrom_cons hd, strokesFrom_cons hd]

theorem occurs_cons {p t : Text} {c : Char} (h : c ∉ p) (hp : p ≠ []) (ht : occurs p t = false) :
    occurs p (c :: t) = false := by
  have hs : startsWith p (c :: t) = false := by
    cases p with
    | nil => exact absurd rfl hp
    | cons d p =>
      have hd : d ≠ c := fun e => h (e ▸ List.mem_cons_self)
      rw [startsWith, stripPrefix?, if_neg hd]
      rfl
  rw [occurs, indexOf?, hs, if_neg Bool.false_ne_true, Option.isSome_map]
  exact ht

/-- Every character is written as itself. -/
theorem flatMap_signs {f : Char → Text} {t : Text} (h : ∀ c ∈ t, f c = [c]) : t.flatMap f = t := by
  induction t with
  | nil => rfl
  | cons c t ih =>
    rw [List.flatMap_cons, h c List.mem_cons_self, ih fun d hd => h d (List.mem_cons_of_mem _ hd)]
    rfl

/-- The mark and the name are read and set as they are written. -/
theorem tokens_entry {t r : Text} {m d : Char} (h : EntryShape t m d r) (definitions : List Definition) :
    typeset t (parseInline definitions t) = [.text t] := by
  have hinert := h.inert
  simp only [isInert, Bool.and_eq_true, Bool.not_eq_true', decide_eq_true_eq] at hinert
  obtain ⟨⟨⟨⟨-, hhead⟩, hpoints⟩, hhyphens⟩, hstrokes⟩ := hinert
  have hname : (d :: r).head? ≠ some '_' := fun e => by
    rw [Option.some.inj e] at hhead
    exact Bool.noConfusion hhead
  have hm {c : Char} (hc : isLead c = false) : m ≠ c := h.head_ne hc
  have hmpoint : m ≠ '.' := hm (by decide)
  have ht := h.calm
  obtain rfl := h.eq
  rw [parseInline_eq definitions (List.cons_ne_nil _ _) (fun e => hm (by decide) (Option.some.inj e)) ht, typeset_eq ht]
  · exact occurs_cons (by simp [hmpoint]) (List.cons_ne_nil _ _) hpoints
  · rw [keepsHyphens, if_neg (hm (by decide))]
    exact hhyphens
  · rwa [strokes_cons (hm (by decide)) hname]

theorem renderText_entry {t r : Text} {m d : Char} (h : EntryShape t m d r) (definitions : List Definition) :
    renderText definitions t = t := by
  rw [renderText, tokens_entry h, List.flatMap_singleton]
  exact flatMap_signs fun c hc => forall_calm (p := fun c => escapeChar c = [c]) (by decide +kernel) (h.calm c hc)

/-! ## the line of an entry -/

/-- A marker that is no word does not go on in a word. -/
theorem cycleLength_word {marker left : Text} (hm : ∀ c ∈ marker, isLetterOrDigit c = false)
    (hl : ∀ c ∈ left, isLetterOrDigit c = false) {d : Char} (hd : isLetterOrDigit d = true) (r : Text) :
    cycleLength marker left (d :: r) = 0 := by
  rw [cycleLength]
  split
  · rfl
  · rename_i e rest he
    have hmem : e ∈ (if left.isEmpty = true then marker else left) := he ▸ List.mem_cons_self
    have hne : d ≠ e := by
      rintro rfl
      split at hmem
      · exact Bool.noConfusion ((hm d hmem).symm.trans hd)
      · exact Bool.noConfusion ((hl d hmem).symm.trans hd)
    rw [if_neg hne]

/-- It does not come twice before a word. -/
theorem cycleLength_le {marker : Text} (hm : ∀ c ∈ marker, isLetterOrDigit c = false) {m d : Char} {r : Text}
    (hd : isLetterOrDigit d = true) : cycleLength marker [] (m :: d :: r) ≤ 1 := by
  rw [cycleLength]
  split
  · exact Nat.zero_le 1
  · rename_i e rest he
    rw [List.isEmpty_nil, if_pos rfl] at he
    split
    · have hzero := cycleLength_word hm (fun c hc => hm c (he ▸ List.mem_cons_of_mem _ hc)) hd r
      exact Nat.succ_le_succ (Nat.le_of_eq hzero)
    · exact Nat.zero_le 1

theorem isLetterOrDigit_marker (e : Directive) : ∀ c ∈ e.marker, isLetterOrDigit c = false :=
  List.forall_iff_forall_mem.mp (by cases e <;> decide)

/-- A marker opens a directive where it comes three times. -/
theorem directiveStart?_eq_none {t : Text}
    (h : ∀ marker : Text, (∀ c ∈ marker, isLetterOrDigit c = false) → cycleLength marker [] t ≤ 1) :
    directiveStart? t = none := by
  refine List.findSome?_eq_none_iff.mpr fun e _ => if_neg fun hcount => ?_
  have hle := h e.marker (isLetterOrDigit_marker e)
  have hdiv := Nat.div_le_self (cycleLength e.marker [] t) e.marker.length
  have hthree : repetitions e.marker t ≥ 3 := hcount.1
  rw [repetitions] at hthree
  omega

theorem directiveStart?_entry {t r : Text} {m d : Char} (h : EntryShape t m d r) : directiveStart? t = none :=
  directiveStart?_eq_none fun marker hm => by
    rw [h.eq]
    exact cycleLength_le hm h.word

section
variable {t r : Text} {m d : Char}

theorem EntryShape.lead_cases (h : EntryShape t m d r) : m = ':' ∨ m = '%' ∨ m = '@' := by
  have hl := h.lead
  simp only [isLead, Bool.or_eq_true, decide_eq_true_eq] at hl
  rcases hl with (rfl | rfl) | rfl <;> decide

theorem EntryShape.ofText_eq (h : EntryShape t m d r) : Line.ofText t true = ⟨t, 0, 0, 0, true⟩ := by
  have hspace : t.takeWhile isSpace = [] := by
    rw [h.eq]
    rcases h.lead_cases with rfl | rfl | rfl <;> rfl
  rw [Line.ofText, hspace]
  rfl

/-- What blocks begin with, an entry does not begin with. -/
theorem EntryShape.starts (h : EntryShape t m d r) : fenceStart? t = none ∧ startsQuote t = false ∧ isRule t = false ∧
    heading? t = none ∧ markupStart? t = none ∧ itemMark? t = none ∧ stripPrefix? ['$', '$'] t = none ∧
    t.head? ≠ some '[' := by
  rw [h.eq]
  rcases h.lead_cases with rfl | rfl | rfl <;>
    refine ⟨by simp [fenceStart?], rfl, by simp [isRule], by simp [heading?], rfl, ?_, by simp [stripPrefix?],
      by simp⟩
  all_goals simp [itemMark?, ordinal?, bullet?]

end

section
variable {t r : Text} {m d : Char} {p : Place} {ls : Lines} {i last : Nat}

/-- An entry stands alone in line `i` of a page. -/
structure At (p : Place) (ls : Lines) (i : Nat) (t : Text) : Prop where
  column : p.column = 0
  listColumn : p.listColumn = none
  here : ls.at i = Line.ofText t true
  after : (ls.at (i + 1)).content = []

/-- What finds nothing is passed over. -/
theorem findSomeM?_append {α β ε : Type} {f : α → Except ε (Option β)} {l : List α} (h : ∀ a ∈ l, f a = .ok none)
    (m : List α) : (l ++ m).findSomeM? f = m.findSomeM? f := by
  induction l with
  | nil => rfl
  | cons a l ih =>
    rw [List.cons_append, List.findSomeM?, h a List.mem_cons_self]
    exact ih fun b hb => h b (List.mem_cons_of_mem _ hb)

theorem findSomeM?_none {α β ε : Type} {f : α → Except ε (Option β)} {l : List α} (h : ∀ a ∈ l, f a = .ok none) :
    l.findSomeM? f = .ok none := by
  rw [← List.append_nil l, findSomeM?_append h]
  rfl

theorem dropWhile_none {p : Char → Bool} {t : Text} (h : ∀ c ∈ t, p c = false) : t.dropWhile p = t := by
  cases t with
  | nil => rfl
  | cons c t => rw [List.dropWhile_cons, h c List.mem_cons_self, if_neg Bool.false_ne_true]

theorem trim_eq {t : Text} (h : ∀ c ∈ t, isSpacing c = false) : trim t = t := by
  rw [trim, dropWhile_none h, dropWhile_none fun c hc => h c (List.mem_reverse.mp hc), List.reverse_reverse]

/-- At the line of an entry no block begins but a paragraph. -/
theorem blockAt_entry (h : EntryShape t m d r) (ha : At p ls i t) (read : Reader) :
    blockAt read p ls i last = .ok ⟨[.paragraph t], i + 1⟩ := by
  obtain ⟨hfence, hquote, hrule, hheading, hmarkup, hitem, hmath, hbracket⟩ := h.starts
  have hline := h.ofText_eq
  have hcontent : (ls.at i).content = t := by
    rw [ha.here, hline]
    rfl
  have hcode : p.isCode (ls.at i) = false := by
    rw [ha.here, hline, Place.isCode, ha.column]
    rfl
  have hafter : (ls.at (i + 1)).isEmpty = true := List.isEmpty_iff.mpr ha.after
  have hunder : underlineOf? p ls last (last - (i + 1)) (i + 1) = none := by
    cases last - (i + 1) with
    | zero => rfl
    | succ fuel => rw [underlineOf?, if_pos hafter]
  have hrules : ∀ rule ∈ blockRules read, rule p ls i last = .ok none := by
    simp only [blockRules, List.forall_mem_cons, List.not_mem_nil, false_imp_iff, implies_true, and_true]
    refine ⟨?_, ?_, ?_, ?_, ?_, ?_, ?_, ?_, ?_, ?_, ?_, ?_⟩
    · simp [tableRule, tableStart?, ha.after, isAlignRow]
    · simp [plainly, codeRule, hcode]
    · simp [plainly, mathRule, hcode, hcontent, hmath]
    · simp [directiveRule, hcode, hcontent, directiveStart?_entry h]
    · simp [plainly, fenceRule, hcode, hcontent, hfence]
    · simp [quoteRule, hcode, hcontent, hquote]
    · simp [plainly, breakRule, hcode, hcontent, hrule]
    · simp [listRule, listStart?, hcode, hcontent, hitem]
    · simp [plainly, definitionRule, hcode, hcontent, hbracket]
    · simp [plainly, markupRule, hcode, hcontent, hmarkup]
    · simp [plainly, headingRule, hcode, hcontent, hheading]
    · simp [plainly, underlinedRule, hcode, hunder]
  have hstop : paragraphEnd .paragraph p ls (p.bound - (i + 1)) (i + 1) = i + 1 := by
    cases p.bound - (i + 1) with
    | zero => rfl
    | succ fuel =>
      rw [paragraphEnd]
      exact if_pos hafter
  have hjoin : joinLines ls p.column false i (i + 1 - i) = t := by
    rw [Nat.add_sub_cancel_left, joinLines, ha.here, hline, ha.column, joinLines]
    simp [Line.cut, h.eq, Line.cutAux]
  rw [blockAt, findSomeM?_none hrules]
  show Except.ok (paragraphRule p ls i last) = _
  rw [paragraphRule, hstop, hjoin, trim_eq fun c hc => isSpacing_of_isCalm (h.calm c hc)]

end

/-! ## the whole page -/

/-- The lines of a page. -/
def pageLines : List Text → List Line
  | [] => [.ofText [] true]
  | [t] => [.ofText t true]
  | t :: u :: ts => .ofText t true :: .ofText [] true :: pageLines (u :: ts)

theorem linesOfAux_append {acc t : Text} (h : '\n' ∉ t) (rest : Text) :
    linesOfAux acc (t ++ '\n' :: rest) = .ofText (acc.reverse ++ t) true :: linesOfAux [] rest := by
  induction t generalizing acc with
  | nil => rw [List.nil_append, linesOfAux, if_pos rfl, List.append_nil]
  | cons c t ih =>
    have hc : c ≠ '\n' := fun e => h (e ▸ List.mem_cons_self)
    rw [List.cons_append, linesOfAux, if_neg hc, ih fun hm => h (List.mem_cons_of_mem _ hm), List.reverse_cons,
      List.append_assoc]
    rfl

theorem linesOf_paged {ts : List Text} (h : ∀ t ∈ ts, '\n' ∉ t) : linesOf (paged ts) = pageLines ts := by
  induction ts with
  | nil => rfl
  | cons t ts ih =>
    have ht := h t List.mem_cons_self
    cases ts with
    | nil => exact linesOfAux_append ht []
    | cons u ts =>
      have hrest := ih fun u hu => h u (List.mem_cons_of_mem _ hu)
      have hsplit : paged (t :: u :: ts) = t ++ '\n' :: ([] ++ '\n' :: paged (u :: ts)) := by
        simp [paged, join]
      rw [hsplit, linesOf, linesOfAux_append ht, linesOfAux_append List.not_mem_nil]
      exact congrArg _ (congrArg _ hrest)

theorem skipBlank_eq {ls : Lines} {i : Nat} (h : (ls.at i).isEmpty = false) (fuel : Nat) : skipBlank ls fuel i = i := by
  cases fuel with
  | zero => rfl
  | succ fuel => rw [skipBlank, h, if_neg Bool.false_ne_true]

theorem at_of_drop {ls : Lines} {i : Nat} {l : Line} {rest : List Line} (h : ls.toList.drop i = l :: rest) :
    i < ls.size ∧ ls.at i = l ∧ ls.toList.drop (i + 1) = rest := by
  have hi : i < ls.toList.length := by
    refine Nat.lt_of_not_le fun hle => ?_
    rw [List.drop_eq_nil_of_le hle] at h
    cases h
  rw [List.drop_eq_getElem_cons hi] at h
  obtain ⟨hl, hrest⟩ := List.cons.inj h
  refine ⟨hi, ?_, hrest⟩
  rw [Lines.at, ← Array.getElem?_toList, List.getElem?_eq_getElem hi, hl]
  rfl

theorem blocksFrom_end {read : Reader} {p : Place} {ls : Lines} {i : Nat} (h : ls.size ≤ i) (fuel : Nat)
    (parted tight : Bool) : blocksFrom read p ls ls.size fuel i parted tight = .ok ⟨[], i, tight⟩ := by
  cases fuel with
  | zero => rfl
  | succ fuel => rw [blocksFrom, if_pos h]

/-- Block after block, from the line of an entry on. -/
theorem blocksFrom_paged (read : Reader) {p : Place} {ls : Lines} (hcolumn : p.column = 0) (hlist : p.listColumn = none)
    (hdepth : p.depth = 0) {ts : List Text} (hne : ts ≠ []) (hts : ∀ t ∈ ts, isEntry t = true) {i fuel : Nat}
    (hls : ls.toList.drop i = pageLines ts) (hf : ls.size - i < fuel) (parted₀ tight : Bool) :
    ∃ run, blocksFrom read p ls ls.size fuel i parted₀ tight = .ok run ∧ run.blocks = ts.map .paragraph := by
  induction ts generalizing i fuel parted₀ tight with
  | nil => exact absurd rfl hne
  | cons t ts ih =>
    obtain ⟨m, d, r, h⟩ := exists_entry (hts t List.mem_cons_self)
    have hblank : (Line.ofText [] true).content = [] := rfl
    obtain ⟨rest, hrest⟩ : ∃ rest, pageLines (t :: ts) = Line.ofText t true :: rest := by
      cases ts <;> exact ⟨_, rfl⟩
    obtain ⟨hi, hhere, hdrop⟩ := at_of_drop (hls.trans hrest)
    have hafter : (ls.at (i + 1)).content = [] := by
      cases ts with
      | nil =>
        have hout : ls.size ≤ i + 1 := by
          obtain rfl : [] = rest := (List.cons.inj hrest).2
          exact List.drop_eq_nil_iff.mp hdrop
        rw [Lines.at, Array.getElem?_eq_none hout]
        rfl
      | cons u ts =>
        obtain rfl := (List.cons.inj hrest).2
        rw [(at_of_drop hdrop).2.1, hblank]
    have hstart : (ls.at i).isEmpty = false ∧ (ls.at i).indent = 0 := by
      rw [hhere, h.ofText_eq, Line.isEmpty, Line.content, h.eq]
      exact ⟨rfl, rfl⟩
    obtain ⟨fuel, rfl⟩ : ∃ n, fuel = n + 1 := ⟨fuel - 1, by omega⟩
    have hblock : blockAt read p ls i ls.size = .ok ⟨[.paragraph t], i + 1⟩ :=
      blockAt_entry h ⟨hcolumn, hlist, hhere, hafter⟩ read
    have hempty : (ls.at (i + 1)).isEmpty = true := List.isEmpty_iff.mpr hafter
    have hread (q : Bool) : ∃ run, (let s : Nat × Bool :=
          if i + 1 < ls.size && (ls.at (i + 1)).isEmpty then (i + 1 + 1, true) else (i + 1, q)
        blocksFrom read p ls ls.size fuel s.1 s.2 (!parted₀)) = .ok run ∧ run.blocks = ts.map .paragraph := by
      cases ts with
      | nil =>
        obtain rfl : [] = rest := (List.cons.inj hrest).2
        have hout : ls.size ≤ i + 1 := List.drop_eq_nil_iff.mp hdrop
        rw [decide_eq_false (Nat.not_lt.mpr hout), Bool.false_and, if_neg Bool.false_ne_true]
        exact ⟨_, blocksFrom_end hout _ _ _, rfl⟩
      | cons u ts =>
        obtain rfl := (List.cons.inj hrest).2
        obtain ⟨hsize, -, hdrop'⟩ := at_of_drop hdrop
        rw [decide_eq_true hsize, hempty, Bool.and_self, if_pos rfl]
        exact ih (List.cons_ne_nil _ _) (fun v hv => hts v (List.mem_cons_of_mem _ hv)) hdrop' (by omega) _ _
    obtain ⟨run, hrun, hblocks⟩ := hread (parted₀ || (i + 1 - 1 < ls.size && (ls.at (i + 1 - 1)).isEmpty))
    refine ⟨⟨.paragraph t :: run.blocks, run.next, run.tight⟩, ?_, congrArg _ hblocks⟩
    rw [blocksFrom, if_neg (Nat.not_le.mpr hi), skipBlank_eq hstart.1]
    dsimp only at hrun
    simp only [hstart.2, hcolumn, hdepth, hblock]
    rw [if_neg (by simp [hi]), if_neg (by decide)]
    show (do
      let rest : Run ← _
      pure (Run.mk ([.paragraph t] ++ rest.blocks) rest.next rest.tight) : Except PageFault Run) = _
    rw [hrun]
    rfl

/-- The blocks of a page of entries. -/
theorem parseBlocks_paged {ts : List Text} (h : ∀ t ∈ ts, isEntry t = true) :
    parseBlocks (paged ts) = .ok (ts.map .paragraph) := by
  cases ts with
  | nil => rfl
  | cons t ts =>
    have hlines : linesOf (paged (t :: ts)) = pageLines (t :: ts) := linesOf_paged fun u hu => by
      obtain ⟨m, d, r, he⟩ := exists_entry (h u hu)
      exact he.not_mem (by decide)
    obtain ⟨run, hrun, hblocks⟩ := @blocksFrom_paged (reader maxDepth)
      ⟨0, none, 0, (pageLines (t :: ts)).toArray.size⟩ (pageLines (t :: ts)).toArray rfl rfl rfl (t :: ts)
      (List.cons_ne_nil t ts) h 0 _ rfl (Nat.lt_succ_self _) false true
    rw [parseBlocks, hlines]
    exact (congrArg (Except.map Run.blocks) hrun).trans (congrArg Except.ok hblocks)

/-! ## what it is rendered to -/

theorem unifyLineEnds_append {s : Text} (h : '\r' ∉ s) (t : Text) :
    unifyLineEnds (s ++ t) = s ++ unifyLineEnds t := by
  induction s with
  | nil => rfl
  | cons c s ih =>
    have hc : c ≠ '\r' := fun e => h (e ▸ List.mem_cons_self)
    rw [List.cons_append, unifyLineEnds, if_neg hc, ih fun hm => h (List.mem_cons_of_mem _ hm)]
    · rfl
    · exact fun r he => absurd he hc

theorem normalized_append {s : Text} (h : ∀ c ∈ s, c ≠ '\r' ∧ c.toNat ≠ 0) (t : Text) :
    normalized (s ++ t) = s ++ normalized t := by
  rw [normalized, unifyLineEnds_append fun hm => (h _ hm).1 rfl, List.map_append]
  exact congrArg (· ++ _) ((List.map_congr_left fun c hc => if_neg (h c hc).2).trans (List.map_id s))

theorem mem_paged {ts : List Text} {c : Char} (h : c ∈ paged ts) : c = '\n' ∨ ∃ t ∈ ts, c ∈ t := by
  induction ts with
  | nil => exact .inl (List.mem_singleton.mp h)
  | cons t ts ih =>
    cases ts with
    | nil =>
      rcases List.mem_append.mp h with h | h
      · exact .inr ⟨t, List.mem_cons_self, h⟩
      · exact .inl (List.mem_singleton.mp h)
    | cons u ts =>
      have hsplit : paged (t :: u :: ts) = t ++ (['\n', '\n'] ++ paged (u :: ts)) := by
        simp [paged, join]
      rw [hsplit, List.mem_append, List.mem_append] at h
      rcases h with h | h | h
      · exact .inr ⟨t, List.mem_cons_self, h⟩
      · simp at h
        exact .inl h
      · rcases ih h with hc | hc
        · exact .inl hc
        · obtain ⟨v, hv, hm⟩ := hc
          exact .inr ⟨v, List.mem_cons_of_mem _ hv, hm⟩

theorem renderAll_entries (definitions : List Definition) (labels : Labels) {ts : List Text}
    (h : ∀ t ∈ ts, isEntry t = true) :
    Block.renderAll definitions labels false false (ts.map .paragraph) = ts.flatMap (element "p" []) := by
  induction ts with
  | nil => rfl
  | cons t ts ih =>
    obtain ⟨m, d, r, he⟩ := exists_entry (h t List.mem_cons_self)
    show element "p" [] (renderText definitions t) ++
      Block.renderAll definitions labels false false (ts.map .paragraph) = element "p" [] t ++ _
    rw [renderText_entry he, ih fun u hu => h u (List.mem_cons_of_mem _ hu)]
    rfl

theorem normalized_paged {ts : List Text} (h : ∀ t ∈ ts, isEntry t = true) : normalized (paged ts) = paged ts := by
  have hchars : ∀ c ∈ paged ts, c ≠ '\r' ∧ c.toNat ≠ 0 := by
    intro c hc
    rcases mem_paged hc with rfl | ⟨t, ht, hm⟩
    · decide
    · obtain ⟨m, d, r, he⟩ := exists_entry (h t ht)
      exact forall_calm (p := fun c => c ≠ '\r' ∧ c.toNat ≠ 0) (by decide +kernel) (he.calm c hm)
  have := normalized_append hchars []
  rwa [List.append_nil, show normalized [] = [] from rfl, List.append_nil] at this

/-- What a page of entries is rendered to. -/
theorem render_paged (labels : Labels) {ts : List Text} (h : ∀ t ∈ ts, isEntry t = true) :
    ∃ notes, (render labels (paged ts)).outcome = (.ok (ts.flatMap (element "p" [])), notes) := by
  have hgives : (render labels (paged ts)).Gives (.ok (ts.flatMap (element "p" []))) := by
    have hblocks : parseBlocks (normalized (paged ts)) = .ok (ts.map .paragraph) := by
      rw [normalized_paged h, parseBlocks_paged h]
    have := gives_render labels hblocks
    rwa [renderAll_entries _ labels h] at this
  exact ⟨_, Prod.ext hgives.outcome rfl⟩

/-- Such a page holds no raw markup. -/
theorem isPlainNotes_paged (labels : Labels) {ts : List Text} (h : ∀ t ∈ ts, isEntry t = true) :
    isPlainNotes labels (paged ts) = true := by
  have hplain : Block.isPlainAll labels (ts.map .paragraph) = true ∧ Block.contentsAll (ts.map .paragraph) = ts := by
    clear h
    induction ts with
    | nil => exact ⟨rfl, rfl⟩
    | cons t ts ih => exact ⟨ih.1, congrArg (t :: ·) ih.2⟩
  rw [isPlainNotes, normalized_paged h, parseBlocks_paged h]
  refine Bool.and_eq_true_iff.mpr ⟨hplain.1, List.all_eq_true.mpr fun t ht => decide_eq_true fun u hu => ?_⟩
  obtain ⟨m, d, r, he⟩ := exists_entry (h t (hplain.2 ▸ ht))
  rw [tokens_entry he] at hu
  obtain rfl := List.mem_singleton.mp hu
  rfl

end Lectern.Markdown
