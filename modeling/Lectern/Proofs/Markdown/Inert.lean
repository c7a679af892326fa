import Lectern.Markdown.Inline.Nested
import Lectern.Markdown.Typography

/-!
# Names that running text leaves alone

The name of a file is written in letters, digits, points, hyphens and underscores.  Three things may happen to it
in running text: points in a row become an ellipsis, two or three hyphens a dash, and underscores may emphasise
what stands between them.

* `strokes`           the runs of underscores in a text, and whether each may open or close emphasis;
* `isInert`           names in which nothing of this happens;
* `setDashes_eq`      such a name is set as it is written;
* `Idle`              delimiters of which none can be paired;
* `Idle.append`       they stay so with another run behind them that pairs with none;
* `pairDelimiters_idle`   pairing leaves such delimiters alone, and what follows it leaves the tokens alone.
-/

namespace Lectern.Markdown
open Text

/-! ## characters -/

/-- The character stands in the name of a file. -/
def isFileChar (c : Char) : Bool := isLetterOrDigit c || c = '.' || c = '-' || c = '_'

/-- The mark of a sigil that is followed by a name. -/
def isLead (c : Char) : Bool := c = ':' || c = '%' || c = '@'

/-- The character stands in a name or before it. -/
def isCalm (c : Char) : Bool := isFileChar c || isLead c

theorem toNat_lt_of_isCalm {c : Char} (h : isCalm c = true) : c.toNat < 0x80 := by
  simp only [isCalm, isFileChar, isLead, Bool.or_eq_true, decide_eq_true_eq] at h
  rcases h with (((h | rfl) | rfl) | rfl) | (rfl | rfl) | rfl
  · delta isLetterOrDigit Char.isAlphanum Char.isAlpha Char.isUpper Char.isLower Char.isDigit at h
    simp only [Bool.or_eq_true, Bool.and_eq_true, decide_eq_true_eq, UInt32.le_iff_toNat_le, ge_iff_le] at h
    change (65 ≤ c.toNat ∧ c.toNat ≤ 90 ∨ 97 ≤ c.toNat ∧ c.toNat ≤ 122) ∨ 48 ≤ c.toNat ∧ c.toNat ≤ 57 at h
    omega
  all_goals decide

/-- What holds of the characters of ASCII that stand in names holds of every character that does. -/
theorem forall_calm {p : Char → Prop} (h : ∀ n < 0x80, isCalm (Char.ofNat n) = true → p (Char.ofNat n)) {c : Char}
    (hc : isCalm c = true) : p c := by
  have hn := h c.toNat (toNat_lt_of_isCalm hc)
  rw [Char.ofNat_toNat] at hn
  exact hn hc

theorem isSpacing_of_isCalm {c : Char} (h : isCalm c = true) : isSpacing c = false :=
  forall_calm (p := fun c => isSpacing c = false) (by decide +kernel) h

theorem isBlank_of_isCalm {c : Char} (h : isCalm c = true) : isBlank c = false :=
  forall_calm (p := fun c => isBlank c = false) (by decide +kernel) h

/-! ## names -/

/-- A run of `n` underscores between two characters.  It may open emphasis behind punctuation, though not at the
end, and close emphasis before punctuation or at the end. -/
def stroke (last : Char) (n : Nat) (next? : Option Char) : DelimiterRun :=
  ⟨n, isPunctuation last && next?.isSome, next?.all isPunctuation⟩

/-- The runs of underscores in a text that follows `last` and `n` underscores. -/
def strokesFrom (last : Char) : Nat → Text → List DelimiterRun
  | 0, [] => []
  | n + 1, [] => [stroke last (n + 1) none]
  | n, c :: t =>
    if c = '_' then strokesFrom last (n + 1) t
    else (if n = 0 then [] else [stroke last n (some c)]) ++ strokesFrom c 0 t

def strokes (t : Text) : List DelimiterRun := strokesFrom ' ' 0 t

/-- An underscore of a run, with the number of its token. -/
def underscore (r : DelimiterRun) (token : Nat) : Delimiter := ⟨'_', r.length, token, none, r.opens, r.closes⟩

/-- The first run opens emphasis that the second one closes. -/
def emphasises (o c : DelimiterRun) : Bool :=
  o.opens && c.closes && !Pairing.isOdd (underscore o 0) (underscore c 0)

/-- No hyphens in a row are two or three; `n` stand before the text. -/
def keepsHyphens : Nat → Text → Bool
  | n, [] => n ≠ 2 && n ≠ 3
  | n, c :: t => if c = '-' then keepsHyphens (n + 1) t else n ≠ 2 && n ≠ 3 && keepsHyphens 0 t

/-- A name that begins with a letter or a digit and in which there are no points side by side, no two or three
hyphens in a row, and no underscores that emphasise what stands between them. -/
def isInert (name : Text) : Bool :=
  name.all isFileChar && name.head?.any isLetterOrDigit && !occurs ['.', '.'] name && keepsHyphens 0 name
    && (strokes name).Pairwise fun o c => emphasises o c = false

/-! ## typography -/

theorem occurs_eq_false {p t : Text} {c : Char} (hp : c ∈ p) (ht : c ∉ t) : occurs p t = false := by
  cases h : indexOf? p t with
  | none => rw [occurs, h]; rfl
  | some i =>
    obtain ⟨⟨s, r, rfl, -⟩, -⟩ := indexOf?_eq_some h
    exact absurd (List.mem_append_left _ (List.mem_append_right _ hp)) ht

theorem occurs_tail {p t : Text} {c : Char} (h : occurs p (c :: t) = false) : occurs p t = false := by
  rw [occurs, indexOf?] at h
  split at h
  · exact Bool.noConfusion h
  · rwa [Option.isSome_map] at h

theorem startsWith_eq_false {p t : Text} (h : occurs p t = false) (hp : p ≠ []) : startsWith p t = false := by
  cases t with
  | nil =>
    cases p with
    | nil => exact absurd rfl hp
    | cons c p => rfl
  | cons c t =>
    rw [occurs, indexOf?] at h
    split at h
    · exact Bool.noConfusion h
    · rename_i hs
      exact Bool.eq_false_iff.mpr hs

theorem replaceAll_eq {old new t : Text} (h : occurs old t = false) : replaceAll old new t = t := by
  unfold replaceAll
  split
  · rfl
  · rename_i hold
    induction t with
    | nil => rfl
    | cons c t ih =>
      rw [replaceAux, startsWith_eq_false h hold, if_neg Bool.false_ne_true, ih (occurs_tail h)]

/-- Nothing in the text is of the class. -/
theorem mapRuns_eq {p : Char → Bool} {least : Nat} {f : Text → Text} (hl : 0 < least) {t : Text}
    (h : ∀ c ∈ t, p c = false) : mapRuns p least f [] t = t := by
  have hnone : ¬ ([] : Text).length ≥ least := Nat.not_le.mpr hl
  induction t with
  | nil => rw [mapRuns, if_neg hnone]; rfl
  | cons c t ih =>
    rw [mapRuns, h c List.mem_cons_self, if_neg Bool.false_ne_true, if_neg hnone,
      ih fun d hd => h d (List.mem_cons_of_mem _ hd)]
    rfl

theorem mapRuns_points {f : Text → Text} {t : Text} (h : occurs ['.', '.'] t = false) :
    mapRuns (· = '.') 2 f [] t = t := by
  induction t with
  | nil => rfl
  | cons c t ih =>
    have ht := ih (occurs_tail h)
    by_cases hc : c = '.'
    · subst hc
      cases t with
      | nil => rfl
      | cons d t =>
        have hd : d ≠ '.' := fun e => by
          subst e
          exact absurd (startsWith_eq_false h (List.cons_ne_nil _ _)) (by simp [startsWith, stripPrefix?])
        rw [mapRuns, if_neg (by simpa using hd), if_neg (by decide)] at ht
        rw [mapRuns, if_pos (by decide), mapRuns, if_neg (by simpa using hd), if_neg (by decide)]
        exact congrArg ('.' :: ·) ht
    · rw [mapRuns, if_neg (by simpa using hc), if_neg (by decide), ht]
      rfl

theorem unsetDots_eq {t : Text} (h : '…' ∉ t) : unsetDots t = t := by
  induction t with
  | nil => rfl
  | cons c t ih =>
    have ht := ih fun hm => h (List.mem_cons_of_mem _ hm)
    cases t with
    | nil => rfl
    | cons d t =>
      have hd : d ≠ '…' := fun e => h (e ▸ List.mem_cons_of_mem _ List.mem_cons_self)
      rw [unsetDots, ht]
      exact fun r hr => hd (List.cons.inj hr).1

theorem keepsHyphens_replicate {k n : Nat} {r : Text} (h : keepsHyphens n (List.replicate k '-' ++ r) = true) :
    keepsHyphens (n + k) r = true := by
  induction k generalizing n with
  | zero => exact h
  | succ k ih =>
    rw [List.replicate_succ, List.cons_append, keepsHyphens, if_pos rfl] at h
    rw [← Nat.succ_add_eq_add_succ]
    exact ih h

/-- No two or three hyphens stand between characters that are no hyphens. -/
theorem not_stands {after : Char → Bool} {count : Nat} {t : Text} (hcount : count = 2 ∨ count = 3)
    (ha : after '-' = false) (h : keepsHyphens 0 t = true) :
    (startsWith (List.replicate count '-') t && (t.drop count).head?.all fun d => after d || d = '\n') = false := by
  refine Bool.eq_false_iff.mpr fun hs => ?_
  obtain ⟨hpre, hnext⟩ := Bool.and_eq_true_iff.mp hs
  obtain ⟨r, rfl⟩ := startsWith_iff.mp hpre
  have hr := keepsHyphens_replicate h
  rw [List.drop_left' (List.length_replicate ..)] at hnext
  cases r with
  | nil => rcases hcount with rfl | rfl <;> exact Bool.noConfusion hr
  | cons d r =>
    have hd : d ≠ '-' := by
      rintro rfl
      rw [List.head?_cons, Option.all_some, ha] at hnext
      exact Bool.noConfusion hnext
    rw [keepsHyphens, if_neg hd] at hr
    rcases hcount with rfl | rfl <;> simp at hr

section
variable {before after : Char → Bool} {count : Nat} {dash : Char} {t : Text}

/-- The rest of a line, of which `n` hyphens have just been read. -/
theorem dashAux_eq (hcount : count = 2 ∨ count = 3) (hb : before '-' = false) (ha : after '-' = false) {n : Nat}
    (hline : '\n' ∉ t) (h : keepsHyphens n t = true) : dashAux before after count dash 0 false t = t := by
  induction t generalizing n with
  | nil => rfl
  | cons c t ih =>
    have hc : decide (c = '\n') = false := decide_eq_false fun e => hline (e ▸ List.mem_cons_self)
    have hline' : '\n' ∉ t := fun hm => hline (List.mem_cons_of_mem _ hm)
    rw [keepsHyphens] at h
    rw [dashAux]
    split at h
    · rename_i he
      subst he
      simp only [Bool.false_and, hb, Bool.false_eq_true, if_false, hc, ih hline' h]
    · simp only [Bool.and_eq_true] at h
      simp only [Bool.false_and, Bool.false_eq_true, if_false, not_stands hcount ha h.2, Bool.and_false, hc,
        ih hline' h.2]

theorem setDash_eq (hcount : count = 2 ∨ count = 3) (hb : before '-' = false) (ha : after '-' = false)
    (hline : '\n' ∉ t) (h : keepsHyphens 0 t = true) : setDash before after count dash t = t := by
  have hrest : dashAux before after count dash 0 false t = t := dashAux_eq hcount hb ha hline h
  cases t with
  | nil => rfl
  | cons c t =>
    have hstart := not_stands hcount ha h
    rw [dashAux] at hrest
    simp only [Bool.false_and, Bool.false_eq_true, if_false] at hrest
    rw [setDash, dashAux]
    simp only [hstart, Bool.and_false, Bool.false_eq_true, if_false]
    exact hrest

end

/-- A name and the mark before it are set as they are written. -/
theorem setDashes_eq {t : Text} (ht : ∀ c ∈ t, isCalm c = true) (hp : occurs ['.', '.'] t = false)
    (hh : keepsHyphens 0 t = true) : setDashes t = t := by
  have hnone {c : Char} (hc : isCalm c = false) : c ∉ t := fun hm => Bool.noConfusion ((ht c hm).symm.trans hc)
  unfold setDashes
  split
  · rfl
  · have hline : '\n' ∉ t := hnone (by decide)
    have hplus : occurs ['+', '-'] t = false := occurs_eq_false List.mem_cons_self (hnone (by decide))
    have hmarks : ∀ c ∈ t, isMark c = false := fun c hc =>
      forall_calm (p := fun c => isMark c = false) (by decide +kernel) (ht c hc)
    have hcommas : ∀ c ∈ t, decide (c = ',') = false := fun c hc =>
      decide_eq_false fun e => hnone (c := ',') (by decide) (e ▸ hc)
    simp only [replaceAll_eq hplus, mapRuns_points hp, unsetDots_eq (hnone (by decide)),
      mapRuns_eq (by decide : 0 < 4) hmarks, mapRuns_eq (by decide : 0 < 2) hcommas]
    rw [setDash_eq (.inr rfl) (by decide) (by decide) hline hh, setDash_eq (.inl rfl) (by decide) (by decide) hline hh,
      setDash_eq (.inl rfl) (by decide) (by decide) hline hh]

/-- Typography leaves a single text alone that is written as `t`. -/
theorem typeset_eq {t : Text} (ht : ∀ c ∈ t, isCalm c = true) (hp : occurs ['.', '.'] t = false)
    (hh : keepsHyphens 0 t = true) : typeset t [.text t] = [.text t] := by
  have hnone {c : Char} (hc : isCalm c = false) : c ∉ t := fun hm => Bool.noConfusion ((ht c hm).symm.trans hc)
  have hsign : hasSign t = false := List.any_eq_false.mpr fun s hs => by
    have hopen : '(' ∈ s.1 := (by decide : ∀ s ∈ signs, '(' ∈ s.1) s hs
    rw [occurs_eq_false hopen (hnone (by decide))]
    exact Bool.false_ne_true
  have hquote : (t.any fun c => c = '"' || c = '\'') = false := List.any_eq_false.mpr fun c hc => by
    exact forall_calm (p := fun c => ¬ (decide (c = '"') || decide (c = '\'')) = true) (by decide +kernel) (ht c hc)
  have hset : mapPlain setDashes false [.text t] = [.text t] := by
    rw [mapPlain, if_neg Bool.false_ne_true, setDashes_eq ht hp hh]
    rfl
  simp only [typeset, hsign, hquote, hset, Bool.false_eq_true, if_false, ite_self]

/-! ## underscores that pair with none -/

namespace Pairing

/-- The first delimiter may open what the second one closes. -/
def mayPair (o c : Delimiter) : Bool := o.opens && c.closes && !isOdd o c

/-- The delimiters from number `j` to number `i` stand side by side. -/
def Chain (ds : Array Delimiter) (j i : Nat) : Prop :=
  ∀ k, j ≤ k → k < i → ∃ d e, ds[k]? = some d ∧ ds[k + 1]? = some e ∧ e.token = d.token + 1

/-- Delimiters of one mark of which none can be paired with one before it, but in its own run. -/
structure Idle (ds : Array Delimiter) : Prop where
  mark : ∀ d ∈ ds, d.mark = '_'
  alone : ∀ j i o c, j < i → ds[j]? = some o → ds[i]? = some c → ¬ Chain ds j i → mayPair o c = false

variable {ds : Array Delimiter} {s : Pairing}

theorem openerFor?_eq_none {closer : Delimiter} {floor : Int} (fuel : Nat) (i : Int)
    (h : ∀ j : Nat, (j : Int) ≤ i → ((s.delimiter j).opens && !isOdd (s.delimiter j) closer) = false) :
    s.openerFor? closer floor fuel i = none := by
  induction fuel generalizing i with
  | zero => rfl
  | succ fuel ih =>
    rw [openerFor?]
    split
    · rfl
    · rename_i hi
      have hj := h i.toNat (by omega)
      dsimp only
      split
      · rename_i hpair
        simp only [Bool.and_eq_true] at hpair
        rw [hpair.1.1.2, hpair.2] at hj
        exact Bool.noConfusion hj
      · exact ih _ fun j hle => h j (by omega)

/-- Nothing has been paired so far. -/
structure Untouched (ds : Array Delimiter) (s : Pairing) : Prop where
  delimiters : s.delimiters = ds
  jump : ∀ i, s.jump i = 0

theorem Untouched.delimiter (hs : Untouched ds s) {i : Nat} {d : Delimiter} (h : ds[i]? = some d) :
    s.delimiter i = d := by
  rw [Pairing.delimiter, hs.delimiters, h]
  rfl

/-- No delimiter of a run before the one of `i` opens what `i` closes. -/
theorem pairAt_idle (hds : Idle ds) (hs : Untouched ds s) {header i : Nat} (hi : i < ds.size) (hle : header ≤ i)
    (hrun : ∀ j < header, ¬ Chain ds j i) : ∃ s', s.pairAt header i = (s', false) ∧ Untouched ds s' := by
  obtain ⟨c, hc⟩ : ∃ c, ds[i]? = some c := ⟨ds[i], Array.getElem?_eq_getElem hi⟩
  rw [pairAt]
  split
  · exact ⟨s, rfl, hs⟩
  · rename_i hcloses
    have hcloses : c.closes = true := by simpa [hs.delimiter hc] using hcloses
    have hnone : s.openerFor? (s.delimiter i) ((s.floors.lookup ((s.delimiter i).mark, (s.delimiter i).opens,
        (s.delimiter i).length % 3)).getD (-1)) (i + 1) ((header : Int) - s.jump header - 1) = none := by
      refine openerFor?_eq_none _ _ fun j hj => ?_
      have hj : j < header := by
        rw [hs.jump] at hj
        omega
      obtain ⟨o, ho⟩ : ∃ o, ds[j]? = some o := ⟨ds[j], Array.getElem?_eq_getElem (by omega)⟩
      have := hds.alone j i o c (by omega) ho hc (hrun j hj)
      rw [mayPair, hcloses, Bool.and_true] at this
      rw [hs.delimiter ho, hs.delimiter hc, this]
    simp only [hnone]
    split
    · exact ⟨s, rfl, hs⟩
    · exact ⟨_, rfl, hs.delimiters, hs.jump⟩

theorem pairFrom_idle (hds : Idle ds) (fuel : Nat) {header i : Nat} {last : Option Nat} {s : Pairing}
    (hs : Untouched ds s) (hle : header ≤ i) (hrun : ∀ j < header, ¬ Chain ds j (i - 1))
    (hlast : ∀ k d, i = k + 1 → ds[k]? = some d → last = some d.token) (hfirst : i = 0 → header = 0) :
    Untouched ds (pairFrom fuel header i last s) := by
  induction fuel generalizing header i last s with
  | zero => exact hs
  | succ fuel ih =>
    rw [pairFrom]
    split
    · exact hs
    · rename_i hsize
      rw [hs.delimiters] at hsize
      have hi : i < ds.size := Nat.lt_of_not_le hsize
      have hc : ds[i]? = some ds[i] := Array.getElem?_eq_getElem hi
      have hmark (j : Nat) (hj : j ≤ i) : (s.delimiter j).mark = '_' := by
        have hlt : j < ds.size := by omega
        rw [hs.delimiter (Array.getElem?_eq_getElem hlt)]
        exact hds.mark _ (Array.getElem_mem hlt)
      have hnext : ∃ header', (if (s.delimiter header).mark = (s.delimiter i).mark ∧
            last.any (fun n => n + 1 = (s.delimiter i).token) then header else i) = header' ∧
          header' ≤ i ∧ ∀ j < header', ¬ Chain ds j i := by
        split
        · refine ⟨header, rfl, hle, fun j hj hchain => hrun j hj fun k hjk hk => hchain k hjk (by omega)⟩
        · rename_i hnew
          refine ⟨i, rfl, Nat.le_refl i, fun j hj hchain => hnew ⟨?_, ?_⟩⟩
          · rw [hmark header hle, hmark i (Nat.le_refl i)]
          · obtain ⟨d, e, hd, he, htoken⟩ := hchain (i - 1) (by omega) (by omega)
            have hpred : i - 1 + 1 = i := by omega
            rw [hpred, hc] at he
            rw [hlast (i - 1) d hpred.symm hd, hs.delimiter hc, Option.some.inj he, htoken]
            simp
      obtain ⟨header', heq, hle', hrun'⟩ := hnext
      obtain ⟨s', hpair, hs'⟩ := pairAt_idle hds hs hi hle' hrun'
      simp only [heq, hpair]
      refine ih hs' (by omega) (fun j hj => hrun' j hj) (fun k d hk hd => ?_) (fun h => absurd h (Nat.succ_ne_zero i))
      obtain rfl : i = k := Nat.succ.inj hk
      simp [hs.delimiter hd]

theorem Idle.append {ds : Array Delimiter} {rs : List DelimiterRun} {r₀ : DelimiterRun} (h : Idle ds)
    (hrs : ∀ d ∈ ds, ∃ r ∈ rs, d = underscore r d.token) (hnew : ∀ r ∈ rs, emphasises r r₀ = false) (first n : Nat) :
    Idle (ds ++ ((List.range n).map fun k => underscore r₀ (first + k)).toArray) := by
  have hmem {i : Nat} {d : Delimiter} (hi : ds.size ≤ i)
      (hd : (ds ++ ((List.range n).map fun k => underscore r₀ (first + k)).toArray)[i]? = some d) :
      i - ds.size < n ∧ d = underscore r₀ (first + (i - ds.size)) := by
    rw [Array.getElem?_append_right hi, List.getElem?_toArray, List.getElem?_map] at hd
    obtain ⟨k, hk, rfl⟩ := Option.map_eq_some_iff.mp hd
    obtain ⟨hlt, rfl⟩ := List.getElem?_eq_some_iff.mp hk
    rw [List.length_range] at hlt
    rw [List.getElem_range]
    exact ⟨hlt, rfl⟩
  refine ⟨fun d hd => ?_, fun j i o c hji ho hc hchain => ?_⟩
  · rcases Array.mem_append.mp hd with hd | hd
    · exact h.mark d hd
    · obtain ⟨k, -, rfl⟩ := List.mem_map.mp (List.mem_toArray.mp hd)
      rfl
  · by_cases hi : i < ds.size
    · rw [Array.getElem?_append_left hi] at hc
      rw [Array.getElem?_append_left (Nat.lt_trans hji hi)] at ho
      refine h.alone j i o c hji ho hc fun hold => hchain fun k hjk hk => ?_
      obtain ⟨d, e, hd, he, ht⟩ := hold k hjk hk
      exact ⟨d, e, by rwa [Array.getElem?_append_left (Nat.lt_trans hk hi)],
        by rwa [Array.getElem?_append_left (Nat.lt_of_le_of_lt hk hi)], ht⟩
    · obtain ⟨hlt, rfl⟩ := hmem (Nat.le_of_not_lt hi) hc
      by_cases hj : j < ds.size
      · rw [Array.getElem?_append_left hj] at ho
        obtain ⟨r, hr, hor⟩ := hrs o (Array.mem_of_getElem? ho)
        rw [hor]
        exact hnew r hr
      · refine absurd (fun k hjk hk => ?_) hchain
        have hget (m : Nat) (hm : ds.size ≤ m) (hmn : m - ds.size < n) :
            (ds ++ ((List.range n).map fun k => underscore r₀ (first + k)).toArray)[m]?
              = some (underscore r₀ (first + (m - ds.size))) := by
          rw [Array.getElem?_append_right hm, List.getElem?_toArray, List.getElem?_map, List.getElem?_range hmn]
          rfl
        refine ⟨_, _, hget k (by omega) (by omega), hget (k + 1) (by omega) (by omega), ?_⟩
        show first + (k + 1 - ds.size) = first + (k - ds.size) + 1
        omega

end Pairing

theorem pairDelimiters_idle {ds : Array Delimiter} (h : Pairing.Idle ds) : pairDelimiters ds = ds := by
  refine (Pairing.pairFrom_idle h ds.size ⟨rfl, fun i => ?_⟩ (Nat.le_refl 0) (fun j hj => absurd hj (Nat.not_lt_zero j))
    (fun k d hk => absurd hk (Nat.succ_ne_zero k).symm) fun _ => rfl).delimiters
  rw [Pairing.jump, Array.getElem?_replicate]
  split <;> rfl

theorem foldl_fixed {α β : Type} {f : α → β → α} {a : α} {bs : List β} (h : ∀ b ∈ bs, f a b = a) :
    bs.foldl f a = a := by
  induction bs with
  | nil => rfl
  | cons b bs ih =>
    rw [List.foldl_cons, h b List.mem_cons_self]
    exact ih fun b hb => h b (List.mem_cons_of_mem _ hb)

theorem strikeOut_idle {ts : Array Token} {ds : Array Delimiter} (h : ∀ d ∈ ds, d.partner = none) :
    strikeOut ts ds = ts := by
  rw [strikeOut, ← Array.foldl_toList, foldl_fixed]
  · rfl
  · intro d hd
    simp only [h d (Array.mem_toList_iff.mp hd), ite_self]

theorem emphasise_idle {ds : Array Delimiter} (h : ∀ d ∈ ds, d.partner = none) (n : Nat) (ts : Array Token) :
    emphasise ds n ts = ts := by
  induction n with
  | zero => rfl
  | succ n ih =>
    rw [emphasise]
    cases hd : ds[n]? with
    | none => exact ih
    | some d =>
      have hp : d.partner = none := h d (Array.mem_of_getElem? hd)
      simp only [hp, ite_self]
      exact ih

end Lectern.Markdown
