import Lectern.Proofs.Image.Directive
import Lectern.Proofs.Markdown.Inert
import Lectern.Proofs.Percent

/-!
# Images from the files of a folder

The source of an image that is a file in a folder is the folder as it is written, a slash, and the
name of the file with its bars doubled and its other signs escaped.  Whatever the name is, it comes
back; the folder does so only if it holds no escape and no doubled bar, and not just one bar.

* `source`                  the source of a file in a folder;
* `resolve_source`          the address of such a file;
* `isRelative_spelled`      it is rooted as the folder is;
* `Kept`                    folders whose names go into an address and back;
* `resolve_source_iff`      just these lead to the file.
-/

namespace Lectern.Image
open Text

/-- The source of a file in a folder. -/
def source (folder name : Text) : Text := folder ++ '/' :: percentPath (double '|' name)

/-! ## a slash parts what is read -/

theorem exists_of_behind {a b e : Char} (ha : a ≠ e) (hb : b ≠ e) {s t r : Text} (h : s ++ e :: t = a :: b :: r) :
    ∃ r', s = a :: b :: r' := by
  match s with
  | [] => exact absurd (List.cons.inj h).1.symm ha
  | [_] => exact absurd (List.cons.inj (List.cons.inj h).2).1.symm hb
  | x :: y :: s =>
    obtain ⟨rfl, hrest⟩ := List.cons.inj h
    obtain ⟨rfl, -⟩ := List.cons.inj hrest
    exact ⟨s, rfl⟩

theorem readBars_slash (s t : Text) : readBars (s ++ '/' :: t) = readBars s ++ '/' :: readBars t := by
  fun_induction readBars s with
  | case1 s ih =>
    rw [List.cons_append, List.cons_append, List.cons_append, readBars, ih]
    rfl
  | case2 s ih =>
    rw [List.cons_append, List.cons_append, List.cons_append, readBars, ih]
    rfl
  | case3 c s hC hc ih =>
    rw [List.cons_append, readBars, ih]
    · rfl
    · rintro r rfl heq
      obtain ⟨r', rfl⟩ := exists_of_behind (by decide) (by decide) heq
      exact hC r' rfl rfl
    · rintro r rfl heq
      obtain ⟨r', rfl⟩ := exists_of_behind (by decide) (by decide) heq
      exact hc r' rfl rfl
  | case4 => rfl

section
variable {d c : Char} (hc : c ≠ d)

include hc

theorem loneSplitsAux_behind (s t acc : Text) : loneSplitsAux [d] 0 acc (s ++ c :: t) =
    (loneSplitsAux [d] 0 acc s).map (fun uv => (uv.1, uv.2 ++ c :: t)) ++
      loneSplitsAux [d] 0 (c :: (s.reverse ++ acc)) t := by
  induction s using runs (d := d) generalizing acc with
  | nil => exact loneSplitsAux_other hc acc t
  | other e s he ih =>
    rw [List.cons_append, loneSplitsAux_other he, loneSplitsAux_other he, ih, List.reverse_cons, List.append_assoc]
    rfl
  | run n s hs ih =>
    have hhead : (s ++ c :: t).head? ≠ some d := by
      cases s with
      | nil => simpa using hc
      | cons e s => exact hs
    rw [List.append_assoc, loneSplitsAux_run n hhead, loneSplitsAux_run n hs, ih, List.map_append, List.append_assoc,
      List.reverse_append, List.reverse_replicate, List.append_assoc]
    congr 1
    split <;> rfl

/-- Behind a sign that is no delimiter, no doubled delimiter is a cut. -/
theorem loneSplits_double_behind (s p : Text) : loneSplits [d] (s ++ c :: double d p) =
    (loneSplits [d] s).map fun uv => (uv.1, uv.2 ++ c :: double d p) := by
  have hdouble := loneSplitsAux_double (d := d) (p := p) (r := []) (.inr (by simp)) (c :: (s.reverse ++ []))
  rw [List.append_nil (double d p)] at hdouble
  rw [loneSplits, loneSplits, if_neg (List.cons_ne_nil d []), if_neg (List.cons_ne_nil d []), loneSplitsAux_behind hc,
    hdouble]
  exact List.append_nil _

end

section
variable {c : Char} {old : Text} (hold : c ∉ old)

include hold

theorem startsWith_behind (s t : Text) :
    startsWith old (s ++ c :: t) = startsWith old s := by
  unfold startsWith
  induction old generalizing s with
  | nil => rfl
  | cons e old ih =>
    have he : e ≠ c := Ne.symm (List.ne_of_not_mem_cons hold)
    cases s with
    | nil => simp [stripPrefix?, he]
    | cons x s =>
      rw [List.cons_append, stripPrefix?, stripPrefix?]
      split
      · exact ih (List.not_mem_of_not_mem_cons hold) s
      · rfl

/-- An exchange goes on behind a sign that is no part of what is exchanged. -/
theorem replaceAux_behind (hne : old ≠ []) (new s t : Text) {skip : Nat} (hskip : skip ≤ s.length) :
    replaceAux old new skip (s ++ c :: t) = replaceAux old new skip s ++ c :: replaceAux old new 0 t := by
  induction s generalizing skip with
  | nil =>
    obtain rfl : skip = 0 := Nat.le_zero.mp hskip
    have hs : startsWith old (c :: t) = false := by
      cases old with
      | nil => exact absurd rfl hne
      | cons e old => simp [startsWith, stripPrefix?, Ne.symm (List.ne_of_not_mem_cons hold)]
    have hcons : replaceAux old new 0 (c :: t) = c :: replaceAux old new 0 t := by rw [replaceAux, hs]; rfl
    exact hcons
  | cons e s ih =>
    cases skip with
    | succ skip => exact ih (Nat.le_of_succ_le_succ hskip)
    | zero =>
      have hs : startsWith old (e :: (s ++ c :: t)) = startsWith old (e :: s) := startsWith_behind hold (e :: s) t
      rw [List.cons_append, replaceAux, replaceAux, hs]
      split
      · rename_i hstarts
        obtain ⟨r, hr⟩ := startsWith_iff.mp hstarts
        have hlen := congrArg List.length hr
        rw [List.length_cons, List.length_append] at hlen
        rw [ih (by omega), List.append_assoc]
      · exact congrArg (e :: ·) (ih (Nat.zero_le _))

end

/-! ## names -/

/-- A character of a name as it is written in an address. -/
def spelledChar (c : Char) : Text := if isPathChar c then [c] else (encodeChar c).flatMap percentByte

/-- A name with its signs escaped, bars apart. -/
def keepingBars (name : Text) : Text := name.flatMap fun c => if c = '|' then ['|'] else spelledChar c

theorem readBars_cons {c : Char} (hc : c ≠ '%') (t : Text) : readBars (c :: t) = c :: readBars t := by
  rw [readBars]
  · rintro r rfl
    exact absurd rfl hc
  · rintro r rfl
    exact absurd rfl hc

theorem hexDigit_toUpper_ne (n : Nat) : (hexDigit n).toUpper ≠ '%' ∧ (hexDigit n).toUpper ≠ '|' :=
  forall_hexDigit (P := fun _ c => c.toUpper ≠ '%' ∧ c.toUpper ≠ '|') (by decide) n

/-- Only the bar is written with the escape of a bar. -/
theorem eq_bar_of_digits {b : UInt8} (h : (hexDigit (b.toNat / 16)).toUpper = '7')
    (h' : (hexDigit b.toNat).toUpper = 'C' ∨ (hexDigit b.toNat).toUpper = 'c') : b = 0x7c := by
  have hhigh : some (b.toNat / 16 % 16) = some 7 := by
    rw [← hexDigit?_toUpper, h]
    rfl
  have hlow : some (b.toNat % 16) = some 12 := by
    rw [← hexDigit?_toUpper]
    rcases h' with h' | h' <;> rw [h'] <;> rfl
  have hhigh := Option.some.inj hhigh
  have hlow := Option.some.inj hlow
  refine UInt8.toNat_inj.mp ?_
  show b.toNat = 124
  have := b.toNat_lt
  omega

theorem readBars_percentByte {b : UInt8} (hb : b ≠ 0x7c) (t : Text) :
    readBars (percentByte b ++ t) = percentByte b ++ readBars t := by
  have hdigits : readBars ((hexDigit (b.toNat / 16)).toUpper :: (hexDigit b.toNat).toUpper :: t) =
      (hexDigit (b.toNat / 16)).toUpper :: (hexDigit b.toNat).toUpper :: readBars t := by
    rw [readBars_cons (hexDigit_toUpper_ne _).1, readBars_cons (hexDigit_toUpper_ne _).1]
  show readBars ('%' :: (hexDigit (b.toNat / 16)).toUpper :: (hexDigit b.toNat).toUpper :: t) = _
  rw [readBars, hdigits]
  · rfl
  · rintro r - heq
    obtain ⟨h, heq⟩ := List.cons.inj heq
    exact hb (eq_bar_of_digits h (.inl (List.cons.inj heq).1))
  · rintro r - heq
    obtain ⟨h, heq⟩ := List.cons.inj heq
    exact hb (eq_bar_of_digits h (.inr (List.cons.inj heq).1))

theorem encodeChar_ne_bar {c : Char} (hc : c ≠ '|') : ∀ b ∈ encodeChar c, b ≠ 0x7c := by
  have hvalid : c.toNat < 0xd800 ∨ 0xdfff < c.toNat ∧ c.toNat < 0x110000 := c.valid
  have hn : c.toNat ≠ 124 := fun h => hc (by rw [← Char.ofNat_toNat c, h])
  have hne {k : Nat} (hk : k < 256) (h : k ≠ 124) : k.toUInt8 ≠ 0x7c := fun he => h (by
    rw [← toNat_toUInt8 hk, he]
    rfl)
  unfold encodeChar
  dsimp only
  generalize c.toNat = n at hvalid hn
  -- a character of one byte is that byte, and the bytes of all others are none of ASCII
  repeat' split
  all_goals simp only [List.forall_mem_cons, List.not_mem_nil, false_imp_iff, implies_true, and_true]
  · exact hne (by omega) hn
  · exact ⟨hne (by omega) (by omega), hne (by omega) (by omega)⟩
  · exact ⟨hne (by omega) (by omega), hne (by omega) (by omega), hne (by omega) (by omega)⟩
  · exact ⟨hne (by omega) (by omega), hne (by omega) (by omega), hne (by omega) (by omega),
      hne (by omega) (by omega)⟩

theorem readBars_spelledChar {c : Char} (hc : c ≠ '|') (t : Text) :
    readBars (spelledChar c ++ t) = spelledChar c ++ readBars t := by
  unfold spelledChar
  split
  · rename_i hpath
    exact readBars_cons (toNat_lt_of_isPathChar hpath).2 t
  · have hbytes := encodeChar_ne_bar hc
    generalize encodeChar c = bs at hbytes
    induction bs with
    | nil => rfl
    | cons b bs ih =>
      obtain ⟨hb, hbs⟩ := List.forall_mem_cons.mp hbytes
      rw [List.flatMap_cons, List.append_assoc, readBars_percentByte hb, ih hbs, List.append_assoc]

theorem bar_not_mem_spelledChar (c : Char) : '|' ∉ spelledChar c := by
  unfold spelledChar
  split
  · rename_i hpath
    rintro (_ | ⟨_, ⟨⟩⟩)
    exact absurd hpath (by decide)
  · intro h
    obtain ⟨b, -, hb⟩ := List.mem_flatMap.mp h
    simp only [percentByte, List.mem_cons, List.not_mem_nil, or_false] at hb
    rcases hb with h | h | h
    · exact absurd h (by decide)
    · exact (hexDigit_toUpper_ne _).2 h.symm
    · exact (hexDigit_toUpper_ne _).2 h.symm

theorem double_of_not_mem {d : Char} {s : Text} (h : d ∉ s) : double d s = s := by
  induction s with
  | nil => rfl
  | cons c s ih =>
    rw [double, List.flatMap_cons, if_neg (Ne.symm (List.ne_of_not_mem_cons h))]
    exact congrArg (c :: ·) (ih (List.not_mem_of_not_mem_cons h))

theorem double_append (d : Char) (s t : Text) : double d (s ++ t) = double d s ++ double d t := List.flatMap_append

/-- The doubled bars of a name are read as doubled bars, and all else stays escaped. -/
theorem readBars_percentPath (name : Text) :
    readBars (percentPath (double '|' name)) = double '|' (keepingBars name) := by
  induction name with
  | nil => rfl
  | cons c name ih =>
    have hpath (s t : Text) : percentPath (s ++ t) = percentPath s ++ percentPath t := List.flatMap_append
    have hcons : keepingBars (c :: name) = (if c = '|' then ['|'] else spelledChar c) ++ keepingBars name :=
      List.flatMap_cons
    rw [← List.singleton_append, double_append, hpath, List.singleton_append, hcons, double_append, ← ih]
    by_cases hc : c = '|'
    · subst hc
      rfl
    · have hsingle : double '|' [c] = [c] := double_of_not_mem (by simpa using Ne.symm hc)
      have hspelled : percentPath [c] = spelledChar c := List.append_nil _
      rw [hsingle, hspelled, if_neg hc, readBars_spelledChar hc, double_of_not_mem (bar_not_mem_spelledChar c)]

/-- With its bars escaped as well the name is as it is written in an address. -/
theorem replaceAll_keepingBars (name : Text) :
    replaceAll ['|'] ['%', '7', 'C'] (keepingBars name) = percentPath name := by
  rw [Html.replaceAll_sign, keepingBars, List.flatMap_assoc]
  refine congrArg (name.flatMap ·) (funext fun c => ?_)
  by_cases hc : c = '|'
  · subst hc
    decide
  · rw [if_neg hc]
    show _ = spelledChar c
    have hmem := bar_not_mem_spelledChar c
    generalize spelledChar c = s at hmem
    induction s with
    | nil => rfl
    | cons e s ih =>
      rw [List.flatMap_cons, if_neg (Ne.symm (List.ne_of_not_mem_cons hmem)), ih (List.not_mem_of_not_mem_cons hmem)]
      rfl

/-! ## the folder -/

/-- A folder as it is written in an address. -/
def inAddress (folder : Text) : Text :=
  replaceAll ['|'] ['%', '7', 'C'] (replaceAll ['|', '|'] ['|'] (readBars folder))

theorem replaceAll_slash {old : Text} (hold : '/' ∉ old) (hne : old ≠ []) (new s t : Text) :
    replaceAll old new (s ++ '/' :: t) = replaceAll old new s ++ '/' :: replaceAll old new t := by
  rw [replaceAll, replaceAll, replaceAll, if_neg hne, if_neg hne, if_neg hne]
  exact replaceAux_behind hold hne new s t (Nat.zero_le _)

theorem loneSplits_source (folder name : Text) : loneSplits ['|'] (readBars (source folder name)) =
    (loneSplits ['|'] (readBars folder)).map fun uv => (uv.1, uv.2 ++ '/' :: double '|' (keepingBars name)) := by
  rw [source, readBars_slash, readBars_percentPath, loneSplits_double_behind (by decide)]

/-- A text with a sign that is no blank keeps it. -/
theorem strip_ne_nil {t : Text} {c : Char} (hc : c ∈ t) (hblank : isBlank c = false) : strip t ≠ [] := by
  have hkept {l : Text} (hl : c ∈ l) : c ∈ l.dropWhile isBlank := by
    rw [← List.takeWhile_append_dropWhile (p := isBlank) (l := l)] at hl
    refine (List.mem_append.mp hl).resolve_left fun hm => ?_
    rw [List.all_eq_true.mp (List.all_takeWhile (p := isBlank) (l := l)) c hm] at hblank
    cases hblank
  have hright : c ∈ (stripLeft t).reverse.dropWhile isBlank := hkept (List.mem_reverse.mpr (hkept hc))
  intro h
  rw [List.reverse_eq_nil_iff.mp h] at hright
  cases hright

/-- A folder with one bar that stands alone is cut there. -/
theorem resolve_source_lone (imageDir : Text) (fromRoot : Bool) {folder : Text} {uv : Text × Text}
    (h : loneSplits ['|'] (readBars folder) = [uv]) (name : Text) :
    (resolve imageDir fromRoot (source folder name)).2 ≠ none := by
  have hblank : strip (uv.2 ++ '/' :: double '|' (keepingBars name)) ≠ [] :=
    strip_ne_nil (List.mem_append_right _ List.mem_cons_self) (by decide)
  rw [resolve, sizeDirective, loneSplits_source, h, List.map_cons, List.map_nil]
  dsimp only
  rw [if_neg hblank]
  exact Option.some_ne_none _

/-- Any other folder is written as it is, its bars apart. -/
theorem sizeDirective_source {folder : Text} (h : ∀ uv, loneSplits ['|'] (readBars folder) ≠ [uv]) (name : Text) :
    sizeDirective ['|'] (readBars (source folder name)) =
      (replaceAll ['|', '|'] ['|'] (readBars folder) ++ '/' :: keepingBars name, none) := by
  have hpath : replaceAll (['|'] ++ ['|']) ['|'] (readBars (source folder name)) =
      replaceAll ['|', '|'] ['|'] (readBars folder) ++ '/' :: keepingBars name := by
    rw [source, readBars_slash, readBars_percentPath, replaceAll_slash (by decide) (by decide), undouble_double]
    rfl
  rw [sizeDirective, loneSplits_source]
  cases hsplits : loneSplits ['|'] (readBars folder) with
  | nil => exact congrArg (·, none) hpath
  | cons uv uvs =>
    cases uvs with
    | nil => exact absurd hsplits (h uv)
    | cons _ _ => exact congrArg (·, none) hpath

/-! ### where it leads -/

/-- What comes before the first bar or escape. -/
def lead (t : Text) : Text := t.takeWhile fun c => c ≠ '%' && c ≠ '|'

theorem lead_cons {c : Char} (s : Text) {t : Text} (h : lead s = lead t) : lead (c :: s) = lead (c :: t) := by
  rw [lead, lead, List.takeWhile_cons, List.takeWhile_cons]
  split
  · exact congrArg (c :: ·) h
  · rfl

theorem lead_readBars (t : Text) : lead (readBars t) = lead t := by
  fun_induction readBars t with
  | case1 => rfl
  | case2 => rfl
  | case3 c t _ _ ih => exact lead_cons _ ih
  | case4 => rfl

theorem lead_undouble (t : Text) : lead (replaceAll ['|', '|'] ['|'] t) = lead t := by
  rw [replaceAll, if_neg (by decide)]
  induction t with
  | nil => rfl
  | cons c t ih =>
    rw [replaceAux]
    split
    · rename_i hs
      obtain ⟨r, hr⟩ := startsWith_iff.mp hs
      rw [hr]
      rfl
    · exact lead_cons _ ih

theorem lead_escapeBars (t : Text) : lead (replaceAll ['|'] ['%', '7', 'C'] t) = lead t := by
  rw [Html.replaceAll_sign]
  induction t with
  | nil => rfl
  | cons c t ih =>
    rw [List.flatMap_cons]
    split
    · rename_i hc
      rw [hc]
      rfl
    · exact lead_cons _ ih

theorem hasScheme_cons {c : Char} {s : Text} :
    hasScheme (c :: s) = true ↔ isLetter c = true ∧ (s.dropWhile isSchemeChar).head? = some ':' := by
  rw [hasScheme, afterScheme?]
  by_cases hc : isLetter c = true
  · rw [if_pos hc]
    match s.dropWhile isSchemeChar with
    | [] => simp
    | e :: r =>
      by_cases he : e = ':'
      · subst he
        simp [hc]
      · simp [he]
  · simp [hc]

theorem lead_pass {c : Char} (hc : isSchemeChar c = true) (s : Text) : lead (c :: s) = c :: lead s := by
  have hne {d : Char} (hd : isSchemeChar d = false) : c ≠ d := fun h => by rw [h, hd] at hc; cases hc
  have hpass : (c ≠ '%' && c ≠ '|') = true := by simp [hne (d := '%') (by decide), hne (d := '|') (by decide)]
  rw [lead, List.takeWhile_cons, if_pos hpass]
  rfl

theorem colon_lead (s : Text) : ((lead s).dropWhile isSchemeChar).head? = some ':' ↔
    (s.dropWhile isSchemeChar).head? = some ':' := by
  induction s with
  | nil => rfl
  | cons c s ih =>
    by_cases hc : isSchemeChar c = true
    · rw [lead_pass hc, List.dropWhile_cons_of_pos hc, List.dropWhile_cons_of_pos hc, ih]
    · rw [List.dropWhile_cons_of_neg hc, lead, List.takeWhile_cons]
      split
      · rw [List.dropWhile_cons_of_neg hc]
        rfl
      · rename_i hstop
        have hne : c ≠ ':' := by
          rintro rfl
          exact hstop (by decide)
        simp [hne]

theorem colon_slash (s r : Text) : ((s ++ '/' :: r).dropWhile isSchemeChar).head? = some ':' ↔
    (s.dropWhile isSchemeChar).head? = some ':' := by
  induction s with
  | nil => simp [List.dropWhile_cons_of_neg (show ¬ isSchemeChar '/' = true by decide)]
  | cons c s ih =>
    by_cases hc : isSchemeChar c = true
    · rw [List.cons_append, List.dropWhile_cons_of_pos hc, List.dropWhile_cons_of_pos hc, ih]
    · rw [List.cons_append, List.dropWhile_cons_of_neg hc, List.dropWhile_cons_of_neg hc]
      rfl

theorem isSchemeChar_of_isLetter {c : Char} (hc : isLetter c = true) : isSchemeChar c = true := by
  have hletter : isLetterOrDigit c = true := by rw [isLetterOrDigit, Char.isAlphanum, ← isLetter, hc]; rfl
  rw [isSchemeChar, hletter]
  rfl

theorem hasScheme_lead (t : Text) : hasScheme (lead t) = hasScheme t := by
  cases t with
  | nil => rfl
  | cons c s =>
    rw [Bool.eq_iff_iff, hasScheme_cons]
    by_cases hc : isLetter c = true
    · rw [lead_pass (isSchemeChar_of_isLetter hc), hasScheme_cons, colon_lead]
    · rw [lead, List.takeWhile_cons]
      split
      · rw [hasScheme_cons]
        exact ⟨fun h => absurd h.1 hc, fun h => absurd h.1 hc⟩
      · exact ⟨fun h => (nomatch h), fun h => absurd h.1 hc⟩

theorem hasScheme_slash {t : Text} (ht : t ≠ []) (r : Text) : hasScheme (t ++ '/' :: r) = hasScheme t := by
  obtain ⟨c, s, rfl⟩ := List.exists_cons_of_ne_nil ht
  rw [List.cons_append, Bool.eq_iff_iff, hasScheme_cons, hasScheme_cons, colon_slash]

theorem startsWith_lead {p : Text} (hp : (p.all fun c => c ≠ '%' && c ≠ '|') = true) (t : Text) :
    startsWith p (lead t) = startsWith p t := by
  unfold startsWith
  induction p generalizing t with
  | nil => rfl
  | cons e p ih =>
    obtain ⟨he, hp⟩ := Bool.and_eq_true_iff.mp hp
    cases t with
    | nil => rfl
    | cons c t =>
      rw [lead, List.takeWhile_cons]
      split
      · rw [stripPrefix?, stripPrefix?]
        split
        · exact ih hp t
        · rfl
      · rename_i hc
        have hne : ¬ e = c := by
          rintro rfl
          exact hc he
        rw [stripPrefix?, stripPrefix?, if_neg hne]

/-- Whether a path lies next to its document is said by what comes before its first bar or escape. -/
theorem isRelative_lead (t : Text) : isRelative (lead t) = isRelative t := by
  rw [isRelative, isRelative, startsWith_lead (by decide), startsWith_lead (by decide), hasScheme_lead]

theorem isRelative_slash {t : Text} (ht : t ≠ []) (r : Text) : isRelative (t ++ '/' :: r) = isRelative t := by
  have hroot : startsWith ['/'] (t ++ '/' :: r) = startsWith ['/'] t := by
    cases t with
    | nil => exact absurd rfl ht
    | cons c t =>
      rw [List.cons_append]
      by_cases hc : '/' = c
      · subst hc
        rfl
      · simp [startsWith, stripPrefix?, hc]
  rw [isRelative, isRelative, startsWith_behind (by decide), hroot, hasScheme_slash ht]

theorem inAddress_ne_nil {folder : Text} (h : folder ≠ []) : inAddress folder ≠ [] := by
  have hbars : readBars folder ≠ [] := by
    fun_cases readBars folder with
    | case4 => exact absurd rfl h
    | _ => exact List.cons_ne_nil _ _
  obtain ⟨c, t, hcons⟩ := List.exists_cons_of_ne_nil hbars
  have hundoubled : replaceAll ['|', '|'] ['|'] (c :: t) ≠ [] := by
    rw [replaceAll, if_neg (by decide), replaceAux]
    split
    · exact List.cons_ne_nil _ _
    · exact List.cons_ne_nil _ _
  obtain ⟨e, u, hcons'⟩ := List.exists_cons_of_ne_nil hundoubled
  rw [inAddress, hcons, hcons', Html.replaceAll_sign, List.flatMap_cons]
  split
  · exact List.cons_ne_nil _ _
  · exact List.cons_ne_nil _ _

theorem isRelative_inAddress (folder : Text) : isRelative (inAddress folder) = isRelative folder := by
  rw [← isRelative_lead, inAddress, lead_escapeBars, lead_undouble, lead_readBars, isRelative_lead]

/-- The address of a file in a folder. -/
theorem resolve_source (imageDir : Text) (fromRoot : Bool) {folder : Text} (hne : folder ≠ [])
    (hrelative : isRelative folder = true) (h : ∀ uv, loneSplits ['|'] (readBars folder) ≠ [uv]) (name : Text) :
    resolve imageDir fromRoot (source folder name) =
      ((if fromRoot then ['/'] else []) ++ imageDir ++ '/' :: (inAddress folder ++ '/' :: percentPath name), none) := by
  have haddress : replaceAll ['|'] ['%', '7', 'C']
      (replaceAll ['|', '|'] ['|'] (readBars folder) ++ '/' :: keepingBars name) =
        inAddress folder ++ '/' :: percentPath name := by
    rw [replaceAll_slash (by decide) (by decide), replaceAll_keepingBars]
    rfl
  have hroot : isRelative (inAddress folder ++ '/' :: percentPath name) = true := by
    rw [isRelative_slash (inAddress_ne_nil hne), isRelative_inAddress, hrelative]
  rw [resolve, sizeDirective_source h]
  dsimp only
  rw [haddress, if_pos hroot]
  rfl

/-! ## back to the file -/

/-- Texts that are read alike, whatever follows them. -/
def ReadAlike (s t : Text) : Prop := ∀ r, escapedBytesAux 0 (s ++ r) = escapedBytesAux 0 (t ++ r)

theorem ReadAlike.append {s t : Text} (h : ReadAlike s t) (u : Text) : ReadAlike (s ++ u) (t ++ u) := fun r => by
  rw [List.append_assoc, List.append_assoc, h]

theorem ReadAlike.eq {s t : Text} (h : ReadAlike s t) : escapedBytesAux 0 s = escapedBytesAux 0 t := by
  have := h []
  rwa [List.append_nil, List.append_nil] at this

/-- A bar and its escape are read alike. -/
theorem ReadAlike.bar {s t : Text} (h : ReadAlike s t) : ReadAlike (s ++ ['%', '7', 'C']) (t ++ ['|']) := fun r => by
  have hescape : escapedBytesAux 0 ('%' :: '7' :: 'C' :: r) = 0x7c :: escapedBytesAux 0 r := rfl
  have hbar : escapedBytesAux 0 ('|' :: r) = 0x7c :: escapedBytesAux 0 r := rfl
  rw [List.append_assoc, List.append_assoc]
  show escapedBytesAux 0 (s ++ '%' :: '7' :: 'C' :: r) = escapedBytesAux 0 (t ++ '|' :: r)
  rw [escapedBytesAux_behind (by decide) s _ (Nat.zero_le _), escapedBytesAux_behind (by decide) t _ (Nat.zero_le _),
    hescape, hbar, h.eq]

theorem percentDecodeAux_escapeBars {acc acc' : Text} (h : ReadAlike acc.reverse acc'.reverse) (t : Text) :
    percentDecodeAux acc (replaceAll ['|'] ['%', '7', 'C'] t) = percentDecodeAux acc' t := by
  rw [Html.replaceAll_sign]
  induction t generalizing acc acc' with
  | nil => exact congrArg decodeLossy h.eq
  | cons c t ih =>
    rw [List.flatMap_cons]
    by_cases hbar : c = '|'
    · subst hbar
      rw [if_pos rfl]
      have hnext : ReadAlike ('C' :: '7' :: '%' :: acc).reverse ('|' :: acc').reverse := by
        have := h.bar
        simpa using this
      exact ih hnext
    · rw [if_neg hbar, List.singleton_append]
      by_cases hc : c.toNat < 0x80
      · rw [percentDecodeAux_cons hc, percentDecodeAux_cons hc]
        refine ih ?_
        rw [List.reverse_cons, List.reverse_cons]
        exact h.append [c]
      · rw [percentDecodeAux, percentDecodeAux, if_neg hc, if_neg hc, h.eq, ih (fun _ => rfl)]

/-- Bars and their escapes are read alike. -/
theorem percentDecode_escapeBars (t : Text) :
    percentDecode (replaceAll ['|'] ['%', '7', 'C'] t) = percentDecode t :=
  percentDecodeAux_escapeBars (fun _ => rfl) t

theorem percentDecode_address (imageDir folder name : Text) (fromRoot : Bool) :
    percentDecode
        ((if fromRoot then ['/'] else []) ++ imageDir ++ '/' :: (inAddress folder ++ '/' :: percentPath name)) =
      (if fromRoot then ['/'] else []) ++
        (percentDecode imageDir ++ '/' :: percentDecode (inAddress folder)) ++ '/' :: name := by
  have hpath : percentDecode (imageDir ++ '/' :: (inAddress folder ++ '/' :: percentPath name)) =
      (percentDecode imageDir ++ '/' :: percentDecode (inAddress folder)) ++ '/' :: name := by
    rw [percentDecode_slash, percentDecode_slash, percentDecode_percentPath, List.append_assoc]
    rfl
  cases fromRoot with
  | false => exact hpath
  | true =>
    refine (percentDecode_slash [] _).trans ?_
    exact congrArg ('/' :: ·) hpath

/-! ### folders that come back -/

theorem readBars_length_le (t : Text) : (readBars t).length ≤ t.length := by
  fun_induction readBars t with
  | case1 t ih => simp only [List.length_cons]; omega
  | case2 t ih => simp only [List.length_cons]; omega
  | case3 c t _ _ ih => exact Nat.succ_le_succ ih
  | case4 => exact Nat.le_refl 0

theorem readBars_of_length {t : Text} (h : (readBars t).length = t.length) : readBars t = t := by
  fun_induction readBars t with
  | case1 t ih =>
    have := readBars_length_le t
    simp only [List.length_cons] at h
    omega
  | case2 t ih =>
    have := readBars_length_le t
    simp only [List.length_cons] at h
    omega
  | case3 c t _ _ ih => exact congrArg (c :: ·) (ih (Nat.succ.inj h))
  | case4 => rfl

theorem readBars_of_not_escaped {t : Text} (h : ¬ Escaped t) : readBars t = t := by
  fun_induction readBars t with
  | case1 t ih => exact absurd ⟨[], '7', 'C', t, rfl, by decide, by decide⟩ h
  | case2 t ih => exact absurd ⟨[], '7', 'c', t, rfl, by decide, by decide⟩ h
  | case3 c t _ _ ih => exact congrArg (c :: ·) (ih fun ht => h (escaped_cons_iff.mpr (.inr ht)))
  | case4 => rfl

section
variable {d : Char}

theorem undouble_length_le (s : Text) {skip : Nat} (hskip : skip ≤ s.length) :
    (replaceAux [d, d] [d] skip s).length + skip ≤ s.length := by
  induction s generalizing skip with
  | nil =>
    obtain rfl : skip = 0 := Nat.le_zero.mp hskip
    exact Nat.le_refl 0
  | cons c s ih =>
    cases skip with
    | succ skip => exact Nat.succ_le_succ (ih (Nat.le_of_succ_le_succ hskip))
    | zero =>
      rw [replaceAux]
      split
      · rename_i hs
        obtain ⟨r, hr⟩ := startsWith_iff.mp hs
        obtain ⟨-, rfl⟩ := List.cons.inj hr
        have hle : (replaceAux [d, d] [d] 1 (d :: r)).length + 1 ≤ (d :: r).length := ih (by simp)
        show (replaceAux [d, d] [d] 1 (d :: r)).length + 1 + 0 ≤ (d :: r).length + 1
        omega
      · exact Nat.succ_le_succ (ih (Nat.zero_le _))

theorem undouble_length_lt {s : Text} (h : occurs [d, d] s = true) :
    (replaceAux [d, d] [d] 0 s).length < s.length := by
  induction s with
  | nil => cases h
  | cons c s ih =>
    rw [replaceAux]
    split
    · rename_i hs
      obtain ⟨r, hr⟩ := startsWith_iff.mp hs
      obtain ⟨-, rfl⟩ := List.cons.inj hr
      have hle : (replaceAux [d, d] [d] 1 (d :: r)).length + 1 ≤ (d :: r).length := undouble_length_le _ (by simp)
      show (replaceAux [d, d] [d] 1 (d :: r)).length + 1 < (d :: r).length + 1
      omega
    · rename_i hs
      rw [occurs, indexOf?, if_neg hs, Option.isSome_map] at h
      exact Nat.succ_lt_succ (ih h)

/-- Where no delimiter is doubled, each is a cut. -/
theorem loneSplitsAux_length {s : Text} (h : occurs [d, d] s = false) (acc : Text) :
    (loneSplitsAux [d] 0 acc s).length = s.count d := by
  induction s using runs (d := d) generalizing acc with
  | nil => rfl
  | other c t hc ih =>
    rw [loneSplitsAux_other hc, ih (Markdown.occurs_tail h), List.count_cons_of_ne (by simpa using hc)]
  | run n t ht ih =>
    cases n with
    | zero =>
      have hone := loneSplitsAux_run 0 ht acc
      have htail : occurs [d, d] t = false := Markdown.occurs_tail h
      rw [hone, if_pos rfl, List.singleton_append, List.length_cons, ih htail]
      exact List.count_cons_self.symm
    | succ n =>
      have hstarts : startsWith [d, d] (List.replicate (n + 1 + 1) d ++ t) = true :=
        startsWith_iff.mpr ⟨List.replicate n d ++ t, by simp [List.replicate_succ]⟩
      rw [Markdown.startsWith_eq_false h (List.cons_ne_nil _ _)] at hstarts
      cases hstarts

end

/-- The path of the folder goes into an address and comes back: nothing in it is an escape or a doubled bar, and it
does not hold just one bar. -/
structure Kept (imageDir folder : Text) : Prop where
  rooted : ¬ Escaped imageDir
  escape : ¬ Escaped folder
  doubled : occurs ['|', '|'] folder = false
  single : folder.count '|' ≠ 1

theorem eq_singleton_iff {folder : Text} (h : occurs ['|', '|'] folder = false) :
    (∃ uv, loneSplits ['|'] folder = [uv]) ↔ folder.count '|' = 1 := by
  rw [← loneSplitsAux_length h [], ← List.length_eq_one_iff]
  rfl

theorem percentDecode_inAddress (folder : Text) :
    percentDecode (inAddress folder) = percentDecode (replaceAll ['|', '|'] ['|'] (readBars folder)) :=
  percentDecode_escapeBars _

theorem percentDecode_inAddress_of_kept {imageDir folder : Text} (h : Kept imageDir folder) :
    percentDecode (inAddress folder) = folder := by
  rw [percentDecode_inAddress, readBars_of_not_escaped h.escape, Markdown.replaceAll_eq h.doubled,
    percentDecode_eq_self_iff.mpr h.escape]

/-- What is read of a folder in an address is never longer than the folder, and as long only if nothing in it has
been read. -/
theorem length_percentDecode_inAddress (folder : Text) :
    (percentDecode (inAddress folder)).length ≤ folder.length ∧
      ((percentDecode (inAddress folder)).length = folder.length →
        readBars folder = folder ∧ occurs ['|', '|'] folder = false ∧
          percentDecode (inAddress folder) = percentDecode folder) := by
  have hundouble : (replaceAll ['|', '|'] ['|'] (readBars folder)).length ≤ (readBars folder).length := by
    rw [replaceAll, if_neg (by decide)]
    exact undouble_length_le _ (Nat.zero_le _)
  have hbars := readBars_length_le folder
  have hread := percentDecode_length_le (replaceAll ['|', '|'] ['|'] (readBars folder))
  rw [percentDecode_inAddress]
  refine ⟨by omega, fun heq => ?_⟩
  have hsame : readBars folder = folder := readBars_of_length (by omega)
  have hdoubled : occurs ['|', '|'] folder = false := by
    refine Bool.eq_false_iff.mpr fun h => ?_
    have hlt := undouble_length_lt h
    rw [hsame, replaceAll, if_neg (by decide)] at hread
    rw [hsame, replaceAll, if_neg (by decide)] at heq
    omega
  exact ⟨hsame, hdoubled, by rw [hsame, Markdown.replaceAll_eq hdoubled]⟩

/-- A folder that is not cut comes back, behind the folder of images, just where both are free of what is read in
an address. -/
theorem percentDecode_eq_iff {imageDir folder : Text} (hlone : ∀ uv, loneSplits ['|'] (readBars folder) ≠ [uv]) :
    percentDecode imageDir ++ '/' :: percentDecode (inAddress folder) = imageDir ++ '/' :: folder ↔
      Kept imageDir folder := by
  constructor
  · intro heq
    obtain ⟨hle, hexact⟩ := length_percentDecode_inAddress folder
    have hdir := percentDecode_length_le imageDir
    have hlen := congrArg List.length heq
    simp only [List.length_append, List.length_cons] at hlen
    obtain ⟨hbars, hdoubled, hread⟩ := hexact (by omega)
    obtain ⟨himageDir, hfolder⟩ := List.append_inj heq (by omega)
    refine ⟨percentDecode_eq_self_iff.mp himageDir, percentDecode_eq_self_iff.mp ?_, hdoubled, fun hone => ?_⟩
    · rw [← hread]
      exact (List.cons.inj hfolder).2
    · obtain ⟨uv, huv⟩ := (eq_singleton_iff hdoubled).mpr hone
      rw [← hbars] at huv
      exact hlone uv huv
  · intro h
    rw [percentDecode_eq_self_iff.mpr h.rooted, percentDecode_inAddress_of_kept h]

/-- The address of a file leads to it just where the path of its folder is kept. -/
theorem resolve_source_iff (imageDir : Text) (fromRoot : Bool) {folder : Text} (hne : folder ≠ [])
    (hrelative : isRelative folder = true) (name : Text) :
    ((resolve imageDir fromRoot (source folder name)).2 = none ∧
        percentDecode (resolve imageDir fromRoot (source folder name)).1 =
          (if fromRoot then ['/'] else []) ++ (imageDir ++ '/' :: folder) ++ '/' :: name) ↔
      Kept imageDir folder := by
  by_cases hlone : ∃ uv, loneSplits ['|'] (readBars folder) = [uv]
  · obtain ⟨uv, huv⟩ := hlone
    refine ⟨fun h => absurd h.1 (resolve_source_lone imageDir fromRoot huv name), fun h => ?_⟩
    rw [readBars_of_not_escaped h.escape] at huv
    exact absurd ((eq_singleton_iff h.doubled).mp ⟨uv, huv⟩) h.single
  · have hlone : ∀ uv, loneSplits ['|'] (readBars folder) ≠ [uv] := fun uv huv => hlone ⟨uv, huv⟩
    rw [resolve_source imageDir fromRoot hne hrelative hlone, percentDecode_address, List.append_left_inj,
      List.append_right_inj, percentDecode_eq_iff hlone]
    exact and_iff_right rfl

end Lectern.Image
