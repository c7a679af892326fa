import Lectern.Proofs.Html.Reading
import Lectern.Text.Percent

/-!
# Escapes read back

A name written with escapes is read back as it was.  A reading goes on from one slash to the next:
what stands on one side of a slash has no part in the other.  It makes a text shorter by every
escape in it, and leaves one without escapes alone.

* `decodeStep_encodeChar`        the bytes of a character are read as that character;
* `decodeLossy_append`           an ASCII byte ends whatever stands before it;
* `percentDecode_slash`          a slash parts what is read;
* `percentDecode_percentPath`    file names are read back;
* `Escaped`                      a text with an escape in it;
* `percentDecode_eq_self_iff`    texts that stay as they are.
-/

namespace Lectern.Text

/-! ## bytes -/

theorem toNat_toUInt8 {n : Nat} (h : n < 256) : n.toUInt8.toNat = n := by
  rw [Nat.toUInt8_eq, UInt8.toNat_ofNat', Nat.mod_eq_of_lt h]

theorem continuationCount?_eq (b : UInt8) : continuationCount? b =
    if b.toNat < 0x80 then some 0
    else if 0xc2 ≤ b.toNat ∧ b.toNat < 0xe0 then some 1
    else if 0xe0 ≤ b.toNat ∧ b.toNat < 0xf0 then some 2
    else if 0xf0 ≤ b.toNat ∧ b.toNat < 0xf5 then some 3
    else none := by
  simp [continuationCount?, UInt8.lt_iff_toNat_lt, UInt8.le_iff_toNat_le]

theorem decodeStep_ascii {b : UInt8} (hb : b < 0x80) (rest : Bytes) :
    decodeStep b rest = .char (Char.ofNat b.toNat) 0 := by
  rw [decodeStep, continuationCount?, if_pos hb]
  rfl

/-- A byte that may follow a first byte in its first place. -/
theorem within_secondRange {first b : UInt8} (hb : 0x80 ≤ b.toNat ∧ b.toNat < 0xc0)
    (he0 : first.toNat = 0xe0 → 0xa0 ≤ b.toNat) (hed : first.toNat = 0xed → b.toNat < 0xa0)
    (hf0 : first.toNat = 0xf0 → 0x90 ≤ b.toNat) (hf4 : first.toNat = 0xf4 → b.toNat < 0x90) :
    ((secondRange first).1 ≤ b && b ≤ (secondRange first).2) = true := by
  simp only [UInt8.le_iff_toNat_le, Bool.and_eq_true, decide_eq_true_eq]
  unfold secondRange
  split
  · rename_i h
    have := he0 (congrArg UInt8.toNat h)
    exact ⟨this, by simpa using Nat.le_of_lt_succ hb.2⟩
  · split
    · rename_i h
      have := hed (congrArg UInt8.toNat h)
      exact ⟨hb.1, by simpa using Nat.le_of_lt_succ this⟩
    · split
      · rename_i h
        have := hf0 (congrArg UInt8.toNat h)
        exact ⟨this, by simpa using Nat.le_of_lt_succ hb.2⟩
      · split
        · rename_i h
          have := hf4 (congrArg UInt8.toNat h)
          exact ⟨hb.1, by simpa using Nat.le_of_lt_succ this⟩
        · exact ⟨hb.1, by simpa using Nat.le_of_lt_succ hb.2⟩

theorem isContinuation_of_toNat {b : UInt8} (hb : 0x80 ≤ b.toNat ∧ b.toNat < 0xc0) : isContinuation b = true := by
  simpa [isContinuation, UInt8.lt_iff_toNat_lt, UInt8.le_iff_toNat_le] using hb

/-- The byte `b` may stand in place `i` behind a first byte. -/
def follows (first : UInt8) (i : Nat) (b : UInt8) : Bool :=
  if i = 0 then (secondRange first).1 ≤ b && b ≤ (secondRange first).2 else isContinuation b

/-- The number that the bytes behind a first byte make of what that one holds itself. -/
def joined (first : UInt8) (tail : Bytes) : Nat :=
  tail.foldl (fun n b => n * 0x40 + b.toNat % 0x40)
    (first.toNat % (if tail.length = 1 then 0x20 else if tail.length = 2 then 0x10 else 8))

section
variable {first : UInt8} {more : Nat} (hcount : continuationCount? first = some (more + 1))

include hcount

theorem decodeStep_of_count (rest : Bytes) : decodeStep first rest =
    match ((rest.take (more + 1)).zipIdx).find? fun bi => !follows first bi.2 bi.1 with
    | some (_, i) => .fault (i + 1) .invalidContinuation
    | none =>
      if (rest.take (more + 1)).length < more + 1 then .fault ((rest.take (more + 1)).length + 1) .unexpectedEnd
      else .char (Char.ofNat ((rest.take (more + 1)).foldl (fun n b => n * 0x40 + b.toNat % 0x40)
        (first.toNat % (if more + 1 = 1 then 0x20 else if more + 1 = 2 then 0x10 else 8)))) (more + 1) := by
  rw [decodeStep, hcount]
  rfl

/-- Bytes that may all follow are read as one character. -/
theorem decodeStep_append {tail : Bytes} (hlen : tail.length = more + 1)
    (h : ∀ bi ∈ tail.zipIdx, follows first bi.2 bi.1 = true) (rest : Bytes) :
    decodeStep first (tail ++ rest) = .char (Char.ofNat (joined first tail)) (more + 1) := by
  have htake : (tail ++ rest).take (more + 1) = tail := by rw [← hlen, List.take_left]
  have hnone : (tail.zipIdx).find? (fun bi => !follows first bi.2 bi.1) = none :=
    List.find?_eq_none.mpr fun bi hbi => by rw [h bi hbi]; decide
  rw [decodeStep_of_count hcount, htake, hnone, hlen]
  dsimp only
  rw [if_neg (Nat.lt_irrefl _), joined, hlen]

end

/-! ### characters of two, three and four bytes -/

theorem toNat_trailing (n : Nat) : (0x80 + n % 0x40).toUInt8.toNat = 0x80 + n % 0x40 := toNat_toUInt8 (by omega)

section
variable {n : Nat} (rest : Bytes)

theorem decodeStep_two (h : 0x80 ≤ n ∧ n < 0x800) :
    decodeStep (0xc0 + n / 0x40).toUInt8 ([(0x80 + n % 0x40).toUInt8] ++ rest) = .char (Char.ofNat n) 1 := by
  have hfirst : (0xc0 + n / 0x40).toUInt8.toNat = 0xc0 + n / 0x40 := toNat_toUInt8 (by omega)
  have hsecond := toNat_trailing n
  generalize (0xc0 + n / 0x40).toUInt8 = first at hfirst
  generalize (0x80 + n % 0x40).toUInt8 = second at hsecond
  have hcount : continuationCount? first = some 1 := by
    rw [continuationCount?_eq, hfirst, if_neg (by omega), if_pos (by omega)]
  have hjoined : joined first [second] = n := by
    show first.toNat % 0x20 * 0x40 + second.toNat % 0x40 = n
    omega
  rw [decodeStep_append hcount rfl ?_ rest, hjoined]
  simp only [List.zipIdx_cons, List.zipIdx_nil, List.forall_mem_cons, List.not_mem_nil, false_imp_iff, implies_true,
    and_true]
  exact within_secondRange (by omega) (by omega) (by omega) (by omega) (by omega)

theorem decodeStep_three (h : 0x800 ≤ n ∧ n < 0x10000) (hvalid : n < 0xd800 ∨ 0xdfff < n) :
    decodeStep (0xe0 + n / 0x1000).toUInt8 ([(0x80 + n / 0x40 % 0x40).toUInt8, (0x80 + n % 0x40).toUInt8] ++ rest) =
      .char (Char.ofNat n) 2 := by
  have hfirst : (0xe0 + n / 0x1000).toUInt8.toNat = 0xe0 + n / 0x1000 := toNat_toUInt8 (by omega)
  have hsecond := toNat_trailing (n / 0x40)
  have hthird := toNat_trailing n
  generalize (0xe0 + n / 0x1000).toUInt8 = first at hfirst
  generalize (0x80 + n / 0x40 % 0x40).toUInt8 = second at hsecond
  generalize (0x80 + n % 0x40).toUInt8 = third at hthird
  have hcount : continuationCount? first = some 2 := by
    rw [continuationCount?_eq, hfirst, if_neg (by omega), if_neg (by omega), if_pos (by omega)]
  have hjoined : joined first [second, third] = n := by
    show (first.toNat % 0x10 * 0x40 + second.toNat % 0x40) * 0x40 + third.toNat % 0x40 = n
    omega
  rw [decodeStep_append hcount rfl ?_ rest, hjoined]
  simp only [List.zipIdx_cons, List.zipIdx_nil, List.forall_mem_cons, List.not_mem_nil, false_imp_iff, implies_true,
    and_true]
  exact ⟨within_secondRange (by omega) (by omega) (by omega) (by omega) (by omega),
    isContinuation_of_toNat (by omega)⟩

theorem decodeStep_four (h : 0x10000 ≤ n ∧ n < 0x110000) :
    decodeStep (0xf0 + n / 0x40000).toUInt8 ([(0x80 + n / 0x1000 % 0x40).toUInt8, (0x80 + n / 0x40 % 0x40).toUInt8,
      (0x80 + n % 0x40).toUInt8] ++ rest) = .char (Char.ofNat n) 3 := by
  have hfirst : (0xf0 + n / 0x40000).toUInt8.toNat = 0xf0 + n / 0x40000 := toNat_toUInt8 (by omega)
  have hsecond := toNat_trailing (n / 0x1000)
  have hthird := toNat_trailing (n / 0x40)
  have hfourth := toNat_trailing n
  generalize (0xf0 + n / 0x40000).toUInt8 = first at hfirst
  generalize (0x80 + n / 0x1000 % 0x40).toUInt8 = second at hsecond
  generalize (0x80 + n / 0x40 % 0x40).toUInt8 = third at hthird
  generalize (0x80 + n % 0x40).toUInt8 = fourth at hfourth
  have hcount : continuationCount? first = some 3 := by
    rw [continuationCount?_eq, hfirst, if_neg (by omega), if_neg (by omega), if_neg (by omega), if_pos (by omega)]
  have hjoined : joined first [second, third, fourth] = n := by
    show ((first.toNat % 8 * 0x40 + second.toNat % 0x40) * 0x40 + third.toNat % 0x40) * 0x40 + fourth.toNat % 0x40 = n
    omega
  rw [decodeStep_append hcount rfl ?_ rest, hjoined]
  simp only [List.zipIdx_cons, List.zipIdx_nil, List.forall_mem_cons, List.not_mem_nil, false_imp_iff, implies_true,
    and_true]
  exact ⟨within_secondRange (by omega) (by omega) (by omega) (by omega) (by omega),
    isContinuation_of_toNat (by omega), isContinuation_of_toNat (by omega)⟩

end

/-- The bytes of a character are read as that character, whatever follows. -/
theorem decodeStep_encodeChar (c : Char) :
    ∃ first tail, encodeChar c = first :: tail ∧
      ∀ rest, decodeStep first (tail ++ rest) = .char c tail.length := by
  have hvalid : c.toNat < 0xd800 ∨ 0xdfff < c.toNat ∧ c.toNat < 0x110000 := c.valid
  have hchar : Char.ofNat c.toNat = c := Char.ofNat_toNat c
  unfold encodeChar
  dsimp only
  generalize c.toNat = n at hvalid hchar
  by_cases h1 : n < 0x80
  · rw [if_pos h1]
    have hb : n.toUInt8.toNat = n := toNat_toUInt8 (by omega)
    refine ⟨_, [], rfl, fun rest => ?_⟩
    rw [List.nil_append, decodeStep_ascii (by simpa [UInt8.lt_iff_toNat_lt, hb] using h1), hb, hchar]
    rfl
  · by_cases h2 : n < 0x800
    · rw [if_neg h1, if_pos h2]
      exact ⟨_, _, rfl, fun rest => hchar ▸ decodeStep_two rest ⟨Nat.not_lt.mp h1, h2⟩⟩
    · by_cases h3 : n < 0x10000
      · rw [if_neg h1, if_neg h2, if_pos h3]
        exact ⟨_, _, rfl, fun rest => hchar ▸ decodeStep_three rest ⟨Nat.not_lt.mp h2, h3⟩ (by omega)⟩
      · rw [if_neg h1, if_neg h2, if_neg h3]
        exact ⟨_, _, rfl, fun rest => hchar ▸ decodeStep_four rest (by omega)⟩

/-! ## texts -/

theorem decodeLossyAux_length (bs rest : Bytes) : decodeLossyAux bs.length (bs ++ rest) = decodeLossyAux 0 rest := by
  induction bs with
  | nil => rfl
  | cons b bs ih => exact ih

/-- What is written is read back. -/
theorem decodeLossy_encode (t : Text) : decodeLossy (encode t) = t := by
  induction t with
  | nil => rfl
  | cons c t ih =>
    obtain ⟨first, tail, hbytes, hstep⟩ := decodeStep_encodeChar c
    rw [decodeLossy, encode, List.flatMap_cons, hbytes, List.cons_append, decodeLossyAux, hstep]
    exact congrArg (c :: ·) ((decodeLossyAux_length tail _).trans ih)

/-- What a step reads, a fault as the replacement character, and how many bytes it passes over behind the first. -/
def DecodeStep.lossy : DecodeStep → Char × Nat
  | .char c more => (c, more)
  | .fault length _ => (Char.ofNat 0xfffd, length - 1)

theorem decodeLossyAux_cons (b : UInt8) (bs : Bytes) : decodeLossyAux 0 (b :: bs) =
    (decodeStep b bs).lossy.1 :: decodeLossyAux (decodeStep b bs).lossy.2 bs := by
  rw [decodeLossyAux]
  cases decodeStep b bs <;> rfl

/-- A reading does not go beyond the bytes that there are. -/
theorem decodeStep_bound (first : UInt8) (rest : Bytes) : (decodeStep first rest).lossy.2 ≤ rest.length := by
  cases hcount : continuationCount? first with
  | none =>
    rw [decodeStep, hcount]
    exact Nat.zero_le _
  | some count =>
    cases count with
    | zero =>
      rw [decodeStep, hcount]
      exact Nat.zero_le _
    | succ more =>
      have htake : (rest.take (more + 1)).length ≤ rest.length := List.length_take_le' _ _
      rw [decodeStep_of_count hcount]
      cases hfind : ((rest.take (more + 1)).zipIdx).find? fun bi => !follows first bi.2 bi.1 with
      | some bi =>
        have hlt := (List.mem_zipIdx (List.mem_of_find?_eq_some hfind)).2.1
        show bi.2 + 1 - 1 ≤ rest.length
        omega
      | none =>
        dsimp only
        by_cases hshort : (rest.take (more + 1)).length < more + 1
        · rw [if_pos hshort]
          exact htake
        · rw [if_neg hshort]
          show more + 1 ≤ rest.length
          omega

theorem follows_ascii {b : UInt8} (hb : b < 0x80) (first : UInt8) (i : Nat) : follows first i b = false := by
  have hlow : ¬ (0x80 : UInt8) ≤ b := UInt8.not_le.mpr hb
  have hsecond : ¬ (secondRange first).1 ≤ b := by
    refine fun h => hlow (UInt8.le_trans ?_ h)
    unfold secondRange
    split
    · decide
    · split
      · decide
      · split
        · decide
        · split <;> decide
  unfold follows
  split
  · rw [decide_eq_false hsecond, Bool.false_and]
  · rw [isContinuation, decide_eq_false hlow, Bool.false_and]

/-- A character that an ASCII byte cuts short is as faulty without the byte. -/
theorem decodeStep_cut {b : UInt8} (hb : b < 0x80) {first : UInt8} {more : Nat}
    (hcount : continuationCount? first = some (more + 1)) {rest : Bytes} (hlen : rest.length < more + 1)
    (cs : Bytes) : (decodeStep first (rest ++ b :: cs)).lossy = (decodeStep first rest).lossy := by
  obtain ⟨k, hk⟩ : ∃ k, more + 1 = rest.length + (k + 1) := ⟨more - rest.length, by omega⟩
  have htake : rest.take (more + 1) = rest := List.take_of_length_le (by omega)
  have hmore : (rest ++ b :: cs).take (more + 1) = rest ++ b :: cs.take k := by
    rw [hk, List.take_length_add_append]
    rfl
  have hbyte : ((b :: cs.take k).zipIdx rest.length).find? (fun bi => !follows first bi.2 bi.1) =
      some (b, rest.length) := by
    rw [List.zipIdx_cons]
    exact List.find?_cons_of_pos (by rw [follows_ascii hb]; rfl)
  rw [decodeStep_of_count hcount, decodeStep_of_count hcount, htake, hmore, List.zipIdx_append, Nat.zero_add,
    List.find?_append, hbyte]
  cases rest.zipIdx.find? fun bi => !follows first bi.2 bi.1 with
  | some bi => rfl
  | none =>
    dsimp only
    rw [if_pos hlen]
    rfl

/-- A reading is not changed by an ASCII byte behind it. -/
theorem decodeStep_behind {b : UInt8} (hb : b < 0x80) (first : UInt8) (rest cs : Bytes) :
    (decodeStep first (rest ++ b :: cs)).lossy = (decodeStep first rest).lossy := by
  cases hcount : continuationCount? first with
  | none => rw [decodeStep, decodeStep, hcount]
  | some count =>
    cases count with
    | zero =>
      rewrite [decodeStep, decodeStep, hcount]
      rfl
    | succ more =>
      by_cases hlen : rest.length < more + 1
      · exact decodeStep_cut hb hcount hlen cs
      · rw [decodeStep_of_count hcount, decodeStep_of_count hcount,
          List.take_append_of_le_length (Nat.not_lt.mp hlen)]

theorem decodeLossyAux_behind {b : UInt8} (hb : b < 0x80) (cs : Bytes) (bs : Bytes) {skip : Nat}
    (hskip : skip ≤ bs.length) :
    decodeLossyAux skip (bs ++ b :: cs) = decodeLossyAux skip bs ++ decodeLossyAux 0 (b :: cs) := by
  induction bs generalizing skip with
  | nil =>
    obtain rfl : skip = 0 := Nat.le_zero.mp hskip
    rfl
  | cons first bs ih =>
    cases skip with
    | succ skip => exact ih (Nat.le_of_succ_le_succ hskip)
    | zero =>
      rw [List.cons_append, decodeLossyAux_cons, decodeLossyAux_cons, decodeStep_behind hb,
        ih (decodeStep_bound first bs)]
      rfl

/-- An ASCII byte ends whatever stands before it. -/
theorem decodeLossy_append {b : UInt8} (hb : b < 0x80) (bs cs : Bytes) :
    decodeLossy (bs ++ b :: cs) = decodeLossy bs ++ Char.ofNat b.toNat :: decodeLossy cs := by
  have hcons : decodeLossyAux 0 (b :: cs) = Char.ofNat b.toNat :: decodeLossy cs := by
    rw [decodeLossyAux, decodeStep_ascii hb]
    rfl
  rw [decodeLossy, decodeLossyAux_behind hb cs bs (Nat.zero_le _), hcons]
  rfl

theorem decodeLossyAux_length_le (bs : Bytes) (skip : Nat) : (decodeLossyAux skip bs).length ≤ bs.length := by
  induction bs generalizing skip with
  | nil => exact Nat.le_refl 0
  | cons b bs ih =>
    cases skip with
    | succ skip => exact Nat.le_succ_of_le (ih skip)
    | zero =>
      rw [decodeLossyAux_cons]
      exact Nat.succ_le_succ (ih _)

/-! ## escapes -/

/-- The byte that `c` is an escape of, with the two digits behind it. -/
def escape? (c : Char) (t : Text) : Option UInt8 :=
  match c, t with
  | '%', a :: b :: _ =>
    match hexDigit? a, hexDigit? b with
    | some x, some y => some (16 * x + y).toUInt8
    | _, _ => none
  | _, _ => none

theorem escape?_of_ne {c : Char} (hc : c ≠ '%') (t : Text) : escape? c t = none := by
  unfold escape?
  split
  · exact absurd rfl hc
  · rfl

theorem escapedBytesAux_cons (c : Char) (t : Text) : escapedBytesAux 0 (c :: t) =
    match escape? c t with
    | some b => b :: escapedBytesAux 2 t
    | none => c.toNat.toUInt8 :: escapedBytesAux 0 t := by
  by_cases hc : c = '%'
  · subst hc
    match t with
    | [] => rfl
    | [_] => rfl
    | a :: b :: r =>
      have hcons : escapedBytesAux 0 ('%' :: a :: b :: r) =
          match hexDigit? a, hexDigit? b with
          | some x, some y => (16 * x + y).toUInt8 :: escapedBytesAux 2 (a :: b :: r)
          | _, _ => 0x25 :: escapedBytesAux 0 (a :: b :: r) := rfl
      rw [hcons, escape?]
      cases hexDigit? a with
      | none => rfl
      | some x => cases hexDigit? b <;> rfl
  · rw [escape?_of_ne hc, escapedBytesAux.eq_def]
    dsimp only
    split
    · exact absurd rfl hc
    · rfl

/-- An escape stands in the text. -/
def Escaped (t : Text) : Prop :=
  ∃ s a b r, t = s ++ '%' :: a :: b :: r ∧ (hexDigit? a).isSome = true ∧ (hexDigit? b).isSome = true

theorem escape?_eq_some {c : Char} {t : Text} {v : UInt8} (h : escape? c t = some v) :
    c = '%' ∧ ∃ a b r, t = a :: b :: r ∧ (hexDigit? a).isSome = true ∧ (hexDigit? b).isSome = true := by
  unfold escape? at h
  split at h
  · split at h
    · rename_i hx hy
      exact ⟨rfl, _, _, _, rfl, by rw [hx]; rfl, by rw [hy]; rfl⟩
    · cases h
  · cases h

theorem escape?_percent {a b : Char} (ha : (hexDigit? a).isSome = true) (hb : (hexDigit? b).isSome = true) (r : Text) :
    ∃ v, escape? '%' (a :: b :: r) = some v := by
  obtain ⟨x, hx⟩ := Option.isSome_iff_exists.mp ha
  obtain ⟨y, hy⟩ := Option.isSome_iff_exists.mp hb
  exact ⟨_, by rw [escape?, hx, hy]⟩

theorem escaped_cons_iff {c : Char} {t : Text} : Escaped (c :: t) ↔ (escape? c t).isSome = true ∨ Escaped t := by
  constructor
  · rintro ⟨s, a, b, r, heq, ha, hb⟩
    cases s with
    | nil =>
      obtain ⟨rfl, rfl⟩ := List.cons.inj heq
      obtain ⟨v, hv⟩ := escape?_percent ha hb r
      exact .inl (by rw [hv]; rfl)
    | cons d s => exact .inr ⟨s, a, b, r, (List.cons.inj heq).2, ha, hb⟩
  · rintro (h | ⟨s, a, b, r, rfl, ha, hb⟩)
    · obtain ⟨v, hv⟩ := Option.isSome_iff_exists.mp h
      obtain ⟨rfl, a, b, r, rfl, ha, hb⟩ := escape?_eq_some hv
      exact ⟨[], a, b, r, rfl, ha, hb⟩
    · exact ⟨c :: s, a, b, r, rfl, ha, hb⟩

theorem not_escaped_nil : ¬ Escaped [] := fun ⟨s, _, _, _, h, _⟩ => by cases s <;> cases h

/-! ### characters that are no part of an escape -/

section
variable {d : Char} (hd : hexDigit? d = none)

include hd

theorem escape?_behind (c : Char) (s t : Text) : escape? c (s ++ d :: t) = escape? c s := by
  by_cases hc : c = '%'
  · subst hc
    match s with
    | [] =>
      cases t with
      | nil => rfl
      | cons b t => simp [escape?, hd]
    | [a] =>
      simp only [List.cons_append, List.nil_append, escape?, hd]
      cases hexDigit? a <;> rfl
    | a :: b :: s => rfl
  · rw [escape?_of_ne hc, escape?_of_ne hc]

theorem escaped_behind_iff (hne : d ≠ '%') (s t : Text) : Escaped (s ++ d :: t) ↔ Escaped s ∨ Escaped t := by
  induction s with
  | nil =>
    rw [List.nil_append, escaped_cons_iff, escape?_of_ne hne]
    simp [not_escaped_nil]
  | cons c s ih => rw [List.cons_append, escaped_cons_iff, escape?_behind hd, ih, escaped_cons_iff, or_assoc]

theorem escapedBytesAux_behind (s t : Text) {skip : Nat} (hskip : skip ≤ s.length) :
    escapedBytesAux skip (s ++ d :: t) = escapedBytesAux skip s ++ escapedBytesAux 0 (d :: t) := by
  induction s generalizing skip with
  | nil =>
    obtain rfl : skip = 0 := Nat.le_zero.mp hskip
    rfl
  | cons c s ih =>
    cases skip with
    | succ skip => exact ih (Nat.le_of_succ_le_succ hskip)
    | zero =>
      rw [List.cons_append, escapedBytesAux_cons, escapedBytesAux_cons, escape?_behind hd]
      cases h : escape? c s with
      | none => exact congrArg (c.toNat.toUInt8 :: ·) (ih (Nat.zero_le _))
      | some v =>
        obtain ⟨-, a, b, r, rfl, -⟩ := escape?_eq_some h
        exact congrArg (v :: ·) (ih (by simp))

end

theorem escapedBytesAux_of_ne {c : Char} (hc : c ≠ '%') (t : Text) :
    escapedBytesAux 0 (c :: t) = c.toNat.toUInt8 :: escapedBytesAux 0 t := by
  rw [escapedBytesAux_cons, escape?_of_ne hc]

/-! ## what is read -/

theorem toNat_ascii {d : Char} (hd : d.toNat < 0x80) :
    d.toNat.toUInt8 < 0x80 ∧ Char.ofNat d.toNat.toUInt8.toNat = d := by
  have hb : d.toNat.toUInt8.toNat = d.toNat := toNat_toUInt8 (by omega)
  exact ⟨by simpa [UInt8.lt_iff_toNat_lt, hb] using hd, by rw [hb, Char.ofNat_toNat]⟩

theorem decodeLossy_behind {d : Char} (hd : d.toNat < 0x80) (hpart : d ≠ '%' ∧ hexDigit? d = none) (s t : Text) :
    decodeLossy (escapedBytesAux 0 (s ++ d :: t)) =
      decodeLossy (escapedBytesAux 0 s) ++ d :: decodeLossy (escapedBytesAux 0 t) := by
  rw [escapedBytesAux_behind hpart.2 s t (Nat.zero_le _), escapedBytesAux_of_ne hpart.1,
    decodeLossy_append (toNat_ascii hd).1, (toNat_ascii hd).2]

theorem percentDecodeAux_behind {d : Char} (hd : d.toNat < 0x80) (hpart : d ≠ '%' ∧ hexDigit? d = none)
    (acc r t : Text) : percentDecodeAux (r ++ d :: acc) t =
      decodeLossy (escapedBytesAux 0 acc.reverse) ++ d :: percentDecodeAux r t := by
  have hrun (r : Text) : decodeLossy (escapedBytesAux 0 (r ++ d :: acc).reverse) =
      decodeLossy (escapedBytesAux 0 acc.reverse) ++ d :: decodeLossy (escapedBytesAux 0 r.reverse) := by
    rw [List.reverse_append, List.reverse_cons, List.append_assoc]
    exact decodeLossy_behind hd hpart _ _
  induction t generalizing r with
  | nil => exact hrun r
  | cons c t ih =>
    rw [percentDecodeAux, percentDecodeAux]
    split
    · exact ih (c :: r)
    · rw [hrun, List.append_assoc]
      rfl

theorem percentDecodeAux_cons {d : Char} (hd : d.toNat < 0x80) (acc t : Text) :
    percentDecodeAux acc (d :: t) = percentDecodeAux (d :: acc) t := if_pos hd

/-- An ASCII character that is no part of an escape parts what is read. -/
theorem percentDecodeAux_append {d : Char} (hd : d.toNat < 0x80) (hpart : d ≠ '%' ∧ hexDigit? d = none)
    (acc s t : Text) : percentDecodeAux acc (s ++ d :: t) = percentDecodeAux acc s ++ d :: percentDecode t := by
  induction s generalizing acc with
  | nil =>
    rw [List.nil_append, percentDecodeAux_cons hd]
    exact percentDecodeAux_behind hd hpart acc [] t
  | cons c s ih =>
    rw [List.cons_append, percentDecodeAux, percentDecodeAux]
    split
    · exact ih (c :: acc)
    · rw [ih [], List.append_assoc]
      rfl

/-- A slash parts what is read. -/
theorem percentDecode_slash (s t : Text) : percentDecode (s ++ '/' :: t) = percentDecode s ++ '/' :: percentDecode t :=
  percentDecodeAux_append (by decide) (by decide) [] s t

/-! ### file names -/

/-- What holds of sixteen digits holds of all. -/
theorem forall_hexDigit {P : Nat → Char → Prop} (h : ∀ m : Fin 16, P m (hexDigit m)) (n : Nat) :
    P (n % 16) (hexDigit n) := by
  have hmod : hexDigit n = hexDigit (n % 16) := by rw [hexDigit, hexDigit, Nat.mod_mod]
  rw [hmod]
  exact h ⟨n % 16, Nat.mod_lt n (by decide)⟩

theorem hexDigit?_toUpper {n : Nat} : hexDigit? (hexDigit n).toUpper = some (n % 16) :=
  forall_hexDigit (P := fun m c => hexDigit? c.toUpper = some m) (by decide) n

theorem toNat_toUpper_hexDigit (n : Nat) : (hexDigit n).toUpper.toNat < 0x80 :=
  forall_hexDigit (P := fun _ c => c.toUpper.toNat < 0x80) (by decide) n

theorem escapedBytesAux_percentByte (b : UInt8) (t : Text) :
    escapedBytesAux 0 (percentByte b ++ t) = b :: escapedBytesAux 0 t := by
  have hvalue : 16 * (b.toNat / 16 % 16) + b.toNat % 16 = b.toNat := by
    have := b.toNat_lt
    omega
  rw [percentByte, List.cons_append, escapedBytesAux_cons]
  simp only [List.cons_append, List.nil_append, escape?, hexDigit?_toUpper, hvalue]
  rw [Nat.toUInt8_eq, UInt8.ofNat_toNat]
  rfl

theorem escapedBytesAux_percentBytes (bs : Bytes) (t : Text) :
    escapedBytesAux 0 (bs.flatMap percentByte ++ t) = bs ++ escapedBytesAux 0 t := by
  induction bs with
  | nil => rfl
  | cons b bs ih => rw [List.flatMap_cons, List.append_assoc, escapedBytesAux_percentByte, ih, List.cons_append]

theorem toNat_lt_of_isPathChar {c : Char} (h : isPathChar c = true) : c.toNat < 0x80 ∧ c ≠ '%' := by
  simp only [isPathChar, Bool.or_eq_true, decide_eq_true_eq] at h
  rcases h with ((((h | rfl) | rfl) | rfl) | rfl) | rfl
  · have := Html.toNat_of_alphanum h
    refine ⟨by omega, ?_⟩
    rintro rfl
    exact absurd h (by decide)
  all_goals decide

theorem encodeChar_ascii {c : Char} (h : c.toNat < 0x80) : encodeChar c = [c.toNat.toUInt8] := if_pos h

/-- The bytes of a file name are what its escapes say. -/
theorem escapedBytesAux_percentPath (t : Text) : escapedBytesAux 0 (percentPath t) = encode t := by
  induction t with
  | nil => rfl
  | cons c t ih =>
    rw [percentPath, percentEncode, List.flatMap_cons, encode, List.flatMap_cons]
    split
    · rename_i hc
      obtain ⟨hlt, hne⟩ := toNat_lt_of_isPathChar hc
      rw [List.singleton_append, escapedBytesAux_of_ne hne, encodeChar_ascii hlt]
      exact congrArg (c.toNat.toUInt8 :: ·) ih
    · rw [escapedBytesAux_percentBytes]
      exact congrArg (encodeChar c ++ ·) ih

theorem percentPath_ascii (t : Text) : ∀ c ∈ percentPath t, c.toNat < 0x80 := by
  intro c hc
  obtain ⟨d, -, hd⟩ := List.mem_flatMap.mp hc
  split at hd
  · rename_i hpath
    rw [List.mem_singleton.mp hd]
    exact (toNat_lt_of_isPathChar hpath).1
  · obtain ⟨b, -, hb⟩ := List.mem_flatMap.mp hd
    simp only [percentByte, List.mem_cons, List.not_mem_nil, or_false] at hb
    rcases hb with rfl | rfl | rfl
    · decide
    · exact toNat_toUpper_hexDigit _
    · exact toNat_toUpper_hexDigit _

theorem percentDecodeAux_ascii {t : Text} (h : ∀ c ∈ t, c.toNat < 0x80) (acc : Text) :
    percentDecodeAux acc t = decodeLossy (escapedBytesAux 0 (acc.reverse ++ t)) := by
  induction t generalizing acc with
  | nil => rw [percentDecodeAux, List.append_nil]
  | cons c t ih =>
    rw [percentDecodeAux_cons (h c List.mem_cons_self), ih (fun d hd => h d (List.mem_cons_of_mem c hd)),
      List.reverse_cons, List.append_assoc]
    rfl

/-- File names are read back. -/
theorem percentDecode_percentPath (t : Text) : percentDecode (percentPath t) = t := by
  rw [percentDecode, percentDecodeAux_ascii (percentPath_ascii t), List.reverse_nil, List.nil_append,
    escapedBytesAux_percentPath, decodeLossy_encode]

/-! ### texts that stay as they are -/

theorem escapedBytesAux_of_not_escaped {t : Text} (hascii : ∀ c ∈ t, c.toNat < 0x80) (h : ¬ Escaped t) :
    escapedBytesAux 0 t = encode t := by
  induction t with
  | nil => rfl
  | cons c t ih =>
    rw [escaped_cons_iff, not_or, Option.not_isSome_iff_eq_none] at h
    rw [escapedBytesAux_cons, h.1, encode, List.flatMap_cons, encodeChar_ascii (hascii c List.mem_cons_self)]
    exact congrArg (c.toNat.toUInt8 :: ·) (ih (fun d hd => hascii d (List.mem_cons_of_mem c hd)) h.2)

theorem not_part_of_not_ascii {c : Char} (h : ¬ c.toNat < 0x80) : c ≠ '%' ∧ hexDigit? c = none := by
  have hle {d : Char} (hd : d.toNat < 0x80) : ¬ c ≤ d := fun hcd => h (Nat.lt_of_le_of_lt hcd hd)
  refine ⟨?_, ?_⟩
  · rintro rfl
    exact h (by decide)
  · rw [hexDigit?, if_neg fun h => hle (by decide) h.2, if_neg fun h => hle (by decide) h.2,
      if_neg fun h => hle (by decide) h.2]

/-- A text without escapes stays as it is. -/
theorem percentDecodeAux_of_not_escaped {t acc : Text} (hacc : ∀ c ∈ acc, c.toNat < 0x80)
    (h : ¬ Escaped (acc.reverse ++ t)) : percentDecodeAux acc t = acc.reverse ++ t := by
  have hrun {acc : Text} (hacc : ∀ c ∈ acc, c.toNat < 0x80) (h : ¬ Escaped acc.reverse) :
      decodeLossy (escapedBytesAux 0 acc.reverse) = acc.reverse := by
    rw [escapedBytesAux_of_not_escaped (fun c hc => hacc c (List.mem_reverse.mp hc)) h, decodeLossy_encode]
  induction t generalizing acc with
  | nil =>
    rw [List.append_nil] at h ⊢
    exact hrun hacc h
  | cons c t ih =>
    by_cases hc : c.toNat < 0x80
    · have hcons : acc.reverse ++ c :: t = (c :: acc).reverse ++ t := by simp
      rw [hcons] at h ⊢
      rw [percentDecodeAux_cons hc]
      exact ih (List.forall_mem_cons.mpr ⟨hc, hacc⟩) h
    · obtain ⟨hne, hdigit⟩ := not_part_of_not_ascii hc
      rw [escaped_behind_iff hdigit hne, not_or] at h
      have hrest : percentDecodeAux [] t = t := ih (by simp) h.2
      rw [percentDecodeAux, if_neg hc, hrun hacc h.1, hrest]

theorem escapedBytesAux_length_le (t : Text) {skip : Nat} (hskip : skip ≤ t.length) :
    (escapedBytesAux skip t).length + skip ≤ t.length := by
  induction t generalizing skip with
  | nil =>
    obtain rfl : skip = 0 := Nat.le_zero.mp hskip
    exact Nat.le_refl 0
  | cons c t ih =>
    cases skip with
    | succ skip => exact Nat.succ_le_succ (ih (Nat.le_of_succ_le_succ hskip))
    | zero =>
      rw [escapedBytesAux_cons]
      cases h : escape? c t with
      | none => exact Nat.succ_le_succ (ih (Nat.zero_le _))
      | some v =>
        obtain ⟨-, a, b, r, rfl, -⟩ := escape?_eq_some h
        have hrest : (escapedBytesAux 2 (a :: b :: r)).length + 2 ≤ (a :: b :: r).length := ih (by simp)
        simp only [List.length_cons] at hrest ⊢
        omega

theorem escapedBytesAux_length_lt {t : Text} (h : Escaped t) : (escapedBytesAux 0 t).length < t.length := by
  induction t with
  | nil => exact absurd h not_escaped_nil
  | cons c t ih =>
    rw [escapedBytesAux_cons]
    cases hescape : escape? c t with
    | none =>
      rw [escaped_cons_iff, hescape] at h
      exact Nat.succ_lt_succ (ih (h.resolve_left (by decide)))
    | some v =>
      obtain ⟨-, a, b, r, rfl, -⟩ := escape?_eq_some hescape
      have hrest : (escapedBytesAux 2 (a :: b :: r)).length + 2 ≤ (a :: b :: r).length :=
        escapedBytesAux_length_le _ (by simp)
      simp only [List.length_cons] at hrest ⊢
      omega

/-- Every escape makes a text shorter. -/
theorem percentDecodeAux_length (t acc : Text) : (percentDecodeAux acc t).length ≤ acc.length + t.length ∧
    (Escaped (acc.reverse ++ t) → (percentDecodeAux acc t).length < acc.length + t.length) := by
  have hle (s : Text) : (decodeLossy (escapedBytesAux 0 s)).length ≤ (escapedBytesAux 0 s).length :=
    decodeLossyAux_length_le _ _
  have hrun (acc : Text) : (decodeLossy (escapedBytesAux 0 acc.reverse)).length ≤ acc.length ∧
      (Escaped acc.reverse → (decodeLossy (escapedBytesAux 0 acc.reverse)).length < acc.length) := by
    have hbytes := hle acc.reverse
    refine ⟨?_, fun h => ?_⟩
    · have := escapedBytesAux_length_le acc.reverse (Nat.zero_le _)
      rw [List.length_reverse] at this
      omega
    · have := escapedBytesAux_length_lt h
      rw [List.length_reverse] at this
      omega
  induction t generalizing acc with
  | nil =>
    rw [List.append_nil]
    exact hrun acc
  | cons c t ih =>
    by_cases hc : c.toNat < 0x80
    · have hcons : acc.reverse ++ c :: t = (c :: acc).reverse ++ t := by simp
      have hlen : acc.length + (c :: t).length = (c :: acc).length + t.length := by
        simp only [List.length_cons]
        omega
      rw [hcons, hlen, percentDecodeAux_cons hc]
      exact ih (c :: acc)
    · obtain ⟨hrunle, hrunlt⟩ := hrun acc
      obtain ⟨htle, htlt⟩ := ih []
      obtain ⟨hne, hdigit⟩ := not_part_of_not_ascii hc
      rw [percentDecodeAux, if_neg hc, escaped_behind_iff hdigit hne]
      rw [List.reverse_nil, List.nil_append] at htlt
      simp only [List.length_append, List.length_cons, List.length_nil] at htle htlt ⊢
      refine ⟨by omega, ?_⟩
      rintro (h | h)
      · have := hrunlt h
        omega
      · have := htlt h
        omega

theorem percentDecode_length_le (t : Text) : (percentDecode t).length ≤ t.length :=
  Nat.le_trans (percentDecodeAux_length t []).1 (Nat.le_of_eq (Nat.zero_add _))

/-- The texts without escapes are those that stay as they are. -/
theorem percentDecode_eq_self_iff {t : Text} : percentDecode t = t ↔ ¬ Escaped t := by
  constructor
  · intro heq hescaped
    have hlt := (percentDecodeAux_length t []).2 hescaped
    rw [← percentDecode, heq] at hlt
    exact absurd hlt (by simp)
  · intro h
    have hself : percentDecodeAux [] t = [].reverse ++ t :=
      percentDecodeAux_of_not_escaped (fun _ h => absurd h List.not_mem_nil) h
    exact hself

end Lectern.Text
