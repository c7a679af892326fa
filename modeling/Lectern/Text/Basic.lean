/-!
# Text as a list of characters

Everything the library reads or writes is a `Text`, a list of characters, so that a statement about
a text is a statement about a list.  This file holds the searches the rest is built from:

* `stripPrefix?`   what follows a given beginning;
* `indexOf?`       where a pattern starts first;
* `splitOn`        the parts between the occurrences of a separator;
* `replaceAll`     every occurrence of a pattern exchanged;
* `join`           parts put together with a separator between them.

Occurrences are found from the left and do not overlap.
-/

namespace Lectern

abbrev Text := List Char

instance : Coe String Text := ⟨String.toList⟩

namespace Text

/-- The rest of `t` after the beginning `p`. -/
def stripPrefix? (p t : Text) : Option Text :=
  match p, t with
  | [], t => some t
  | _ :: _, [] => none
  | c :: p, d :: t => if c = d then stripPrefix? p t else none

theorem stripPrefix?_eq_some_iff {p t r : Text} : stripPrefix? p t = some r ↔ t = p ++ r := by
  induction p generalizing t with
  | nil => simp [stripPrefix?]
  | cons c p ih =>
    cases t with
    | nil => simp [stripPrefix?]
    | cons d t =>
      by_cases h : c = d
      · simp [stripPrefix?, h, ih]
      · simp [stripPrefix?, h, Ne.symm h]

/-- `t` begins with `p`. -/
def startsWith (p t : Text) : Bool := (stripPrefix? p t).isSome

theorem startsWith_iff {p t : Text} : startsWith p t = true ↔ ∃ r, t = p ++ r := by
  simp [startsWith, Option.isSome_iff_exists, stripPrefix?_eq_some_iff]

/-- `t` ends with `p`. -/
def endsWith (p t : Text) : Bool := startsWith p.reverse t.reverse

/-- The position at which `p` first occurs in `t`. -/
def indexOf? (p : Text) : Text → Option Nat
  | [] => if p = [] then some 0 else none
  | c :: t => if startsWith p (c :: t) then some 0 else (indexOf? p t).map (· + 1)

/-- An occurrence that is found stands in the text, and no other starts before it. -/
theorem indexOf?_eq_some {p t : Text} {i : Nat} (h : indexOf? p t = some i) :
    (∃ s r, t = s ++ p ++ r ∧ s.length = i) ∧ ∀ s r, t = s ++ p ++ r → i ≤ s.length := by
  induction t generalizing i with
  | nil =>
    unfold indexOf? at h
    split at h
    · rename_i hp
      obtain rfl := Option.some.inj h
      exact ⟨⟨[], [], by rw [hp]; rfl, rfl⟩, fun _ _ _ => Nat.zero_le _⟩
    · exact nomatch h
  | cons c t ih =>
    unfold indexOf? at h
    split at h
    · rename_i hs
      obtain ⟨r, hr⟩ := startsWith_iff.mp hs
      obtain rfl := Option.some.inj h
      exact ⟨⟨[], r, hr, rfl⟩, fun _ _ _ => Nat.zero_le _⟩
    · rename_i hs
      obtain ⟨j, hj, rfl⟩ := Option.map_eq_some_iff.mp h
      obtain ⟨⟨s, r, ht, hlen⟩, hfirst⟩ := ih hj
      refine ⟨⟨c :: s, r, by rw [ht]; rfl, by rw [List.length_cons, hlen]⟩, ?_⟩
      intro s' r' ht'
      cases s' with
      | nil => exact absurd (startsWith_iff.mpr ⟨r', ht'⟩) hs
      | cons d s' => exact Nat.succ_le_succ (hfirst s' r' (List.cons.inj ht').2)

theorem indexOf?_eq_none {p t : Text} (h : indexOf? p t = none) (s r : Text) :
    t ≠ s ++ p ++ r := by
  induction t generalizing s with
  | nil =>
    unfold indexOf? at h
    split at h
    · exact nomatch h
    · rename_i hp
      exact fun ht => hp (List.append_eq_nil_iff.mp (List.append_eq_nil_iff.mp ht.symm).1).2
  | cons c t ih =>
    unfold indexOf? at h
    split at h
    · exact nomatch h
    · rename_i hs
      intro ht
      cases s with
      | nil => exact hs (startsWith_iff.mpr ⟨r, ht⟩)
      | cons d s => exact ih (Option.map_eq_none_iff.mp h) s (List.cons.inj ht).2

/-- `p` occurs somewhere in `t`. -/
def occurs (p t : Text) : Bool := (indexOf? p t).isSome

/-- Walks through `t` with `skip` characters of an occurrence still to pass over; `acc` is the part
begun, in reverse. -/
def splitOnAux (sep : Text) : Nat → Text → Text → List Text
  | _, acc, [] => [acc.reverse]
  | skip + 1, acc, _ :: t => splitOnAux sep skip acc t
  | 0, acc, c :: t =>
    if startsWith sep (c :: t) then acc.reverse :: splitOnAux sep (sep.length - 1) [] t
    else splitOnAux sep 0 (c :: acc) t

/-- The parts of `t` between the occurrences of a separator that is not empty. -/
def splitOn (sep t : Text) : List Text :=
  if sep = [] then [t] else splitOnAux sep 0 [] t

/-- Parts put together with `sep` between neighbours. -/
def join (sep : Text) : List Text → Text
  | [] => []
  | [p] => p
  | p :: q :: ps => p ++ sep ++ join sep (q :: ps)

/-- As `replaceAll`, with `skip` characters of an occurrence still to pass over. -/
def replaceAux (old new : Text) : Nat → Text → Text
  | _, [] => []
  | skip + 1, _ :: t => replaceAux old new skip t
  | 0, c :: t =>
    if startsWith old (c :: t) then new ++ replaceAux old new (old.length - 1) t
    else c :: replaceAux old new 0 t

/-- Every occurrence of `old`, which is not empty, exchanged for `new`. -/
def replaceAll (old new t : Text) : Text :=
  if old = [] then t else replaceAux old new 0 t

/-- A character repeated. -/
def rep (n : Nat) (t : Text) : Text := (List.replicate n t).flatten

/-- The characters `t[i..j)`. -/
def slice (t : Text) (i j : Nat) : Text := (t.drop i).take (j - i)

/-- Order of two texts by their characters' code points, the shorter of two equal beginnings
first. -/
def le : Text → Text → Bool
  | [], _ => true
  | _ :: _, [] => false
  | c :: s, d :: t => if c = d then le s t else c.val < d.val

/-- The character is a letter of the English alphabet. -/
def isLetter (c : Char) : Bool := c.isAlpha

/-- The character is a letter of the English alphabet or one of the digits 0 to 9. -/
def isLetterOrDigit (c : Char) : Bool := c.isAlphanum

/-- Decimal digits of a number. -/
def ofNat (n : Nat) : Text := Nat.toDigits 10 n

end Text
end Lectern
