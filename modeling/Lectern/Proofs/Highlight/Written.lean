import Lectern.Highlight.Markup
import Lectern.Proofs.Highlight.Whole
import Lectern.Proofs.Html.Said
import Lectern.Proofs.Words

/-!
# Pieces written in lines

The markup of a sample is put together from openings and closings of spans, escaped text and line ends.  What can
be said of each of these, and of two markups one behind the other, can be said of the markup of all pieces.

* `Stands`              what is said of markup and a text it stands for;
* `InLines`             a text in its lines, which are the lines of the escaped text;
* `Stands.writePieces`  the markup of some pieces stands for what they say;
* `SpanOpening`         the openings in coloured code;
* `Coloured`            markup of spans around a text;
* `grown_coloured`      the markup of a sample is read as a tree of spans and text, which says the sample as it
                        is prepared, its stretches tightened.
-/

namespace Lectern.Highlight
open Text Html

/-- A way in which markup stands for a text, which holds of the parts it is put together from. -/
structure Stands (P : Text → Text → Prop) : Prop where
  nil : P [] []
  append {t u r s : Text} (ht : P t r) (hu : P u s) : P (t ++ u) (r ++ s)
  escape (t : Text) : P (escape t) t
  lineEnd : P ['\n'] ['\n']
  opener (r : Role) : P (opener r.className) []
  closer (className : Text) : P (closer className) []

/-! ## lines -/

theorem lineEnd_not_mem_escapeChar {c : Char} (h : c ≠ '\n') : '\n' ∉ escapeChar c := fun hm => by
  unfold escapeChar at hm
  split at hm <;> first
    | exact absurd hm (by decide)
    | exact h (List.mem_singleton.mp hm).symm

theorem lineEnd_not_mem_escape {t : Text} (h : '\n' ∉ t) : '\n' ∉ escape t := fun hm => by
  obtain ⟨c, hc, hm⟩ := List.mem_flatMap.mp hm
  exact lineEnd_not_mem_escapeChar (fun e => h (e ▸ hc)) hm

theorem escape_ne_nil {t : Text} (h : t ≠ []) : escape t ≠ [] := by
  cases t with
  | nil => exact absurd rfl h
  | cons c t =>
    rw [escape, List.flatMap_cons]
    refine List.append_ne_nil_of_left_ne_nil ?_ _
    unfold escapeChar
    split <;> exact List.cons_ne_nil _ _

/-- A text in lines. -/
structure InLines (t : Text) (vs : List Text) : Prop where
  whole : join ['\n'] vs = t
  nonempty : vs ≠ []
  apart : ∀ v ∈ vs, '\n' ∉ v

theorem escape_join (vs : List Text) : escape (join ['\n'] vs) = join ['\n'] (vs.map escape) := by
  induction vs with
  | nil => rfl
  | cons v vs ih =>
    cases vs with
    | nil => rfl
    | cons w vs =>
      rw [List.map_cons, List.map_cons, join, join, ← List.map_cons, ← ih, escape, List.flatMap_append,
        List.flatMap_append]
      rfl

/-- The lines of an escaped text are its lines, escaped. -/
theorem exists_lines (t : Text) : ∃ vs, splitOn ['\n'] (escape t) = vs.map escape ∧ InLines t vs := by
  have hlines : InLines t (splitOn ['\n'] t) :=
    ⟨join_splitOn '\n' t, splitOn_ne_nil '\n' t, fun v hv => not_mem_of_mem_splitOn hv⟩
  have hwhole : escape t = join ['\n'] ((splitOn ['\n'] t).map escape) := by rw [← escape_join, hlines.whole]
  refine ⟨_, ?_, hlines⟩
  rw [hwhole]
  refine splitOn_join (fun e => hlines.nonempty (List.map_eq_nil_iff.mp e)) fun w hw => ?_
  obtain ⟨v, hv, rfl⟩ := List.mem_map.mp hw
  exact lineEnd_not_mem_escape (hlines.apart v hv)

section
variable {P : Text → Text → Prop}

/-- What stands in the open line so far says this, and no line ends in it. -/
def OpenLine.Says (P : Text → Text → Prop) (line : OpenLine) (s : Text) : Prop :=
  match line with
  | none => s = []
  | some (t, _) => P t s ∧ s ≠ [] ∧ '\n' ∉ s

namespace OpenLine.Says
variable {line : OpenLine} {s v : Text}

theorem put (hP : Stands P) (h : line.Says P s) (r : Role) (hv : '\n' ∉ v) :
    (line.put r.className (escape v)).Says P (s ++ v) := by
  have hsv (hs : '\n' ∉ s) : '\n' ∉ s ++ v := fun hm => (List.mem_append.mp hm).elim hs hv
  unfold OpenLine.put
  split
  · rename_i hempty
    have : v = [] := Classical.byContradiction fun hne => escape_ne_nil hne (List.isEmpty_iff.mp hempty)
    rwa [this, List.append_nil]
  · rename_i hne
    have hv' : v ≠ [] := fun e => hne (by rw [e]; rfl)
    split
    · obtain rfl : s = [] := h
      exact ⟨hP.append (hP.opener r) (hP.escape v), hv', hv⟩
    · rename_i t c
      obtain ⟨ht, hs, hend⟩ := h
      have hne := List.append_ne_nil_of_left_ne_nil hs v
      split
      · exact ⟨hP.append ht (hP.escape v), hne, hsv hend⟩
      · refine ⟨?_, hne, hsv hend⟩
        have := hP.append (hP.append (hP.append ht (hP.closer c)) (hP.opener r)) (hP.escape v)
        rwa [List.append_nil, List.append_nil] at this

theorem ended (hP : Stands P) (h : line.Says P s) : P line.ended (s ++ ['\n']) := by
  cases line with
  | none =>
    obtain rfl : s = [] := h
    exact hP.lineEnd
  | some l =>
    have := hP.append (hP.append h.1 (hP.closer l.2)) hP.lineEnd
    rwa [List.append_nil] at this

end OpenLine.Says

/-- The parts of a piece are written in the lines they belong to. -/
theorem Stands.writeParts (hP : Stands P) (r : Role) {line : OpenLine} {s : Text} (h : line.Says P s)
    {vs : List Text} (hv : ∀ v ∈ vs, '\n' ∉ v) : ∃ a b, P (writeParts r.className line (vs.map Html.escape)).1 a ∧
      (writeParts r.className line (vs.map Html.escape)).2.Says P b ∧ a ++ b = s ++ join ['\n'] vs := by
  induction vs generalizing line s with
  | nil => exact ⟨[], s, hP.nil, h, by rw [join, List.append_nil]; rfl⟩
  | cons v vs ih =>
    have hput := h.put hP r (hv v List.mem_cons_self)
    cases vs with
    | nil => exact ⟨[], s ++ v, hP.nil, hput, rfl⟩
    | cons w vs =>
      obtain ⟨a, b, ha, hb, hab⟩ := ih (show OpenLine.Says P none [] from rfl) fun u hu =>
        hv u (List.mem_cons_of_mem _ hu)
      refine ⟨s ++ v ++ ['\n'] ++ a, b, hP.append (hput.ended hP) ha, hb, ?_⟩
      rw [List.append_assoc, hab, join]
      simp only [List.append_assoc, List.nil_append]

/-- No line is open at the end of the text. -/
def EndsLine (t : Text) : Prop := ∀ c, t.getLast? = some c → c = '\n'

theorem EndsLine.of_append {s t : Text} (h : EndsLine (s ++ t)) : EndsLine t := fun c hc =>
  h c (by rw [List.getLast?_append, hc]; rfl)

theorem endsLine_prepare (t : Text) : EndsLine (prepare t) := fun c hc => by
  rw [prepare, List.getLast?_concat] at hc
  exact (Option.some.inj hc).symm

/-- The markup of some pieces says what they say. -/
theorem Stands.writePieces (hP : Stands P) {line : OpenLine} {s : Text} (h : line.Says P s) {ps : List Piece}
    (he : EndsLine (s ++ said ps)) : P (writePieces line ps) (s ++ said ps) := by
  induction ps generalizing line s with
  | nil =>
    rw [show said [] = [] from rfl, List.append_nil] at he ⊢
    cases line with
    | none =>
      obtain rfl : s = [] := h
      exact hP.nil
    | some l =>
      obtain ⟨-, hne, hend⟩ := h
      have hlast := List.getLast?_eq_some_getLast hne
      exact absurd (he _ hlast ▸ List.getLast_mem hne) hend
  | cons p ps ih =>
    obtain ⟨vs, hvs, hlines⟩ := exists_lines p.text
    obtain ⟨a, b, ha, hb, hab⟩ := hP.writeParts p.role h hlines.apart
    rw [hlines.whole] at hab
    have hsaid : s ++ said (p :: ps) = a ++ (b ++ said ps) := by
      rw [← List.append_assoc, hab, List.append_assoc]
      rfl
    rw [hsaid] at he ⊢
    rw [Highlight.writePieces, hvs]
    exact hP.append ha (ih hb he.of_append)

/-- The markup of a sample stands for the sample as it is prepared. -/
theorem Stands.markup (hP : Stands P) (l : Language) (t : Text) : P (l.markup t) (prepare t) := by
  have hsaid := said_pieces l t
  have hends : EndsLine ([] ++ said (l.pieces t)) := by
    rw [List.nil_append, hsaid]
    exact endsLine_prepare t
  have := hP.writePieces (show OpenLine.Says P none [] from rfl) hends
  rwa [List.nil_append, hsaid] at this

end

/-! ## spans and text -/

/-- The opening of a span. -/
def SpanOpening : Kind := fun name _ => name = "span".toList

theorem isLoose_spanOpening : Kind.IsLoose SpanOpening := fun name _ h => by
  obtain rfl : name = "span".toList := h
  exact ⟨rfl, by decide, by decide⟩

/-- Markup that is read, wherever it stands, as openings and closings of spans and as this text. -/
def Coloured (t s : Text) : Prop :=
  ∃ us, Reads t us ∧ (∀ u ∈ us, u.Fits SpanOpening ∧ u ≠ .text []) ∧ us.flatMap Token.said = s

theorem coloured_nil : Coloured [] [] := ⟨[], reads_nil, fun _ hu => absurd hu List.not_mem_nil, rfl⟩

theorem Coloured.append {t u r s : Text} (ht : Coloured t r) (hu : Coloured u s) : Coloured (t ++ u) (r ++ s) := by
  obtain ⟨ts, hrt, hft, rfl⟩ := ht
  obtain ⟨us, hru, hfu, rfl⟩ := hu
  refine ⟨ts ++ us, hrt.append hru, fun v hv => ?_, List.flatMap_append⟩
  exact (List.mem_append.mp hv).elim (hft v) (hfu v)

theorem Coloured.of_reads {t : Text} {u : Token} (h : Reads t [u]) (hu : u.Fits SpanOpening) (hne : u ≠ .text []) :
    Coloured t u.said :=
  ⟨[u], h, fun _ hm => List.mem_singleton.mp hm ▸ ⟨hu, hne⟩, List.flatMap_singleton ..⟩

theorem coloured_escape (t : Text) : Coloured (escape t) t := by
  cases t with
  | nil => exact coloured_nil
  | cons c t =>
    exact .of_reads (u := .text (c :: t)) (reads_escape (List.cons_ne_nil c t)) trivial fun h => by cases h

theorem coloured_lineEnd : Coloured ['\n'] ['\n'] :=
  .of_reads (u := .text ['\n']) (reads_plain rfl) trivial fun h => by cases h

theorem coloured_opener (r : Role) : Coloured (opener r.className) [] := by
  have span (value : Text) (hq : '"' ∉ value) (hv : unescape value = .ok value) :
      Coloured ("<span class=\"".toList ++ value ++ "\">".toList) [] := by
    have hclass : IsAttributeName "class".toList := ⟨by decide, by decide, by decide⟩
    have := reads_opening (show IsName "span".toList from ⟨by decide, by decide, by decide⟩) rfl
      (.cons (.quoted (a := ("class", value)) '"' value (.inl rfl) hq hv hclass) .nil) .plain
    refine .of_reads (u := .opening "span" [("class", value)] false) ?_ ⟨rfl, fun h => absurd h (by decide)⟩
      fun h => by cases h
    simpa using this
  cases r with
  | plain => exact coloured_nil
  | _ => exact span _ (by decide) rfl

theorem coloured_closer (className : Text) : Coloured (closer className) [] := by
  unfold closer
  split
  · exact coloured_nil
  · exact .of_reads (u := .closing "span") (reads_markup (t := "/span>".toList) fun _ => rfl) trivial
      fun h => by cases h

theorem stands_coloured : Stands Coloured :=
  ⟨coloured_nil, .append, coloured_escape, coloured_lineEnd, coloured_opener, coloured_closer⟩

/-- The markup of coloured code is read as spans and text, which say the sample, tightened. -/
theorem grown_coloured (l : Language) (t : Text) (g : Nat) : ∃ ns, Node.parse (l.markup t) g = .ok ns ∧
    Grown SpanOpening ns ∧ Tightens (prepare t) (Node.plainTextAll ns) := by
  obtain ⟨us, hr, hf, hs⟩ := stands_coloured.markup l t
  obtain ⟨ns, hread, hgrown, htight⟩ := tightens_of_reads isLoose_spanOpening hr hf g
  rw [hs] at htight
  exact ⟨ns, hread, hgrown, htight⟩

end Lectern.Highlight
