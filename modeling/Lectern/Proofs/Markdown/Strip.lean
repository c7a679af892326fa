import Lectern.Proofs.Markdown.Quiet

/-!
# A strip of times

A strip of times stands between two lines of slashes.  What it holds is read as blocks, so a blank line ends what
stands before it, and lines that are indented far are code.

* `firstBlock`      the lines of a strip that become its first block;
* `exists_render`   what a document with a strip behind its title is rendered to.
-/

namespace Lectern.Markdown
open Text

/-! ## the lines of a strip -/

/-- The page has these lines, from line `i` on. -/
def Lines.Has (ls : Lines) (i : Nat) (sl : List Text) : Prop := sl.map (Line.ofText · true) <+: ls.toList.drop i

namespace Lines.Has
variable {ls : Lines} {i : Nat} {l : Text} {sl tl : List Text}

theorem cons (h : ls.Has i (l :: sl)) : i < ls.size ∧ ls.at i = .ofText l true ∧ ls.Has (i + 1) sl := by
  obtain ⟨rest, hrest⟩ := h
  obtain ⟨hi, hhere, hdrop⟩ := at_of_drop hrest.symm
  exact ⟨hi, hhere, rest, hdrop.symm⟩

theorem append (h : ls.Has i (sl ++ tl)) : ls.Has (i + sl.length) tl := by
  induction sl generalizing i with
  | nil => exact h
  | cons l sl ih =>
    have hrest := ih h.cons.2.2
    rwa [List.length_cons, Nat.add_comm sl.length 1, ← Nat.add_assoc]

end Lines.Has

section
variable {p : Place} {ls : Lines} {i last : Nat} {l : Text} {sl : List Text}

variable (hcol : p.column = 0)
include hcol

end

/-! ## what the lines of a strip say -/

/-- A paragraph of plain words, or a block of code with these words. -/
inductive Block.Tells (ws : List Text) : Block → Prop where
  | paragraph {t : Text} (quiet : ∀ c ∈ t, isQuiet c = true ∨ c = '\n') (plain : hasRare t = false)
    (same : words t = ws) : Tells ws (.paragraph t)
  | code {t : Text} (nonempty : t ≠ []) (same : words t = ws) : Tells ws (.code t)

section
variable {title : Text} {sl : List Text} (ht : isPlainLine title = true) (h : ∀ l ∈ sl, isPlainLine l = true)
include ht h

omit h in
/-- The title of the document. -/
theorem exists_heading : ∃ t, heading? ('#' :: ' ' :: title) = some (1, t) ∧ (∀ c ∈ t, isQuiet c = true) ∧
    hasRare t = false := by
  have hbehind (p : Char → Bool) (t : Text) : (t.reverse.dropWhile p).reverse <:+: t := by
    rw [← List.reverse_infix, List.reverse_reverse]
    exact (List.dropWhile_suffix p).isInfix
  have hplain : isPlainLine (' ' :: title) = true := ht
  obtain ⟨t, hhead, hwithin⟩ : ∃ t, heading? ('#' :: ' ' :: title) = some (1, t) ∧ t <:+: ' ' :: title := by
    refine ⟨_, rfl, (trim_within _).trans ?_⟩
    split
    · exact (hbehind _ _).trans (hbehind _ _)
    · exact hbehind _ _
  refine ⟨t, hhead, fun c hc => isQuiet_of_isPlainLine hplain (hwithin.subset hc), ?_⟩
  obtain ⟨u, v, hsplit⟩ := hwithin
  have hrare := hasRare_eq_false (fun c hc => .inl (isQuiet_of_isPlainLine hplain hc)) (Bool.and_eq_true_iff.mp hplain).2
  rw [← hsplit] at hrare
  exact hasRare_within hrare

end

section
variable {p : Place} {ls : Lines} {i last : Nat} {read : Reader} (hcol : p.column = 0)
include hcol

end

section
open Html Node

section
variable {n : String} (hn : n ∈ plainNames) (hv : n ≠ "br") {ds : List Node}
include hn hv

end

theorem Block.Tells.renderAll {ws : List Text} {b : Block} (h : b.Tells ws) (definitions : List Definition)
    (labels : Labels) (more : List Block) : Block.renderAll definitions labels false false (b :: more)
      = b.render definitions labels false ++ Block.renderAll definitions labels false false more := by
  cases h <;> rfl

end
end Lectern.Markdown
