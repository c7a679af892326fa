import Lectern.Proofs.Include.Expansion
import Lectern.Proofs.Site.Stages

/-!
# What becomes of a document

Documents are compiled one after the other, each with the files as the ones before it left them: that is its
turn.  A document that fails with a fault that has a label is reported, one that has a page gets it written, and
the next one takes its turn.  A fault without a label and a page that cannot be written stop the build
(`Turn.Stops`), and nothing else does (`foldlM_eq_ok_iff`).
-/

namespace Lectern.Site
open Text Logged FileTree

/-- The turn of a document: the files as the documents before it left them, and what has been said. -/
structure Turn where
  source : Path
  files : FileTree
  journal : List Message

namespace Turn

/-- How compiling the document ends. -/
def verdict (c : Compiler) (input : Path) (t : Turn) : Except Document.Fault Document :=
  (({ c with files := t.files } : Compiler).compileFile (input.join t.source) input t.journal).1

/-- The document stops the build: its fault has no label, or its page cannot be written. -/
def Stops (c : Compiler) (input output : Path) (t : Turn) : Prop :=
  match t.verdict c input with
  | .error e => e.label? = none
  | .ok d => ∃ e, put t.files c.here (output.join d.path) d.html = .error e

/-- What is said of the document if it fails. -/
def failure? (c : Compiler) (input : Path) (t : Turn) : Option (Path × Text) :=
  match t.verdict c input with
  | .error e => e.label?.map fun label => failure t.source label e
  | .ok _ => none

/-- The page of the document if it has one. -/
def page? (c : Compiler) (input : Path) (t : Turn) : Option Path :=
  (t.verdict c input).toOption.map (·.path)

section
variable {c : Compiler} {input : Path} {t : Turn} {d : Document} {e : Document.Fault}

theorem failure?_of_ok (h : t.verdict c input = .ok d) : t.failure? c input = none := by
  rw [failure?, h]

theorem failure?_of_error (h : t.verdict c input = .error e) :
    t.failure? c input = e.label?.map fun label => failure t.source label e := by
  rw [failure?, h]

theorem page?_of_ok (h : t.verdict c input = .ok d) : t.page? c input = some d.path := by
  rw [page?, h]
  rfl

theorem page?_of_error (h : t.verdict c input = .error e) : t.page? c input = none := by
  rw [page?, h]
  rfl

theorem stops_iff_of_error {output : Path} (h : t.verdict c input = .error e) :
    t.Stops c input output ↔ e.label? = none := by
  rw [Stops, h]

theorem stops_iff_of_ok {output : Path} (h : t.verdict c input = .ok d) :
    t.Stops c input output ↔ ∃ e, put t.files c.here (output.join d.path) d.html = .error e := by
  rw [Stops, h]

end
end Turn

/-- The turns that documents take, up to the first one that stops. -/
def turns (c : Compiler) (input output : Path) (done : Built) (ms : List Message) : List Path → List Turn
  | [] => []
  | source :: sources =>
    ⟨source, done.files, ms ++ [announce source]⟩ ::
      match compileOne c input output done source ms with
      | (.ok done, ms) => turns c input output done ms sources
      | (.error _, _) => []

section
variable {c : Compiler} {input output source : Path} {sources : List Path} {done done' : Built}
  {ms ms' : List Message}

theorem turns_singleton :
    turns c input output done ms [source] = [⟨source, done.files, ms ++ [announce source]⟩] := by
  rw [turns]
  split
  · rfl
  · rfl

/-- A turn that does not stop leaves its report or its page. -/
theorem compileOne_of_turn (hs : ¬ Turn.Stops c input output ⟨source, done.files, ms ++ [announce source]⟩) :
    ∃ done' ms', compileOne c input output done source ms = (.ok done', ms') ∧
      done'.failures = done.failures
        ++ (Turn.failure? c input ⟨source, done.files, ms ++ [announce source]⟩).toList ∧
      done'.pages = done.pages ++ (Turn.page? c input ⟨source, done.files, ms ++ [announce source]⟩).toList ∧
      done'.copied = done.copied := by
  have heq := compileOne_eq c input output done source ms
  unfold Turn.Stops Turn.verdict at hs
  unfold Turn.failure? Turn.page? Turn.verdict
  dsimp only at hs ⊢
  rcases hv : ({ c with files := done.files } : Compiler).compileFile (input.join source) input
    (ms ++ [announce source]) with ⟨e | d, ms₁⟩
  · rw [hv] at heq hs
    dsimp only at heq hs ⊢
    cases hl : e.label? with
    | none => exact absurd hl hs
    | some label =>
      rw [hl] at heq
      exact ⟨_, _, heq, rfl, (List.append_nil _).symm, rfl⟩
  · rw [hv] at heq hs
    dsimp only at heq hs ⊢
    cases hp : put done.files c.here (output.join d.path) d.html with
    | error e => exact absurd ⟨e, hp⟩ hs
    | ok files =>
      rw [hp] at heq
      exact ⟨_, _, heq, (List.append_nil _).symm, rfl, rfl⟩

theorem not_stops_of_compileOne (h : compileOne c input output done source ms = (.ok done', ms')) :
    ¬ Turn.Stops c input output ⟨source, done.files, ms ++ [announce source]⟩ := by
  rw [compileOne_eq] at h
  unfold Turn.Stops Turn.verdict
  dsimp only
  split at h
  · rename_i e ms₁ hv
    rw [hv]
    dsimp only
    split at h
    · rename_i label hl
      rw [hl]
      exact fun hn => nomatch hn
    · cases h
  · rename_i d ms₁ hv
    rw [hv]
    dsimp only
    split at h
    · cases h
    · rename_i files hp
      rw [hp]
      exact fun ⟨e, he⟩ => nomatch he

/-- The documents are all dealt with if and only if no turn stops. -/
theorem foldlM_eq_ok_iff : (∃ done' ms', sources.foldlM (compileOne c input output) done ms = (.ok done', ms')) ↔
    ∀ t ∈ turns c input output done ms sources, ¬ t.Stops c input output := by
  induction sources generalizing done ms with
  | nil => exact ⟨fun _ t ht => absurd ht List.not_mem_nil, fun _ => ⟨done, ms, rfl⟩⟩
  | cons source sources ih =>
    rw [List.foldlM_cons, turns]
    constructor
    · rintro ⟨done', ms', h⟩
      obtain ⟨done₁, ms₁, h₁, hrest⟩ := bind_eq_ok.mp h
      rw [h₁]
      exact List.forall_mem_cons.mpr ⟨not_stops_of_compileOne h₁, ih.mp ⟨done', ms', hrest⟩⟩
    · intro h
      obtain ⟨hs, hrest⟩ := List.forall_mem_cons.mp h
      obtain ⟨done₁, ms₁, h₁, -⟩ := compileOne_of_turn hs
      rw [h₁] at hrest
      obtain ⟨done', ms', h'⟩ := ih.mpr hrest
      exact ⟨done', ms', bind_eq_ok.mpr ⟨done₁, ms₁, h₁, h'⟩⟩

/-- All documents take their turns, and each leaves its report or its page. -/
theorem turns_of_foldlM (h : sources.foldlM (compileOne c input output) done ms = (.ok done', ms')) :
    (turns c input output done ms sources).map Turn.source = sources ∧
      done'.failures = done.failures ++ (turns c input output done ms sources).filterMap (Turn.failure? c input) ∧
      done'.pages = done.pages ++ (turns c input output done ms sources).filterMap (Turn.page? c input) ∧
      done'.copied = done.copied := by
  induction sources generalizing done ms with
  | nil =>
    cases h
    exact ⟨rfl, (List.append_nil _).symm, (List.append_nil _).symm, rfl⟩
  | cons source sources ih =>
    rw [List.foldlM_cons] at h
    obtain ⟨done₁, ms₁, h₁, hrest⟩ := bind_eq_ok.mp h
    obtain ⟨done₂, ms₂, h₂, hf, hp, hc⟩ := compileOne_of_turn (not_stops_of_compileOne h₁)
    rw [h₁] at h₂
    cases h₂
    obtain ⟨hsources, hf', hp', hc'⟩ := ih hrest
    rw [turns, h₁]
    dsimp only
    refine ⟨congrArg (source :: ·) hsources, ?_, ?_, hc'.trans hc⟩
    · rw [hf', hf, List.append_assoc, List.filterMap_cons]
      split
      · rename_i he
        rw [he]
        rfl
      · rename_i line he
        rw [he]
        rfl
    · rw [hp', hp, List.append_assoc, List.filterMap_cons]
      split
      · rename_i he
        rw [he]
        rfl
      · rename_i page he
        rw [he]
        rfl

end

/-! ## the whole build -/

namespace Course
variable {order : Order} {theme : Theme} {files : FileTree} {here : List Text} {ms ms' : List Message}
  {done : Built}

/-- What is counted and reported is settled once the static files are copied. -/
theorem counts (course : Course order theme files here ms done ms') :
    done.failures = course.copied.failures ∧ done.pages = course.copied.pages ∧
      done.copied = course.copied.copied := by
  obtain ⟨folders, -, hc⟩ := copyAssets_eq_ok.mp course.dresses
  obtain ⟨mid, sheet, t, -, -, -, hd, -⟩ := writeSheet_eq_ok.mp course.writes
  have hdressed := Logged.foldlM_keeps (P := fun d : Built => d.failures = course.copied.failures ∧
    d.pages = course.copied.pages ∧ d.copied = course.copied.copied) (fun d a d' ms ms' _ hd hs => by
      obtain ⟨t, -, rfl, -⟩ := copyAsset_eq_ok.mp hs
      exact hd) ⟨rfl, rfl, rfl⟩ hc
  refine ⟨?_, ?_, ?_⟩
  · exact (congrArg Built.failures hd).trans hdressed.1
  · exact (congrArg Built.pages hd).trans hdressed.2.1
  · exact (congrArg Built.copied hd).trans hdressed.2.2

end Course

theorem isGood_built_iff (done : Built) : (Outcome.built done).isGood = true ↔ done.failures = [] := by
  unfold Outcome.isGood Outcome.complaints
  rcases h : done.failures with - | ⟨f, fs⟩ <;> simp [h]

/-! ## documents without references -/

theorem noReference_of_cut {text : Text} (h : (Include.cut text.length text).2 = []) :
    Include.NoReference text := by
  refine (Include.noReference_or_first text).resolve_right fun ⟨before, path, rest, hf⟩ => ?_
  rw [Include.cut_of_first hf] at h
  cases h

/-- A document without references is compiled as it is. -/
theorem compileFile_of_noReference {c : Compiler} {file base path : Path} {text : Text}
    (hread : c.files.readText c.here file = .ok text) (hcut : (Include.cut text.length text).2 = [])
    (hpath : file.relativeTo? base = some path) :
    c.compileFile file base = c.compileText text path file.parent := by
  unfold Compiler.compileFile
  rw [hread]
  dsimp only
  rw [Include.expand_of_none (noReference_of_cut hcut), hpath]
  rfl

end Lectern.Site
