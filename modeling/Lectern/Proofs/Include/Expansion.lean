import Lectern.Proofs.Include.Graph
import Lectern.Proofs.Journal

/-!
# Includes are expanded, or there is a cycle

Where every reference is to a file that can be read, `expand` has two ends: the expansion of the
text, or the report of a cycle; and it reports one just where the text leads to one.

* `expand_of_none`, `expand_of_first`   the two equations of `expand` along the references of a text;
* `included_of_mem`, `included_of_not_mem`   the two of `included`;
* `Ends`          the text is expanded, or a cycle is reported and there is one;
* `ends_of_allFound`   it is so, by induction on the files that are not being opened, and inside
                  that on the references of a text;
* `expand_settles`   what this says of the notes of a file, and of a text that is no file.

What the chain of files being opened means is that each of them leads to every place the text names
(`Leads`).  A reference to one of them therefore closes a cycle, and one to another file makes the
chain longer and leaves it so.
-/

namespace Lectern.Include
open Text Relation Logged

/-- Every file that is being opened leads to every place the text names. -/
def Leads (files : FileTree) (here : List Text) (folder : Path) (chain : List (List Text))
    (t : Text) : Prop :=
  ∀ a ∈ chain, ∀ b, Names here folder t b → TransGen (Includes files here) a b

/-- The text is expanded, or a cycle is reported and there is one. -/
def Ends (files : FileTree) (here : List Text) (folder : Path) (chain : List (List Text))
    (t : Text) : Prop :=
  (∃ r, (expand files here folder chain t).Gives (.ok r) ∧ Expands files here folder t r) ∨
    ∃ places, (expand files here folder chain t).Gives (.error (.cycle places)) ∧
      LeadsToCycle files here folder t

section
variable {files : FileTree} {here : List Text} {folder : Path} {chain : List (List Text)}
  {t before path rest text : Text}

/-! ## the equations -/

theorem expand_of_none (h : NoReference t) : expand files here folder chain t = pure t := by
  rw [expand, cut_of_none h]
  simp only [List.mapM_nil, pure_bind, List.flatten_nil, List.append_nil]

theorem expand_of_first (h : FirstReference t before path rest) :
    expand files here folder chain t = (do
      let inner ← included files here folder chain path
      let after ← expand files here folder chain rest
      return before ++ inner ++ after) := by
  rw [expand, expand, cut_of_first h]
  simp only [List.mapM_cons, bind_assoc, pure_bind, List.flatten_cons, List.append_assoc]

theorem included_of_mem (hf : Found files here folder path)
    (hmem : target here folder path ∈ chain) :
    (included files here folder chain path).Gives
      (.error (.cycle (chain ++ [target here folder path]))) := by
  rw [included, if_neg (Bool.eq_false_iff.mp hf.isPath), dif_pos hmem]
  exact gives_throw _

theorem included_of_not_mem (hf : Found files here folder path)
    (hnew : target here folder path ∉ chain)
    (hread : files.readText here (Path.absolute (target here folder path)) = .ok text)
    {r : Except Fault Text}
    (h : (expand files here (folderOf (target here folder path))
      (chain ++ [target here folder path]) text).Gives r) :
    (included files here folder chain path).Gives r := by
  rw [included, if_neg (Bool.eq_false_iff.mp hf.isPath), dif_neg hnew]
  refine (gives_note _ _).bind ?_
  split
  · rename_i e he
    cases he.symm.trans hread
  · rename_i inner hinner
    obtain rfl := Except.ok.inj (hinner.symm.trans hread)
    exact h

/-! ## one step -/

theorem Leads.later (h : FirstReference t before path rest) (hl : Leads files here folder chain t) :
    Leads files here folder chain rest :=
  fun a ha b hb => hl a ha b (h.names_iff.mpr (.inr hb))

/-- The chain with the file of the first reference leads to what that file names. -/
theorem Leads.inside (h : FirstReference t before path rest)
    (htext : files.HasText (target here folder path) text)
    (hl : Leads files here folder chain t) :
    Leads files here (folderOf (target here folder path)) (chain ++ [target here folder path])
      text := by
  intro a ha b hb
  have hstep : Includes files here (target here folder path) b := ⟨text, htext, hb⟩
  rcases List.mem_append.mp ha with ha | ha
  · exact (hl a ha _ h.names).tail hstep
  · obtain rfl := List.mem_singleton.mp ha
    exact .single hstep

/-- A reference to a file that is being opened closes a cycle. -/
theorem leadsToCycle_of_mem (h : FirstReference t before path rest)
    (hl : Leads files here folder chain t) (hmem : target here folder path ∈ chain) :
    LeadsToCycle files here folder t :=
  ⟨_, ⟨_, h.names, .refl⟩, hl _ hmem _ h.names⟩

/-- A text ends as its first file and the text behind it do. -/
theorem Ends.reference (h : FirstReference t before path rest)
    (hall : AllFound files here folder t) (hl : Leads files here folder chain t)
    (hinside : ∀ text, files.readText here (Path.absolute (target here folder path)) = .ok text →
      target here folder path ∉ chain →
      Ends files here (folderOf (target here folder path)) (chain ++ [target here folder path])
        text)
    (hrest : Ends files here folder chain rest) : Ends files here folder chain t := by
  have hf := hall.direct (.first h)
  unfold Ends
  rw [expand_of_first h]
  by_cases hmem : target here folder path ∈ chain
  · exact .inr ⟨_, (included_of_mem hf hmem).bind_error _, leadsToCycle_of_mem h hl hmem⟩
  · obtain ⟨text, hread, htext⟩ := hf.hasText
    rcases hinside text hread hmem with ⟨inner, hgives, hinner⟩ | ⟨places, hgives, hcycle⟩
    · have hfirst := included_of_not_mem hf hmem hread hgives
      rcases hrest with ⟨after, hgives, hafter⟩ | ⟨places, hgives, hcycle⟩
      · exact .inl ⟨_, hfirst.bind (hgives.bind (gives_pure _)), .reference h htext hinner hafter⟩
      · exact .inr ⟨places, hfirst.bind (hgives.bind_error _), h.leadsToCycle hcycle⟩
    · exact .inr ⟨places, (included_of_not_mem hf hmem hread hgives).bind_error _,
        h.leadsToCycle_inside htext hcycle⟩

/-! ## the whole -/

theorem ends_of_allFound (folder : Path) (chain : List (List Text)) (t : Text)
    (hall : AllFound files here folder t) (hl : Leads files here folder chain t) :
    Ends files here folder chain t := by
  induction hn : unvisited files chain using Nat.strong_induction_on
    generalizing folder chain t with
  | _ n ih =>
    subst hn
    -- the first file opens another one, for which `ih` is there; what stands behind is `ihrest`
    induction t using reference_induction with
    | none t h => exact .inl ⟨t, by rw [expand_of_none h]; exact gives_pure t, .plain h⟩
    | first t before path rest h ihrest =>
      refine Ends.reference h hall hl (fun text hread hnew => ?_)
        (ihrest (h.allFound hall) (hl.later h))
      have htext := FileTree.hasText_of_readText dots_not_mem_target hread
      exact ih _ (unvisited_lt hnew hread) _ _ _ (h.allFound_inside htext hall)
        (hl.inside h htext) rfl

end

/-- A run fails with a cycle just where there is one, and else gives the one expansion. -/
structure Settles (run : Logged Fault Text) (cyclic : Prop) (expansion : Text → Prop) : Prop where
  fails_iff : (∃ places, run.Gives (.error (.cycle places))) ↔ cyclic
  returns : ¬ cyclic → ∃ r, run.Gives (.ok r) ∧ ∀ s, expansion s ↔ s = r

theorem Ends.settles {files : FileTree} {here : List Text} {folder : Path}
    {chain : List (List Text)} {t : Text} (h : Ends files here folder chain t) :
    Settles (expand files here folder chain t) (LeadsToCycle files here folder t)
      (Expands files here folder t) := by
  rcases h with ⟨r, hgives, hr⟩ | ⟨places, hgives, hcycle⟩
  · refine ⟨⟨?_, fun hcycle => absurd hcycle hr.not_leadsToCycle⟩, fun _ => ⟨r, hgives, fun s => ?_⟩⟩
    · rintro ⟨places, hfails⟩
      exact nomatch hfails.unique hgives
    · exact ⟨fun hs => hs.unique hr, fun hs => hs ▸ hr⟩
  · exact ⟨⟨fun _ => hcycle, fun _ => ⟨places, hgives⟩⟩, fun hno => absurd hcycle hno⟩

/-- **Includes are expanded, or they form a cycle.**  Where every reference on the way is to a file
that can be read, the run ends: it fails with a cycle just where the includes reach one, and else it
gives the text with every reference exchanged for the expansion of its file.  The first part is about
the notes of a file, which counts as being opened from the start; the second about a text that is no
file. -/
theorem expand_settles (files : FileTree) (here : List Text) :
    (∀ (file : Path) (source : Text), files.IsTree → files.node? here = some .folder →
      files.readText here file = .ok source → AllFound files here file.parent source →
      Settles (expand files here file.parent [file.resolve here] source)
        (∃ a, ReflTransGen (Includes files here) (file.resolve here) a ∧
          TransGen (Includes files here) a a)
        (Expands files here file.parent source)) ∧
    ∀ (folder : Path) (t : Text), AllFound files here folder t →
      Settles (expand files here folder [] t) (LeadsToCycle files here folder t)
        (Expands files here folder t) := by
  constructor
  · intro file source htree hhere hread hall
    obtain ⟨htext, hfolder⟩ := htree.of_readText hhere hread
    have hdots := Path.dots_not_mem_resolve here file
    have hleads : Leads files here file.parent [file.resolve here] source := by
      intro a ha b hb
      obtain rfl := List.mem_singleton.mp ha
      exact .single ((includes_iff_names hfolder hdots htext).mpr hb)
    rw [← leadsToCycle_iff hfolder hdots htext]
    exact (ends_of_allFound _ _ _ hall hleads).settles
  · intro folder t hall
    exact (ends_of_allFound _ _ _ hall fun a ha => absurd ha List.not_mem_nil).settles

/-- Three files in one folder: the first includes the second twice, the third includes itself. -/
def threeFiles : FileTree := ⟨[
  (["n".toList], .folder),
  (["n".toList, "a".toList], .file (encode "\x7b\x7bb\x7d\x7d\x7b\x7b ../n/b \x7d\x7d".toList)),
  (["n".toList, "b".toList], .file (encode "x".toList)),
  (["n".toList, "c".toList], .file (encode "\x7b\x7bc\x7d\x7d".toList))]⟩

/-- A file included twice is no cycle, and one that includes itself is. -/
theorem expand_settles_twice_and_cycle :
    let here := ["n".toList]
    let twice : Text := "\x7b\x7bb\x7d\x7d\x7b\x7b ../n/b \x7d\x7d".toList
    let cyclic : Text := "\x7b\x7bc\x7d\x7d".toList
    (expand threeFiles here ⟨[], []⟩ [["n".toList, "a".toList]] twice).Gives (.ok "xx".toList) ∧
      ∃ places, (expand threeFiles here ⟨[], []⟩ [] cyclic).Gives (.error (.cycle places)) := by
  intro here twice cyclic
  have ha : threeFiles.HasText ["n".toList, "a".toList] twice :=
    ⟨_, twice, rfl, by decide +kernel, by decide⟩
  have hb : threeFiles.HasText ["n".toList, "b".toList] "x".toList :=
    ⟨_, "x".toList, rfl, by decide +kernel, by decide⟩
  have hc : threeFiles.HasText ["n".toList, "c".toList] cyclic :=
    ⟨_, cyclic, rfl, by decide +kernel, by decide⟩
  obtain ⟨hfile, htext⟩ := expand_settles threeFiles here
  constructor
  · have hall : AllFound threeFiles here ⟨[], []⟩ twice :=
      .of_closed [(["n".toList, "b".toList], "x".toList)] (List.forall_mem_singleton.mpr hb)
        (by decide +kernel) (by decide +kernel)
    have hx : Expands threeFiles here (folderOf ["n".toList, "b".toList]) "x".toList "x".toList :=
      .plain (noReference_nil.cons (by decide))
    have hfirst : FirstReference twice [] "b".toList "\x7b\x7b ../n/b \x7d\x7d".toList :=
      reference?_eq_some rfl
    have hsecond : FirstReference "\x7b\x7b ../n/b \x7d\x7d".toList [] " ../n/b ".toList [] :=
      reference?_eq_some rfl
    have hxx : Expands threeFiles here ⟨[], []⟩ twice _ :=
      .reference hfirst hb hx (.reference hsecond hb hx (.plain noReference_nil))
    have hsettles := hfile ⟨[], ["a".toList]⟩ twice (FileTree.isTree_of_nodes (by decide +kernel))
      rfl (by decide +kernel) hall
    have hnone := hxx.not_leadsToCycle
    rw [leadsToCycle_iff rfl (by decide) ha] at hnone
    obtain ⟨r, hr, honly⟩ := hsettles.returns hnone
    obtain rfl := (honly _).mp hxx
    exact hr
  · have hall : AllFound threeFiles here ⟨[], []⟩ cyclic :=
      .of_closed [(["n".toList, "c".toList], cyclic)] (List.forall_mem_singleton.mpr hc)
        (by decide +kernel) (by decide +kernel)
    have hself : Includes threeFiles here ["n".toList, "c".toList] ["n".toList, "c".toList] :=
      ⟨cyclic, hc, "c".toList, .first (reference?_eq_some rfl), by decide⟩
    exact (htext ⟨[], []⟩ cyclic hall).fails_iff.mpr
      ⟨_, ⟨_, ⟨"c".toList, .first (reference?_eq_some rfl), rfl⟩, .refl⟩, .single hself⟩

end Lectern.Include
