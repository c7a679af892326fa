import Lectern.Proofs.Walk.Marked

/-!
# The lecture video of a page

Where a page holds no lecture video of its own and the walk comes to no row in a row, the walk comes to the
elements that name sources in document order.  The video stands in place of the first of them and has all
their sources in that order; the others are gone.

* `marking`                the walk as it goes behind a lecture video, which only marks these elements;
* `settle_shown`           the sources that are kept for the end of the walk, put into the video;
* `OneVideo`               a page in its final form, in terms of what is marked;
* `one_lecture_video`      the whole walk over a page of clear trees;
* `video_out_of_order`     a row in a row, and two sources the wrong way round.
-/

namespace Lectern.Page
open Text Html Html.Node Markdown

/-- The walk below a body as it goes behind a lecture video: an element on which the lecture sigil acts is marked
where it stands, and nothing is put in its place. -/
def marking (c : Context) (body : Node) : Except WalkFault (List Node) × List Message :=
  let r := walkBelow c body [] { sources := { passed := true } } []
  (r.1.1, r.2)

/-- The note that so many elements have gone. -/
def pruneNotes (count : Nat) : List Message :=
  if count > 0 then [.note 3 ("Pruned ".toList ++ ofNat count ++ " consumed node(s)".toList)] else []

section
variable {c : Context} {g : Nat} {tag : Tag} {cs behind ns : List Node}

theorem finds_walkBelow (hc : Clear g cs) (hb : behind.any holdsLecture = false) :
    Finds c id (walkBelow c (.element tag cs) behind) (Marked c g cs) := by
  rw [walkBelow, hb]
  exact finds_visitAll (fun n _ hn => finds_visit c _ .flow hn trivial) hc

/-- The sources that were kept for the end of the walk are put behind the first one. -/
theorem settle_shown {s : Sources} (htag : isLecture tag = false) (hl : NoLecture ns)
    (hlate : s.late = (sourcesOf c ns).drop 1) :
    s.settle (.element tag (shown c false ns)) = .element tag (exchanged (lectureVideo (sourcesOf c ns)) ns) := by
  rw [shown, if_neg Bool.false_ne_true, Sources.settle, hlate]
  split
  · rename_i hempty
    have hone : (sourcesOf c ns).take 1 = sourcesOf c ns := by
      have := List.take_append_drop 1 (sourcesOf c ns)
      rwa [List.isEmpty_iff.mp hempty, List.append_nil] at this
    rw [hone]
  · rename_i hsome
    have hspents : spents ns ≠ [] := fun e => hsome (by rw [sourcesOf_eq_nil e]; rfl)
    rw [addSources?, mapFirst?_element, htag, if_neg Bool.false_ne_true, mapFirstAll?_exchanged hl hspents,
      List.take_append_drop]
    rfl

theorem mem_tagsAll_sourcesOf {t : Tag} (ht : t ∈ tagsAll (sourcesOf c ns)) : t.spent = false ∧ isLecture t = false := by
  obtain ⟨n, hn, htag⟩ := mem_tagsAll.mp ht
  obtain ⟨e, -, rfl⟩ := List.mem_map.mp hn
  obtain rfl := List.mem_singleton.mp htag
  exact ⟨rfl, isLecture_of_name (by decide : "source".toList ≠ "video".toList)⟩

end

/-- A page in its final form, where the walk has marked the elements of `ns` that name sources and has written
`ms`. -/
structure OneVideo (c : Context) (tag : Tag) (ns : List Node) (ms : List Message)
    (outcome : Except WalkFault Node × List Message) (after : List Node) : Prop where
  /-- The lecture sigil acts on each of them, and its remainder can be read. -/
  names : ∀ e ∈ spents ns, Names c e
  /-- They are all for which a source was noted, in the order of the page. -/
  noted : noted ms = (spents ns).map (address c)
  outcome : outcome = (.ok (.element tag after), ms ++ pruneNotes ((spents ns).length - 1))
  /-- The video stands in place of the first, and the others are gone. -/
  place : after = pruneAll (exchanged (lectureVideo ((spents ns).map fun e => sourceNode (address c e))) ns)
  /-- It is the only one, and there is none if nothing names a source. -/
  only : lectures after = if (spents ns).isEmpty then []
    else [lectureVideo ((spents ns).map fun e => sourceNode (address c e))]
  gone : ∀ t ∈ tagsAll after, t.spent = false

section
variable {c : Context} {g : Nat} {tag : Tag} {cs behind ns : List Node}

theorem lectures_exchanged (hl : NoLecture ns) :
    lectures (pruneAll (exchanged (lectureVideo (sourcesOf c ns)) ns))
      = if (spents ns).isEmpty then [] else [lectureVideo (sourcesOf c ns)] := by
  by_cases h : spents ns = []
  · rw [exchanged_of_nil h, lectures_eq_nil (noLecture_pruneAll hl), h]
    rfl
  · rw [lectures_pruneAll_exchanged (fun t ht => mem_tagsAll_sourcesOf ht) hl h, if_neg (by simpa using h)]

/-- A page without a lecture video of its own, in which no row stands in a row.  Its walk fails where marking the
elements that name sources fails; otherwise there is one lecture video if there are such elements, in place of the
first, with the source of each of them in document order, and nothing else is left of them. -/
theorem one_lecture_video (c : Context) (hc : Clear g cs) (htag : isLecture tag = false)
    (hb : behind.any holdsLecture = false) :
    (∀ e ms, marking c (.element tag cs) = (.error e, ms) →
      (finish c (.element tag cs) behind).outcome = (.error e, ms)) ∧
    ∀ ns ms, marking c (.element tag cs) = (.ok ns, ms) →
      ∃ after, OneVideo c tag ns ms (finish c (.element tag cs) behind).outcome after := by
  obtain ⟨r, new, hends, hr⟩ := @finds_walkBelow c _ tag _ _ hc hb
  have hmark : walkBelow c (.element tag cs) [] = walkBelow c (.element tag cs) behind := by
    rw [walkBelow, walkBelow, hb]
    rfl
  cases r with
  | error e =>
    obtain ⟨p, hrun⟩ := hends {} [] rfl
    obtain ⟨p', hrun'⟩ := hends { sources := { passed := true } } [] rfl
    have hm : marking c (.element tag cs) = (.error e, new) := by rw [marking, hmark, hrun']; rfl
    refine ⟨fun e' ms h => ?_, fun ns ms h => ?_⟩ <;> obtain ⟨he, rfl⟩ := Prod.mk.inj (hm.symm.trans h)
    · obtain rfl := Except.error.inj he
      exact outcome_finish_error hrun
    · cases he
  | ok ns =>
    obtain ⟨ns', p, hrun, hshown, hgains⟩ := hends {} [] rfl
    obtain ⟨ns'', p', hrun', hsame, -⟩ := hends { sources := { passed := true } } [] rfl
    obtain rfl : ns' = shown c false ns := hshown
    obtain rfl : ns'' = ns := hsame
    have hm : marking c (.element tag cs) = (.ok ns'', new) := by rw [marking, hmark, hrun']; rfl
    have hmarked := hr ns'' rfl
    have hcount : p.spent = (spents ns'').length - 1 := by
      rw [hgains.spent, keptBack, if_neg Bool.false_ne_true, List.length_drop, sourcesOf, List.length_map]
      exact Nat.zero_add _
    have hlate : p.sources.late = (sourcesOf c ns'').drop 1 := hgains.late
    refine ⟨fun e ms h => ?_, fun ns ms h => ?_⟩ <;> obtain ⟨hns, rfl⟩ := Prod.mk.inj (hm.symm.trans h)
    · cases hns
    · obtain rfl := Except.ok.inj hns
      refine ⟨_, hmarked.names, hmarked.noted, ?_, rfl, lectures_exchanged hmarked.lectures, fun t ht =>
        (mem_tagsAll_pruneAll _ ht).2⟩
      rw [outcome_finish hrun, settle_shown htag hmarked.lectures hlate, hcount]
      rfl

end

/-- Two sources, one of them in a list. -/
theorem one_lecture_video_in_list :
    let cs : List Node := [.element (.of "p" []) [.text ": a.mp4".toList],
      .element (.of "ul" []) [.element (.of "li" []) [.text ": b.mp4".toList]]]
    let body : Tag := .of "body" []
    Clear 0 cs ∧ isLecture body = false ∧ [].any holdsLecture = false ∧
      ∃ ns ms after, marking .bare (.element body cs) = (.ok ns, ms) ∧
        OneVideo .bare body ns ms (finish .bare (.element body cs) []).outcome after ∧ (spents ns).length = 2 := by
  intro cs body
  have hname (name : String) (h : name ∈ noteNames) : (Tag.of name []).IsOf NoteOpening :=
    ⟨⟨[], ⟨.inl (isFreeName _ h), fun a ha => absurd ha List.not_mem_nil⟩, rfl⟩, rfl⟩
  have hgrown : Grown NoteOpening cs :=
    .element (hname "p" (by decide)) nofun (.text _ .nil) (.element (hname "ul" (by decide)) nofun
      (.element (hname "li" (by decide)) nofun (.text _ .nil) .nil) .nil)
  have htags : ∀ t ∈ tagsAll cs, t.generation = 0 ∧ t.name ≠ "tr".toList := by decide
  have hc : Clear 0 cs := Tidy.clear ⟨hgrown, fun t ht => (htags t ht).1, fun t ds he hr =>
    absurd hr (htags t (mem_tagsAll_iff.mpr ⟨ds, he⟩)).2⟩
  have hcount : (marking .bare (.element body cs)).1.toOption.map (fun ns => (spents ns).length) = some 2 := by
    decide +kernel
  have hall := (one_lecture_video .bare hc (rfl : isLecture body = false) (rfl : [].any holdsLecture = false)).2
  cases hm : marking .bare (.element body cs) with
  | mk r ms =>
    cases r with
    | error e =>
      rw [hm] at hcount
      cases hcount
    | ok ns =>
      rw [hm] at hcount
      obtain ⟨after, hafter⟩ := hall ns ms hm
      exact ⟨hc, rfl, rfl, ns, ms, after, rfl, hafter, Option.some.inj hcount⟩
/-- The rows of a table are looked for in all that it holds, so that a row in a row comes late: the video stands in
place of the paragraph behind it, and its source is the second. -/
theorem video_out_of_order :
    ((Node.parse
        "<table><tr><td><div><tr><td>: a.mp4</td></tr></div><p>: b.mp4</p></td></tr></table>").toOption.bind fun ns =>
      (finish .bare (.element (.of "body" []) ns) []).outcome.1.toOption.map Node.writeInner)
      = some ("<figure class=\"table\"><table><tr><td><div><tr></tr></div><video class=\"reader-lecture\">".toList ++
        "<source src=\"vid/b.mp4\"/><source src=\"vid/a.mp4\"/></video></td></tr></table></figure>".toList) := by
  decide +kernel

end Lectern.Page
