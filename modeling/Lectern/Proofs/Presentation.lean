import Lectern.Proofs.Lecture.Session
import Lectern.Proofs.Recorder.Run
import Lectern.Proofs.Times
import Lectern.Slides.Presentation

/-!
# What the answer to a key says

A key is answered by yes or no.  In a lecture the answer tells whether anything is different
afterwards.  In a rehearsal it is the answer of the reader, while the recorder edits its entries
before it asks; so at either end of the slides it may edit them and say no.

* `Presentation.state`          all that a key can change;
* `Presentation.EditsInPlace`   a key that edits what is recorded although the reader cannot move;
* `press_answer`                yes means a change, and no means none unless the key edits in place;
* `press_right_edits`           one slide, and an entry written by a key that is answered no.
-/

namespace Lectern.Slides
open Quantity

variable {τ : Type}

set_option linter.unusedSectionVars false

variable [Quantity τ]

/-! ## steps of a recorder and their answers -/

namespace Recorder

/-- The answer of a step forward is the reader's, and it is given when the entry has been written. -/
theorem next_of_answer {now : τ} {r : Recorder τ} {b : Bool} (h : (r.next now).answer = .ok b) :
    b = r.reader.next?.isSome ∧
      (r.next now).after = { r.grow now with reader := r.reader.next?.getD r.reader } ∧
      (r.reader.slides.length ≤ r.times.length → (r.next now).sent = none) := by
  have hmove : ∀ g : Recorder τ, g.reader = r.reader →
      g.navigate g.reader.next? = (r.reader.next?.isSome,
        { g with reader := r.reader.next?.getD r.reader }) := by
    intro g hg
    rw [hg]
    cases hn : r.reader.next? with
    | none => simp [navigate, ← hg]
    | some reader => rfl
  by_cases hroom : r.times.length < r.reader.slides.length
  · have hgrow : r.grow now = r.pushTime now := if_pos hroom
    have hroom' : r.times.length < r.reader.count := hroom
    have hreader := hmove (r.pushTime now) (r.pushTime_reader now)
    have hnofit : ¬ r.reader.slides.length ≤ r.times.length := Nat.not_le.mpr hroom
    rw [hgrow]
    rw [next, if_pos hroom'] at h ⊢
    cases hrec : r.isRecording with
    | true =>
      simp only [hrec, if_true, hreader] at h ⊢
      exact ⟨(Except.ok.inj h).symm, trivial, fun _ => trivial⟩
    | false =>
      obtain ⟨answer, grown, sent, hflush⟩ : ∃ answer grown sent,
        (r.pushTime now).flush = ⟨answer, grown, sent⟩ := ⟨_, _, _, rfl⟩
      have hgrown : grown = r.pushTime now := by
        rw [← flush_after (r.pushTime now), hflush]
      subst hgrown
      simp only [hrec, Bool.false_eq_true, if_false, hflush] at h ⊢
      cases answer with
      | error t => cases h
      | ok e =>
        simp only [hreader] at h ⊢
        exact ⟨(Except.ok.inj h).symm, trivial, fun hfit => absurd hfit hnofit⟩
  · have hgrow : r.grow now = r := if_neg hroom
    have hroom' : ¬ r.times.length < r.reader.count := hroom
    rw [hgrow]
    rw [next, if_neg hroom'] at h ⊢
    simp only [hmove r rfl] at h ⊢
    exact ⟨(Except.ok.inj h).symm, trivial, fun _ => trivial⟩

/-- A step back is always answered, and nothing is handed out. -/
theorem previous_eq (now : τ) (r : Recorder τ) :
    r.previous now = ⟨.ok r.reader.previous?.isSome,
      { (r.markBack now).dropTime with reader := r.reader.previous?.getD r.reader }, none⟩ := by
  have hanswer : (r.previous now).answer = .ok r.reader.previous?.isSome := by
    obtain ⟨reader, times, shift, take, takes, hasSink⟩ := r
    have hreader : (markBack now ⟨reader, times, shift, take, takes, hasSink⟩).dropTime.reader
        = reader := dropTime_reader _
    have hmove : (previous now ⟨reader, times, shift, take, takes, hasSink⟩).answer
        = .ok ((markBack now ⟨reader, times, shift, take, takes, hasSink⟩).dropTime.navigate
            (markBack now ⟨reader, times, shift, take, takes, hasSink⟩).dropTime.reader.previous?).1 := by
      cases take <;> rfl
    rw [hmove, hreader]
    cases reader.previous? <;> rfl
  have hsent : (r.previous now).sent = none := rfl
  have hafter := r.previous_after now
  revert hanswer hsent hafter
  rcases r.previous now with ⟨answer, after, sent⟩
  rintro rfl rfl rfl
  rfl

/-- A step forward leaves one entry more behind where one is missing. -/
theorem grow_times_ne {r : Recorder τ} (hroom : r.times.length < r.reader.slides.length) (now : τ) :
    (r.grow now).times ≠ r.times := by
  intro h
  rw [grow, if_pos hroom] at h
  have hlength := congrArg List.length h
  cases ht : r.take with
  | none =>
    rw [pushTime_of_idle ht] at hlength
    simp at hlength
  | some t =>
    rw [pushTime_of_take ht] at hlength
    simp at hlength

/-- A step back notes its dwell in the running take, and takes the latest entry away. -/
theorem markBack_dropTime_ne {r : Recorder τ} (h : r.isRecording = true ∨ r.times ≠ []) (now : τ) :
    (r.markBack now).dropTime.take ≠ r.take ∨ (r.markBack now).dropTime.times ≠ r.times := by
  rcases h with h | h
  · refine .inl fun e => ?_
    rw [dropTime_take] at e
    obtain ⟨t, ht⟩ := Option.isSome_iff_exists.mp h
    rw [markBack, ht] at e
    have hlength := congrArg (fun t : Take τ => t.dwells.length) (Option.some.inj e)
    simp [Take.push] at hlength
  · refine .inr fun e => ?_
    rw [dropTime_times] at e
    have hlength := congrArg List.length e
    have hpos := List.length_pos_iff.mpr h
    have hmark : (r.markBack now).times = r.times := rfl
    rw [hmark, List.length_dropLast] at hlength
    omega

/-- With no take running and no entry a step back has nothing to edit. -/
theorem markBack_dropTime_eq {r : Recorder τ} (hidle : ¬ r.isRecording = true) (hnil : r.times = [])
    (now : τ) : (r.markBack now).dropTime = r := by
  have htake : r.take = none := by
    cases ht : r.take with
    | none => rfl
    | some t => exact absurd (by rw [isRecording, ht]; rfl) hidle
  obtain ⟨reader, times, shift, take, takes, hasSink⟩ := r
  obtain rfl : take = none := htake
  obtain rfl : times = [] := hnil
  rfl

end Recorder

/-! ## keys -/

namespace Presentation

/-- All that a key can change: the shown slide; in a lecture what is known of seeks, the stamp and
the video; in a rehearsal the entries, the running total, the running take with its lap, and the
closed takes. -/
inductive State (τ : Type) where
  | still
  | lecture (index : Nat) (phase : Phase) (stamp : Bool) (media : Media τ)
  | rehearsal (index : Nat) (times : List τ) (shift : τ) (take : Option (Take τ))
      (takes : List (List τ))

def state (p : Presentation τ) : State τ :=
  match p.mode with
  | .still => .still
  | .lecture l => .lecture l.reader.index l.phase l.stamp l.media
  | .rehearsal r => .rehearsal r.reader.index r.times r.shift r.take r.takes

/-- The key edits what is recorded although the reader cannot move: forward from the last slide
while an entry is missing, or back from the first one while there is an entry to take away or a take
to note the step in. -/
def EditsInPlace (p : Presentation τ) (key : Option Key) : Prop :=
  ∃ r, p.mode = .rehearsal r ∧
    ((key = some .right ∧ r.reader.isLast = true ∧ r.times.length < r.reader.count) ∨
      (key = some .left ∧ r.reader.index = 0 ∧ (r.isRecording = true ∨ r.times ≠ [])))

/-- What the answer to a key says of what the key did. -/
structure Press.Tells (s : Press τ) (p : Presentation τ) (edits : Prop) : Prop where
  yes : s.answer = .ok true → s.after.state ≠ p.state ∧ ¬ edits
  no : s.answer = .ok false → ¬ edits → s.after = p ∧ s.sent = none
  edited : s.answer = .ok false → edits → s.after.state ≠ p.state

variable {p : Presentation τ}

theorem not_editsInPlace {key : Option Key} (h : ∀ r, p.mode ≠ .rehearsal r) :
    ¬ p.EditsInPlace key := by
  rintro ⟨r, hr, -⟩
  exact h r hr

/-- Only a step forward or back can edit in place. -/
theorem not_editsInPlace_of_key {key : Option Key} (hleft : key ≠ some .left) (hright : key ≠ some .right) :
    ¬ p.EditsInPlace key := by
  rintro ⟨r, -, ⟨hkey, -⟩ | ⟨hkey, -⟩⟩
  · exact hright hkey
  · exact hleft hkey

/-- A key that does nothing says so. -/
theorem tells_idle {edits : Prop} (h : ¬ edits) :
    Press.Tells { answer := .ok false, after := p } p edits where
  yes hyes := nomatch hyes
  no _ _ := ⟨rfl, rfl⟩
  edited _ he := absurd he h

/-- In a lecture the reader moves or everything stays. -/
theorem tells_navigate {l : Lecture τ} (hp : p.mode = .lecture l) {e : Event}
    {move : Option (Reader τ)} (he : l.handle e = (l.navigate move).map some id)
    (hmove : ∀ r, move = some r → r.index ≠ l.reader.index) {edits : Prop} (h : ¬ edits) :
    (p.ofEvent l e).Tells p edits := by
  rw [ofEvent, he]
  cases hm : move with
  | none =>
    refine .mk (fun hyes => nomatch hyes) (fun _ _ => ⟨?_, rfl⟩) (fun _ he => absurd he h)
    show { p with mode := .lecture l } = p
    rw [← hp]
  | some r =>
    refine .mk (fun _ => ⟨fun hstate => ?_, h⟩) (fun hno => nomatch hno) (fun hno => nomatch hno)
    rw [state, state, hp] at hstate
    have hindex : (l.followMove r).reader.index = l.reader.index := (State.lecture.inj hstate).1
    rw [Lecture.followMove_reader] at hindex
    exact hmove r hm hindex

theorem tells_lecture {l : Lecture τ} (hp : p.mode = .lecture l) (now : τ) (key : Option Key) :
    (p.press now key).Tells p (p.EditsInPlace key) := by
  have hedits : ¬ p.EditsInPlace key := by
    apply not_editsInPlace
    intro r hr
    rw [hp] at hr
    exact nomatch hr
  obtain ⟨page, mode, animations⟩ := p
  obtain rfl : mode = .lecture l := hp
  cases key with
  | none => exact tells_idle hedits
  | some key =>
    cases key with
    | left =>
      have hhandle : l.handle .previous = (l.navigate l.reader.previous?).map some id := rfl
      refine tells_navigate rfl hhandle ?_ hedits
      intro r hr
      have := Reader.index_of_previous? hr
      omega
    | right =>
      have hhandle : l.handle .next = (l.navigate l.reader.next?).map some id := rfl
      refine tells_navigate rfl hhandle ?_ hedits
      intro r hr
      have := Reader.index_of_next? hr
      omega
    | record => exact tells_idle hedits

theorem answer_ofStep {r : Recorder τ} {s : Step τ Bool} {f : Bool → Bool} {b : Bool}
    (h : (p.ofStep r s f).answer = .ok b) : ∃ c, s.answer = .ok c ∧ f c = b := by
  obtain ⟨answer, after, sent⟩ := s
  cases answer with
  | error t => exact nomatch h
  | ok c => exact ⟨c, rfl, Except.ok.inj h⟩

section
variable {r : Recorder τ} (hp : p.mode = .rehearsal r)
include hp

theorem state_rehearsal : p.state = .rehearsal r.reader.index r.times r.shift r.take r.takes := by
  rw [state, hp]

theorem editsInPlace_right_iff :
    p.EditsInPlace (some .right) ↔ r.reader.isLast = true ∧ r.times.length < r.reader.count := by
  constructor
  · rintro ⟨r', hr', ⟨-, h⟩ | ⟨hkey, -⟩⟩
    · obtain rfl := Mode.rehearsal.inj (hp.symm.trans hr')
      exact h
    · exact nomatch hkey
  · intro h
    exact ⟨r, hp, .inl ⟨rfl, h⟩⟩

theorem editsInPlace_left_iff :
    p.EditsInPlace (some .left) ↔
      r.reader.index = 0 ∧ (r.isRecording = true ∨ r.times ≠ []) := by
  constructor
  · rintro ⟨r', hr', ⟨hkey, -⟩ | ⟨-, h⟩⟩
    · exact nomatch hkey
    · obtain rfl := Mode.rehearsal.inj (hp.symm.trans hr')
      exact h
  · intro h
    exact ⟨r, hp, .inr ⟨rfl, h⟩⟩

theorem press_right (now : τ) : p.press now (some .right) = p.ofStep r (r.next now) := by
  simp only [press, hp]

theorem press_left (now : τ) : p.press now (some .left) = p.ofStep r (r.previous now) := by
  simp only [press, hp]

theorem press_record (now : τ) :
    p.press now (some .record) = p.ofStep r (r.toggle now) fun _ => true := by
  simp only [press, hp]

/-- Forward: the reader moves, or an entry is written on the last slide, or everything stays. -/
theorem tells_right (now : τ) : (p.press now (some .right)).Tells p (p.EditsInPlace (some .right)) := by
  rw [press_right hp, editsInPlace_right_iff hp]
  have hstep : ∀ b, (p.ofStep r (r.next now)).answer = .ok b → (r.next now).answer = .ok b := by
    intro b hb
    obtain ⟨c, hc, rfl⟩ := answer_ofStep hb
    exact hc
  constructor
  · intro hyes
    obtain ⟨hmoved, hafter, -⟩ := Recorder.next_of_answer (hstep true hyes)
    obtain ⟨reader, hreader⟩ := Option.isSome_iff_exists.mp hmoved.symm
    have hindex := Reader.index_of_next? hreader
    refine ⟨fun hstate => ?_, fun hedits => ?_⟩
    · rw [state_rehearsal hp, state_rehearsal (p := (p.ofStep r (r.next now)).after) rfl, hafter,
        hreader] at hstate
      have hsame : reader.index = r.reader.index := (State.rehearsal.inj hstate).1
      omega
    · rw [(r.reader.next?_eq_none_iff).mpr hedits.1] at hreader
      exact nomatch hreader
  · intro hno hkeeps
    obtain ⟨hstayed, hafter, hsent⟩ := Recorder.next_of_answer (hstep false hno)
    have hnone : r.reader.next? = none := by simpa using hstayed.symm
    have hfull : ¬ r.times.length < r.reader.slides.length := fun hroom =>
      hkeeps ⟨(r.reader.next?_eq_none_iff).mp hnone, hroom⟩
    refine ⟨?_, hsent (Nat.not_lt.mp hfull)⟩
    show { p with mode := .rehearsal (r.next now).after } = p
    rw [hafter, hnone, Recorder.grow, if_neg hfull]
    show { p with mode := .rehearsal r } = p
    rw [← hp]
  · intro hno hedits hstate
    obtain ⟨-, hafter, -⟩ := Recorder.next_of_answer (hstep false hno)
    rw [state_rehearsal hp, state_rehearsal (p := (p.ofStep r (r.next now)).after) rfl, hafter]
      at hstate
    exact Recorder.grow_times_ne hedits.2 now (State.rehearsal.inj hstate).2.1

/-- Back: the reader moves, or an entry or a dwell is edited on the first slide, or everything
stays. -/
theorem tells_left (now : τ) : (p.press now (some .left)).Tells p (p.EditsInPlace (some .left)) := by
  rw [press_left hp, editsInPlace_left_iff hp, Recorder.previous_eq]
  constructor
  · intro hyes
    have hmoved : r.reader.previous?.isSome = true := Except.ok.inj hyes
    obtain ⟨reader, hreader⟩ := Option.isSome_iff_exists.mp hmoved
    have hindex := Reader.index_of_previous? hreader
    refine ⟨fun hstate => ?_, fun hedits => ?_⟩
    · rw [state_rehearsal hp, hreader] at hstate
      have hsame : reader.index = r.reader.index := (State.rehearsal.inj hstate).1
      omega
    · rw [(r.reader.previous?_eq_none_iff).mpr hedits.1] at hreader
      exact nomatch hreader
  · intro hno hkeeps
    have hstayed : r.reader.previous?.isSome = false := Except.ok.inj hno
    have hnone : r.reader.previous? = none := by simpa using hstayed
    have hnothing : ¬ (r.isRecording = true ∨ r.times ≠ []) := fun h =>
      hkeeps ⟨(r.reader.previous?_eq_none_iff).mp hnone, h⟩
    rw [not_or, not_not] at hnothing
    refine ⟨?_, rfl⟩
    show { p with mode := .rehearsal { (r.markBack now).dropTime with
      reader := r.reader.previous?.getD r.reader } } = p
    rw [Recorder.markBack_dropTime_eq hnothing.1 hnothing.2, hnone]
    show { p with mode := .rehearsal r } = p
    rw [← hp]
  · intro hno hedits hstate
    rw [state_rehearsal hp] at hstate
    obtain ⟨-, htimes, -, htake, -⟩ := State.rehearsal.inj hstate
    rcases Recorder.markBack_dropTime_ne hedits.2 now with h | h
    · exact h htake
    · exact h htimes

/-- A take is started, or closed and kept. -/
theorem tells_record (now : τ) :
    (p.press now (some .record)).Tells p (p.EditsInPlace (some .record)) := by
  have hedits : ¬ p.EditsInPlace (some .record) := not_editsInPlace_of_key (by decide) (by decide)
  have hnever : (p.press now (some .record)).answer ≠ .ok false := by
    intro hno
    rw [press_record hp] at hno
    obtain ⟨_, -, h⟩ := answer_ofStep hno
    exact nomatch h
  refine .mk (fun _ => ⟨fun hstate => ?_, hedits⟩) (fun hno => absurd hno hnever)
    (fun hno => absurd hno hnever)
  rw [press_record hp, state_rehearsal hp,
    state_rehearsal (p := (p.ofStep r (r.toggle now) fun _ => true).after) rfl,
    Recorder.toggle_after] at hstate
  cases ht : r.take with
  | none =>
    simp only [ht] at hstate
    obtain ⟨-, -, -, htake, -⟩ := State.rehearsal.inj hstate
    exact nomatch htake
  | some t =>
    simp only [ht] at hstate
    obtain ⟨-, -, -, htake, -⟩ := State.rehearsal.inj hstate
    exact nomatch htake

theorem tells_rehearsal (now : τ) (key : Option Key) :
    (p.press now key).Tells p (p.EditsInPlace key) := by
  cases key with
  | none =>
    have hedits : ¬ p.EditsInPlace none := not_editsInPlace_of_key nofun nofun
    have hpress : p.press now none = { answer := .ok false, after := p } := by
      simp only [press, hp]
    rw [hpress]
    exact tells_idle hedits
  | some key =>
    cases key with
    | left => exact tells_left hp now
    | right => exact tells_right hp now
    | record => exact tells_record hp now

end

/-- **A key press that is answered yes has changed something, and one that is answered no has changed
nothing, unless it edited in place.**  Of any presentation, whatever led to it, with any key at any
clock reading.  What is recorded can be edited in place only at an end of the slides of a rehearsal:
from the last slide forward while an entry is missing, from the first one back while there is an entry
or a running take; such a key is never answered yes, and where it is answered no, it has changed
something all the same. -/
theorem press_answer (now : τ) (key : Option Key) (p : Presentation τ) :
    ((p.press now key).answer = .ok true →
      (p.press now key).after.state ≠ p.state ∧ ¬ p.EditsInPlace key) ∧
    ((p.press now key).answer = .ok false → ¬ p.EditsInPlace key →
      (p.press now key).after = p ∧ (p.press now key).sent = none) ∧
    ((p.press now key).answer = .ok false → p.EditsInPlace key →
      (p.press now key).after.state ≠ p.state) := by
  have htells : (p.press now key).Tells p (p.EditsInPlace key) := by
    cases hp : p.mode with
    | still =>
      have hpress : p.press now key = { answer := .ok false, after := p } := by
        cases key <;> simp only [press, hp]
      rw [hpress]
      apply tells_idle
      apply not_editsInPlace
      intro r hr
      rw [hp] at hr
      exact nomatch hr
    | lecture l => exact tells_lecture hp now key
    | rehearsal r => exact tells_rehearsal hp now key
  exact ⟨htells.yes, htells.no, htells.edited⟩

/-- A page with nothing but one slide. -/
def oneSlide : List Html.Node := [.element (.of "div" [("class", "slide")]) [.text ['a']]]

/-- One slide, just shown, and a step forward from it.  The key is answered no, and yet the slide has
an entry. -/
theorem press_right_edits :
    ∃ p notes,
      (start (.num 0 : Exact ℚ) (fun _ => .undefined) true [] oneSlide).outcome = (.ok p, notes) ∧
      (p.press (.num 1) (some .right)).answer = .ok false ∧
      p.state = .rehearsal 0 [] (.num 0) none [] ∧
      (p.press (.num 1) (some .right)).after.state = .rehearsal 0 [.undefined] (.num 0) none [] :=
  ⟨_, _, rfl, rfl, rfl, rfl⟩

/-- The same page in a take, where a step back is answered no and leaves its dwell in the take; and
outside any take, where it is answered no and leaves nothing. -/
theorem press_answer_one_slide :
    ∃ p notes,
      (start (.num 0 : Exact ℚ) (fun _ => .undefined) true [] oneSlide).outcome = (.ok p, notes) ∧
      (p.press (.num 1) (some .record)).after.state ≠ p.state ∧
      (p.press (.num 1) (some .left)).after = p ∧
      ((p.press (.num 1) (some .record)).after.press (.num 3) (some .left)).after.state
        ≠ (p.press (.num 1) (some .record)).after.state := by
  obtain ⟨p, notes, hstart⟩ : ∃ p notes,
    (start (.num 0 : Exact ℚ) (fun _ => .undefined) true [] oneSlide).outcome = (.ok p, notes) :=
    ⟨_, _, rfl⟩
  obtain rfl : _ = p := Except.ok.inj (Prod.mk.inj hstart).1
  refine ⟨_, notes, hstart, ?_, ?_, ?_⟩
  · exact ((press_answer (Exact.num 1) (some .record) _).1 rfl).1
  · refine ((press_answer (Exact.num 1) (some .left) _).2.1 rfl ?_).1
    rintro ⟨r, hr, ⟨hkey, -⟩ | ⟨-, -, htake | htimes⟩⟩
    · exact nomatch hkey
    · obtain rfl : _ = r := Mode.rehearsal.inj hr
      exact nomatch htake
    · obtain rfl : _ = r := Mode.rehearsal.inj hr
      exact htimes rfl
  · refine (press_answer (Exact.num 3) (some .left) _).2.2 rfl ?_
    exact ⟨_, rfl, .inr ⟨rfl, rfl, .inl rfl⟩⟩

end Presentation
end Lectern.Slides
