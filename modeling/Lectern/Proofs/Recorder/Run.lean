import Lectern.Proofs.Reader
import Lectern.Slides.Recorder

/-!
# Runs of a recorder

* `Press`, `Recorder.step`, `Recorder.run`   what the author does, each at a clock reading;
* `pushTime_of_take`, `pushTime_of_idle`   the entry that a step forward adds;
* `next_of_take`          a step forward while a take is running;
* `written_of_complete`   what is handed out in the end;
* `toggle_of_take`        the end of a take;
* `grow`, `markBack`      what a step forward and a step back do before the reader moves;
* `next_after`, `exists_next_after`   what a step forward leaves behind, whatever the clock reads and
                          whatever can be handed out;
* `previous_after`, `toggle_after`   the same for the other steps.
-/

namespace Lectern.Slides
open Quantity

/-- What the author does. -/
inductive Press where
  | forward
  | back
  | toggle
  deriving DecidableEq

namespace Recorder
variable {τ : Type}

theorem navigate_next (r : Recorder τ) :
    (r.navigate r.reader.next?).2 = { r with reader := r.reader.next?.getD r.reader } := by
  cases h : r.reader.next? with
  | none => rfl
  | some reader => rfl

theorem navigate_previous (r : Recorder τ) :
    (r.navigate r.reader.previous?).2 =
      { r with reader := r.reader.previous?.getD r.reader } := by
  cases h : r.reader.previous? with
  | none => rfl
  | some reader => rfl

variable [Quantity τ]

def step (now : τ) (p : Press) (r : Recorder τ) : Step τ Bool :=
  match p with
  | .forward => r.next now
  | .back => r.previous now
  | .toggle => r.toggle now

theorem step_forward (now : τ) (r : Recorder τ) : r.step now .forward = r.next now := rfl
theorem step_back (now : τ) (r : Recorder τ) : r.step now .back = r.previous now := rfl
theorem step_toggle (now : τ) (r : Recorder τ) : r.step now .toggle = r.toggle now := rfl

def run (r : Recorder τ) (presses : List (τ × Press)) : Recorder τ :=
  presses.foldl (fun r (now, p) => (r.step now p).after) r

theorem run_nil (r : Recorder τ) : r.run [] = r := rfl
theorem run_cons (r : Recorder τ) (now : τ) (p : Press) (presses : List (τ × Press)) :
    r.run ((now, p) :: presses) = (r.step now p).after.run presses := rfl
theorem run_append (r : Recorder τ) (before after : List (τ × Press)) :
    r.run (before ++ after) = (r.run before).run after := List.foldl_append
theorem run_concat (r : Recorder τ) (presses : List (τ × Press)) (now : τ) (p : Press) :
    r.run (presses ++ [(now, p)]) = ((r.run presses).step now p).after := run_append ..

theorem pushTime_of_take {r : Recorder τ} {t : Take τ} (ht : r.take = some t) (now : τ) :
    r.pushTime now = { r with
      shift := add r.shift (sub now t.lapStart)
      times := r.times ++ [add r.shift (sub now t.lapStart)]
      take := some (Take.push now (sub now t.lapStart) t) } := by
  rw [pushTime, ht]

theorem pushTime_of_idle {r : Recorder τ} (h : r.take = none) (now : τ) :
    r.pushTime now = { r with times := r.times ++ [undefined] } := by
  rw [pushTime, h]

/-- While a take is running and an entry is missing, a step forward writes the total and goes on. -/
theorem next_of_take {r : Recorder τ} {t : Take τ} (ht : r.take = some t)
    (hlt : r.times.length < r.reader.slides.length) (now : τ) :
    (r.next now).after = { r with
      reader := r.reader.next?.getD r.reader
      shift := add r.shift (sub now t.lapStart)
      times := r.times ++ [add r.shift (sub now t.lapStart)]
      take := some (Take.push now (sub now t.lapStart) t) } := by
  have hrec : r.isRecording = true := by
    rw [isRecording, ht]
    rfl
  have hlt' : r.times.length < r.reader.count := hlt
  rw [next, if_pos hlt']
  simp only [hrec, pushTime_of_take ht now, if_true]
  exact navigate_next _

/-- Once every slide has an entry and a take is closed, what can be written is handed out whole. -/
theorem written_of_complete {r : Recorder τ} (htakes : r.takes.isEmpty = false)
    (hlen : r.times.length = r.reader.slides.length)
    (htimes : ∀ t ∈ r.times, isUndefined t = true ∨ isFinite t = true)
    (hdwells : ∀ t ∈ r.takes.flatten, isFinite t = true) :
    r.written = .ok (some ⟨r.times, r.takes⟩) := by
  have hcomplete : r.isComplete = true := decide_eq_true hlen
  have hexport : r.export? = some ⟨r.times, r.takes⟩ := by
    rw [export?, htakes, hcomplete]
    rfl
  have h1 : r.times.find? (fun t => !isUndefined t && !isFinite t) = none := by
    rw [List.find?_eq_none]
    intro t ht
    rcases htimes t ht with h | h <;> simp [h]
  have h2 : r.takes.flatten.find? (fun t => !isFinite t) = none := by
    rw [List.find?_eq_none]
    intro t ht
    simp [hdwells t ht]
  have hwritable : (⟨r.times, r.takes⟩ : Export τ).unwritable? = none := by
    rw [Export.unwritable?, h1, h2]
    rfl
  rw [written, hexport]
  dsimp only
  rw [hwritable]

theorem flush_of_written {r : Recorder τ} {e : Option (Export τ)} (h : r.written = .ok e) :
    r.flush = ⟨.ok e, r, if r.hasSink then e else none⟩ := by
  rw [flush, h]

/-- The end of a take whose numbers can all be written hands out what there is. -/
theorem toggle_of_take {r : Recorder τ} {t : Take τ} (h : r.take = some t) (now : τ)
    {e : Option (Export τ)}
    (he : { r with takes := r.takes ++ [t.dwells], take := none }.written = .ok e) :
    r.toggle now = ⟨.ok false, { r with takes := r.takes ++ [t.dwells], take := none },
      if r.hasSink then e else none⟩ := by
  rw [toggle, h]
  dsimp only
  rw [flush_of_written he]

/-! ## what each step leaves behind -/

theorem flush_after (r : Recorder τ) : r.flush.after = r := by
  unfold flush
  cases r.written <;> rfl

/-- Nothing is handed out, and nothing can fail, before every slide has an entry. -/
theorem isComplete_of_flush_error {r : Recorder τ} {t : τ} (h : r.flush.answer = .error t) :
    r.isComplete = true := by
  cases hc : r.isComplete with
  | true => rfl
  | false =>
    have hexport : r.export? = none := by
      rw [export?, hc, Bool.not_false, Bool.or_true]
      rfl
    have hwritten : r.written = .ok none := by rw [written, hexport]
    rw [flush_of_written hwritten] at h
    exact nomatch h

theorem pushTime_reader (now : τ) (r : Recorder τ) : (r.pushTime now).reader = r.reader := by
  unfold pushTime
  cases r.take <;> rfl

theorem dropTime_reader (r : Recorder τ) : r.dropTime.reader = r.reader := by
  unfold dropTime
  cases r.times.getLast? <;> rfl

theorem dropTime_take (r : Recorder τ) : r.dropTime.take = r.take := by
  unfold dropTime
  cases r.times.getLast? <;> rfl

theorem dropTime_times (r : Recorder τ) : r.dropTime.times = r.times.dropLast := by
  unfold dropTime
  cases h : r.times.getLast? with
  | none =>
    have hnil := List.getLast?_eq_none_iff.mp h
    show r.times = _
    rw [hnil]
    rfl
  | some t => rfl

/-- The recorder with one more entry, if some slide has none. -/
def grow (now : τ) (r : Recorder τ) : Recorder τ :=
  if r.times.length < r.reader.slides.length then r.pushTime now else r

theorem grow_reader (now : τ) (r : Recorder τ) : (r.grow now).reader = r.reader := by
  unfold grow
  split
  · exact r.pushTime_reader now
  · rfl

/-- A step forward adds an entry and moves on.  It stays where it is if every slide has an entry
then and what there is cannot be handed out. -/
theorem next_after (now : τ) (r : Recorder τ) :
    (r.next now).after = { r.grow now with reader := r.reader.next?.getD r.reader } ∨
      (r.grow now).isComplete = true ∧ (r.next now).after = r.grow now := by
  have hmove : ∀ g : Recorder τ, g.reader = r.reader →
      (g.navigate g.reader.next?).2 = { g with reader := r.reader.next?.getD r.reader } := by
    intro g hg
    rw [navigate_next, hg]
  by_cases hroom : r.times.length < r.reader.slides.length
  · have hgrow : r.grow now = r.pushTime now := if_pos hroom
    have hroom' : r.times.length < r.reader.count := hroom
    rw [hgrow, next, if_pos hroom']
    cases hrec : r.isRecording with
    | true => exact .inl (hmove _ (r.pushTime_reader now))
    | false =>
      obtain ⟨answer, grown, sent, hflush⟩ : ∃ answer grown sent,
        (r.pushTime now).flush = ⟨answer, grown, sent⟩ := ⟨_, _, _, rfl⟩
      have hgrown : grown = r.pushTime now := by
        rw [← flush_after (r.pushTime now), hflush]
      subst hgrown
      simp only [Bool.false_eq_true, if_false, hflush]
      cases answer with
      | error t => exact .inr ⟨isComplete_of_flush_error (t := t) (by rw [hflush]), rfl⟩
      | ok e => exact .inl (hmove _ (r.pushTime_reader now))
  · have hgrow : r.grow now = r := if_neg hroom
    have hroom' : ¬ r.times.length < r.reader.count := hroom
    rw [hgrow, next, if_neg hroom']
    exact .inl (hmove _ rfl)

/-- Whether it moves on or not, a step forward has added its entry. -/
theorem exists_next_after (now : τ) (r : Recorder τ) : ∃ reader : Reader τ,
    reader.slides = r.reader.slides ∧ (r.next now).after = { r.grow now with reader } := by
  rcases r.next_after now with h | ⟨-, h⟩
  · exact ⟨_, Reader.slides_next?_getD r.reader, h⟩
  · exact ⟨(r.grow now).reader, by rw [grow_reader], h⟩

/-- The recorder after the time spent is noted down in the running take, as going back. -/
def markBack (now : τ) (r : Recorder τ) : Recorder τ :=
  { r with take := r.take.map fun t => Take.push now (neg (sub now t.lapStart)) t }

theorem previous_after (now : τ) (r : Recorder τ) :
    (r.previous now).after =
      { (r.markBack now).dropTime with reader := r.reader.previous?.getD r.reader } := by
  have hmove : (r.previous now).after = ((r.markBack now).dropTime.navigate
      (r.markBack now).dropTime.reader.previous?).2 := by
    obtain ⟨reader, times, shift, take, takes, hasSink⟩ := r
    cases take <;> rfl
  rw [hmove, navigate_previous, dropTime_reader]
  rfl

/-- Starting and closing a take leaves everything else as it is. -/
theorem toggle_after (now : τ) (r : Recorder τ) :
    (r.toggle now).after = match r.take with
      | none => { r with take := some { lapStart := now } }
      | some t => { r with takes := r.takes ++ [t.dwells], take := none } := by
  unfold toggle
  cases r.take with
  | none => rfl
  | some t =>
    have hafter := ({ r with takes := r.takes ++ [t.dwells], take := none } :
      Recorder τ).flush_after
    revert hafter
    dsimp only
    rcases flush _ with ⟨answer, closed, sent⟩
    rintro rfl
    cases answer <;> rfl

/-- No step exchanges the slides. -/
theorem slides_step (now : τ) (p : Press) (r : Recorder τ) :
    (r.step now p).after.reader.slides = r.reader.slides := by
  cases p with
  | forward =>
    obtain ⟨reader, hslides, h⟩ := r.exists_next_after now
    rw [step_forward, h]
    exact hslides
  | back =>
    rw [step_back, previous_after]
    exact Reader.slides_previous?_getD r.reader
  | toggle =>
    rw [step_toggle, toggle_after]
    cases r.take <;> rfl

theorem slides_run (r : Recorder τ) (presses : List (τ × Press)) :
    (r.run presses).reader.slides = r.reader.slides := by
  induction presses generalizing r with
  | nil => rfl
  | cons step presses ih => exact (ih _).trans (slides_step step.1 step.2 r)

end Recorder
end Lectern.Slides
