import Lectern.Proofs.Html.Attributes
import Lectern.Proofs.Image.InFolder
import Lectern.Proofs.Walk.Finds

/-!
# The frames of an animation

A paragraph that names a folder gives way to an animation of the files in it, one frame a file, in
the order of their names.  The name of a file goes into the source of its frame with its signs
escaped and its bars doubled, and so it comes back whatever it is.  The path of the folder goes in
as it is written: what is an escape or a bar in it is read as one.

* `frameNode_eq`       a frame in its final form;
* `fileNames`          the files of a folder, by name;
* `animate_eq`         what a paragraph that names a folder of files gives way to;
* `frames_shown`       the frames, and which of them lead to their files;
* `frame_cut`          a folder with a bar in its name.
-/

namespace Lectern.Page
open Text Html

/-! ## one frame -/

/-- A frame in its final form. -/
theorem frameNode_eq (a : Appearance) (folder : Text) (number : Nat) (name : Text) :
    ∃ frame : Tag, frameNode a folder number name = .element frame [] ∧ frame.name = "img".toList ∧
      frame.get? "class" = some "frame".toList ∧ frame.get? "alt" = some (ofNat number) ∧
      (frame.get "src", frame.get? "style") =
        Image.resolve a.settings.imageDir a.fromRoot (Image.source folder name) := by
  have hsource : folder ++ ['/'] ++ percentPath (replaceAll ['|'] ['|', '|'] name) = Image.source folder name := by
    rw [replaceAll_sign, List.append_assoc]
    rfl
  rw [frameNode, hsource, Appearance.finishImage]
  have hget : Tag.get (.made "img" [("class", "frame"), ("src", Image.source folder name), ("alt", ofNat number)])
      "src" = Image.source folder name := rfl
  rw [hget]
  obtain ⟨address, style?⟩ := Image.resolve a.settings.imageDir a.fromRoot (Image.source folder name)
  cases style? with
  | none => exact ⟨_, rfl, rfl, rfl, rfl, rfl⟩
  | some style => exact ⟨_, rfl, rfl, rfl, rfl, rfl⟩

/-! ## all frames -/

/-- The files of a folder, by name. -/
def fileNames (entries : List (Text × FileNode)) : List Text :=
  ((entries.filter (·.2.isFile)).map (·.1)).mergeSort Text.le

theorem fileNames_perm (entries : List (Text × FileNode)) :
    (fileNames entries).Perm ((entries.filter (·.2.isFile)).map (·.1)) := List.mergeSort_perm _ _

theorem fileNames_pairwise (entries : List (Text × FileNode)) :
    (fileNames entries).Pairwise fun s t => Text.le s t = true := by
  have htotal (s t : Text) : (Text.le s t || Text.le t s) = true := Bool.or_eq_true_iff.mpr (Text.le_total s t)
  have htrans (s t u : Text) (h : Text.le s t = true) (h' : Text.le t u = true) : Text.le s u = true :=
    Text.le_trans h h'
  exact List.pairwise_mergeSort htrans htotal _

/-- The paragraph that names a folder with files gives way to their frames. -/
theorem animate_eq {c : Context} {remainder folder : Text} {entries : List (Text × FileNode)}
    (hread : unescape (strip remainder) = .ok folder) (hne : folder ≠ [])
    (hlist : c.files.list c.here ((c.folder.child c.appearance.settings.imageDir).child folder) = .ok entries)
    (hfiles : fileNames entries ≠ []) (tag : Tag) (cs : List Node) (p : Progress) (ms : List Message) :
    animate c tag cs remainder p ms =
      ((.ok (.element (.made "div" [("class", "animation")])
        ((fileNames entries).zipIdx.map fun (name, i) => frameNode c.appearance folder (i + 1) name)), p), ms) := by
  have hremainder : readRemainder remainder p ms = ((.ok folder, p), ms) := by
    rw [readRemainder, hread]
    rfl
  have hnames : frameNames c ((c.folder.child c.appearance.settings.imageDir).child folder) p ms =
      ((.ok (fileNames entries), p), ms) := by
    rw [frameNames, hlist]
    rfl
  rw [animate, bind_of_walk_ok hremainder, if_neg (by simpa using hne)]
  dsimp only
  rw [bind_of_walk_ok hnames, if_neg (by simpa using hfiles)]
  rfl

/-- A paragraph that names a folder with files gives way to an animation of them: one frame a file, numbered in the
order of their names.  The frames lead to their files just where the path of the folder is kept. -/
theorem frames_shown {c : Context} {remainder folder : Text} {entries : List (Text × FileNode)}
    (hread : unescape (strip remainder) = .ok folder) (hne : folder ≠ []) (hrelative : Image.isRelative folder = true)
    (hlist : c.files.list c.here ((c.folder.child c.appearance.settings.imageDir).child folder) = .ok entries)
    (hfiles : entries.any (·.2.isFile) = true) (walk : List Node → Walk (List Node)) (ahead : Bool) (tag : Tag)
    (cs : List Node) (p : Progress) (ms : List Message) :
    ∃ (names : List Text) (frames : List Node), actOn c walk ahead tag cs remainder .animation p ms =
        ((.ok (.element (.made "div" [("class", "animation")]) frames), p), ms) ∧
      names.Perm ((entries.filter (·.2.isFile)).map (·.1)) ∧ names.Pairwise (fun s t => Text.le s t = true) ∧
      frames.length = names.length ∧
      ∀ i (h : i < names.length), ∃ frame : Tag, frames[i]? = some (.element frame []) ∧ frame.name = "img".toList ∧
        frame.get? "class" = some "frame".toList ∧ frame.get? "alt" = some (ofNat (i + 1)) ∧
        (frame.get? "style" = none ∧ percentDecode (frame.get "src") =
            (if c.appearance.fromRoot then ['/'] else []) ++ (c.appearance.settings.imageDir ++ '/' :: folder) ++
              '/' :: names[i] ↔
          Image.Kept c.appearance.settings.imageDir folder) := by
  have hnames : fileNames entries ≠ [] := by
    obtain ⟨e, he, hfile⟩ := List.any_eq_true.mp hfiles
    have hmem : e.1 ∈ fileNames entries :=
      (fileNames_perm entries).mem_iff.mpr (List.mem_map.mpr ⟨e, List.mem_filter.mpr ⟨he, hfile⟩, rfl⟩)
    exact List.ne_nil_of_mem hmem
  refine ⟨_, _, animate_eq hread hne hlist hnames tag cs p ms, fileNames_perm entries, fileNames_pairwise entries,
    by rw [List.length_map, List.length_zipIdx], fun i h => ?_⟩
  obtain ⟨frame, hframe, hname, hclass, halt, haddress⟩ :=
    frameNode_eq c.appearance folder (i + 1) (fileNames entries)[i]
  obtain ⟨hsrc, hstyle⟩ := Prod.mk.inj haddress
  refine ⟨frame, ?_, hname, hclass, halt, ?_⟩
  · rw [List.getElem?_map, List.getElem?_zipIdx, List.getElem?_eq_getElem h, ← hframe]
    simp
  · rw [hsrc, hstyle]
    exact Image.resolve_source_iff _ _ hne hrelative _

/-- A page at the root of its site, with files in a folder of frames. -/
def framed (folder : Text) (names : List Text) : Context where
  appearance := ⟨{}, false, true⟩
  files := ⟨(["img".toList], .folder) :: (["img".toList, folder], .folder) ::
    names.map fun name => (["img".toList, folder, name], .file [])⟩
  here := []
  folder := ⟨[], []⟩

/-- Bars, a percent sign, a blank and a letter of another alphabet in the names of the files. -/
theorem frames_shown_named :
    let c := framed "walk a".toList ["é|1%7C.png".toList, "a b||c.png".toList]
    ∃ (names : List Text) (frames : List Node),
      actOn c pure false (.of "p" []) [] " walk a".toList .animation {} [] =
        ((.ok (.element (.made "div" [("class", "animation")]) frames), {}), []) ∧
      names.Perm ["é|1%7C.png".toList, "a b||c.png".toList] ∧
      ∀ i (h : i < names.length), ∃ frame : Tag, frames[i]? = some (.element frame []) ∧
        frame.get? "style" = none ∧ percentDecode (frame.get "src") = "/img/walk a/".toList ++ names[i] := by
  intro c
  have hkept : Image.Kept "img".toList "walk a".toList :=
    ⟨percentDecode_eq_self_iff.mp (by decide +kernel), percentDecode_eq_self_iff.mp (by decide +kernel), by decide,
      by decide⟩
  have hlist : c.files.list c.here ((c.folder.child c.appearance.settings.imageDir).child "walk a".toList) =
      .ok [("é|1%7C.png".toList, .file []), ("a b||c.png".toList, .file [])] := rfl
  have hread : unescape (strip " walk a".toList) = .ok "walk a".toList := rfl
  obtain ⟨names, frames, hrun, hperm, -, -, hframes⟩ :=
    frames_shown hread (by decide) (by decide) hlist rfl pure false (.of "p" []) [] {} []
  refine ⟨names, frames, hrun, hperm, fun i h => ?_⟩
  obtain ⟨frame, hframe, -, -, -, hleads⟩ := hframes i h
  obtain ⟨hstyle, hsrc⟩ := hleads.mpr hkept
  exact ⟨frame, hframe, hstyle, hsrc⟩

/-- A bar in the name of the folder cuts its path: what follows it becomes a height. -/
theorem frame_cut :
    Image.isRelative "a|b".toList = true ∧
      ∃ frame : Tag,
        actOn (framed "a|b".toList ["f.png".toList]) pure false (.of "p" []) [] "a|b".toList .animation {} [] =
          ((.ok (.element (.made "div" [("class", "animation")]) [.element frame []]), {}), []) ∧
        frame.get "src" = "/img/a".toList ∧ frame.get? "style" = some "max-height: b/f.pngem;".toList := by
  have hlist : (framed "a|b".toList ["f.png".toList]).files.list [] (((⟨[], []⟩ : Path).child "img".toList).child
      "a|b".toList) = .ok [("f.png".toList, .file [])] := rfl
  have hnames : fileNames [("f.png".toList, .file [])] = ["f.png".toList] := List.mergeSort_singleton _
  have hread : unescape (strip "a|b".toList) = .ok "a|b".toList := rfl
  have hrun := animate_eq (c := framed "a|b".toList ["f.png".toList]) hread (by decide) hlist
    (by rw [hnames]; decide) (.of "p" []) [] {} []
  rw [hnames] at hrun
  exact ⟨by decide, _, hrun, by decide +kernel, by decide +kernel⟩

end Lectern.Page
