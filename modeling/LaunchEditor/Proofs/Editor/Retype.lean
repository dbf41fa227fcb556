import LaunchEditor.Proofs.Editor.Commit

/-! # Editing a parameter to a text

An edit takes a key that begins it, keys that work on its line, and Enter. Whatever these are, what
they do to the editor is to put the text that the line ends up with into the selected parameter.
-/
namespace LaunchEditor

/-- Characters typed at the end of a line are added to it. -/
theorem Edit.foldl_type_char {cs : List Char} (hcs : ∀ c ∈ cs, Printable c) (l : List Char)
    (segments : Option (List String)) :
    (cs.map Key.char).foldl type ⟨⟨l, l.length⟩, segments⟩ =
      ⟨⟨l ++ cs, (l ++ cs).length⟩, segments⟩ := by
  induction cs generalizing l with
  | nil => simp
  | cons c cs ih =>
    obtain ⟨hc, hcs⟩ := List.forall_mem_cons.mp hcs
    have hinsertable := (printable_iff_isInsertable c).mp hc
    have hinsert : type ⟨⟨l, l.length⟩, segments⟩ (.char c) =
        ⟨⟨l ++ [c], (l ++ [c]).length⟩, segments⟩ := by
      simp [type, hinsertable, LineBuffer.insert]
    rw [List.map_cons, List.foldl_cons, hinsert, ih hcs, List.append_assoc]
    rfl

namespace Editor

theorem update_type {e : Editor} {edit : Edit} (he : e.edit = some edit) {k : Key}
    (hk : k ∉ editKeys) :
    e.update (.key k) = ({ e with edit := some (edit.type k) }, .stay) := by
  simp only [update, he]
  cases k with
  | enter | tab | escape | interrupt => simp [editKeys] at hk
  | _ => rfl

theorem run_type {e : Editor} {edit : Edit} (he : e.edit = some edit) {ks : List Key}
    (hks : ∀ k ∈ ks, k ∉ editKeys) :
    e.run (ks.map .key) = { e with edit := some (ks.foldl Edit.type edit) } := by
  induction ks generalizing e edit with
  | nil =>
    rw [List.foldl_nil, ← he]
    rfl
  | cons k ks ih =>
    obtain ⟨hk, hks⟩ := List.forall_mem_cons.mp hks
    rw [List.map_cons, run_cons, update_type he hk, ih rfl hks]
    rfl

theorem update_begin {e : Editor} {p : Parameter} (he : e.edit = none) (hp : e.current? = some p)
    {c : Char} (hc : Key.isEditStart c = true) :
    e.update (.key (.char c)) = ({ e with edit := some (.start c p.segments?) }, .stay) := by
  simp [update, he, browse, hc, beginEdit, hp]

/-- An edit goes on with what was typed so far. -/
theorem run_begin {e : Editor} {p : Parameter} (he : e.edit = none) (hp : e.current? = some p)
    {c : Char} (hc : Key.isEditStart c = true) {ks : List Key} (hks : ∀ k ∈ ks, k ∉ editKeys) :
    e.run ((Key.char c :: ks).map .key) =
      { e with edit := some (ks.foldl Edit.type (.start c p.segments?)) } := by
  rw [List.map_cons, run_cons, update_begin he hp hc, run_type rfl hks]

/-- Editing the selected parameter to `t` and confirming that leads from `e` to `f`. -/
def Edits (e : Editor) (t : String) (f : Editor) : Prop :=
  e.edit = none ∧ ∃ c ks, Key.isEditStart c = true ∧ (∀ k ∈ ks, k ∉ editKeys) ∧
    let live := e.run ((Key.char c :: ks).map .key)
    live.edit.map (·.buffer) = some t ∧ (live.update (.key .enter)).1 = f

namespace Edits
variable {e f : Editor} {t : String} {p : Parameter} (hs : e.Edits t f) (h : e.Consistent)
  (hp : e.current? = some p)
include hs h hp

theorem eq : f = { e with parameters := e.parameters.modify e.selected (·.put t) } := by
  obtain ⟨he, c, ks, hc, hks, hline, rfl⟩ := hs
  have hlive : (e.run ((Key.char c :: ks).map .key)).Consistent :=
    run_preserves (fun h hs => h.step hs) h _
  rw [run_begin he hp hc hks] at hline hlive ⊢
  obtain rfl := Option.some.inj hline
  have hcommit := hlive.commitEdit_eq rfl
  rw [← he] at hcommit
  exact hcommit

theorem edit_eq_none : f.edit = none := by
  rw [hs.eq h hp]
  exact hs.1

theorem selected_eq : f.selected = e.selected := by
  rw [hs.eq h hp]

theorem current? : f.current? = some (p.put t) := by
  have hp' : e.parameters[e.selected]? = some p := hp
  rw [hs.eq h hp]
  simp [Editor.current?, hp']

theorem consistent : f.Consistent where
  selected := by
    rw [hs.eq h hp]
    simpa [← List.length_eq_zero_iff] using h.selected
  edit := by simp [hs.edit_eq_none h hp]

end Edits

/-- Any printable text can be typed, since what was typed first can be deleted. -/
theorem exists_edits {e : Editor} {p : Parameter} (he : e.edit = none) (hp : e.current? = some p)
    {t : String} (ht : ∀ c ∈ t.toList, Printable c) : ∃ f, e.Edits t f := by
  let ks : List Key := .backspace :: t.toList.map .char
  have hstart : Key.isEditStart 'a' = true := by decide
  have hks : ∀ k ∈ ks, k ∉ editKeys := by
    simp [ks, editKeys]
  have hline : ks.foldl Edit.type (.start 'a' p.segments?) =
      ⟨⟨t.toList, t.toList.length⟩, p.segments?⟩ := Edit.foldl_type_char ht [] p.segments?
  refine ⟨_, he, 'a', ks, hstart, hks, ?_, rfl⟩
  rw [run_begin he hp hstart hks, hline]
  simp [Edit.buffer]

end Editor
end LaunchEditor
