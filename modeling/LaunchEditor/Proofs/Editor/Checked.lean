import LaunchEditor.Editor.Frame
import LaunchEditor.Proofs.Editor.Consistent
import LaunchEditor.Proofs.Text.Offset

/-! # The editor with every index checked

The editor and its frame once more, as operations that fail where an index is out of bounds: a byte
offset that is no boundary between characters of the line, a cursor past its end, a difference
below zero, a remainder by zero, a segment that is not there. No state of a run lets one of them
fail, and none gives another result than the editor.
-/
namespace LaunchEditor

def difference? (a b : Nat) : Option Nat := if b ≤ a then some (a - b) else none

def remainder? (a b : Nat) : Option Nat := if b = 0 then none else some (a % b)

def firstSegments? (segments : List String) (n : Nat) : Option (List String) :=
  if n ≤ segments.length then some (segments.take n) else none

namespace LineBuffer

def size (b : LineBuffer) : Nat := Text.byteLength b.text

def assertCursor (b : LineBuffer) : Option LineBuffer := if b.cursor ≤ b.size then some b else none

def insert? (b : LineBuffer) (c : Char) : Option LineBuffer := do
  let text ← Text.insertAt? b.text b.cursor c
  assertCursor ⟨text, b.cursor + c.utf8Size⟩

def deleteLeft? (b : LineBuffer) : Option LineBuffer :=
  if b.cursor = 0 then some b
  else do
    let cursor ← difference? b.cursor 1
    let text ← Text.removeAt? b.text cursor
    assertCursor ⟨text, cursor⟩

def moveLeft? (b : LineBuffer) : Option LineBuffer := b.moveLeft.assertCursor

def moveRight? (b : LineBuffer) : Option LineBuffer :=
  assertCursor { b with cursor := min (b.cursor + 1) b.size }

end LineBuffer

namespace Edit

def start? (c : Char) (segments : Option (List String)) : Option Edit := do
  return ⟨← LineBuffer.empty.insert? c, segments⟩

def type? (e : Edit) (key : Key) : Option Edit :=
  match key with
  | .backspace => return { e with line := ← e.line.deleteLeft? }
  | .left => return { e with line := ← e.line.moveLeft? }
  | .right => return { e with line := ← e.line.moveRight? }
  | .char c =>
    if Key.isInsertable c then return { e with line := ← e.line.insert? c } else return e
  | _ => return e

def surroundings? (e : Edit) (k : ParameterKind) : Option (String × String) :=
  match e.segments, k.separator? with
  | some segments, some sep => do
    let editable := min k.editable segments.length
    let lead ← firstSegments? segments editable
    return (String.join (lead.map (· ++ String.singleton sep)),
      String.join ((segments.drop (editable + 1)).map (String.singleton sep ++ ·)))
  | _, _ => return ("", "")

/-- The texts before, under and after the cursor, which covers a blank at the end of the line. -/
def cells? (b : LineBuffer) : Option (List Char × List Char × List Char) := do
  let cursor := min b.cursor b.size
  let before ← Text.slice? b.text 0 cursor
  if cursor < b.size then
    return (before, ← Text.slice? b.text cursor (cursor + 1),
      ← Text.slice? b.text (cursor + 1) b.size)
  else return (before, [' '], [])

def token? (e : Edit) (k : ParameterKind) (theme : Terminal.Theme) : Option Token := do
  let (lead, trail) ← e.surroundings? k
  let (before, under, after) ← cells? e.line
  let before := String.ofList before
  let under := String.ofList under
  let after := String.ofList after
  return {
    plain := k.flag ++ " " ++ lead ++ before ++ under ++ after ++ trail
    styled := k.flag ++ " " ++ theme.paint .dim lead ++ theme.paint .highlight before ++
      theme.paint .cursor under ++ theme.paint .highlight after ++ theme.paint .dim trail }

end Edit

namespace Editor

def selectPrevious? (e : Editor) : Option Editor :=
  if e.parameters = [] then return e
  else if e.selected = 0 then return { e with selected := ← difference? e.parameters.length 1 }
  else return { e with selected := ← difference? e.selected 1 }

def selectNext? (e : Editor) : Option Editor :=
  if e.parameters = [] then return e
  else return { e with selected := ← remainder? (e.selected + 1) e.parameters.length }

def beginEdit? (e : Editor) (c : Char) : Option Editor :=
  match e.current? with
  | none => return e
  | some p => return { e with edit := ← Edit.start? c p.segments? }

def browse? (e : Editor) : Key → Option (Editor × Transition)
  | .escape | .interrupt | .enter => return (e, .quit)
  | .left | .up | .backTab => return (← e.selectPrevious?, .stay)
  | .right | .down | .tab => return (← e.selectNext?, .stay)
  | .char c => if Key.isEditStart c then return (← e.beginEdit? c, .stay) else return (e, .stay)
  | _ => return (e, .stay)

def continueEdit? (e : Editor) (edit : Edit) : Key → Option (Editor × Transition)
  | .enter => return (e.commitEdit, .stay)
  | .tab => return (← e.commitEdit.selectNext?, .stay)
  | .escape => return (e.cancelEdit, .stay)
  | .interrupt => return (e.cancelEdit, .quit)
  | key => return ({ e with edit := some (← edit.type? key) }, .stay)

def update? (e : Editor) : Message → Option (Editor × Transition)
  | .failure reason => return ({ e with failure := some reason }, .quit)
  | .key key =>
    match e.edit with
    | some edit => e.continueEdit? edit key
    | none => e.browse? key

def parameterToken? (e : Editor) (theme : Terminal.Theme) (p : Parameter) (i : Nat) :
    Option Token :=
  if i = e.selected then
    match e.edit with
    | some edit => edit.token? p.kind theme
    | none => return .styledAs theme .highlight p.text
  else if p.isEdited then return .styledAs theme .modified p.text
  else return .unstyled p.text

def parameterTokens? (e : Editor) (theme : Terminal.Theme) : Option (List Token) :=
  (e.parameters.mapIdx fun i p => e.parameterToken? theme p i).mapM id

def frame? (e : Editor) (theme : Terminal.Theme) : Option String :=
  match e.failure with
  | some reason => return theme.paint .error reason ++ "\n"
  | none => do
    let parameters ← e.parameterTokens? theme
    let tokens := .styledAs theme .dim e.program :: e.flags.map (.styledAs theme .dim ·.token) ++
      parameters ++ [.styledAs theme .dim e.image]
    return assemble theme tokens ++ "\n\n" ++ theme.paint .dim e.legend

end Editor

namespace LineBuffer.WellFormed
variable {b : LineBuffer} (h : b.WellFormed)
include h

theorem utf8Size_eq : ∀ c ∈ b.text, c.utf8Size = 1 := fun c hc => (h.printable c hc).utf8Size_eq

theorem size_eq : b.size = b.text.length := Text.byteLength_eq_length h.utf8Size_eq

theorem assertCursor_eq : b.assertCursor = some b := by
  rw [assertCursor, h.size_eq, if_pos h.cursor_le]

theorem insert?_eq {c : Char} (hc : Printable c) : b.insert? c = some (b.insert c) := by
  have hi := (h.insert hc).assertCursor_eq
  rw [insert?, Text.insertAt?_eq h.utf8Size_eq h.cursor_le, hc.utf8Size_eq]
  exact hi

theorem deleteLeft?_eq : b.deleteLeft? = some b.deleteLeft := by
  have hd := h.deleteLeft.assertCursor_eq
  unfold LineBuffer.deleteLeft at hd
  unfold LineBuffer.deleteLeft? LineBuffer.deleteLeft
  by_cases hc : b.cursor = 0
  · simp [hc]
  · have hlt : b.cursor - 1 < b.text.length := by
      have hb := h.cursor_le
      omega
    simp only [if_neg hc] at hd ⊢
    rw [difference?, if_pos (by omega), Option.bind_eq_bind, Option.bind_some,
      Text.removeAt?_eq h.utf8Size_eq hlt]
    exact hd

theorem moveLeft?_eq : b.moveLeft? = some b.moveLeft := h.moveLeft.assertCursor_eq

theorem moveRight?_eq : b.moveRight? = some b.moveRight := by
  rw [moveRight?, h.size_eq]
  exact h.moveRight.assertCursor_eq

theorem cells?_eq : Edit.cells? b = some (b.before, [b.under?.getD ' '], b.after) := by
  have hmin : min b.cursor b.text.length = b.cursor := Nat.min_eq_left h.cursor_le
  have hbefore := Text.slice?_eq h.utf8Size_eq (Nat.zero_le _) h.cursor_le
  simp only [Edit.cells?, h.size_eq, hmin, hbefore, Option.bind_eq_bind, Option.bind_some]
  by_cases hc : b.cursor < b.text.length
  · have hunder := Text.slice?_eq h.utf8Size_eq (Nat.le_succ b.cursor) hc
    have hafter := Text.slice?_eq h.utf8Size_eq hc (Nat.le_refl _)
    have hcell : (b.text.take (b.cursor + 1)).drop b.cursor = [b.text[b.cursor]] := by
      rw [List.drop_take, Nat.add_sub_cancel_left, List.drop_eq_getElem_cons hc]
      rfl
    rw [if_pos hc, hunder, hafter, hcell]
    simp [before, under?, after, List.getElem?_eq_getElem hc]
  · have hle : b.text.length ≤ b.cursor := by omega
    simp [hc, before, under?, after, List.drop_eq_nil_of_le, Nat.le_succ_of_le hle]

end LineBuffer.WellFormed

namespace Edit

theorem start?_eq {c : Char} (hc : Key.isEditStart c = true) (segments : Option (List String)) :
    start? c segments = some (start c segments) := by
  have hi := LineBuffer.wellFormed_empty.insert?_eq (printable_of_isEditStart hc)
  simp [start?, start, hi]

variable {e : Edit} (h : e.line.WellFormed)
include h

theorem type?_eq (k : Key) : e.type? k = some (e.type k) := by
  cases k with
  | backspace => simp [type?, type, h.deleteLeft?_eq]
  | left => simp [type?, type, h.moveLeft?_eq]
  | right => simp [type?, type, h.moveRight?_eq]
  | char c =>
    by_cases hc : Key.isInsertable c = true
    · simp [type?, type, hc, h.insert?_eq ((printable_iff_isInsertable c).mpr hc)]
    · simp [type?, type, hc]
  | _ => rfl

omit h in
theorem surroundings?_eq {k : ParameterKind}
    (hs : ∀ segments ∈ e.segments, k.editable < segments.length) :
    e.surroundings? k = some (e.surroundings k) := by
  unfold surroundings? surroundings
  cases hseg : e.segments with
  | none => rfl
  | some segments =>
    have hlt := hs segments hseg
    cases k.separator? with
    | none => rfl
    | some sep => simp [firstSegments?, Nat.le_of_lt hlt]

theorem token?_eq {k : ParameterKind}
    (hs : ∀ segments ∈ e.segments, k.editable < segments.length) (theme : Terminal.Theme) :
    e.token? k theme = some (e.token k theme) := by
  have hu : String.ofList [e.line.under?.getD ' '] = String.singleton (e.line.under?.getD ' ') :=
    (String.singleton_eq_ofList).symm
  simp only [token?, token, surroundings?_eq hs, h.cells?_eq, Option.bind_eq_bind,
    Option.bind_some, hu]
  rfl

end Edit

namespace Editor

theorem selectPrevious?_eq (e : Editor) : e.selectPrevious? = some e.selectPrevious := by
  unfold selectPrevious? selectPrevious
  by_cases hp : e.parameters = []
  · simp [hp]
  · have hlen := List.length_pos_iff.mpr hp
    by_cases hs : e.selected = 0
    · simp [hp, hs, difference?, Nat.succ_le_of_lt hlen]
    · simp [hp, hs, difference?, Nat.one_le_iff_ne_zero]

theorem selectNext?_eq (e : Editor) : e.selectNext? = some e.selectNext := by
  unfold selectNext? selectNext
  by_cases hp : e.parameters = [] <;> simp [hp, remainder?]

theorem beginEdit?_eq (e : Editor) {c : Char} (hc : Key.isEditStart c = true) :
    e.beginEdit? c = some (e.beginEdit c) := by
  unfold beginEdit? beginEdit
  cases e.current? <;> simp [Edit.start?_eq hc]

theorem browse?_eq (e : Editor) (k : Key) : e.browse? k = some (e.browse k) := by
  cases k with
  | char c =>
    by_cases hc : Key.isEditStart c = true <;> simp [browse?, browse, hc, beginEdit?_eq]
  | _ => simp [browse?, browse, selectPrevious?_eq, selectNext?_eq]

theorem continueEdit?_eq (e : Editor) {edit : Edit} (h : edit.line.WellFormed) (k : Key) :
    e.continueEdit? edit k = some (e.continueEdit edit k) := by
  cases k with
  | tab => simp [continueEdit?, continueEdit, selectNext?_eq]
  | enter | escape | interrupt => rfl
  | _ => simp [continueEdit?, continueEdit, Edit.type?_eq h]

namespace Consistent
variable {e : Editor} (h : e.Consistent)
include h

theorem update?_eq (m : Message) : e.update? m = some (e.update m) := by
  cases m with
  | failure reason => rfl
  | key k =>
    cases he : e.edit with
    | none => simp [update?, update, he, browse?_eq]
    | some edit =>
      obtain ⟨p, _, hf⟩ := h.edit edit he
      simp [update?, update, he, continueEdit?_eq e hf.line]

theorem parameterToken?_eq (theme : Terminal.Theme) {p : Parameter} {i : Nat}
    (hp : e.parameters[i]? = some p) :
    e.parameterToken? theme p i = some (e.parameterToken theme p i) := by
  unfold parameterToken? parameterToken
  by_cases hi : i = e.selected
  · subst hi
    cases he : e.edit with
    | none => simp
    | some edit =>
      obtain ⟨q, hq, hf⟩ := h.edit edit he
      obtain rfl : q = p := Option.some.inj (hq.symm.trans hp)
      simpa using Edit.token?_eq hf.line (fun _ hs => hf.editable_lt hs) theme
  · by_cases hd : p.isEdited = true <;> simp [hi, hd]

theorem parameterTokens?_eq (theme : Terminal.Theme) :
    e.parameterTokens? theme = some (e.parameterTokens theme) := by
  have hmap : (e.parameters.mapIdx fun i p => e.parameterToken? theme p i) =
      (e.parameterTokens theme).map some := by
    apply List.ext_getElem?
    intro i
    cases hp : e.parameters[i]? with
    | none => simp [parameterTokens, hp]
    | some p => simp [parameterTokens, hp, h.parameterToken?_eq theme hp]
  rw [parameterTokens?, hmap, List.mapM_map]
  simpa using List.mapM_pure (m := Option) (f := id) (l := e.parameterTokens theme)

theorem frame?_eq (theme : Terminal.Theme) : e.frame? theme = some (e.frame theme) := by
  unfold frame? frame
  cases e.failure with
  | some reason => rfl
  | none => simp [tokens, h.parameterTokens?_eq]

end Consistent

/-- Wherever a run has led, the selection is on a parameter, a live edit is printable ASCII with its
cursor inside and is split as the value shown is, and no key, failure or frame meets an index that
is out of bounds. -/
theorem run_in_bounds (c : Catalog) (image : String) (messages : List Message) :
    let e := (new c image).run messages
    (e.selected < e.parameters.length ∨ e.parameters = [] ∧ e.selected = 0) ∧
    (∀ edit, e.edit = some edit → ∃ p, e.parameters[e.selected]? = some p ∧
      (∀ x ∈ edit.buffer.toList, 0x20 ≤ x.toNat ∧ x.toNat ≤ 0x7E) ∧
      edit.line.cursor ≤ edit.buffer.utf8ByteSize ∧
      edit.segments = p.kind.split? p.effective ∧
      (edit.segments = none ↔ p.kind.separator? = none) ∧
      ∀ segments, edit.segments = some segments → p.kind.editable < segments.length) ∧
    (∀ m, e.update? m = some (e.update m)) ∧
    ∀ theme, e.frame? theme = some (e.frame theme) := by
  intro e
  have h : e.Consistent := run_consistent c image messages
  refine ⟨h.selected, ?_, h.update?_eq, h.frame?_eq⟩
  intro edit he
  obtain ⟨p, hp, hf⟩ := h.edit edit he
  have hsize : edit.buffer.utf8ByteSize = edit.line.text.length := hf.line.size_eq
  refine ⟨p, hp, ?_, ?_, hf.segments, ?_, fun _ hs => hf.editable_lt hs⟩
  · intro x hx
    exact hf.line.printable x (by simpa [Edit.buffer] using hx)
  · rw [hsize]
    exact hf.line.cursor_le
  · rw [hf.segments, Parameter.segments?, ParameterKind.split?, Option.map_eq_none_iff]

theorem run_in_bounds_port :
    let e := (new .builtin "alpine").run [.key .down, .key (.char '9')]
    e.edit = some ⟨⟨['9'], 1⟩, some ["8080", "80"]⟩ ∧ e.update? (.key .backspace) ≠ none := by
  intro e
  have h := run_in_bounds .builtin "alpine" [.key .down, .key (.char '9')]
  refine ⟨by decide, ?_⟩
  rw [h.2.2.1 (.key .backspace)]
  simp

end Editor
end LaunchEditor
