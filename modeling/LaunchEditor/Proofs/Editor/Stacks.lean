import LaunchEditor.Proofs.Editor.Retype
import LaunchEditor.Proofs.Text.Offset

/-! # A line as two stacks

The characters in front of the cursor and those from it on can be kept on two stacks that have the
characters next to the cursor on top. Every key then works on the tops of the stacks alone, with
no index to go wrong, and makes of them what it makes of the line.
-/
namespace LaunchEditor

structure Stacks where
  left : List Char
  right : List Char
  deriving DecidableEq, Repr

namespace Stacks

def press (s : Stacks) : Key → Stacks
  | .backspace => ⟨s.left.tail, s.right⟩
  | .left =>
    match s.left with
    | [] => s
    | c :: left => ⟨left, c :: s.right⟩
  | .right =>
    match s.right with
    | [] => s
    | c :: right => ⟨c :: s.left, right⟩
  | .char c => if Printable c then ⟨c :: s.left, s.right⟩ else s
  | _ => s

/-- The line that the stacks hold. -/
def line (s : Stacks) : LineBuffer := ⟨s.left.reverse ++ s.right, s.left.length⟩

theorem insert_line (s : Stacks) (c : Char) : s.line.insert c = line ⟨c :: s.left, s.right⟩ := by
  have hlen : s.left.reverse.length = s.left.length := List.length_reverse
  simp [LineBuffer.insert, line, List.take_left' hlen, List.drop_left' hlen]

theorem deleteLeft_line (s : Stacks) : s.line.deleteLeft = (s.press .backspace).line := by
  obtain ⟨left, right⟩ := s
  cases left with
  | nil => rfl
  | cons c left =>
    have herase : (left.reverse ++ c :: right).eraseIdx left.length = left.reverse ++ right := by
      rw [List.eraseIdx_append_of_length_le (by simp)]
      simp
    simp [LineBuffer.deleteLeft, line, press, herase]

theorem moveLeft_line (s : Stacks) : s.line.moveLeft = (s.press .left).line := by
  obtain ⟨left, right⟩ := s
  cases left with
  | nil => rfl
  | cons c left => simp [LineBuffer.moveLeft, line, press]

theorem moveRight_line (s : Stacks) : s.line.moveRight = (s.press .right).line := by
  obtain ⟨left, right⟩ := s
  cases right with
  | nil => simp [LineBuffer.moveRight, line, press]
  | cons c right => simp [LineBuffer.moveRight, line, press]

theorem type_line {e : Edit} {s : Stacks} (h : e.line = s.line) (k : Key) :
    (e.type k).line = (s.press k).line := by
  cases k with
  | backspace =>
    rw [← deleteLeft_line, ← h]
    rfl
  | left =>
    rw [← moveLeft_line, ← h]
    rfl
  | right =>
    rw [← moveRight_line, ← h]
    rfl
  | char c =>
    by_cases hc : Printable c
    · have hinsertable := (printable_iff_isInsertable c).mp hc
      simp [Edit.type, hinsertable, press, hc, h, insert_line]
    · have hinsertable : ¬ Key.isInsertable c = true := (printable_iff_isInsertable c).not.mp hc
      simp [Edit.type, hinsertable, press, hc, h]
  | _ => exact h

/-- What keys make of a line, they make of the stacks. -/
theorem foldl_type_line {e : Edit} {s : Stacks} (h : e.line = s.line) (ks : List Key) :
    (ks.foldl Edit.type e).line = (ks.foldl press s).line := by
  induction ks generalizing e s with
  | nil => exact h
  | cons k ks ih => exact ih (type_line h k)

end Stacks

namespace Editor

/-- Wherever an edit is begun, the line of it is after every further key what the stacks hold: what
is on the left one in the order of typing, and then what is on the right one. The cursor stands
between them, counted in characters as well as in bytes. -/
theorem run_stacks {e : Editor} (hmode : e.mode = .browsing) {p : Parameter}
    (hp : e.current? = some p) {c : Char} (hc : c.isAlphanum = true) {ks : List Key}
    (hks : ∀ k ∈ ks, k ∉ editKeys) :
    let s := ks.foldl Stacks.press ⟨[c], []⟩
    ∃ edit, (e.run ((Key.char c :: ks).map .key)).edit = some edit ∧
      edit.buffer = String.ofList (s.left.reverse ++ s.right) ∧
      edit.line.cursor = s.left.length ∧
      (String.ofList s.left.reverse).utf8ByteSize = s.left.length := by
  intro s
  let edit := ks.foldl Edit.type (.start c p.segments?)
  have hline : edit.line = s.line := Stacks.foldl_type_line rfl ks
  have hformed : edit.line.WellFormed :=
    Edit.foldl_type_wellFormed (Edit.start_wellFormed hc p.segments?) ks
  refine ⟨edit, ?_, ?_, ?_, ?_⟩
  · rw [run_begin (edit_of_browsing hmode) hp hc hks]
  · rw [Edit.buffer, hline]
    rfl
  · rw [hline]
    rfl
  · have hsize : ∀ x ∈ s.left.reverse, x.utf8Size = 1 := by
      intro x hx
      refine (hformed.printable x ?_).utf8Size_eq
      rw [hline]
      exact List.mem_append_left s.right hx
    exact (Text.byteLength_eq_length hsize).trans List.length_reverse

/-- A letter in the middle of a line is taken out and another one put in its place. -/
theorem run_stacks_middle :
    let e := new .builtin "alpine"
    let ks : List Key := [.char 'e', .char 'v', .left, .backspace, .up, .char '\n', .char '-']
    e.mode = .browsing ∧ (∃ p, e.current? = some p) ∧ 'd'.isAlphanum = true ∧
      (∀ k ∈ ks, k ∉ editKeys) ∧ ks.foldl Stacks.press ⟨['d'], []⟩ = ⟨['-', 'd'], ['v']⟩ ∧
      ∃ edit, (e.run ((Key.char 'd' :: ks).map .key)).edit = some edit ∧ edit.buffer = "d-v" ∧
        edit.line.cursor = 2 := by
  intro e ks
  have hmode : e.mode = .browsing := rfl
  obtain ⟨p, hp⟩ : ∃ p, e.current? = some p := ⟨_, rfl⟩
  have hc : 'd'.isAlphanum = true := by decide
  have hks : ∀ k ∈ ks, k ∉ editKeys := by decide
  have hstacks : ks.foldl Stacks.press ⟨['d'], []⟩ = ⟨['-', 'd'], ['v']⟩ := by decide
  obtain ⟨edit, hedit, hbuffer, hcursor, _⟩ := run_stacks hmode hp hc hks
  rw [hstacks] at hbuffer hcursor
  exact ⟨hmode, ⟨p, hp⟩, hc, hks, hstacks, edit, hedit, hbuffer, hcursor⟩

end Editor
end LaunchEditor
