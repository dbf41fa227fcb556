import LaunchEditor.Terminal.Style
import Mathlib.Data.List.Basic

/-! # What is seen of a styled text

A terminal shows a text without its escape sequences. Styles add nothing but whole sequences, so of
a text that has none of its own the same is seen in every style.
-/
namespace LaunchEditor.Terminal

def escape : Char := '\x1b'

/-- The text without its sequences, which start with an escape and a bracket and go up to the next
`m`. Whether one has been started tells `inside`. -/
def visible (inside : Bool) : List Char → List Char
  | [] => []
  | c :: r =>
    if inside then visible (c != 'm') r
    else if c = escape ∧ r.head? = some '[' then visible true r
    else c :: visible false r

def strip (s : String) : String := String.ofList (visible false s.toList)

theorem visible_append {cs : List Char} (h : escape ∉ cs) (r : List Char) :
    visible false (cs ++ r) = cs ++ visible false r := by
  induction cs with
  | nil => rfl
  | cons c cs ih =>
    have hc : c ≠ escape := fun hc => h (by simp [hc])
    have hcs : escape ∉ cs := fun hcs => h (List.mem_cons_of_mem c hcs)
    have hstart : ¬ (c = escape ∧ (cs ++ r).head? = some '[') := fun h => hc h.1
    rw [List.cons_append, visible, if_neg Bool.false_ne_true, if_neg hstart, ih hcs,
      List.cons_append]

theorem visible_opening (style : Style) (r : List Char) :
    visible false (style.opening.toList ++ r) = visible false r := by
  cases style <;> rfl

theorem visible_closing (style : Style) (r : List Char) :
    visible false (style.closing.toList ++ r) = visible false r := by
  cases style <;> rfl

/-- The text as it is or, if there are colors, between the sequences of a style. -/
def Theme.Paints (theme : Theme) (s painted : String) : Prop :=
  painted = s ∨ theme.colored = true ∧
    ∃ style : Style, painted = style.opening ++ s ++ style.closing

theorem Theme.paints_paint (theme : Theme) (style : Style) (s : String) :
    theme.Paints s (theme.paint style s) := by
  unfold Theme.paint
  split
  · next h => exact .inr ⟨h.1, style, rfl⟩
  · exact .inl rfl

/-- Wherever it stands, `t` is what is seen of `s`. -/
def Shows (s t : String) : Prop :=
  ∀ r, visible false (s.toList ++ r) = t.toList ++ visible false r

namespace Shows

theorem of_notMem {s : String} (h : escape ∉ s.toList) : Shows s s := visible_append h

theorem strip_eq {s t : String} (h : Shows s t) : strip s = t := by
  have hend := h []
  simp only [List.append_nil, visible] at hend
  rw [strip, hend, String.ofList_toList]

theorem append {s t s' t' : String} (h : Shows s t) (h' : Shows s' t') :
    Shows (s ++ s') (t ++ t') := by
  intro r
  rw [String.toList_append, String.toList_append, List.append_assoc, h, h', List.append_assoc]

theorem paint (theme : Theme) (style : Style) {s : String} (h : escape ∉ s.toList) :
    Shows (theme.paint style s) s := by
  unfold Theme.paint
  split
  · intro r
    simp only [String.toList_append, List.append_assoc]
    rw [visible_opening, visible_append h, visible_closing]
  · exact of_notMem h

theorem intercalate {α : Type} {f g : α → String} {sep sep' : String} (hsep : Shows sep sep')
    {l : List α} (h : ∀ a ∈ l, Shows (f a) (g a)) :
    Shows (sep.intercalate (l.map f)) (sep'.intercalate (l.map g)) := by
  induction l with
  | nil => exact of_notMem (by simp)
  | cons a l ih =>
    obtain ⟨ha, hl⟩ := List.forall_mem_cons.mp h
    cases l with
    | nil => simpa using ha
    | cons b l =>
      have hrest := ih hl
      simp only [List.map_cons, String.intercalate_cons_cons] at hrest ⊢
      exact (ha.append hsep).append hrest

end Shows

end LaunchEditor.Terminal
