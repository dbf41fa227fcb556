import LaunchEditor.Proofs.Terminal.Visible
import LaunchEditor.Text.Pieces

/-! # Cells

A terminal shows each character in a cell of its own, in reverse while a sequence before it has
asked for that. Of the styles only that of the cursor does.
-/
namespace LaunchEditor.Terminal
open Text

structure Cell where
  char : Char
  reversed : Bool
  deriving DecidableEq, Repr

/-- Whether cells are reversed behind a sequence, which sets one attribute after another. The number
of a palette colour is not an attribute. -/
def reverses (reversed : Bool) : List (List Char) → Bool
  | [] => reversed
  | ['3', '8'] :: ['5'] :: _ :: rest => reverses reversed rest
  | ['7'] :: rest => reverses true rest
  | [] :: rest | ['0'] :: rest | ['2', '7'] :: rest => reverses false rest
  | _ :: rest => reverses reversed rest

/-- The cells of a text, of which `sequence` holds what was read of a sequence that is not over. -/
def cells (reversed : Bool) (sequence : Option (List Char)) : List Char → List Cell
  | [] => []
  | c :: r =>
    match sequence with
    | some read =>
      if c = 'm' then cells (reverses reversed (pieces (· == ';') (read.drop 1))) none r
      else cells reversed (some (read ++ [c])) r
    | none =>
      if c = escape ∧ r.head? = some '[' then cells reversed (some []) r
      else ⟨c, reversed⟩ :: cells reversed none r

theorem cells_append {cs : List Char} (h : escape ∉ cs) (reversed : Bool) (r : List Char) :
    cells reversed none (cs ++ r) = cs.map (⟨·, reversed⟩) ++ cells reversed none r := by
  induction cs with
  | nil => rfl
  | cons c cs ih =>
    have hc : c ≠ escape := fun hc => h (by simp [hc])
    have hcs : escape ∉ cs := fun hcs => h (List.mem_cons_of_mem c hcs)
    have hstart : ¬ (c = escape ∧ (cs ++ r).head? = some '[') := fun h => hc h.1
    simp only [List.cons_append, cells, if_neg hstart, ih hcs, List.map_cons]

theorem cells_opening (style : Style) (r : List Char) :
    cells false none (style.opening.toList ++ r) = cells (style == .cursor) none r := by
  cases style <;> rfl

theorem cells_closing (style : Style) (r : List Char) :
    cells (style == .cursor) none (style.closing.toList ++ r) = cells false none r := by
  cases style <;> rfl

/-- Wherever it stands while nothing is reversed, `s` fills the cells `cs`, and nothing is reversed
behind it. -/
def Fills (s : String) (cs : List Cell) : Prop :=
  ∀ r, cells false none (s.toList ++ r) = cs ++ cells false none r

namespace Fills

theorem of_notMem {s : String} (h : escape ∉ s.toList) : Fills s (s.toList.map (⟨·, false⟩)) :=
  cells_append h false

theorem cells_eq {s : String} {cs : List Cell} (h : Fills s cs) :
    cells false none s.toList = cs := by
  have hend := h []
  simpa only [List.append_nil, cells] using hend

theorem append {s t : String} {cs ds : List Cell} (h : Fills s cs) (h' : Fills t ds) :
    Fills (s ++ t) (cs ++ ds) := by
  intro r
  rw [String.toList_append, List.append_assoc, h, h', List.append_assoc]

theorem paint (style : Style) {s : String} (h : escape ∉ s.toList) :
    Fills ((⟨true⟩ : Theme).paint style s) (s.toList.map (⟨·, style == .cursor⟩)) := by
  intro r
  by_cases hs : s = ""
  · subst hs
    rfl
  · simp only [Theme.paint, true_and, ne_eq, hs, not_false_eq_true, ↓reduceIte,
      String.toList_append, List.append_assoc]
    rw [cells_opening, cells_append h, cells_closing]

theorem join {α : Type} {f : α → String} {g : α → List Cell} {l : List α}
    (h : ∀ a ∈ l, Fills (f a) (g a)) : Fills (String.join (l.map f)) (l.flatMap g) := by
  induction l with
  | nil => exact of_notMem (by simp)
  | cons a l ih =>
    obtain ⟨ha, hl⟩ := List.forall_mem_cons.mp h
    rw [List.map_cons, String.join_cons, List.flatMap_cons]
    exact ha.append (ih hl)

end Fills

end LaunchEditor.Terminal
