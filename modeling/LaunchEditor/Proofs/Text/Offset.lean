import Mathlib.Data.List.Basic

/-! # Byte offsets into a text

The operations on a text that take a byte offset. They fail at an offset that lies inside a
character or past the end of the text, and where there is no character to remove. In a text whose
characters have one byte each, offsets count characters.
-/
namespace LaunchEditor.Text

def byteLength (cs : List Char) : Nat := (String.ofList cs).utf8ByteSize

@[simp] theorem byteLength_nil : byteLength [] = 0 := rfl

@[simp] theorem byteLength_cons (c : Char) (cs : List Char) :
    byteLength (c :: cs) = c.utf8Size + byteLength cs := by
  simp [byteLength, String.ofList_cons, String.utf8ByteSize_append]

theorem length_le_byteLength (cs : List Char) : cs.length ≤ byteLength cs := by
  induction cs with
  | nil => exact Nat.le_refl 0
  | cons c cs ih =>
    have hc := c.utf8Size_pos
    rw [List.length_cons, byteLength_cons]
    omega

/-- The text on the two sides of a byte offset. -/
def splitAt? : List Char → Nat → Option (List Char × List Char)
  | [], n => if n = 0 then some ([], []) else none
  | c :: cs, n =>
    if n = 0 then some ([], c :: cs)
    else if n < c.utf8Size then none
    else (splitAt? cs (n - c.utf8Size)).map fun s => (c :: s.1, s.2)

theorem splitAt?_eq_some_iff {cs a b : List Char} {n : Nat} :
    splitAt? cs n = some (a, b) ↔ a ++ b = cs ∧ byteLength a = n := by
  induction cs generalizing a b n with
  | nil =>
    by_cases hn : n = 0
    · subst hn
      cases a <;> cases b <;> simp [splitAt?]
    · cases a <;> simp [splitAt?, hn, Ne.symm hn]
  | cons c cs ih =>
    have hc := c.utf8Size_pos
    rw [splitAt?]
    cases a with
    | nil =>
      by_cases hn : n = 0
      · simp [hn, eq_comm]
      · have hne : ¬ 0 = n := fun h => hn h.symm
        by_cases hlt : n < c.utf8Size <;> simp [hn, hlt, hne]
    | cons x a =>
      by_cases hn : n = 0
      · simp only [hn, ↓reduceIte, Option.some.injEq, Prod.mk.injEq, byteLength_cons]
        constructor
        · rintro ⟨h, _⟩
          cases h
        · rintro ⟨h, hb⟩
          have hx := x.utf8Size_pos
          omega
      · by_cases hlt : n < c.utf8Size
        · simp only [hn, hlt, ↓reduceIte, byteLength_cons, List.cons_append, List.cons.injEq,
            reduceCtorEq, false_iff, not_and]
          rintro ⟨rfl, _⟩
          omega
        · simp only [hn, hlt, ↓reduceIte, Option.map_eq_some_iff, Prod.exists, Prod.mk.injEq,
            List.cons.injEq, byteLength_cons, List.cons_append]
          constructor
          · rintro ⟨a', b', h, ⟨rfl, rfl⟩, rfl⟩
            obtain ⟨h, hb⟩ := ih.mp h
            exact ⟨⟨rfl, h⟩, by omega⟩
          · rintro ⟨⟨rfl, h⟩, hb⟩
            exact ⟨a, b, ih.mpr ⟨h, by omega⟩, ⟨rfl, rfl⟩, rfl⟩

def insertAt? (cs : List Char) (n : Nat) (c : Char) : Option (List Char) :=
  (splitAt? cs n).map fun s => s.1 ++ c :: s.2

/-- The text without the character that starts at `n`. -/
def removeAt? (cs : List Char) (n : Nat) : Option (List Char) :=
  match splitAt? cs n with
  | some (a, _ :: b) => some (a ++ b)
  | _ => none

def slice? (cs : List Char) (i j : Nat) : Option (List Char) := do
  let (a, _) ← splitAt? cs j
  let (_, b) ← splitAt? a i
  return b

section
variable {cs : List Char} (h : ∀ c ∈ cs, c.utf8Size = 1)
include h

theorem byteLength_eq_length : byteLength cs = cs.length := by
  induction cs with
  | nil => rfl
  | cons c cs ih =>
    have hc := h c List.mem_cons_self
    have hcs := ih fun x hx => h x (List.mem_cons_of_mem c hx)
    simp only [byteLength_cons, List.length_cons]
    omega

theorem splitAt?_eq_take_drop {n : Nat} (hn : n ≤ cs.length) :
    splitAt? cs n = some (cs.take n, cs.drop n) := by
  refine splitAt?_eq_some_iff.mpr ⟨List.take_append_drop n cs, ?_⟩
  rw [byteLength_eq_length fun x hx => h x (List.mem_of_mem_take hx), List.length_take]
  exact Nat.min_eq_left hn

theorem insertAt?_eq {n : Nat} (hn : n ≤ cs.length) (c : Char) :
    insertAt? cs n c = some (cs.take n ++ c :: cs.drop n) := by
  rw [insertAt?, splitAt?_eq_take_drop h hn]
  rfl

theorem removeAt?_eq {n : Nat} (hn : n < cs.length) :
    removeAt? cs n = some (cs.eraseIdx n) := by
  rw [removeAt?, splitAt?_eq_take_drop h (Nat.le_of_lt hn),
    List.drop_eq_getElem_cons hn,
    List.eraseIdx_eq_take_drop_succ]

theorem slice?_eq {i j : Nat} (hi : i ≤ j) (hj : j ≤ cs.length) :
    slice? cs i j = some ((cs.take j).drop i) := by
  have ha : ∀ c ∈ cs.take j, c.utf8Size = 1 := fun x hx => h x (List.mem_of_mem_take hx)
  have hlen : i ≤ (cs.take j).length := by
    rw [List.length_take]
    omega
  rw [slice?, splitAt?_eq_take_drop h hj]
  simp [splitAt?_eq_take_drop ha hlen]

end

end LaunchEditor.Text
