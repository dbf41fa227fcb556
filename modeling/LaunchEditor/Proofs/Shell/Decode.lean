import LaunchEditor.Proofs.Shell.Line

/-! # Getting the arguments of a line back

The words of a line stand side by side with one space between them. A word that begins with an
apostrophe goes on to the first apostrophe that does not begin an escaped one, any other word to
the next space. Reading a line by this rule alone gives the arguments that it was written from,
whatever is in them, so no two lists of arguments are written in the same way.
-/
namespace LaunchEditor.Shell

/-- The text of a quoted word from behind its first apostrophe, and what stands behind the word. -/
def quoted? : List Char → Option (List Char × List Char)
  | [] => none
  | '\x27' :: '\\' :: '\x27' :: '\x27' :: r => (quoted? r).map fun s => (apostrophe :: s.1, s.2)
  | c :: r =>
    if c = apostrophe then some ([], r) else (quoted? r).map fun s => (c :: s.1, s.2)

/-- The text of the first word, and what stands behind the word. -/
def word? (cs : List Char) : Option (List Char × List Char) :=
  if cs.head? = some apostrophe then quoted? cs.tail
  else some (cs.takeWhile (· != ' '), cs.dropWhile (· != ' '))

theorem suffix_of_quoted? {cs w rest : List Char} (h : quoted? cs = some (w, rest)) :
    rest <:+ cs := by
  fun_induction quoted? cs generalizing w with
  | case1 => cases h
  | case2 r ih =>
    obtain ⟨s, hs, heq⟩ := Option.map_eq_some_iff.mp h
    obtain ⟨rfl, rfl⟩ := Prod.mk.inj heq
    exact (ih hs).trans (List.suffix_append [_, _, _, _] r)
  | case3 r =>
    cases h
    exact List.suffix_cons apostrophe rest
  | case4 c r _ hc ih =>
    obtain ⟨s, hs, heq⟩ := Option.map_eq_some_iff.mp h
    obtain ⟨rfl, rfl⟩ := Prod.mk.inj heq
    exact (ih hs).trans (List.suffix_cons c r)

theorem suffix_of_word? {cs w rest : List Char} (h : word? cs = some (w, rest)) :
    rest <:+ cs := by
  unfold word? at h
  split at h
  · exact (suffix_of_quoted? h).trans (List.tail_suffix cs)
  · cases h
    exact List.dropWhile_suffix _

def words? (cs : List Char) : Option (List (List Char)) :=
  match h : word? cs with
  | none => none
  | some (w, []) => some [w]
  | some (w, c :: rest) =>
    have : rest.length < cs.length := (suffix_of_word? h).length_le
    if c = ' ' then (words? rest).map (w :: ·) else none
termination_by cs.length

def arguments? (text : String) : Option (List String) :=
  if text = "" then some [] else (words? text.toList).map (·.map String.ofList)

section
variable (cs : List Char) {rest : List Char} (hrest : rest = [] ∨ ∃ r, rest = ' ' :: r)
include hrest

theorem quoted?_flatMap_escapeQuote :
    quoted? (cs.flatMap escapeQuote ++ apostrophe :: rest) = some (cs, rest) := by
  induction cs with
  | nil =>
    -- What stands behind the word keeps its last apostrophe from beginning an escaped one.
    rcases hrest with rfl | ⟨r, rfl⟩ <;> rfl
  | cons c cs ih =>
    rw [List.flatMap_cons, List.append_assoc]
    by_cases hc : c = apostrophe
    · have hescaped (r : List Char) : quoted? (escapeQuote apostrophe ++ r) =
          (quoted? r).map fun s => (apostrophe :: s.1, s.2) := rfl
      rw [hc, hescaped, ih]
      rfl
    · have hplain (r : List Char) : quoted? (escapeQuote c ++ r) =
          (quoted? r).map fun s => (c :: s.1, s.2) := by
        have hne : c ≠ '\x27' := hc
        simp [escapeQuote, hc, quoted?, hne]
      rw [hplain, ih]
      rfl

theorem word?_quote : word? (quote cs ++ rest) = some (cs, rest) := by
  cases hq : needsQuotes cs with
  | true =>
    rw [quote, if_pos hq, List.append_assoc]
    exact quoted?_flatMap_escapeQuote cs hrest
  | false =>
    obtain ⟨hne, hcs⟩ := not_needsQuotes_iff.mp hq
    have hspace : ∀ c ∈ cs, (c != ' ') = true := by
      intro c hc
      refine bne_iff_ne.mpr ?_
      rintro rfl
      exact absurd (hcs _ hc).1 (by decide)
    obtain ⟨c, t, rfl⟩ := List.exists_cons_of_ne_nil hne
    have hhead : (c :: t ++ rest).head? ≠ some apostrophe := by
      simpa using (hcs c List.mem_cons_self).2
    have hstop : rest.takeWhile (· != ' ') = [] ∧ rest.dropWhile (· != ' ') = rest := by
      rcases hrest with rfl | ⟨r, rfl⟩ <;> simp
    rw [quote, if_neg (by simp [hq]), word?, if_neg hhead, List.takeWhile_append_of_pos hspace,
      List.dropWhile_append_of_pos hspace, hstop.1, hstop.2, List.append_nil]

end

theorem quote_ne_nil (cs : List Char) : quote cs ≠ [] := by
  cases hq : needsQuotes cs with
  | true => simp [quote, hq]
  | false => simpa [quote, hq] using (not_needsQuotes_iff.mp hq).1

theorem words?_of_last {cs w : List Char} (h : word? cs = some (w, [])) :
    words? cs = some [w] := by
  rw [words?]
  split <;> simp_all

theorem words?_of_space {cs w rest : List Char} (h : word? cs = some (w, ' ' :: rest)) :
    words? cs = (words? rest).map (w :: ·) := by
  rw [words?]
  split <;> simp_all

theorem words?_line (a : String) (as : List String) :
    words? (line (a :: as)).toList = some ((a :: as).map (·.toList)) := by
  induction as generalizing a with
  | nil =>
    have hword := word?_quote a.toList (.inl rfl)
    rw [List.append_nil, ← line_toList_singleton] at hword
    exact words?_of_last hword
  | cons b as ih =>
    have hword := word?_quote a.toList (.inr ⟨(line (b :: as)).toList, rfl⟩)
    rw [← line_toList_cons_cons] at hword
    rw [words?_of_space hword, ih]
    rfl

theorem line_cons_ne_empty (a : String) (as : List String) : line (a :: as) ≠ "" := by
  intro h
  have hlist := congrArg String.toList h
  cases as with
  | nil =>
    rw [line_toList_singleton] at hlist
    exact quote_ne_nil _ hlist
  | cons b as =>
    rw [line_toList_cons_cons] at hlist
    simp at hlist

theorem arguments?_line (as : List String) : arguments? (line as) = some as := by
  cases as with
  | nil => rfl
  | cons a as =>
    rw [arguments?, if_neg (line_cons_ne_empty a as), words?_line]
    simp [Function.comp_def]

example : arguments? "--name 'it'\\''s' '' 'a b'" = some ["--name", "it's", "", "a b"] := by cbv

/-- Nothing of the arguments is lost in a line: they are read back from it, and so no other
arguments are written in the same way. -/
theorem line_lossless :
    (∀ as, arguments? (line as) = some as) ∧ Function.Injective line := by
  refine ⟨arguments?_line, fun as bs h => ?_⟩
  have hread := congrArg arguments? h
  rw [arguments?_line, arguments?_line] at hread
  exact Option.some.inj hread

end LaunchEditor.Shell
