import LaunchEditor.Proofs.Shell.Lexeme

/-! # Reading a written line

A line that was written from arguments is read as just these arguments if each of them is quoted or
has nothing in it that a shell gives a meaning to, and only then. An argument is quoted for its
blanks and its apostrophes, but not for anything else.
-/
namespace LaunchEditor.Shell

theorem not_needsQuotes_iff {cs : List Char} : needsQuotes cs = false ↔
    cs ≠ [] ∧ ∀ c ∈ cs, Text.isBlank c = false ∧ c ≠ apostrophe := by
  simp [needsQuotes]

theorem notMem_separators {c : Char} (h : Text.isBlank c = false) : c ∉ separators := by
  intro hc
  have hspace : c.isWhitespace = true := by
    simp only [separators, List.mem_cons, List.not_mem_nil, or_false] at hc
    rcases hc with rfl | rfl | rfl <;> rfl
  rw [Text.isBlank_of_isWhitespace hspace] at h
  cases h

/-- A quoted text is the rest of a word. -/
theorem read_quoted (p cs rest : List Char) :
    read .single (some p) (cs.flatMap escapeQuote ++ apostrophe :: rest) =
      read .bare (some (p ++ cs)) rest := by
  induction cs generalizing p with
  | nil =>
    rw [List.append_nil]
    rfl
  | cons c cs ih =>
    have hstep (r : List Char) :
        read .single (some p) (escapeQuote c ++ r) = read .single (some (p ++ [c])) r := by
      by_cases hc : c = apostrophe
      · have hp : p ++ [apostrophe] ++ [] = p ++ [apostrophe] := List.append_nil _
        rw [hc, ← hp]
        rfl
      · simp [escapeQuote, hc, read, turn, extend]
    rw [List.flatMap_cons, List.append_assoc, hstep, ih, List.append_assoc]
    rfl

theorem read_quote {cs : List Char} (h : needsQuotes cs = true ∨ Plain cs) (rest : List Char) :
    read .bare none (quote cs ++ rest) = read .bare (some cs) rest := by
  cases hq : needsQuotes cs with
  | true =>
    rw [quote, if_pos hq, List.append_assoc]
    exact read_quoted [] cs rest
  | false =>
    obtain ⟨hne, hcs⟩ := not_needsQuotes_iff.mp hq
    obtain ⟨hspecial, hhash⟩ := h.resolve_left (by simp [hq])
    obtain ⟨c, t, rfl⟩ := List.exists_cons_of_ne_nil hne
    have hall : ∀ d ∈ c :: t, d ∉ separators ∧ d ≠ apostrophe ∧ d ∉ special := fun d hd =>
      ⟨notMem_separators (hcs d hd).1, (hcs d hd).2, hspecial d hd⟩
    obtain ⟨⟨hsep, hquote, hc⟩, ht⟩ := List.forall_mem_cons.mp hall
    rw [quote, if_neg (by simp [hq]), List.cons_append, read,
      turn_plain hsep hquote hc (fun hc => absurd (congrArg some hc) hhash)]
    exact read_plain ht rest

theorem line_toList_singleton (a : String) : (line [a]).toList = quote a.toList := by
  simp [line]

theorem line_toList_cons_cons (a b : String) (as : List String) :
    (line (a :: b :: as)).toList = quote a.toList ++ ' ' :: (line (b :: as)).toList := by
  simp [line, String.toList_intercalate]

theorem lexemes_line {as : List String}
    (h : ∀ a ∈ as, needsQuotes a.toList = true ∨ Plain a.toList) :
    lexemes (line as) = as.map fun a => .word a.toList := by
  induction as with
  | nil => rfl
  | cons a as ih =>
    obtain ⟨ha, has⟩ := List.forall_mem_cons.mp h
    cases as with
    | nil =>
      have hread := read_quote ha []
      rw [List.append_nil] at hread
      rw [lexemes, line_toList_singleton, hread]
      rfl
    | cons b as =>
      rw [lexemes, line_toList_cons_cons, read_quote ha, List.map_cons, ← ih has]
      rfl

example : lexemes (line ["--env", "GREETING=hello world", "--name", "it's", ""]) =
    ["--env", "GREETING=hello world", "--name", "it's", ""].map fun a => .word a.toList := by decide

/-- A bare text that is not plain is not read as itself. -/
theorem plain_of_read {cs rest : List Char} {ls : List Lexeme}
    (hrest : rest = [] ∨ ∃ r, rest = ' ' :: r) (hq : needsQuotes cs = false)
    (h : read .bare none (cs ++ rest) = .word cs :: ls) : Plain cs := by
  obtain ⟨-, hcs⟩ := not_needsQuotes_iff.mp hq
  have hall : ∀ c ∈ cs, c ∉ separators ∧ c ≠ apostrophe := fun c hc =>
    ⟨notMem_separators (hcs c hc).1, (hcs c hc).2⟩
  refine ⟨fun c hc hspecial => ?_, fun hhash => ?_⟩
  · rcases length_lt_of_read_special hrest hall ⟨c, hc, hspecial⟩ h with hspace | hlt
    · exact (hall _ hspace).1 (by decide)
    · simp at hlt
  · obtain ⟨t, rfl⟩ := List.head?_eq_some_iff.mp hhash
    cases h

/-- A line is read as the arguments that it was written from just in case each of them is quoted
or plain. -/
theorem lexemes_line_eq_iff (as : List String) :
    lexemes (line as) = as.map (fun a => .word a.toList) ↔
      ∀ a ∈ as, needsQuotes a.toList = true ∨ Plain a.toList := by
  refine ⟨fun h => ?_, lexemes_line⟩
  induction as with
  | nil => simp
  | cons a as ih =>
    obtain ⟨rest, hrest, hline⟩ : ∃ rest : List Char, (rest = [] ∨ ∃ r, rest = ' ' :: r) ∧
        (line (a :: as)).toList = quote a.toList ++ rest := by
      cases as with
      | nil => exact ⟨[], .inl rfl, by rw [line_toList_singleton, List.append_nil]⟩
      | cons b as => exact ⟨_, .inr ⟨_, rfl⟩, line_toList_cons_cons a b as⟩
    have ha : needsQuotes a.toList = true ∨ Plain a.toList := by
      cases hq : needsQuotes a.toList with
      | true => exact .inl rfl
      | false =>
        rw [lexemes, hline, quote, if_neg (by simp [hq])] at h
        exact .inr (plain_of_read hrest hq h)
    -- So the line behind the first argument is read on its own.
    refine List.forall_mem_cons.mpr ⟨ha, ih ?_⟩
    cases as with
    | nil => rfl
    | cons b as =>
      rw [lexemes, line_toList_cons_cons, read_quote ha] at h
      exact (List.cons.inj h).2

/-- A semicolon does not get an argument quoted, and cuts it in two. -/
theorem lexemes_line_semicolon :
    let as := ["docker", "run", "--env", "A=1;B=2", "img"]
    line as = "docker run --env A=1;B=2 img" ∧
      lexemes (line as) =
        ["docker", "run", "--env", "A=1"].map (fun a => .word a.toList) ++ .operator ';' ::
          ["B=2", "img"].map (fun a => .word a.toList) ∧
      lexemes (line as) ≠ as.map fun a => .word a.toList := by
  decide

end LaunchEditor.Shell
