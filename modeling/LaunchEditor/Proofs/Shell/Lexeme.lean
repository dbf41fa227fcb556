import LaunchEditor.Shell
import Mathlib.Data.List.Basic

/-! # Reading a shell line

A shell cuts a line into words and operators. Characters that have no meaning to it make up words
as they are. Where one has a meaning, what becomes of it is never in the word: the word is shorter
than the text, unless a quotation draws in what stands behind the text.
-/
namespace LaunchEditor.Shell

def doubleQuote : Char := '\x22'

/-- What ends a word and stands for nothing. -/
def separators : List Char := [' ', '\t', '\n']

/-- What ends a word and stands for itself. -/
def operators : List Char := [';', '&', '|', '<', '>', '(', ')']

/-- A dollar sign and a backquote. -/
def expansions : List Char := ['$', '\x60']

inductive Lexeme where
  | word (cs : List Char)
  | operator (c : Char)
  /-- Stands for text that is not on the line. -/
  | expansion
  /-- Hides the rest of the line. -/
  | comment
  /-- The line ends inside of quotes or behind a backslash. -/
  | unfinished
  deriving DecidableEq, Repr

/-- How the next character is to be read. -/
inductive Mode where
  | bare
  | single
  | double
  | escaped
  | doubleEscaped
  deriving DecidableEq, Repr

/-- What a character leads to. -/
inductive Turn where
  /-- Reading goes on between words. -/
  | close (ls : List Lexeme)
  | stop (l : Lexeme)
  | go (m : Mode) (word : Option (List Char))

/-- The word that ends here, if one has begun. -/
def ended (word : Option (List Char)) : List Lexeme := word.toList.map .word

def extend (word : Option (List Char)) (cs : List Char) : Option (List Char) :=
  some (word.getD [] ++ cs)

/-- What a character leads to behind the beginning of a word, or between words. -/
def turn (m : Mode) (word : Option (List Char)) (c : Char) : Turn :=
  match m with
  | .bare =>
    if c ∈ separators then .close (ended word)
    else if c ∈ operators then .close (ended word ++ [.operator c])
    else if c ∈ expansions then .stop .expansion
    else if c = '#' ∧ word = none then .stop .comment
    else if c = apostrophe then .go .single (extend word [])
    else if c = doubleQuote then .go .double (extend word [])
    else if c = '\\' then .go .escaped word
    else .go .bare (extend word [c])
  | .single => if c = apostrophe then .go .bare word else .go .single (extend word [c])
  | .double =>
    if c ∈ expansions then .stop .expansion
    else if c = doubleQuote then .go .bare word
    else if c = '\\' then .go .doubleEscaped word
    else .go .double (extend word [c])
  | .escaped => .go .bare (if c = '\n' then word else extend word [c])
  | .doubleEscaped =>
    if c = '\n' then .go .double word
    else if c ∈ expansions ∨ c = doubleQuote ∨ c = '\\' then .go .double (extend word [c])
    else .go .double (extend word ['\\', c])

/-- The lexemes of a text, up to the first expansion or comment. -/
def read (m : Mode) (word : Option (List Char)) : List Char → List Lexeme
  | [] => if m = .bare then ended word else [.unfinished]
  | c :: r =>
    match turn m word c with
    | .close ls => ls ++ read .bare none r
    | .stop l => [l]
    | .go n w => read n w r

def lexemes (line : String) : List Lexeme := read .bare none line.toList

/-- What has a meaning anywhere in a word, apart from apostrophes. -/
def special : List Char := operators ++ expansions ++ [doubleQuote, '\\']

/-- Whether a text without blanks and apostrophes stands for itself. -/
def Plain (cs : List Char) : Prop := (∀ c ∈ cs, c ∉ special) ∧ cs.head? ≠ some '#'

instance (cs : List Char) : Decidable (Plain cs) := inferInstanceAs (Decidable (_ ∧ _))

theorem turn_plain {w : Option (List Char)} {c : Char} (hsep : c ∉ separators)
    (hquote : c ≠ apostrophe) (hspecial : c ∉ special) (hhash : c = '#' → w ≠ none) :
    turn .bare w c = .go .bare (extend w [c]) := by
  simp only [special, List.mem_append, not_or, List.mem_cons, List.not_mem_nil, not_false_eq_true,
    and_true] at hspecial
  obtain ⟨⟨hop, hexp⟩, hdouble, hback⟩ := hspecial
  have hcomment : ¬ (c = '#' ∧ w = none) := fun h => hhash h.1 h.2
  rw [turn, if_neg hsep, if_neg hop, if_neg hexp, if_neg hcomment, if_neg hquote, if_neg hdouble,
    if_neg hback]

theorem read_plain {p cs : List Char}
    (hcs : ∀ c ∈ cs, c ∉ separators ∧ c ≠ apostrophe ∧ c ∉ special) (rest : List Char) :
    read .bare (some p) (cs ++ rest) = read .bare (some (p ++ cs)) rest := by
  induction cs generalizing p with
  | nil => simp
  | cons c cs ih =>
    obtain ⟨⟨hsep, hquote, hspecial⟩, hcs⟩ := List.forall_mem_cons.mp hcs
    rw [List.cons_append, read, turn_plain hsep hquote hspecial (fun _ => by simp)]
    simp only [extend, Option.getD_some]
    rw [ih hcs]
    simp

/-- The backslashes that may still become part of a word. -/
def Mode.held : Mode → Nat
  | doubleEscaped => 1
  | _ => 0

/-- Inside of a word, a character ends it, stands for unknown text or may add to it. -/
inductive Turn.Adds (m : Mode) (p : List Char) : Turn → Prop where
  | close (ls : List Lexeme) : Adds m p (.close (.word p :: ls))
  | stop : Adds m p (.stop .expansion)
  | go {n : Mode} {q : List Char} (hq : p <+: q)
      (hlen : q.length + n.held ≤ p.length + m.held + 1) : Adds m p (.go n (some q))

theorem turn_adds (m : Mode) (p : List Char) (c : Char) : (turn m (some p) c).Adds m p := by
  have hsame {n : Mode} (hn : n.held ≤ 1) : Turn.Adds m p (.go n (some p)) :=
    .go List.prefix_rfl (by omega)
  have hmore {n : Mode} {ds : List Char} (hn : ds.length + n.held ≤ m.held + 1) :
      Turn.Adds m p (.go n (extend (some p) ds)) :=
    .go (List.prefix_append p ds) (by simp only [Option.getD_some, List.length_append]; omega)
  cases m with
  | bare =>
    simp only [turn]
    split
    · exact .close []
    split
    · exact .close [.operator c]
    split
    · exact .stop
    split
    · simp_all
    split
    · exact hmore (by decide)
    split
    · exact hmore (by decide)
    split
    · exact hsame (by decide)
    · exact hmore (by simp [Mode.held])
  | single =>
    simp only [turn]
    split
    · exact hsame (by decide)
    · exact hmore (by simp [Mode.held])
  | double =>
    simp only [turn]
    split
    · exact .stop
    split
    · exact hsame (by decide)
    split
    · exact hsame (by decide)
    · exact hmore (by simp [Mode.held])
  | escaped =>
    simp only [turn]
    split
    · exact hsame (by decide)
    · exact hmore (by simp [Mode.held])
  | doubleEscaped =>
    simp only [turn]
    split
    · exact hsame (by decide)
    split
    · exact hmore (by simp [Mode.held])
    · exact hmore (by simp [Mode.held])

theorem eq_of_read_nil {m : Mode} {p v : List Char} {ls : List Lexeme}
    (h : read m (some p) [] = .word v :: ls) : v = p := by
  unfold read at h
  split at h
  · cases h
    rfl
  · cases h

/-- A word keeps what it has begun with. -/
theorem prefix_of_read {m : Mode} {p cs v : List Char} {ls : List Lexeme}
    (h : read m (some p) cs = .word v :: ls) : p <+: v := by
  induction cs generalizing m p with
  | nil =>
    obtain rfl := eq_of_read_nil h
    exact List.prefix_rfl
  | cons c cs ih =>
    have hturn := turn_adds m p c
    unfold read at h
    cases hc : turn m (some p) c <;> rw [hc] at h hturn <;> cases hturn
    case close =>
      cases h
      exact List.prefix_rfl
    case stop => cases h
    case go hq _ => exact hq.trans (ih h)

theorem eq_or_mem_of_read_space {m : Mode} {p r v : List Char} {ls : List Lexeme}
    (h : read m (some p) (' ' :: r) = .word v :: ls) : v = p ∨ ' ' ∈ v := by
  have hmore (n : Mode) (ds : List Char) (hd : ' ' ∈ ds)
      (h : read n (some (p ++ ds)) r = .word v :: ls) : ' ' ∈ v :=
    (prefix_of_read h).subset (List.mem_append_right p hd)
  cases m with
  | bare =>
    cases h
    exact .inl rfl
  | single => exact .inr (hmore .single [' '] (by simp) h)
  | double => exact .inr (hmore .double [' '] (by simp) h)
  | escaped => exact .inr (hmore .bare [' '] (by simp) h)
  | doubleEscaped => exact .inr (hmore .double ['\\', ' '] (by simp) h)

/-- No character adds more than itself to a word, as long as the word does not go on behind a
space. -/
theorem length_le_of_read {m : Mode} {p t rest v : List Char} {ls : List Lexeme}
    (hrest : rest = [] ∨ ∃ r, rest = ' ' :: r) (h : read m (some p) (t ++ rest) = .word v :: ls) :
    ' ' ∈ v ∨ v.length ≤ p.length + t.length + m.held := by
  induction t generalizing m p with
  | nil =>
    -- A quotation that is still open takes the space in, and a word keeps what it has taken in.
    rw [List.nil_append] at h
    rcases hrest with rfl | ⟨r, rfl⟩
    · rw [eq_of_read_nil h]
      exact .inr (by omega)
    · rcases eq_or_mem_of_read_space h with rfl | hv
      · exact .inr (by omega)
      · exact .inl hv
  | cons c t ih =>
    have hturn := turn_adds m p c
    rw [List.cons_append, read] at h
    rw [List.length_cons]
    cases hc : turn m (some p) c <;> rw [hc] at h hturn <;> cases hturn
    case close =>
      cases h
      exact .inr (by omega)
    case stop => cases h
    case go hlen => exact (ih h).imp_right fun hv => by omega

section
variable {w : Option (List Char)} {t rest v : List Char} {ls : List Lexeme}
  (hrest : rest = [] ∨ ∃ r, rest = ' ' :: r)
include hrest

theorem length_le_of_read_escaped (ht : ∀ c ∈ t, c ∉ separators)
    (h : read .escaped w (t ++ rest) = .word v :: ls) :
    ' ' ∈ v ∨ v.length ≤ (w.getD []).length + t.length := by
  cases t with
  | nil =>
    rcases hrest with rfl | ⟨r, rfl⟩
    · cases h
    · have hspace : w.getD [] ++ [' '] <+: v := prefix_of_read h
      exact .inl (hspace.subset (by simp))
  | cons c t =>
    have hc : c ≠ '\n' := by
      rintro rfl
      exact ht _ List.mem_cons_self (by decide)
    have hgo : read .bare (some (w.getD [] ++ [c])) (t ++ rest) = .word v :: ls := by
      rw [List.cons_append, read, turn, if_neg hc] at h
      exact h
    refine (length_le_of_read hrest hgo).imp_right fun hv => ?_
    simp only [List.length_append, List.length_cons, List.length_nil, Mode.held] at hv ⊢
    omega

/-- What is special in a bare text is lost from the word. -/
theorem length_lt_of_read_special (ht : ∀ c ∈ t, c ∉ separators ∧ c ≠ apostrophe)
    (hspecial : ∃ c ∈ t, c ∈ special) (h : read .bare w (t ++ rest) = .word v :: ls) :
    ' ' ∈ v ∨ v.length < (w.getD []).length + t.length := by
  induction t generalizing w with
  | nil => simp at hspecial
  | cons c t ih =>
    obtain ⟨⟨hsep, hquote⟩, htail⟩ := List.forall_mem_cons.mp ht
    rw [List.cons_append] at h
    rw [List.length_cons]
    by_cases hc : c ∈ special
    · simp only [special, List.mem_append, List.mem_cons, List.not_mem_nil, or_false] at hc
      rcases hc with (hop | hexp) | rfl | rfl
      · have hturn : turn .bare w c = .close (ended w ++ [.operator c]) := by
          rw [turn, if_neg hsep, if_pos hop]
        rw [read, hturn] at h
        cases w with
        | none => cases h
        | some p =>
          cases h
          exact .inr (by simp)
      · have hturn : ∀ c ∈ expansions, turn .bare w c = .stop .expansion := by
          simp only [expansions, List.forall_mem_cons]
          exact ⟨rfl, rfl, nofun⟩
        rw [read, hturn c hexp] at h
        cases h
      · have hgo : read .double (some (w.getD [] ++ [])) (t ++ rest) = .word v :: ls := h
        refine (length_le_of_read hrest hgo).imp_right fun hv => ?_
        simp only [List.append_nil, Mode.held] at hv
        omega
      · have hgo : read .escaped w (t ++ rest) = .word v :: ls := h
        exact (length_le_of_read_escaped hrest (fun d hd => (htail d hd).1) hgo).imp_right
          fun hv => by omega
    · by_cases hhash : c = '#' ∧ w = none
      · obtain ⟨rfl, rfl⟩ := hhash
        cases h
      · have hturn := turn_plain hsep hquote hc (fun hc hw => hhash ⟨hc, hw⟩)
        rw [read, hturn] at h
        have hmem : ∃ d ∈ t, d ∈ special := by
          obtain ⟨d, hd, hds⟩ := hspecial
          rcases List.mem_cons.mp hd with rfl | hd
          · exact absurd hds hc
          · exact ⟨d, hd, hds⟩
        refine (ih htail hmem h).imp_right fun hv => ?_
        simp only [extend, Option.getD_some, List.length_append, List.length_cons,
          List.length_nil] at hv
        omega

end

end LaunchEditor.Shell
