import LaunchEditor.Proofs.Options.Given
import LaunchEditor.Proofs.Text.Split

/-! # The grammar of command lines is unambiguous

A word of options has at most one reading: what it starts with tells long options from letters, and
the first equals sign tells a name from its value. So a command line gives one list of items only.
-/
namespace LaunchEditor.Arguments
open Text

theorem Letters.unique {cs : List Char} {items items' : List Item} {next next' : Option Valued}
    (h : Letters cs items next) (h' : Letters cs items' next') : items = items' ∧ next = next' := by
  induction h generalizing items' next' with
  | nil =>
    cases h'
    exact ⟨rfl, rfl⟩
  | switch hc _ ih =>
    cases h' with
    | switch hc' h' =>
      obtain ⟨rfl, rfl⟩ := ih h'
      simp_all
    | await hc' | equals hc' | attached hc' => simp_all
  | await hc =>
    cases h' with
    | switch hc' | await hc' => simp_all
  | equals hc text =>
    cases h' with
    | switch hc' => simp_all
    | equals hc' => simp_all
    | attached hc' hd' => exact absurd rfl hd'
  | attached hc hd text =>
    cases h' with
    | switch hc' => simp_all
    | equals hc' => exact absurd rfl hd
    | attached hc' => simp_all

theorem Letters.ne_hyphen {c : Char} {cs : List Char} {items : List Item} {next : Option Valued}
    (h : Letters (c :: cs) items next) : c ≠ '-' := by
  have hnone : shortOptions.lookup '-' = none := by decide
  rintro rfl
  cases h with
  | switch hc | await hc | equals hc | attached hc =>
    rw [hnone] at hc
    cases hc

theorem notMem_equals {name : String} {x : Declared} (h : longOptions.lookup name = some x) :
    '=' ∉ name.toList := by
  have hall : ∀ entry ∈ longOptions, '=' ∉ entry.1.toList := by decide
  obtain ⟨before, after, heq, _⟩ := List.lookup_eq_some_iff.mp h
  have hmem : (name, x) ∈ longOptions := by simp [heq]
  exact hall _ hmem

/-- What a word that names a long option up to its first equals sign can give. -/
def Declared.given? (w : String) : Declared → Option (List Item × Option Valued)
  | .valued v => some (if '=' ∈ w.toList then ([.value v (past '=' w)], none) else ([], some v))
  | .switch s => some ([.switch s], none)
  | .help => none

theorem Asks.letters_or_long {w : String} {new : List Item} {next : Option Valued}
    (h : Asks w new next) :
    (∃ c cs, w = String.ofList ('-' :: c :: cs) ∧ Letters (c :: cs) new next) ∨
      ∃ name x, upTo '=' w = "--" ++ name ∧ longOptions.lookup name = some x ∧
        x.given? w = some (new, next) := by
  have hfree {name : String} {x : Declared} (hn : longOptions.lookup name = some x) :
      '=' ∉ ("--" ++ name).toList := by
    simpa using notMem_equals hn
  cases h with
  | letters h => exact .inl ⟨_, _, rfl, h⟩
  | @switch name s hn => exact .inr ⟨name, _, upTo_of_notMem (hfree hn), hn, rfl⟩
  | @await name v hn =>
    exact .inr ⟨name, _, upTo_of_notMem (hfree hn), hn, congrArg some (if_neg (hfree hn))⟩
  | @equals name v hn text =>
    have hpast := past_append (hfree hn) text
    have hmem : '=' ∈ ("--" ++ name ++ "=" ++ text).toList := by simp
    refine .inr ⟨name, _, upTo_append (hfree hn) text, hn, congrArg some ?_⟩
    rw [if_pos hmem]
    exact congrArg (fun text => ([Item.value v text], none)) hpast

theorem exists_toList_eq {w name : String} (h : upTo '=' w = "--" ++ name) :
    ∃ rest, w.toList = '-' :: '-' :: (name.toList ++ rest) := by
  have hword := congrArg String.toList (upTo_append_onward '=' w)
  rw [h] at hword
  exact ⟨(onward '=' w).toList, by simpa using hword.symm⟩

theorem ne_hyphens_of_letters {c : Char} {cs : List Char} {new : List Item} {next : Option Valued}
    (h : Letters (c :: cs) new next) (name : String) :
    upTo '=' (String.ofList ('-' :: c :: cs)) ≠ "--" ++ name := by
  intro heq
  obtain ⟨rest, hword⟩ := exists_toList_eq heq
  rw [String.toList_ofList, List.cons.injEq, List.cons.injEq] at hword
  exact h.ne_hyphen hword.2.1

theorem Asks.unique {w : String} {new new' : List Item} {next next' : Option Valued}
    (h : Asks w new next) (h' : Asks w new' next') : new = new' ∧ next = next' := by
  rcases h.letters_or_long with ⟨c, cs, rfl, hl⟩ | ⟨name, x, hw, hx, hgiven⟩
  · rcases h'.letters_or_long with ⟨c', cs', heq, hl'⟩ | ⟨name, _, hw', _⟩
    · have hlist := String.ofList_injective heq
      obtain ⟨rfl, rfl⟩ : c = c' ∧ cs = cs' := by simpa using hlist
      exact hl.unique hl'
    · exact absurd hw' (ne_hyphens_of_letters hl name)
  · rcases h'.letters_or_long with ⟨c, cs, rfl, hl'⟩ | ⟨name', x', hw', hx', hgiven'⟩
    · exact absurd hw (ne_hyphens_of_letters hl' name)
    · obtain rfl : name = name' := by simpa using hw.symm.trans hw'
      obtain rfl : x = x' := Option.some.inj (hx.symm.trans hx')
      have hsame := Option.some.inj (hgiven.symm.trans hgiven')
      exact ⟨congrArg Prod.fst hsame, congrArg Prod.snd hsame⟩

theorem Asks.dashed {w : String} {new : List Item} {next : Option Valued} (h : Asks w new next) :
    Dashed w ∧ w ≠ "--" := by
  rcases h.letters_or_long with ⟨c, cs, rfl, hl⟩ | ⟨name, x, hw, hx, _⟩
  · have hlist := String.toList_ofList (l := '-' :: c :: cs)
    refine ⟨⟨?_, by simp⟩, ?_⟩
    · intro heq
      rw [heq] at hlist
      cases hlist
    · intro heq
      rw [heq] at hlist
      cases hlist
      exact hl.ne_hyphen rfl
  · obtain ⟨rest, hlist⟩ := exists_toList_eq hw
    refine ⟨⟨?_, by simp [hlist]⟩, ?_⟩
    · rintro rfl
      simp at hlist
    · rintro rfl
      obtain ⟨rfl, _⟩ : name = "" ∧ rest = [] := by simpa using hlist
      cases hx

/-- The words of a command line give no two different lists of items. -/
theorem Gives.unique {words : List String} {items items' : List Item} {next : Option Valued}
    (h : Gives next words items) (h' : Gives next words items') : items = items' := by
  have hdashed : Dashed "--" := by decide
  induction h generalizing items' with
  | nil =>
    cases h'
    rfl
  | literal words =>
    cases h' with
    | literal => rfl
    | image hw => exact absurd hdashed hw
    | options hw => exact absurd rfl hw.dashed.2
  | image hw _ ih =>
    cases h' with
    | literal => exact absurd hdashed hw
    | image _ h' => rw [ih h']
    | options hw' => exact absurd hw'.dashed.1 hw
  | value hw _ ih =>
    cases h' with
    | value _ h' => rw [ih h']
  | options hw _ ih =>
    cases h' with
    | literal => exact absurd rfl hw.dashed.2
    | image hw' => exact absurd hw.dashed.1 hw'
    | options hw' h' =>
      obtain ⟨rfl, rfl⟩ := hw.unique hw'
      rw [ih h']

end LaunchEditor.Arguments
