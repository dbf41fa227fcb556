import LaunchEditor.Proofs.Editor.Color
import LaunchEditor.Proofs.Options.Apply
import Mathlib.Data.List.Flatten
import Mathlib.Data.List.Perm.Subperm
import Mathlib.Data.Multiset.Basic

/-! # The preview and the command

While it is browsed, the editor prints an entry for each of its switches and parameters between the
program and the image, each entry whole and in one style. The command that comes of it has no other
entries. It lacks the repetitions of a switch, and all names and entrypoints but the last.
-/
namespace LaunchEditor
open List Terminal

namespace Entry

def kind? : Entry → Option ParameterKind
  | switch _ => none
  | value k _ => some k

theorem switch_injective : Function.Injective switch := fun _ _ h => switch.inj h

theorem map_value_valuesOf (k : ParameterKind) (es : List Entry) :
    (valuesOf k es).map (value k) = es.filter (·.kind? == some k) := by
  induction es with
  | nil => rfl
  | cons e es ih =>
    cases e with
    | switch f => simpa [valuesOf, kind?] using ih
    | value j v =>
      by_cases h : j = k
      · simpa [valuesOf, kind?, h] using ih
      · simpa [valuesOf, kind?, h] using ih

/-- Values can be sorted by kind. -/
theorem ofValues_valuesOf_perm {es : List Entry} (h : ∀ e ∈ es, e.kind? ≠ none) :
    (ofValues fun k => valuesOf k es) ~ es := by
  simp only [ofValues, map_value_valuesOf]
  apply perm_iff_count.mpr
  intro a
  cases ha : a.kind? with
  | none =>
    have hes : a ∉ es := fun hm => h a hm ha
    simp [count_eq_zero_of_not_mem hes, count_eq_zero, hes]
  | some j =>
    have hcount (k : ParameterKind) :
        (es.filter (·.kind? == some k)).count a = if k = j then es.count a else 0 := by
      by_cases hk : k = j
      · rw [if_pos hk, count_filter (by simp [ha, hk])]
      · rw [if_neg hk, count_eq_zero]
        simp [ha, Ne.symm hk]
    cases j <;> simp [ParameterKind.all, hcount]

end Entry

namespace ParameterKind

theorem length_keep_single (vs : List String) : vs.getLast?.toList.length = min 1 vs.length := by
  cases vs with
  | nil => rfl
  | cons v vs => simp [getLast?_cons]

end ParameterKind

/-- Parts that are contained make up the whole only if each of them does. -/
theorem append_perm_append_iff {α : Type} {a b c d : List α} (hab : a <+~ b) (hcd : c <+~ d) :
    a ++ c ~ b ++ d ↔ a ~ b ∧ c ~ d := by
  constructor
  · intro h
    have hlen := h.length_eq
    have hal := hab.length_le
    have hcl := hcd.length_le
    simp only [length_append] at hlen
    exact ⟨hab.perm_of_length_le (by omega), hcd.perm_of_length_le (by omega)⟩
  · rintro ⟨h, h'⟩
    exact h.append h'

/-- Switching on what is asked for keeps one of each. -/
theorem switches_perm_iff {fs gs : List RunFlag} (hgs : gs.Nodup) (hmem : ∀ f, f ∈ gs ↔ f ∈ fs) :
    gs <+~ fs ∧ (gs ~ fs ↔ fs.Nodup) := by
  refine ⟨hgs.subperm fun f hf => (hmem f).mp hf, fun h => h.nodup_iff.mp hgs, fun h => ?_⟩
  exact (perm_ext_iff_of_nodup hgs h).mpr hmem

section
variable {es : List Entry} (h : ∀ e ∈ es, e.kind? ≠ none)
include h

theorem keep_subperm :
    (Entry.ofValues fun k => k.keep (Entry.valuesOf k es)) <+~ es := by
  have hsub := Sublist.flatMap_right ParameterKind.all fun k _ =>
    (k.keep_sublist (Entry.valuesOf k es)).map (Entry.value k)
  exact hsub.subperm.trans (Entry.ofValues_valuesOf_perm h).subperm

theorem keep_perm_iff :
    (Entry.ofValues fun k => k.keep (Entry.valuesOf k es)) ~ es ↔
      (Entry.valuesOf .name es).length ≤ 1 ∧ (Entry.valuesOf .entrypoint es).length ≤ 1 := by
  have hall := (Entry.ofValues_valuesOf_perm h).length_eq
  have hperm : (Entry.ofValues fun k => k.keep (Entry.valuesOf k es)) ~ es ↔
      es.length ≤ (Entry.ofValues fun k => k.keep (Entry.valuesOf k es)).length :=
    ⟨fun hp => hp.length_eq.ge, (keep_subperm h).perm_of_length_le⟩
  rw [hperm]
  simp only [Entry.length_ofValues, ParameterKind.keep, ParameterKind.length_keep_single] at hall ⊢
  omega

end

namespace Editor

/-- The entries that the editor shows while it is browsed. -/
def entries (e : Editor) : List Entry := e.flags.map .switch ++ e.parameters.map (·.entry)

/-- The texts of the command that it shows, in order. -/
def shown (e : Editor) : List String := e.program :: e.entries.map (·.text) ++ [e.image]

theorem parameterToken_plain {e : Editor} (he : e.edit = none) (theme : Theme)
    (p : Parameter) (i : Nat) : (e.parameterToken theme p i).plain = p.entry.text := by
  have htext : p.text = p.entry.text := rfl
  simp only [parameterToken, he, ← htext]
  split
  · rfl
  · split <;> rfl

theorem tokens_plain {e : Editor} (he : e.edit = none) (theme : Theme) :
    (e.tokens theme).map (·.plain) = e.shown := by
  have hparameters : (e.parameterTokens theme).map (·.plain) = e.parameters.map (·.entry.text) := by
    apply ext_getElem?
    intro i
    simp [parameterTokens, Function.comp_def, parameterToken_plain he]
  have hswitch (f : RunFlag) : (Entry.switch f).text = f.token := rfl
  simp [tokens, shown, entries, hparameters, Token.styledAs, Function.comp_def, hswitch]

theorem tokens_paints {e : Editor} (he : e.edit = none) (theme : Theme) :
    ∀ t ∈ e.tokens theme, theme.Paints t.plain t.styled := by
  refine forall_mem_tokens (theme.paints_paint .dim _) (fun f => theme.paints_paint .dim _)
    (fun i p _ => ?_) (theme.paints_paint .dim _)
  unfold parameterToken
  rw [he]
  split
  · exact theme.paints_paint .highlight p.text
  · split
    · exact theme.paints_paint .modified p.text
    · exact .inl rfl

theorem shown_paints {e : Editor} (he : e.edit = none) (theme : Theme) :
    Forall₂ theme.Paints e.shown ((e.tokens theme).map (·.styled)) := by
  rw [← tokens_plain he theme, forall₂_map_left_iff, forall₂_map_right_iff, forall₂_same]
  exact tokens_paints he theme

/-- The width of what is shown settles what stands in between. -/
theorem frame_of_browsing {e : Editor} (hf : e.failure = none) (he : e.edit = none)
    (theme : Theme) : e.frame theme =
      (if (" ".intercalate e.shown).utf8ByteSize ≤ 80 then " "
        else continuation theme).intercalate ((e.tokens theme).map (·.styled)) ++
        "\n\n" ++ theme.paint .dim browsingLegend := by
  have hlegend : e.legend = browsingLegend := by
    rw [legend, mode, he]
    rfl
  simp only [frame, hf]
  rw [assemble_eq_intercalate, tokens_plain he, hlegend]
  rfl

theorem frame_plain {e : Editor} (hf : e.failure = none) (he : e.edit = none) :
    e.frame ⟨false⟩ = (if (" ".intercalate e.shown).utf8ByteSize ≤ 80 then " "
      else " \\\n    ").intercalate e.shown ++ "\n\n" ++ browsingLegend := by
  have hstyled : (e.tokens ⟨false⟩).map (·.styled) = e.shown :=
    (map_congr_left e.tokens_styled_plain).trans (tokens_plain he ⟨false⟩)
  have hcontinuation : continuation ⟨false⟩ = " \\\n    " := rfl
  rw [frame_of_browsing hf he, hstyled, hcontinuation, paint_plain]

theorem valuesOf_map_entry (ps : List Parameter) (k : ParameterKind) :
    Entry.valuesOf k (ps.map (·.entry)) = (ps.filter (·.kind = k)).map (·.effective) := by
  induction ps with
  | nil => rfl
  | cons p ps ih =>
    by_cases h : p.kind = k <;> simp_all [Entry.valuesOf, Parameter.entry]

theorem count_kind_eq (ps : List Parameter) (k : ParameterKind) :
    (ps.map (·.kind)).count k = (Entry.valuesOf k (ps.map (·.entry))).length := by
  rw [valuesOf_map_entry, length_map, count, countP_map, countP_eq_length_filter]
  rfl

/-- What the user settled on. -/
def selections (e : Editor) : Selections :=
  { Selections.ofParameters e.parameters with flags := e.flags }

theorem commit_eq_ok {e : Editor} {s : Selections} :
    e.commit = .ok s ↔ e.edit = none ∧ e.failure = none ∧ s = e.selections := by
  cases hf : e.failure with
  | some reason => simp [commit, hf]
  | none =>
    cases he : e.edit with
    | some edit => simp [commit, hf, he]
    | none =>
      simp only [commit, hf, he, true_and, Except.ok.injEq]
      exact eq_comm

theorem selections_valuesOf (e : Editor) (k : ParameterKind) :
    e.selections.valuesOf k = k.keep ((e.parameters.filter (·.kind = k)).map (·.effective)) := by
  have hflags : e.selections.valuesOf k = (Selections.ofParameters e.parameters).valuesOf k := by
    cases k <;> rfl
  rw [hflags, Selections.valuesOf_ofParameters, valuesOf_map_entry]

/-- The options that come of an editor alone. -/
def launch (e : Editor) : LaunchOptions := ({ image := e.image } : LaunchOptions).apply e.selections

section
variable (e : Editor)

theorem launch_isOn (f : RunFlag) : e.launch.isOn f = true ↔ f ∈ e.flags := by
  have hoff : ({ image := e.image } : LaunchOptions).isOn f = false := by
    cases f <;> rfl
  rw [launch, LaunchOptions.apply_isOn, hoff]
  simp [selections]

theorem launch_valuesOf (k : ParameterKind) :
    e.launch.valuesOf k = k.keep (Entry.valuesOf k (e.parameters.map (·.entry))) := by
  have hnone : ({ image := e.image } : LaunchOptions).valuesOf k = [] := by
    cases k <;> rfl
  rw [launch, LaunchOptions.apply_valuesOf, hnone, List.nil_append, Selections.keep_valuesOf,
    selections_valuesOf, valuesOf_map_entry]

theorem kind?_map_entry : ∀ entry ∈ e.parameters.map (·.entry), entry.kind? ≠ none := by
  intro entry h
  obtain ⟨p, _, rfl⟩ := mem_map.mp h
  simp [Parameter.entry, Entry.kind?]

theorem launch_entries : e.launch.entries =
    (RunFlag.all.filter e.launch.isOn).map .switch ++
      Entry.ofValues fun k => k.keep (Entry.valuesOf k (e.parameters.map (·.entry))) := by
  have hvalues : e.launch.valuesOf = fun k =>
      k.keep (Entry.valuesOf k (e.parameters.map (·.entry))) := funext e.launch_valuesOf
  rw [LaunchOptions.entries, LaunchOptions.switches_eq, hvalues]

theorem mem_filter_isOn (f : RunFlag) : f ∈ RunFlag.all.filter e.launch.isOn ↔ f ∈ e.flags := by
  rw [mem_filter, launch_isOn]
  exact and_iff_right f.mem_all

theorem launch_switches :
    RunFlag.all.filter e.launch.isOn <+~ e.flags ∧
      (RunFlag.all.filter e.launch.isOn ~ e.flags ↔ e.flags.Nodup) :=
  switches_perm_iff ((by decide : RunFlag.all.Nodup).filter _) e.mem_filter_isOn

theorem launch_entries_subperm : e.launch.entries <+~ e.entries := by
  rw [launch_entries]
  exact (e.launch_switches.1.map Entry.switch_injective).append (keep_subperm e.kind?_map_entry)

theorem launch_entries_perm_iff : e.launch.entries ~ e.entries ↔
    (e.parameters.map (·.kind)).count .name ≤ 1 ∧
      (e.parameters.map (·.kind)).count .entrypoint ≤ 1 ∧ e.flags.Nodup := by
  have hsplit := append_perm_append_iff (e.launch_switches.1.map Entry.switch_injective)
    (keep_subperm e.kind?_map_entry)
  rw [launch_entries, entries, hsplit, map_perm_map_iff Entry.switch_injective,
    e.launch_switches.2, keep_perm_iff e.kind?_map_entry, count_kind_eq, count_kind_eq]
  exact ⟨fun ⟨hf, hn, he⟩ => ⟨hn, he, hf⟩, fun ⟨hn, he, hf⟩ => ⟨hf, hn, he⟩⟩

end

/-- The command that comes of an editor which is browsed says nothing but what its frame shows. The
frame has the program, the entries and the image on one line or each on its own, with colors as
without. The command has every volume, variable and port in order, and all that is shown just in
case there is at most one name, at most one entrypoint and no switch twice. -/
theorem commandLine_preview (c : Catalog) (image : String) (messages : List Message)
    (hmode : ((new c image).run messages).mode = .browsing)
    (hfailure : ((new c image).run messages).failure = none) :
    let e := (new c image).run messages
    let fits := (" ".intercalate e.shown).utf8ByteSize ≤ 80
    (e.frame ⟨false⟩ = (if fits then " " else " \\\n    ").intercalate e.shown ++ "\n\n" ++
        browsingLegend ∧
      ∀ theme,
        (∃ painted, Forall₂ theme.Paints e.shown painted ∧ e.frame theme =
          (if fits then " " else continuation theme).intercalate painted ++ "\n\n" ++
            theme.paint .dim browsingLegend) ∧
        ((∀ s ∈ e.program :: e.image :: e.parameters.flatMap (·.candidates), Unescaped s) →
          strip (e.frame theme) = e.frame ⟨false⟩)) ∧
    ∃ s entries, e.commit = .ok s ∧
      let o := (({ launch := { image := e.image } } : Options).apply s).launch
      o.commandLine e.program =
        Text.words e.program ++ entries.flatMap Entry.words ++ [e.image] ∧
      Entry.ofWords? (Entry.between e.program (o.commandLine e.program)) = some entries ∧
      (entries : Multiset Entry) ≤ e.entries ∧
      (∀ k ∈ [.volume, .env, .port],
        Entry.valuesOf k entries = (e.parameters.filter (·.kind = k)).map (·.effective)) ∧
      ((entries : Multiset Entry) = e.entries ↔
        (e.parameters.map (·.kind)).count .name ≤ 1 ∧
          (e.parameters.map (·.kind)).count .entrypoint ≤ 1 ∧ e.flags.Nodup) := by
  intro e fits
  have he : e.edit = none := edit_of_browsing hmode
  have hf : e.failure = none := hfailure
  have hcommit : e.commit = .ok e.selections := by
    simp [commit, he, hf, selections]
  have himage : e.launch.image = e.image := LaunchOptions.apply_image _ _
  refine ⟨⟨frame_plain hf he, fun theme => ⟨?_, fun htexts => ?_⟩⟩, ?_⟩
  · exact ⟨_, shown_paints he theme, frame_of_browsing hf he theme⟩
  · have hlegible : e.Legible := run_legible_of_texts c image messages hf htexts
    exact (hlegible.frame_shows theme).strip_eq
  · refine ⟨e.selections, e.launch.entries, hcommit, ?_, ?_, ?_, ?_, ?_⟩
    · have hline := e.launch.commandLine_eq e.program
      rw [himage] at hline
      exact hline
    · exact e.launch.entriesOf_commandLine e.program
    · exact e.launch_entries_subperm
    · intro k hk
      rw [LaunchOptions.valuesOf_entries, launch_valuesOf, ParameterKind.keep_of_mem hk,
        valuesOf_map_entry]
    · exact Multiset.coe_eq_coe.trans e.launch_entries_perm_iff

/-- The first of two names is shown and not launched, whatever is typed for it. -/
theorem commandLine_preview_second_name :
    let profile : Profile :=
      { flags := [.tty]
        parameters := [{ kind := .name, candidates := ["first"] },
          { kind := .env, candidates := ["MODE=fast"] },
          { kind := .name, candidates := ["second"] }] }
    let messages : List Message := [.key (.char 'w'), .key .tab, .key (.char '7'), .key .escape]
    let e := (new { images := [("image", profile)] } "image").run messages
    let shown := "docker run --tty --name w --env MODE=fast --name second image\n\n" ++
      browsingLegend
    e.mode = .browsing ∧ e.failure = none ∧ Entry.value .name "w" ∈ e.entries ∧
      e.frame ⟨false⟩ = shown ∧ e.frame ⟨true⟩ ≠ shown ∧ strip (e.frame ⟨true⟩) = shown ∧
      ∃ (s : Selections) (entries : List Entry), e.commit = .ok s ∧
        (({ launch := { image := e.image } } : Options).apply s).launch.commandLine e.program =
          ["docker", "run"] ++ entries.flatMap Entry.words ++ ["image"] ∧
        (entries : Multiset Entry) < e.entries ∧ Entry.valuesOf .env entries = ["MODE=fast"] := by
  intro profile messages e shown
  have hmode : e.mode = .browsing := rfl
  have hfailure : e.failure = none := rfl
  obtain ⟨⟨hplain, hcolored⟩, s, entries, hcommit, hline, _, hle, hvalues, hiff⟩ :=
    commandLine_preview { images := [("image", profile)] } "image" messages hmode hfailure
  have hframe : e.frame ⟨false⟩ = shown := hplain.trans (by decide +kernel)
  have hstrip : strip (e.frame ⟨true⟩) = shown :=
    ((hcolored ⟨true⟩).2 (by decide +kernel)).trans hframe
  have hwords : Text.words e.program = ["docker", "run"] := by decide +kernel
  have himage : e.image = "image" := rfl
  have hne : (entries : Multiset Entry) ≠ e.entries := fun h =>
    absurd (hiff.mp h).1 (by decide : ¬ (e.parameters.map (·.kind)).count .name ≤ 1)
  rw [hwords, himage] at hline
  exact ⟨hmode, hfailure, by decide, hframe, by decide +kernel, hstrip, s, entries, hcommit, hline,
    lt_of_le_of_ne hle hne, hvalues .env (by decide)⟩

end Editor
end LaunchEditor
