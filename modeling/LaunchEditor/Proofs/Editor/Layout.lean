import LaunchEditor.Proofs.Editor.Preview
import LaunchEditor.Proofs.Text.Offset

/-! # The layout of the command

The command is seen on one line, or with a line for each of its tokens. The line is measured by its
bytes, so a line that fits into the columns but has characters of more than one byte can be wrapped
all the same. A line that does not fit always is.
-/
namespace LaunchEditor
open Text Terminal

/-- No line ends within the text. -/
def OneLine (s : String) : Prop := Over (· ≠ '\n') s

theorem oneLine_iff {s : String} : OneLine s ↔ '\n' ∉ s.toList :=
  ⟨fun h hs => h '\n' hs rfl, fun h _ hc heq => h (heq ▸ hc)⟩

instance (s : String) : Decidable (OneLine s) := decidable_of_iff _ oneLine_iff.symm

theorem Printable.ne_newline {c : Char} (h : Printable c) : c ≠ '\n' := by
  rintro rfl
  exact absurd h.1 (by decide)

/-- The lines that are seen above the first empty one. -/
def shownCommand (frame : String) : List String :=
  (splitOn '\n' (strip frame)).takeWhile (· ≠ "")

/-- Every line but the first is indented by four blanks. -/
def indented : List String → List String
  | [] => []
  | line :: rest => line :: rest.map ("    " ++ ·)

/-- Every line but the last ends in a blank and a backslash. -/
def continued : List String → List String
  | [] => []
  | [line] => [line]
  | line :: next :: rest => (line ++ " \\") :: continued (next :: rest)

/-- The lines of a command whose tokens are on one line if that `fits`. -/
def commandLines (fits : Prop) [Decidable fits] (tokens : List String) : List String :=
  if fits then [" ".intercalate tokens] else continued (indented tokens)

section
variable (ls : List String)

theorem length_continued : (continued ls).length = ls.length := by
  induction ls with
  | nil => rfl
  | cons l ls ih =>
    cases ls with
    | nil => rfl
    | cons m ls => simp only [continued, List.length_cons, ih]

theorem length_indented : (indented ls).length = ls.length := by
  cases ls <;> simp [indented]

theorem intercalate_continued : "\n".intercalate (continued ls) = " \\\n".intercalate ls := by
  have hmark : " \\\n" = " \\" ++ "\n" := rfl
  induction ls with
  | nil => rfl
  | cons l ls ih =>
    cases ls with
    | nil => simp [continued]
    | cons m ls =>
      have hne : continued (m :: ls) ≠ [] := by
        rw [← List.length_pos_iff, length_continued]
        exact Nat.succ_pos _
      rw [continued, String.intercalate_cons_of_ne_nil hne, ih, String.intercalate_cons_cons, hmark]
      simp only [String.append_assoc]

theorem intercalate_indented : " \\\n".intercalate (indented ls) = " \\\n    ".intercalate ls := by
  have hindent : " \\\n    " = " \\\n" ++ "    " := rfl
  cases ls with
  | nil => rfl
  | cons l ls =>
    rw [indented, intercalate_cons_eq, intercalate_cons_eq, List.map_map, hindent]
    simp only [Function.comp_def, String.append_assoc]

end

/-- What holds of all lines with and without a mark holds of the lines that are continued. -/
theorem forall_mem_continued {Q : String → Prop} {ls : List String}
    (h : ∀ l ∈ ls, Q l ∧ Q (l ++ " \\")) : ∀ l ∈ continued ls, Q l := by
  induction ls with
  | nil => simp [continued]
  | cons l ls ih =>
    obtain ⟨⟨hl, hmark⟩, hls⟩ := List.forall_mem_cons.mp h
    cases ls with
    | nil => exact List.forall_mem_singleton.mpr hl
    | cons m ls => exact List.forall_mem_cons.mpr ⟨hmark, ih hls⟩

theorem forall_mem_indented {Q : String → Prop} {ls : List String} (h : ∀ l ∈ ls, Q l)
    (hindent : ∀ l ∈ ls, Q ("    " ++ l)) : ∀ l ∈ indented ls, Q l := by
  cases ls with
  | nil => simp [indented]
  | cons l ls =>
    obtain ⟨hl, _⟩ := List.forall_mem_cons.mp h
    obtain ⟨_, hls⟩ := List.forall_mem_cons.mp hindent
    refine List.forall_mem_cons.mpr ⟨hl, ?_⟩
    simpa using hls

section
variable (fits : Prop) [Decidable fits] {tokens : List String}

theorem intercalate_commandLines : "\n".intercalate (commandLines fits tokens) =
    (if fits then " " else " \\\n    ").intercalate tokens := by
  unfold commandLines
  split
  · simp
  · rw [intercalate_continued, intercalate_indented]

theorem oneLine_commandLines (h : ∀ t ∈ tokens, OneLine t) :
    ∀ l ∈ commandLines fits tokens, OneLine l := by
  have hblank : OneLine " " := by decide
  have hindent : OneLine "    " := by decide
  have hmark : OneLine " \\" := by decide
  unfold commandLines
  split
  · exact List.forall_mem_singleton.mpr (hblank.intercalate h)
  · refine forall_mem_continued fun l hl => ?_
    have hl := forall_mem_indented h (fun t ht => hindent.append (h t ht)) l hl
    exact ⟨hl, hl.append hmark⟩

theorem commandLines_ne_nil (h : 2 ≤ tokens.length) : commandLines fits tokens ≠ [] := by
  unfold commandLines
  split
  · exact List.cons_ne_nil _ _
  · rw [← List.length_pos_iff, length_continued, length_indented]
    omega

/-- No line of a command is empty, since there are at least a program and an image. -/
theorem ne_empty_of_mem_commandLines (h : 2 ≤ tokens.length) :
    ∀ l ∈ commandLines fits tokens, l ≠ "" := by
  match tokens, h with
  | t :: u :: ts, _ =>
    unfold commandLines
    split
    · simp [String.intercalate_cons_cons]
    · refine List.forall_mem_cons.mpr ⟨by simp, forall_mem_continued ?_⟩
      simp

end

/-- The two layouts are never the same. -/
theorem commandLines_eq_iff {p q : Prop} [Decidable p] [Decidable q] {tokens : List String}
    (h : 2 ≤ tokens.length) : commandLines p tokens = commandLines q tokens ↔ (p ↔ q) := by
  have hne : [" ".intercalate tokens] ≠ continued (indented tokens) := by
    intro heq
    have hlen := congrArg List.length heq
    rw [length_continued, length_indented, List.length_singleton] at hlen
    omega
  unfold commandLines
  by_cases hp : p <;> by_cases hq : q <;> simp [hp, hq, hne, hne.symm]

/-- Lines are read back from a frame up to the empty one behind them. -/
theorem takeWhile_splitOn {lines : List String} (hlines : lines ≠ [])
    (hone : ∀ l ∈ lines, OneLine l) (hne : ∀ l ∈ lines, l ≠ "") (rest : String) :
    (splitOn '\n' ("\n".intercalate lines ++ "\n\n" ++ rest)).takeWhile (· ≠ "") = lines := by
  have hgap : "\n".intercalate lines ++ "\n\n" ++ rest = "\n".intercalate lines ++
      String.singleton '\n' ++ ("" ++ String.singleton '\n' ++ rest) := by
    apply String.toList_inj.mp
    simp
  have hempty : '\n' ∉ "".toList := by simp
  rw [hgap]
  have hsplit := splitOn_intercalate_append hlines (fun l hl => oneLine_iff.mp (hone l hl))
    ("" ++ String.singleton '\n' ++ rest)
  rw [splitOn_append hempty] at hsplit
  have hsep : "\n" = String.singleton '\n' := rfl
  rw [hsep, hsplit, List.takeWhile_append_of_pos fun l hl => by simpa using hne l hl]
  simp

theorem length_le_utf8ByteSize (s : String) : s.length ≤ s.utf8ByteSize := by
  have hle := length_le_byteLength s.toList
  rwa [byteLength, String.ofList_toList, String.length_toList] at hle

theorem oneLine_flag (k : ParameterKind) : OneLine (k.flag ++ " ") := by
  cases k <;> decide

theorem Parameter.oneLine_text {p : Parameter} (h : OneLine p.effective) : OneLine p.text :=
  (oneLine_flag p.kind).append h

theorem Edit.Fits.oneLine_token {edit : Edit} {p : Parameter} (h : edit.Fits p)
    (hp : OneLine p.effective) (theme : Theme) : OneLine (edit.token p.kind theme).plain := by
  have hblank : OneLine " " := by decide
  have hbuffer : OneLine edit.buffer := by
    intro c hc
    rw [buffer, String.toList_ofList] at hc
    exact (h.line.printable c hc).ne_newline
  have hsegments : ∀ l ∈ edit.segments, ∀ s ∈ l, OneLine s := by
    rw [h.segments]
    exact p.kind.over_split? hp
  have hassemble {b : String} (hb : OneLine b) : OneLine (p.kind.assemble edit.segments b) :=
    p.kind.over_assemble (fun _ => Printable.ne_newline) hsegments hb
  have hend := hassemble (hbuffer.append hblank)
  rw [h.assemble_eq, ← String.append_assoc] at hend
  rw [h.token_plain theme]
  refine (oneLine_flag p.kind).append ?_
  split
  · exact hend
  · exact hassemble hbuffer

/-- The layout settles on one line or many by the plain forms of the tokens. -/
theorem assemble_plain {ts : List Token} (hts : ∀ t ∈ ts, t.styled = t.plain) :
    assemble ⟨false⟩ ts = "\n".intercalate
      (commandLines ((" ".intercalate (ts.map (·.plain))).utf8ByteSize ≤ wrapWidth)
        (ts.map (·.plain))) := by
  have hstyled : ts.map (·.styled) = ts.map (·.plain) := List.map_congr_left hts
  have hcontinuation : continuation ⟨false⟩ = " \\\n    " := rfl
  rw [intercalate_commandLines, assemble_eq_intercalate, hstyled, hcontinuation]

namespace Editor

theorem two_le_length_tokens (e : Editor) (theme : Theme) : 2 ≤ (e.tokens theme).length := by
  simp only [tokens, List.length_append, List.length_cons, List.length_nil]
  omega

/-- What a run has brought into the tokens comes from the catalog and from keys. -/
theorem run_oneLine_tokens (c : Catalog) (image : String) (messages : List Message)
    (theme : Theme) :
    let e := (new c image).run messages
    OneLine e.program → OneLine e.image →
    (∀ p ∈ e.parameters, ∀ v ∈ p.candidates, OneLine v) →
    ∀ t ∈ e.tokens theme, OneLine t.plain := by
  intro e hprogram himage hcandidates
  have hvalues : ∀ p ∈ e.parameters, OneLine p.effective := by
    intro p hp
    refine run_inherits (fun _ => Printable.ne_newline) c image messages p hp ?_
    rw [Parameter.default]
    cases hc : p.candidates with
    | nil => exact (by decide : OneLine "")
    | cons v vs => exact hcandidates p hp v (by simp [hc])
  have hflag (f : RunFlag) : OneLine f.token := by
    cases f <;> decide
  refine forall_mem_tokens hprogram hflag (fun i p hp => ?_) himage
  have hvalue := hvalues p (List.mem_of_getElem? hp)
  have htext := Parameter.oneLine_text hvalue
  unfold parameterToken
  split
  · next hi =>
    cases he : e.edit with
    | none => exact htext
    | some edit =>
      obtain ⟨q, hq, hfits⟩ := (run_consistent c image messages).edit edit he
      obtain rfl : p = q := by
        rw [hi] at hp
        exact Option.some.inj (hp.symm.trans hq)
      exact hfits.oneLine_token hvalue theme
  · split <;> exact htext

/-- Wherever a run has led that has not failed, the tokens are seen on one line if that has at most
80 bytes, and otherwise each on a line of its own. So the layout is as the columns have it unless
the line fits into 80 columns, but for characters of more than one byte not into 80 bytes. -/
theorem shownCommand_frame (c : Catalog) (image : String) (messages : List Message)
    (theme : Theme) :
    let e := (new c image).run messages
    let tokens := (e.tokens theme).map (·.plain)
    let line := " ".intercalate tokens
    e.failure = none →
    (∀ s ∈ e.program :: e.image :: e.parameters.flatMap (·.candidates),
      OneLine s ∧ Unescaped s) →
    shownCommand (e.frame theme) = commandLines (line.utf8ByteSize ≤ 80) tokens ∧
      (shownCommand (e.frame theme) = commandLines (line.length ≤ 80) tokens ↔
        (line.length ≤ 80 → line.utf8ByteSize ≤ 80)) := by
  intro e tokens line hf htexts
  obtain ⟨hprogram, himage, hcandidates⟩ : OneLine e.program ∧ OneLine e.image ∧
      ∀ p ∈ e.parameters, ∀ v ∈ p.candidates, OneLine v := by
    simpa only [List.forall_mem_cons, List.forall_mem_flatMap] using fun s hs => (htexts s hs).1
  have hlegible : e.Legible :=
    run_legible_of_texts c image messages hf fun s hs => (htexts s hs).2
  have hone : ∀ t ∈ tokens, OneLine t :=
    List.forall_mem_map.mpr (run_oneLine_tokens c image messages theme hprogram himage hcandidates)
  have hlen : 2 ≤ tokens.length := by
    rw [List.length_map]
    exact e.two_le_length_tokens theme
  have hshown : shownCommand (e.frame theme) = commandLines (line.utf8ByteSize ≤ 80) tokens := by
    have htokens : (e.tokens ⟨false⟩).map (·.plain) = tokens := e.tokens_plain_eq _ _
    have hframe : e.frame ⟨false⟩ = "\n".intercalate
        (commandLines (line.utf8ByteSize ≤ 80) tokens) ++ "\n\n" ++ e.legend := by
      have hassemble := assemble_plain e.tokens_styled_plain
      rw [htokens] at hassemble
      simp only [frame, hf, paint_plain]
      rw [hassemble]
      rfl
    rw [shownCommand, (hlegible.frame_shows theme).strip_eq, hframe]
    exact takeWhile_splitOn (commandLines_ne_nil _ hlen) (oneLine_commandLines _ hone)
      (ne_empty_of_mem_commandLines _ hlen) e.legend
  refine ⟨hshown, ?_⟩
  rw [hshown, commandLines_eq_iff hlen]
  have hle := length_le_utf8ByteSize line
  omega

/-- The blank under the cursor counts, so a line of 80 columns is wrapped while it is edited. -/
theorem shownCommand_frame_blank :
    let value := "/a:/srv/containers/production/configuration/web/frontends"
    let profile : Profile := { parameters := [{ kind := .volume, candidates := [value] }] }
    let c : Catalog := { images := [("img", profile)] }
    let e := (new c "img").run [.key (.char 'x')]
    let accepted := (new c "img").run [.key (.char 'x'), .key .enter]
    let line := "docker run --volume x :/srv/containers/production/configuration/web/frontends img"
    (e.failure = none ∧ ∀ s ∈ e.program :: e.image :: e.parameters.flatMap (·.candidates),
      OneLine s ∧ Unescaped s) ∧ line.length = 81 ∧
    " ".intercalate ((e.tokens ⟨true⟩).map (·.plain)) = line ∧
    shownCommand (e.frame ⟨true⟩) = ["docker run \\",
      "    --volume x :/srv/containers/production/configuration/web/frontends \\", "    img"] ∧
    (shownCommand (accepted.frame ⟨true⟩)).map (·.length) = [80] := by
  intro value profile c e accepted line
  have hf : e.failure = none := rfl
  have htexts : ∀ s ∈ e.program :: e.image :: e.parameters.flatMap (·.candidates),
      OneLine s ∧ Unescaped s := by decide +kernel
  obtain ⟨hedited, _⟩ := shownCommand_frame c "img" [.key (.char 'x')] ⟨true⟩ hf htexts
  obtain ⟨haccepted, _⟩ := shownCommand_frame c "img" [.key (.char 'x'), .key .enter] ⟨true⟩ rfl
    (by decide +kernel)
  refine ⟨⟨hf, htexts⟩, by decide +kernel, by decide +kernel,
    hedited.trans (by decide +kernel), ?_⟩
  rw [haccepted]
  decide +kernel

/-- A line of 52 columns is wrapped if 30 of them are accented letters. -/
theorem shownCommand_frame_accents :
    let name := "éééééééééééééééééééééééééééééé"
    let profile : Profile := { parameters := [{ kind := .name, candidates := [name] }] }
    let e := new { images := [("img", profile)] } "img"
    let tokens := (e.tokens ⟨false⟩).map (·.plain)
    (" ".intercalate tokens).length = 52 ∧ (" ".intercalate tokens).utf8ByteSize = 82 ∧
    shownCommand (e.frame ⟨false⟩) = ["docker run \\", "    --name " ++ name ++ " \\", "    img"] ∧
    shownCommand (e.frame ⟨false⟩) ≠
      commandLines ((" ".intercalate tokens).length ≤ 80) tokens := by
  intro name profile e tokens
  have hshown : shownCommand (e.frame ⟨false⟩) =
      ["docker run \\", "    --name " ++ name ++ " \\", "    img"] := by decide +kernel
  have hlength : (" ".intercalate tokens).length = 52 := by decide +kernel
  have hlines : commandLines ((" ".intercalate tokens).length ≤ 80) tokens =
      [" ".intercalate tokens] := if_pos (by omega)
  refine ⟨hlength, by decide +kernel, hshown, ?_⟩
  rw [hshown, hlines]
  simp

end Editor
end LaunchEditor
