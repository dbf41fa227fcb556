import LaunchEditor.Editor.Frame
import LaunchEditor.Proofs.Editor.Characters
import LaunchEditor.Proofs.Terminal.Visible

/-! # Color

Every token is written twice, plain and styled, and the layout is settled by the plain ones. What is
seen of a styled token is its plain form, so with and without color the same is seen of a frame.
-/
namespace LaunchEditor
open Text Terminal

/-- No character of the text starts an escape sequence. -/
def Unescaped (s : String) : Prop := Over (· ≠ escape) s

theorem unescaped_iff {s : String} : Unescaped s ↔ escape ∉ s.toList :=
  ⟨fun h hs => h escape hs rfl, fun h _ hc heq => h (heq ▸ hc)⟩

instance (s : String) : Decidable (Unescaped s) := decidable_of_iff _ unescaped_iff.symm

theorem Printable.ne_escape {c : Char} (h : Printable c) : c ≠ escape := by
  rintro rfl
  exact absurd h.1 (by decide)

theorem Unescaped.shows {s : String} (h : Unescaped s) : Shows s s :=
  .of_notMem (unescaped_iff.mp h)

theorem Unescaped.shows_paint {s : String} (h : Unescaped s) (theme : Theme) (style : Style) :
    Shows (theme.paint style s) s :=
  .paint theme style (unescaped_iff.mp h)

theorem paint_plain (style : Style) (s : String) : (⟨false⟩ : Theme).paint style s = s := by
  simp [Theme.paint]

theorem unescaped_token (f : RunFlag) : Unescaped f.token := by
  cases f <;> decide

theorem unescaped_flag (k : ParameterKind) : Unescaped k.flag := by
  cases k <;> decide

theorem Parameter.unescaped_text {p : Parameter} (h : Unescaped p.effective) :
    Unescaped p.text := by
  have hblank : Unescaped " " := by decide
  exact ((unescaped_flag p.kind).append hblank).append h

namespace Edit

/-- The edit has nothing in its segments or its line that starts an escape sequence. -/
structure Legible (e : Edit) : Prop where
  segments : ∀ l ∈ e.segments, ∀ s ∈ l, Unescaped s
  line : e.line.WellFormed

theorem Fits.legible {edit : Edit} {p : Parameter} (h : edit.Fits p) (hp : Unescaped p.effective) :
    edit.Legible where
  segments := by
    rw [h.segments]
    exact p.kind.over_split? hp
  line := h.line

namespace Legible
variable {e : Edit} (h : e.Legible)
include h

theorem surroundings (k : ParameterKind) :
    Unescaped (e.surroundings k).1 ∧ Unescaped (e.surroundings k).2 := by
  have hempty : Unescaped "" := by decide
  unfold Edit.surroundings
  split
  · rename_i l sep hl hsep
    have hsegments := h.segments l hl
    have hsep' : Unescaped (String.singleton sep) :=
      ParameterKind.over_singleton_separator (fun _ => Printable.ne_escape) hsep
    refine ⟨Over.join fun s hs => ?_, Over.join fun s hs => ?_⟩
    · obtain ⟨t, ht, rfl⟩ := List.mem_map.mp hs
      exact (hsegments t (List.mem_of_mem_take ht)).append hsep'
    · obtain ⟨t, ht, rfl⟩ := List.mem_map.mp hs
      exact hsep'.append (hsegments t (List.mem_of_mem_drop ht))
  · exact ⟨hempty, hempty⟩

theorem of_subset (cs : List Char) (hcs : ∀ c ∈ cs, c ∈ e.line.text) :
    Unescaped (String.ofList cs) := by
  intro c hc
  rw [String.toList_ofList] at hc
  exact (h.line.printable c (hcs c hc)).ne_escape

theorem under : Unescaped (String.singleton (e.line.under?.getD ' ')) := by
  cases hu : e.line.under? with
  | none => exact (by decide : Unescaped (String.singleton ' '))
  | some c =>
    have hc := h.of_subset [c] (by simpa using List.mem_of_getElem? hu)
    rwa [← String.singleton_eq_ofList] at hc

theorem token_shows (k : ParameterKind) (theme : Theme) :
    Shows (e.token k theme).styled (e.token k theme).plain := by
  obtain ⟨hlead, htrail⟩ := h.surroundings k
  have hblank : Unescaped " " := by decide
  have hflag := (unescaped_flag k).shows.append hblank.shows
  have hbefore := h.of_subset e.line.before fun _ => List.mem_of_mem_take
  have hafter := h.of_subset e.line.after fun _ => List.mem_of_mem_drop
  have hcells := ((hflag.append (hlead.shows_paint theme .dim)).append
    (hbefore.shows_paint theme .highlight)).append (h.under.shows_paint theme .cursor)
  exact (hcells.append (hafter.shows_paint theme .highlight)).append
    (htrail.shows_paint theme .dim)

end Legible

theorem token_styled_plain (e : Edit) (k : ParameterKind) :
    (e.token k ⟨false⟩).styled = (e.token k ⟨false⟩).plain := by
  simp only [token, paint_plain]

end Edit

theorem Token.styledAs_styled_plain (style : Style) (s : String) :
    (Token.styledAs ⟨false⟩ style s).styled = (Token.styledAs ⟨false⟩ style s).plain :=
  paint_plain style s

theorem lineWidth_congr {ts us : List Token} (h : ts.map (·.plain) = us.map (·.plain)) :
    lineWidth ts = lineWidth us := by
  rw [lineWidth, singleLine, h]
  rfl

theorem continuation_shows (theme : Theme) :
    Shows (continuation theme) (continuation ⟨false⟩) := by
  have hslash : Unescaped " \\" := by decide
  have hbreak : Unescaped "\n    " := by decide
  rw [continuation, continuation, paint_plain]
  exact (hslash.shows_paint theme .dim).append hbreak.shows

/-- The width of the plain forms settles what stands between the tokens. -/
theorem assemble_eq_intercalate (theme : Theme) (ts : List Token) : assemble theme ts =
    (if (" ".intercalate (ts.map (·.plain))).utf8ByteSize ≤ wrapWidth then " "
      else continuation theme).intercalate (ts.map (·.styled)) := by
  rw [assemble, lineWidth, singleLine]
  by_cases h : wrapWidth < (" ".intercalate (ts.map (·.plain))).utf8ByteSize
  · rw [if_pos h, if_neg (Nat.not_le.mpr h)]
  · rw [if_neg h, if_pos (Nat.not_lt.mp h)]

/-- Tokens with the same plain forms are laid out alike. -/
theorem assemble_shows (theme : Theme) {ts us : List Token}
    (hts : ∀ t ∈ ts, Shows t.styled t.plain) (hus : ∀ u ∈ us, u.styled = u.plain)
    (h : ts.map (·.plain) = us.map (·.plain)) :
    Shows (assemble theme ts) (assemble ⟨false⟩ us) := by
  have hblank : Unescaped " " := by decide
  have hstyled : us.map (·.styled) = ts.map (·.plain) := by
    rw [h]
    exact List.map_congr_left hus
  unfold assemble
  rw [lineWidth_congr h, hstyled]
  split
  · exact Shows.intercalate (continuation_shows theme) hts
  · exact Shows.intercalate hblank.shows hts

namespace Editor

/-- Nothing that is shown starts an escape sequence. -/
structure Legible (e : Editor) : Prop where
  program : Unescaped e.program
  image : Unescaped e.image
  parameters : ∀ p ∈ e.parameters, Unescaped p.effective
  edit : ∀ edit ∈ e.edit, edit.Legible
  failure : ∀ reason ∈ e.failure, Unescaped reason

theorem parameterToken_plain_eq (e : Editor) (theme theme' : Theme) (p : Parameter) (i : Nat) :
    (e.parameterToken theme p i).plain = (e.parameterToken theme' p i).plain := by
  unfold parameterToken
  split
  · cases e.edit <;> rfl
  · split <;> rfl

theorem parameterToken_styled_plain (e : Editor) (p : Parameter) (i : Nat) :
    (e.parameterToken ⟨false⟩ p i).styled = (e.parameterToken ⟨false⟩ p i).plain := by
  unfold parameterToken
  split
  · cases e.edit with
    | none => exact Token.styledAs_styled_plain .highlight p.text
    | some edit => exact edit.token_styled_plain p.kind
  · split
    · exact Token.styledAs_styled_plain .modified p.text
    · rfl

theorem tokens_plain_eq (e : Editor) (theme theme' : Theme) :
    (e.tokens theme).map (·.plain) = (e.tokens theme').map (·.plain) := by
  have hparameters : (e.parameterTokens theme).map (·.plain) =
      (e.parameterTokens theme').map (·.plain) := by
    apply List.ext_getElem?
    intro i
    simp only [parameterTokens, List.getElem?_map, List.getElem?_mapIdx, Option.map_map]
    congr 1
    funext p
    exact e.parameterToken_plain_eq theme theme' p i
  have hflags : (e.flags.map (Token.styledAs theme .dim ·.token)).map (·.plain) =
      (e.flags.map (Token.styledAs theme' .dim ·.token)).map (·.plain) := by
    simp [Token.styledAs]
  simp only [tokens, List.map_append, List.map_cons, hparameters, hflags]
  rfl

/-- What holds of the tokens of the program, the switches and the image and of every parameter holds
of all tokens. -/
theorem forall_mem_tokens {Q : Token → Prop} {e : Editor} {theme : Theme}
    (hprogram : Q (.styledAs theme .dim e.program))
    (hflags : ∀ f : RunFlag, Q (.styledAs theme .dim f.token))
    (hparameters : ∀ i p, e.parameters[i]? = some p → Q (e.parameterToken theme p i))
    (himage : Q (.styledAs theme .dim e.image)) : ∀ t ∈ e.tokens theme, Q t := by
  intro t ht
  simp only [tokens, List.mem_append, List.mem_cons, List.mem_map, List.not_mem_nil, or_false,
    parameterTokens, List.mem_mapIdx] at ht
  rcases ht with ((rfl | ⟨f, _, rfl⟩) | ⟨i, hi, rfl⟩) | rfl
  · exact hprogram
  · exact hflags f
  · exact hparameters i _ (List.getElem?_eq_getElem hi)
  · exact himage

theorem tokens_styled_plain (e : Editor) :
    ∀ t ∈ e.tokens ⟨false⟩, t.styled = t.plain :=
  forall_mem_tokens (Token.styledAs_styled_plain .dim e.program)
    (fun f => Token.styledAs_styled_plain .dim f.token)
    (fun i p _ => e.parameterToken_styled_plain p i) (Token.styledAs_styled_plain .dim e.image)

theorem unescaped_legend (e : Editor) : Unescaped e.legend := by
  unfold legend
  cases e.mode <;> decide

namespace Legible
variable {e : Editor} (h : e.Legible)
include h

theorem parameterToken_shows (theme : Theme) {p : Parameter} (hp : p ∈ e.parameters) (i : Nat) :
    Shows (e.parameterToken theme p i).styled (e.parameterToken theme p i).plain := by
  have htext := Parameter.unescaped_text (h.parameters p hp)
  unfold parameterToken
  split
  · cases he : e.edit with
    | none => exact htext.shows_paint theme .highlight
    | some edit => exact (h.edit edit he).token_shows p.kind theme
  · split
    · exact htext.shows_paint theme .modified
    · exact htext.shows

theorem tokens_shows (theme : Theme) : ∀ t ∈ e.tokens theme, Shows t.styled t.plain :=
  forall_mem_tokens (h.program.shows_paint theme .dim)
    (fun f => (unescaped_token f).shows_paint theme .dim)
    (fun i _ hp => h.parameterToken_shows theme (List.mem_of_getElem? hp) i) (h.image.shows_paint theme .dim)

theorem frame_shows (theme : Theme) : Shows (e.frame theme) (e.frame ⟨false⟩) := by
  have hbreak : Unescaped "\n" := by decide
  have hgap : Unescaped "\n\n" := by decide
  unfold frame
  cases hf : e.failure with
  | some reason =>
    dsimp only
    rw [paint_plain]
    exact ((h.failure reason hf).shows_paint theme .error).append hbreak.shows
  | none =>
    have hcommand := assemble_shows theme (h.tokens_shows theme) e.tokens_styled_plain
      (e.tokens_plain_eq theme ⟨false⟩)
    dsimp only
    rw [paint_plain]
    exact (hcommand.append hgap.shows).append (e.unescaped_legend.shows_paint theme .dim)

end Legible

/-- What a run has brought on the screen comes from the catalog, from its failure and from keys. -/
theorem run_legible (c : Catalog) (image : String) (messages : List Message) :
    let e := (new c image).run messages
    Unescaped e.program → Unescaped e.image →
    (∀ p ∈ e.parameters, ∀ v ∈ p.candidates, Unescaped v) →
    (∀ reason ∈ e.failure, Unescaped reason) → e.Legible := by
  intro e hprogram himage hcandidates hfailure
  have hvalues : ∀ p ∈ e.parameters, Unescaped p.effective := by
    intro p hp
    refine run_inherits (fun _ => Printable.ne_escape) c image messages p hp ?_
    rw [Parameter.default]
    cases hc : p.candidates with
    | nil => exact (by decide : Unescaped "")
    | cons v vs => exact hcandidates p hp v (by simp [hc])
  refine ⟨hprogram, himage, hvalues, fun edit he => ?_, hfailure⟩
  obtain ⟨p, hp, hfits⟩ := (run_consistent c image messages).edit edit he
  exact hfits.legible (hvalues p (List.mem_of_getElem? hp))

/-- Without a failure only the texts from the catalog have to be legible. -/
theorem run_legible_of_texts (c : Catalog) (image : String) (messages : List Message) :
    let e := (new c image).run messages
    e.failure = none →
    (∀ s ∈ e.program :: e.image :: e.parameters.flatMap (·.candidates), Unescaped s) →
    e.Legible := by
  intro e hf htexts
  obtain ⟨hprogram, himage, hcandidates⟩ : Unescaped e.program ∧ Unescaped e.image ∧
      ∀ p ∈ e.parameters, ∀ v ∈ p.candidates, Unescaped v := by
    simpa only [List.forall_mem_cons, List.forall_mem_flatMap] using htexts
  have hfailure : ∀ reason ∈ e.failure, Unescaped reason := by
    rw [hf]
    rintro _ ⟨⟩
  exact run_legible c image messages hprogram himage hcandidates hfailure

/-- Wherever a run has led, with and without color the same is seen of the frame, and it is wrapped
or not for the same width. -/
theorem strip_frame (c : Catalog) (image : String) (messages : List Message) :
    let e := (new c image).run messages
    escape ∉ e.program.toList → escape ∉ e.image.toList →
    (∀ p ∈ e.parameters, ∀ v ∈ p.candidates, escape ∉ v.toList) →
    (∀ reason ∈ e.failure, escape ∉ reason.toList) →
    strip (e.frame ⟨true⟩) = e.frame ⟨false⟩ ∧
      lineWidth (e.tokens ⟨true⟩) = lineWidth (e.tokens ⟨false⟩) := by
  intro e hprogram himage hcandidates hfailure
  have h : e.Legible := run_legible c image messages (unescaped_iff.mpr hprogram)
    (unescaped_iff.mpr himage) (fun p hp v hv => unescaped_iff.mpr (hcandidates p hp v hv))
    fun reason hr => unescaped_iff.mpr (hfailure reason hr)
  exact ⟨(h.frame_shows ⟨true⟩).strip_eq, lineWidth_congr (e.tokens_plain_eq ⟨true⟩ ⟨false⟩)⟩

/-- The end of a sequence is not a sequence, even if it is typed where a style has just ended. -/
theorem strip_frame_bracket :
    let profile : Profile := { parameters := [{ kind := .env, candidates := ["MODE=fast"] }] }
    let messages : List Message :=
      [.key (.char '3'), .key (.char '1'), .key (.char 'm'), .key .left, .key .left, .key .left,
        .key (.char '['), .key .left]
    let e := (new { images := [("image", profile)] } "image").run messages
    (escape ∉ e.program.toList ∧ escape ∉ e.image.toList ∧
      (∀ p ∈ e.parameters, ∀ v ∈ p.candidates, escape ∉ v.toList) ∧
      ∀ reason ∈ e.failure, escape ∉ reason.toList) ∧
    e.frame ⟨true⟩ ≠ e.frame ⟨false⟩ ∧ strip (e.frame ⟨true⟩) =
      "docker run --env MODE=[31m image\n\nEnter: Confirm | Tab: Confirm and Next | Esc: Cancel" := by
  intro profile messages e
  have hprogram : escape ∉ e.program.toList := by decide
  have himage : escape ∉ e.image.toList := by decide
  have hcandidates : ∀ p ∈ e.parameters, ∀ v ∈ p.candidates, escape ∉ v.toList := by decide
  have hfailure : ∀ reason ∈ e.failure, escape ∉ reason.toList := by
    rintro _ ⟨⟩
  obtain ⟨hstrip, _⟩ := strip_frame { images := [("image", profile)] } "image" messages hprogram
    himage hcandidates hfailure
  refine ⟨⟨hprogram, himage, hcandidates, hfailure⟩, by decide +kernel, hstrip.trans ?_⟩
  decide +kernel

end Editor
end LaunchEditor
