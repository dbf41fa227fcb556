import LaunchEditor.Proofs.Editor.Color
import LaunchEditor.Proofs.Terminal.Cells
import LaunchEditor.Proofs.Text.Split

/-! # The preview of an edit

While a parameter is edited, its token shows the value that Enter stores, with a blank for the
cursor where that stands behind the typed text. The cell of the cursor is the only one in reverse.
-/
namespace LaunchEditor
open Terminal

/-- A text in one style, or in none. -/
structure Piece where
  style : Option Style
  text : String

namespace Piece

def painted (x : Piece) (theme : Theme) : String :=
  match x.style with
  | some style => theme.paint style x.text
  | none => x.text

def cells (x : Piece) : List Cell := x.text.toList.map (⟨·, x.style == some .cursor⟩)

theorem fills {x : Piece} (h : Unescaped x.text) : Fills (x.painted ⟨true⟩) x.cells := by
  obtain ⟨style, text⟩ := x
  cases style with
  | some style => exact .paint style (unescaped_iff.mp h)
  | none => exact .of_notMem (unescaped_iff.mp h)

theorem flatMap_cells_of_ne_cursor {xs : List Piece} (h : ∀ x ∈ xs, x.style ≠ some .cursor) :
    xs.flatMap (·.cells) = (String.join (xs.map (·.text))).toList.map (⟨·, false⟩) := by
  rw [String.toList_join, List.flatMap_map, List.map_flatMap]
  refine List.flatMap_congr fun x hx => ?_
  simp [cells, h x hx]

end Piece

def Token.ofPieces (xs : List Piece) (theme : Theme) : Token where
  plain := String.join (xs.map (·.text))
  styled := String.join (xs.map (·.painted theme))

/-- Color leaves the characters of a token as they are and reverses those in the style of the
cursor. -/
theorem Token.cells_ofPieces {xs : List Piece} (h : ∀ x ∈ xs, Unescaped x.text) :
    cells false none (Token.ofPieces xs ⟨true⟩).styled.toList = xs.flatMap (·.cells) :=
  Fills.cells_eq (.join fun x hx => Piece.fills (h x hx))

/-- A line with a blank behind it for a cursor at its end. -/
theorem LineBuffer.WellFormed.before_append_after {b : LineBuffer} (h : b.WellFormed) :
    b.before ++ b.under?.getD ' ' :: b.after =
      if b.cursor = b.text.length then b.text ++ [' '] else b.text := by
  have hle := h.cursor_le
  simp only [before, under?, after]
  split
  · rename_i hend
    simp [hend]
  · have hlt : b.cursor < b.text.length := by omega
    rw [List.getElem?_eq_getElem hlt, Option.getD_some, ← List.drop_eq_getElem_cons hlt,
      List.take_append_drop]

namespace Edit

section
variable (e : Edit) (k : ParameterKind)

def piecesBefore : List Piece :=
  [⟨none, k.flag ++ " "⟩, ⟨some .dim, (e.surroundings k).1⟩,
    ⟨some .highlight, String.ofList e.line.before⟩]

def pieceUnder : Piece := ⟨some .cursor, String.singleton (e.line.under?.getD ' ')⟩

def piecesAfter : List Piece :=
  [⟨some .highlight, String.ofList e.line.after⟩, ⟨some .dim, (e.surroundings k).2⟩]

theorem join_piecesBefore : String.join ((e.piecesBefore k).map (·.text)) =
    k.flag ++ " " ++ (e.surroundings k).1 ++ String.ofList e.line.before := by
  simp [piecesBefore, String.append_assoc]

theorem join_piecesAfter : String.join ((e.piecesAfter k).map (·.text)) =
    String.ofList e.line.after ++ (e.surroundings k).2 := by
  simp [piecesAfter]

theorem token_eq_ofPieces (theme : Theme) : e.token k theme =
    .ofPieces (e.piecesBefore k ++ e.pieceUnder :: e.piecesAfter k) theme := by
  simp only [token, Token.ofPieces, piecesBefore, pieceUnder, piecesAfter, Piece.painted,
    List.cons_append, List.nil_append, List.map_cons, List.map_nil, String.join_cons,
    String.join_nil, String.append_empty, String.append_assoc]

end

theorem Legible.unescaped_pieces {e : Edit} (h : e.Legible) (k : ParameterKind) :
    ∀ x ∈ e.piecesBefore k ++ e.pieceUnder :: e.piecesAfter k, Unescaped x.text := by
  obtain ⟨hlead, htrail⟩ := h.surroundings k
  have hblank : Unescaped " " := by decide
  have hflag := (unescaped_flag k).append hblank
  have hbefore := h.of_subset e.line.before fun _ => List.mem_of_mem_take
  have hafter := h.of_subset e.line.after fun _ => List.mem_of_mem_drop
  simp only [piecesBefore, pieceUnder, piecesAfter, List.cons_append, List.nil_append,
    List.forall_mem_cons]
  exact ⟨hflag, hlead, hbefore, h.under, hafter, htrail, fun _ hx => nomatch hx⟩

/-- Of a legible edit, only the cell of the cursor is reversed. -/
theorem Legible.cells_token {e : Edit} (h : e.Legible) (k : ParameterKind) :
    cells false none (e.token k ⟨true⟩).styled.toList =
      (k.flag ++ " " ++ (e.surroundings k).1 ++ String.ofList e.line.before).toList.map
          (⟨·, false⟩) ++
        ⟨e.line.under?.getD ' ', true⟩ ::
          (String.ofList e.line.after ++ (e.surroundings k).2).toList.map (⟨·, false⟩) := by
  have hbefore : ∀ x ∈ e.piecesBefore k, x.style ≠ some .cursor := by simp [piecesBefore]
  have hafter : ∀ x ∈ e.piecesAfter k, x.style ≠ some .cursor := by simp [piecesAfter]
  have hunder : (e.pieceUnder).cells = [⟨e.line.under?.getD ' ', true⟩] := by
    simp [pieceUnder, Piece.cells]
  rw [token_eq_ofPieces, Token.cells_ofPieces (h.unescaped_pieces k), List.flatMap_append,
    List.flatMap_cons, Piece.flatMap_cells_of_ne_cursor hbefore,
    Piece.flatMap_cells_of_ne_cursor hafter, hunder, join_piecesBefore, join_piecesAfter]
  rfl

namespace Fits
variable {edit : Edit} {p : Parameter} (h : edit.Fits p)
include h

/-- The fixed text around the cursor is what an edit puts its line between. -/
theorem assemble_eq (b : String) : p.kind.assemble edit.segments b =
    (edit.surroundings p.kind).1 ++ b ++ (edit.surroundings p.kind).2 := by
  cases hs : edit.segments with
  | none => simp [ParameterKind.assemble, surroundings, hs]
  | some segments =>
    cases hsep : p.kind.separator? with
    | none => simp [ParameterKind.assemble, surroundings, hs, hsep]
    | some sep =>
      have hlt : p.kind.editable < segments.length := h.editable_lt (by simp [hs])
      simp only [ParameterKind.assemble, surroundings, hs, hsep]
      exact Text.intercalate_set hlt b

theorem token_plain (theme : Theme) : (edit.token p.kind theme).plain =
    p.kind.flag ++ " " ++ if edit.line.cursor = edit.line.text.length
      then (edit.surroundings p.kind).1 ++ edit.buffer ++ " " ++ (edit.surroundings p.kind).2
      else edit.value p.kind := by
  have hline : String.ofList edit.line.before ++ String.singleton (edit.line.under?.getD ' ') ++
      String.ofList edit.line.after =
        if edit.line.cursor = edit.line.text.length then edit.buffer ++ " " else edit.buffer := by
    have hcells := congrArg String.ofList h.line.before_append_after
    rw [apply_ite String.ofList] at hcells
    rw [String.append_assoc]
    simpa [buffer, String.ofList_cons] using hcells
  have hplain : (edit.token p.kind theme).plain = p.kind.flag ++ " " ++
      ((edit.surroundings p.kind).1 ++ (String.ofList edit.line.before ++
        String.singleton (edit.line.under?.getD ' ') ++ String.ofList edit.line.after) ++
          (edit.surroundings p.kind).2) := by
    simp only [token, String.append_assoc]
  rw [hplain, hline, value, h.assemble_eq]
  split <;> simp only [String.append_assoc]

end Fits
end Edit

namespace Editor

/-- The token of the selected parameter stands behind those of the program and the switches. -/
theorem getElem?_tokens {e : Editor} {p : Parameter} (hp : e.current? = some p) (theme : Theme) :
    (e.tokens theme)[e.flags.length + 1 + e.selected]? =
      some (e.parameterToken theme p e.selected) := by
  have hp' : e.parameters[e.selected]? = some p := hp
  have htoken : (e.parameterTokens theme)[e.selected]? =
      some (e.parameterToken theme p e.selected) := by
    simp [parameterTokens, hp']
  obtain ⟨hlt, _⟩ := List.getElem?_eq_some_iff.mp htoken
  have hlen : (Token.styledAs theme .dim e.program ::
      e.flags.map (.styledAs theme .dim ·.token)).length = e.flags.length + 1 := by simp
  rw [tokens, List.getElem?_append_left (by rw [List.length_append, hlen]; omega),
    List.getElem?_append_right (by omega), hlen, Nat.add_sub_cancel_left, htoken]

theorem Consistent.update_enter {e : Editor} (h : e.Consistent) {edit : Edit}
    (he : e.edit = some edit) {p : Parameter} (hp : e.current? = some p) :
    (e.update (.key .enter)).1 =
      { e with edit := none, parameters := e.parameters.set e.selected (p.put edit.buffer) } := by
  have henter : (e.update (.key .enter)).1 = e.commitEdit := by
    simp [update, continueEdit, he]
  have hp' : e.parameters[e.selected]? = some p := hp
  rw [henter, h.commitEdit_eq he, List.modify_eq_set_getElem?, hp']
  rfl

/-- What is seen of a live edit is what Enter stores. The token of the selected parameter shows the
value with a blank behind the typed text if the cursor stands there, and the value itself otherwise.
Its only piece in the style of the cursor is the character under the cursor or that blank; unless
the default has escapes of its own, no other cell of it is reversed. -/
theorem run_preview (c : Catalog) (image : String) (messages : List Message)
    (hf : ((new c image).run messages).failure = none) {edit : Edit}
    (he : ((new c image).run messages).edit = some edit) :
    let e := (new c image).run messages
    let cursor := edit.line.cursor
    let under := edit.line.text[cursor]?.getD ' '
    ∃ p lead trail, e.current? = some p ∧
      (∀ b, p.kind.assemble edit.segments b = lead ++ b ++ trail) ∧
      cursor ≤ edit.line.text.length ∧
      let value := edit.value p.kind
      let front := p.kind.flag ++ " " ++ lead ++ String.ofList (edit.line.text.take cursor)
      let back := String.ofList (edit.line.text.drop (cursor + 1)) ++ trail
      (∃ before after : List Piece,
        (∀ x ∈ before ++ after, x.style ≠ some .cursor) ∧
        String.join (before.map (·.text)) = front ∧ String.join (after.map (·.text)) = back ∧
        ∀ theme,
          let token := Token.ofPieces
            (before ++ ⟨some .cursor, String.singleton under⟩ :: after) theme
          e.frame theme = assemble theme (e.tokens theme) ++ "\n\n" ++
              theme.paint .dim editingLegend ∧
            (e.tokens theme)[e.flags.length + 1 + e.selected]? = some token ∧
            token.plain = p.kind.flag ++ " " ++ (if cursor = edit.line.text.length
              then lead ++ edit.buffer ++ " " ++ trail else value) ∧
            (theme.colored = false → token.styled = token.plain) ∧
            (theme.colored = true → Unescaped p.default → cells false none token.styled.toList =
              front.toList.map (⟨·, false⟩) ++ ⟨under, true⟩ :: back.toList.map (⟨·, false⟩))) ∧
      (e.update (.key .enter)).1 =
        { e with
          edit := none
          parameters := e.parameters.set e.selected
            { p with value := if value = "" then p.default else value } } := by
  intro e cursor under
  have hc : e.Consistent := run_consistent c image messages
  obtain ⟨p, hp, hfits⟩ := hc.edit edit he
  have htoken (theme : Theme) :
      Token.ofPieces (edit.piecesBefore p.kind ++
        ⟨some .cursor, String.singleton under⟩ :: edit.piecesAfter p.kind) theme =
          edit.token p.kind theme := (edit.token_eq_ofPieces p.kind theme).symm
  refine ⟨p, _, _, hp, hfits.assemble_eq, hfits.line.cursor_le,
    ⟨edit.piecesBefore p.kind, edit.piecesAfter p.kind, ?_, ?_, ?_, fun theme => ?_⟩, ?_⟩
  · simp [Edit.piecesBefore, Edit.piecesAfter]
  · exact edit.join_piecesBefore p.kind
  · exact edit.join_piecesAfter p.kind
  · refine ⟨?_, ?_, ?_, ?_, ?_⟩
    · have hlegend : e.legend = editingLegend := by simp [legend, mode, e, he]
      have hfailure : e.failure = none := hf
      simp only [frame, hfailure, hlegend]
    · have hselected : e.parameterToken theme p e.selected = edit.token p.kind theme := by
        simp [parameterToken, e, he]
      rw [getElem?_tokens hp, hselected, htoken]
    · rw [htoken]
      exact hfits.token_plain theme
    · intro hplain
      obtain rfl : theme = ⟨false⟩ := congrArg Theme.mk hplain
      rw [htoken]
      exact edit.token_styled_plain p.kind
    · intro hcolored hdefault
      obtain rfl : theme = ⟨true⟩ := congrArg Theme.mk hcolored
      have hvalue : Unescaped p.effective := run_inherits (fun _ => Printable.ne_escape) c image
        messages p (List.mem_of_getElem? hp) hdefault
      rw [htoken]
      exact (hfits.legible hvalue).cells_token p.kind
  · rw [hc.update_enter he hp, Parameter.put_eq, Edit.value, hfits.segments]

/-- With the cursor moved back to the last letter typed, no blank is shown. -/
theorem run_preview_env :
    let e := (new .builtin "postgres").run
      [.key .up, .key (.char 'n'), .key (.char 'e'), .key (.char 'w'), .key .left]
    let edit : Edit := ⟨⟨['n', 'e', 'w'], 2⟩, some ["POSTGRES_DB", "test-db"]⟩
    e.failure = none ∧ e.edit = some edit ∧
      (∃ token : Token, (e.tokens ⟨true⟩)[7]? = some token ∧
        token.plain = "--env POSTGRES_DB=new" ∧
        (cells false none token.styled.toList).filter (·.reversed) = [⟨'w', true⟩]) ∧
      (e.update (.key .enter)).1.parameters[5]?.map (·.value) = some "POSTGRES_DB=new" := by
  intro e edit
  have hf : e.failure = none := rfl
  have he : e.edit = some edit := rfl
  obtain ⟨p, lead, trail, hp, _, _, ⟨before, after, _, _, _, htokens⟩, henter⟩ :=
    run_preview .builtin "postgres"
      [.key .up, .key (.char 'n'), .key (.char 'e'), .key (.char 'w'), .key .left] hf he
  obtain rfl : p = { kind := .env, candidates := ["POSTGRES_DB=test-db"] } :=
    (Option.some.inj hp).symm
  obtain ⟨_, htoken, hplain, _, hcells⟩ := htokens ⟨true⟩
  refine ⟨hf, he, ⟨_, htoken, hplain, ?_⟩, ?_⟩
  · rw [hcells rfl (by decide)]
    simp [edit, List.filter_map, Function.comp_def]
  · rw [henter]
    rfl

end Editor

end LaunchEditor
