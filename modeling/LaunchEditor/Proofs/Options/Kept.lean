import LaunchEditor.Proofs.Editor.Confirmed
import LaunchEditor.Proofs.Options.Given
import LaunchEditor.Proofs.Options.Preview
import LaunchEditor.Proofs.Session.Outcome
import LaunchEditor.Proofs.Session.Trace

/-! # What is left of the options that were given

A session in which no edit is confirmed selects the default of every parameter on offer. Values
that were given stay in front of these, but a name or an entrypoint gives way to the last one that
the profile offers.
-/
namespace LaunchEditor

/-- The values that a profile offers for a kind before any is changed. -/
def Profile.offered (p : Profile) (k : ParameterKind) : List String :=
  (p.parameters.filter (·.kind = k)).map (·.default)

namespace ParameterKind

theorem keep_append_keep {k : ParameterKind} (hk : k ∈ [.name, .entrypoint]) (vs ws : List String) :
    k.keep (vs ++ k.keep ws) = if ws = [] then k.keep vs else ws.getLast?.toList := by
  have hlast : (vs ++ ws.getLast?.toList).getLast?.toList =
      if ws = [] then vs.getLast?.toList else ws.getLast?.toList := by
    cases hw : ws.getLast? with
    | none => simp [List.getLast?_eq_none_iff.mp hw]
    | some w =>
      have hne : ws ≠ [] := by
        rintro rfl
        cases hw
      simp [hne]
  cases k with
  | name | entrypoint => exact hlast
  | volume | env | port => simp at hk

end ParameterKind

theorem LaunchOptions.keep_valuesOf (o : LaunchOptions) (k : ParameterKind) :
    k.keep (o.valuesOf k) = o.valuesOf k := by
  cases k with
  | name => cases h : o.name <;> simp [valuesOf, ParameterKind.keep, h]
  | entrypoint => cases h : o.entrypoint <;> simp [valuesOf, ParameterKind.keep, h]
  | volume | env | port => rfl

namespace Editor

def Unconfirmed (e : Editor) (messages : List Message) : Prop := ∀ i, e.confirmed i messages = []

/-- An edit is confirmed by Enter or Tab while it is live. -/
theorem unconfirmed_cons {e : Editor} {m : Message} {ms : List Message} :
    e.Unconfirmed (m :: ms) ↔
      (m = .key .enter ∨ m = .key .tab → e.edit = none) ∧ (e.update m).1.Unconfirmed ms := by
  simp only [Unconfirmed, confirmed, List.append_eq_nil_iff, Option.toList_eq_nil_iff,
    forall_and]
  refine and_congr_left fun _ => ?_
  constructor
  · intro h hm
    have hline := h e.selected
    rcases hm with rfl | rfl <;> simpa [confirmed?, lineAt?] using hline
  · intro h i
    by_cases hm : m = .key .enter ∨ m = .key .tab
    · exact confirmed?_of_browsing (h hm) i m
    · unfold confirmed?
      split <;> simp_all

theorem Consistent.run_unconfirmed {e : Editor} (he : e.Consistent) {messages : List Message}
    (h : e.Unconfirmed messages) : (e.run messages).parameters = e.parameters := by
  apply List.ext_getElem?
  intro i
  rw [he.getElem?_run, h i]
  exact Option.map_id'

theorem new_effective (c : Catalog) (image : String) (k : ParameterKind) :
    ((new c image).parameters.filter (·.kind = k)).map (·.effective) =
      (c.profile image).offered k := by
  simp only [new, ofProfile, Profile.offered, List.filter_map, List.map_map]
  rfl

theorem selections_unconfirmed (c : Catalog) (image : String) {messages : List Message}
    (h : (new c image).Unconfirmed messages) :
    let s := ((new c image).run messages).selections
    (∀ k, s.valuesOf k = k.keep ((c.profile image).offered k)) ∧
      s.flags = (c.profile image).flags := by
  intro s
  have hparameters := (new_consistent c image).run_unconfirmed h
  have hinv := run_invocation (new c image) messages
  constructor
  · intro k
    rw [selections_valuesOf, hparameters, new_effective]
  · exact congrArg (·.2.2) hinv

end Editor

namespace Session

/-- Options from a command line that is accepted keep all that was given after any session that
ends well and confirms no edit, except a name or an entrypoint of which the profile offers its
own. -/
theorem settle_unconfirmed {σ : Type} (d : Devices (StateM σ)) (theme : Terminal.Theme) (n : Nat)
    (c : Catalog) (p : σ) {words : List String} {a : Arguments}
    (hread : Arguments.read words = .ok a) {m : Editor}
    (hend : (proceed d theme ⟨.new c a.image, .draw⟩ n p).1.2.stage = .ended (.ok m))
    (hkeys : (Editor.new c a.image).Unconfirmed
      ((keys (proceed d theme ⟨.new c a.image, .draw⟩ n p).1.1).map .key)) :
    ∃ items o, Arguments.Gives none words items ∧ a.options.settle (.ok m) = .ok o ∧
      Arguments.Item.images items = [o.launch.image] ∧
      (∀ k ∈ [.volume, .env, .port], o.launch.valuesOf k =
        Arguments.Item.valuesOf k.valued items ++ (c.profile a.image).offered k) ∧
      (∀ k ∈ [.name, .entrypoint], o.launch.valuesOf k =
        if (c.profile a.image).offered k = [] then Arguments.Item.valuesOf k.valued items
        else ((c.profile a.image).offered k).getLast?.toList) ∧
      ∀ f, o.launch.isOn f = true ↔
        .switch f.switch ∈ items ∨ f ∈ (c.profile a.image).flags := by
  obtain ⟨items, hgives, hmade⟩ := Arguments.gives_of_read hread
  have hlead : Leads (.new c a.image) [] (.new c a.image) := ⟨trivial, rfl⟩
  have hcourse : Course theme (.new c a.image) _ _ := (Course.drawing hlead).runs
    (proceed_runs d theme n ⟨.new c a.image, .draw⟩ p).1
  obtain ⟨hm, _⟩ := hcourse.ok hend
  obtain ⟨hvalues, hflags⟩ := Editor.selections_unconfirmed c a.image hkeys
  rcases (proceed_sound d theme n c a.image p).settle hend a.options with
    ⟨_, s, ⟨⟩, _, _, hcommit, hsettle⟩ | ⟨_, ⟨⟩, _⟩
  obtain ⟨_, _, rfl⟩ := Editor.commit_eq_ok.mp hcommit
  have hlaunch (k : ParameterKind) : (a.options.apply m.selections).launch.valuesOf k = k.keep
      (Arguments.Item.valuesOf k.valued items ++ k.keep ((c.profile a.image).offered k)) := by
    rw [← hmade.values, ← hvalues]
    subst hm
    exact LaunchOptions.apply_valuesOf _ _ k
  refine ⟨items, _, hgives, hsettle, ?_, ?_, ?_, ?_⟩
  · exact hmade.image.symm.trans (congrArg (fun image => [image])
      (LaunchOptions.apply_image a.options.launch m.selections).symm)
  · intro k hk
    rw [hlaunch, ParameterKind.keep_of_mem hk, ParameterKind.keep_of_mem hk]
  · intro k hk
    rw [hlaunch, ParameterKind.keep_append_keep hk, ← hmade.values, LaunchOptions.keep_valuesOf]
  · intro f
    rw [← hmade.switches, ← hflags]
    subst hm
    exact LaunchOptions.apply_isOn _ _ f

/-- An entrypoint is kept for an image whose profile has none, and a variable stays in front, after
an edit that is cancelled. -/
theorem settle_unconfirmed_cancelled :
    let words := ["--entrypoint", "/bin/sh", "-te", "A=1", "postgres"]
    let waits : List Wait :=
      [{ answer := .key (.char 'x') }, { answer := .key .escape }, { answer := .key .enter }]
    let script : Script := { waits, exhausted := "", drawing := fun _ => {} }
    let e := Editor.new .builtin "postgres"
    let r := proceed script.devices ⟨false⟩ ⟨e, .draw⟩ 6 { waits, cancelled := false }
    ∃ a, Arguments.read words = .ok a ∧ r.1.2.stage = .ended (.ok e) ∧
      e.Unconfirmed ((keys r.1.1).map .key) ∧ ∃ items o, Arguments.Gives none words items ∧
        a.options.settle (.ok e) = .ok o ∧ o.launch.entrypoint = some "/bin/sh" ∧
        Arguments.Item.valuesOf .entrypoint items = ["/bin/sh"] ∧
        Arguments.Item.valuesOf .env items <+: o.launch.env := by
  intro words waits script e r
  let a : Arguments :=
    { image := "postgres", entrypoint := some "/bin/sh", env := ["A=1"], tty := true }
  have hread : Arguments.read words = .ok a := by decide
  have hend : r.1.2.stage = .ended (.ok e) := rfl
  have hkeys : e.Unconfirmed ((keys r.1.1).map .key) := by
    have hr : (keys r.1.1).map Message.key = [.key (.char 'x'), .key .escape, .key .enter] := rfl
    rw [hr]
    simp only [Editor.unconfirmed_cons]
    exact ⟨by simp, by simp, fun _ => rfl, fun _ => rfl⟩
  obtain ⟨items, o, hgives, hsettle, _, hlists, hsingles, _⟩ :=
    settle_unconfirmed script.devices ⟨false⟩ 6 .builtin { waits, cancelled := false } hread hend
      hkeys
  have ho : o.launch.entrypoint = some "/bin/sh" := by
    cases hsettle
    rfl
  have hentrypoint : o.launch.entrypoint.toList = Arguments.Item.valuesOf .entrypoint items :=
    hsingles .entrypoint (by decide)
  rw [ho] at hentrypoint
  exact ⟨a, hread, hend, hkeys, items, o, hgives, hsettle, ho, hentrypoint.symm,
    ⟨_, (hlists .env (by decide)).symm⟩⟩

/-- A name that was given gives way to the one that the profile suggests. -/
theorem settle_unconfirmed_name :
    let words := ["--name", "mine", "alpine"]
    let waits : List Wait := [{ answer := .key .enter }]
    let script : Script := { waits, exhausted := "", drawing := fun _ => {} }
    let e := Editor.new .builtin "alpine"
    let r := proceed script.devices ⟨false⟩ ⟨e, .draw⟩ 2 { waits, cancelled := false }
    ∃ a o, Arguments.read words = .ok a ∧ a.name = some "mine" ∧ r.1.2.stage = .ended (.ok e) ∧
      e.Unconfirmed ((keys r.1.1).map .key) ∧ a.options.settle (.ok e) = .ok o ∧
      o.launch.name = some "alpine-test" := by
  intro words waits script e r
  have hkeys : e.Unconfirmed ((keys r.1.1).map .key) := by
    have hr : (keys r.1.1).map Message.key = [.key .enter] := rfl
    rw [hr]
    simp only [Editor.unconfirmed_cons]
    exact ⟨fun _ => rfl, fun _ => rfl⟩
  exact ⟨{ image := "alpine", name := some "mine" }, _, by decide, rfl, rfl, hkeys, rfl, rfl⟩

end Session
end LaunchEditor
