import LaunchEditor.Editor.Script
import LaunchEditor.Options.Edit
import LaunchEditor.Proofs.Editor.Step

/-! # What a session may end in

A key that quits leaves no edit behind, and a failure of the session never reaches an editor that is
handed out. So whatever ends well can be committed, and editing options fails only if its session
does.
-/
namespace LaunchEditor

namespace Editor

/-- No key brings a failure about or takes it away. -/
theorem Step.failure_eq {e f : Editor} {k : Key} {t : Transition} (h : e.Step (.key k) f t) :
    f.failure = e.failure := by
  cases h with
  | previous | next | begin | confirm | advance => simp
  | _ => rfl

theorem Step.edit_eq_none {e f : Editor} {k : Key} (h : e.Step (.key k) f .quit) :
    f.edit = none := by
  cases h with
  | leave he => exact he
  | abandon => rfl

theorem exists_commit_eq {e : Editor} (he : e.edit = none) (hf : e.failure = none) :
    ∃ selections, e.commit = .ok selections := by
  simp [commit, he, hf]

end Editor

namespace Session

/-- Failures of a session are its own or its cancellation. -/
def OwnFault (f : Fault) : Prop := f = .cancelled ∨ ∃ reason, f = .session reason

/-- A session works on an editor without a failure, and ends with an editor without an edit. -/
def Sound (s : Session) : Prop :=
  match s.stage with
  | .draw | .wait => s.editor.failure = none
  | .explain _ => True
  | .ended (.ok m) => m.edit = none ∧ m.failure = none
  | .ended (.error f) => OwnFault f

theorem press_sound {e : Editor} (h : e.failure = none) (k : Key) :
    (press ⟨e, .wait⟩ k).Sound := by
  have hs := e.update_step (.key k)
  unfold press
  split
  · next f hk =>
    rw [hk] at hs
    exact ⟨hs.edit_eq_none, hs.failure_eq.trans h⟩
  · next f hk =>
    rw [hk] at hs
    exact hs.failure_eq.trans h

theorem Sound.acts {σ : Type} {d : Devices (StateM σ)} {theme : Terminal.Theme} {s : Session}
    {event : Event} {p q : σ} (h : s.Sound) (ha : Acts d theme s p event q) :
    (s.after event).Sound := by
  cases ha with
  | @draw e p q failure =>
    cases failure with
    | none => exact h
    | some reason => trivial
  | @explain e reason => exact .inr ⟨reason, rfl⟩
  | cancelled => exact .inl rfl
  | @read e p q r answer =>
    cases answer with
    | key k => exact press_sound h k
    | nothing => exact h
    | failed reason => trivial

theorem Sound.runs {σ : Type} {d : Devices (StateM σ)} {theme : Terminal.Theme} {s t : Session}
    {events : List Event} {p q : σ} (h : s.Sound) (hr : Runs d theme s p events t q) : t.Sound := by
  induction hr with
  | refl => exact h
  | step ha _ ih => exact ih (h.acts ha)

theorem stage_of_outcome? {s : Session} {outcome : Except Fault Editor}
    (h : s.outcome? = some outcome) : s.stage = .ended outcome := by
  obtain ⟨e, stage⟩ := s
  cases stage with
  | ended => exact congrArg Stage.ended (Option.some.inj h)
  | _ => cases h

theorem proceed_sound {σ : Type} (d : Devices (StateM σ)) (theme : Terminal.Theme) (n : Nat)
    (c : Catalog) (image : String) (p : σ) :
    (proceed d theme ⟨.new c image, .draw⟩ n p).1.2.Sound := by
  have hstart : Sound ⟨.new c image, .draw⟩ := rfl
  exact hstart.runs (proceed_runs d theme n ⟨.new c image, .draw⟩ p).1

/-- Options are settled by what ends well; what ends badly is passed on. -/
theorem Sound.settle {s : Session} {outcome : Except Fault Editor} (h : s.Sound)
    (hs : s.stage = .ended outcome) (o : Options) :
    (∃ m selections, outcome = .ok m ∧ m.edit = none ∧ m.failure = none ∧
        m.commit = .ok selections ∧ o.settle outcome = .ok (o.apply selections)) ∨
      ∃ f, outcome = .error f ∧ o.settle outcome = .error f ∧ OwnFault f := by
  simp only [Sound, hs] at h
  cases outcome with
  | ok m =>
    obtain ⟨he, hf⟩ := h
    obtain ⟨selections, hc⟩ := Editor.exists_commit_eq he hf
    have hsettle : o.settle (.ok m) = .ok (o.apply selections) := by
      simp [Options.settle, hc, bind, Except.bind, pure, Except.pure]
    exact .inl ⟨m, selections, rfl, he, hf, hc, hsettle⟩
  | error f => exact .inr ⟨f, rfl, rfl, h⟩

/-- Whatever the devices do, an editor that a session hands out can be committed, and options that
are edited this way fail with nothing but the failure or the cancellation of the session. -/
theorem settle_proceed {σ : Type} (d : Devices (StateM σ)) (theme : Terminal.Theme) (n : Nat)
    (c : Catalog) (o : Options) (p : σ) {outcome : Except Fault Editor}
    (h : (proceed d theme ⟨.new c o.launch.image, .draw⟩ n p).1.2.stage = .ended outcome) :
    (∀ m, outcome = .ok m → m.edit = none ∧ m.failure = none ∧
      ∃ selections, m.commit = .ok selections ∧ o.settle outcome = .ok (o.apply selections)) ∧
    ∀ f, o.settle outcome = .error f → f = .cancelled ∨ ∃ reason, f = .session reason := by
  have hsound := proceed_sound d theme n c o.launch.image p
  rcases hsound.settle h o with ⟨m, selections, rfl, he, hf, hc, ho⟩ | ⟨f, rfl, ho, hf⟩
  · constructor
    · rintro m ⟨⟩
      exact ⟨he, hf, selections, hc, ho⟩
    · intro f hf
      rw [ho] at hf
      cases hf
  · constructor
    · rintro m ⟨⟩
    · intro g hg
      rw [ho] at hg
      cases hg
      exact hf

/-- An edit that is given up by an interrupt is gone when the session hands its editor out. -/
theorem settle_proceed_interrupt :
    let o : Options := { launch := { image := "alpine" } }
    let waits : List Wait := [{ answer := .key (.char 'a') }, { answer := .key .interrupt }]
    let script : Script := { waits, exhausted := "", drawing := fun _ => {} }
    let e := Editor.new .builtin "alpine"
    let r := proceed script.devices ⟨false⟩ ⟨e, .draw⟩ 4 { waits, cancelled := false }
    r.1.2.stage = .ended (.ok e) ∧
      ∃ selections, o.settle (.ok e) = .ok (o.apply selections) := by
  intro o waits script e r
  have hr : r.1.2.stage = .ended (.ok e) := rfl
  obtain ⟨hok, _⟩ :=
    settle_proceed script.devices ⟨false⟩ 4 .builtin o { waits, cancelled := false } hr
  obtain ⟨_, _, selections, _, ho⟩ := hok e rfl
  exact ⟨hr, selections, ho⟩

end Session

namespace Options

/-- A scripted session makes editing options fail only with a failure of its own. -/
theorem edit_error (c : Catalog) (theme : Terminal.Theme) (script : Session.Script)
    (cancelled : Bool) (o : Options) {f : Fault}
    (h : (o.edit c theme script cancelled).options = .error f) : Session.OwnFault f := by
  let s : Session := ⟨.new c o.launch.image, .draw⟩
  let start : Session.Progress := { waits := script.waits, cancelled }
  let n := s.budget script.waits.length
  have hsound := Session.proceed_sound script.devices theme n c o.launch.image start
  have hstage : (s.proceed script.devices theme n start).1.2.stage =
      .ended (o.edit c theme script cancelled).session.outcome :=
    Session.stage_of_outcome? (Option.some_get _).symm
  rcases hsound.settle hstage o with ⟨m, selections, _, _, _, _, ho⟩ | ⟨g, _, ho, hg⟩
  · have hf := ho.symm.trans h
    cases hf
  · have hf := ho.symm.trans h
    cases hf
    exact hg

end Options
end LaunchEditor
