import LaunchEditor.Editor.Script
import LaunchEditor.Proofs.Session.Trace

/-! # Cancellation

A session looks for its cancellation before every wait and nowhere else. So one that is cancelled
waits no more: it still applies the key that has come with the cancellation, makes at most one more
draw, and explains itself if that draw fails.
-/
namespace LaunchEditor.Session

/-- The devices tell whether the session is cancelled, and never take it back. -/
structure Latch {σ : Type} (d : Devices (StateM σ)) (raised : σ → Bool) : Prop where
  look : ∀ p, d.isCancelled p = (raised p, p)
  draw : ∀ frame p, raised p = true → raised (d.draw frame p).2 = true
  read : ∀ p, raised p = true → raised (d.read p).2 = true

theorem Script.latch (script : Script) : Latch script.devices (·.cancelled) where
  look := fun _ => rfl
  draw := by
    intro frame p hp
    have hp' : p.cancelled = true := hp
    simp [Script.devices, hp']
  read := by
    intro p hp
    obtain ⟨waits, draws, cancelled⟩ := p
    obtain rfl : cancelled = true := hp
    cases waits <;> simp [Script.devices]

section
variable (theme : Terminal.Theme)

def explanation (reason : String) (failure : Option String) : Event :=
  .drew (theme.paint .error reason ++ "\n") failure

/-- The draw that ends a cancelled session, and what the session ends in. -/
inductive LastDraw (m : Editor) : List Event → Except Fault Editor → Prop where
  | drawn : LastDraw m [.drew (m.frame theme) none, .cancelled] (.error .cancelled)
  | failed (reason : String) (failure : Option String) :
      LastDraw m [.drew (m.frame theme) (some reason), explanation theme reason failure]
        (.error (.session reason))

/-- What follows the event in the course of which a session is cancelled, and what it ends in. -/
inductive Close : Session → Event → List Event → Except Fault Editor → Prop where
  | idle (m : Editor) : Close ⟨m, .wait⟩ (.read .nothing) [.cancelled] (.error .cancelled)
  | broken (m : Editor) (reason : String) (failure : Option String) :
      Close ⟨m, .wait⟩ (.read (.failed reason)) [explanation theme reason failure]
        (.error (.session reason))
  | quit {m f : Editor} {k : Key} (hk : m.update (.key k) = (f, .quit)) :
      Close ⟨m, .wait⟩ (.read (.key k)) [] (.ok f)
  | stay {m f : Editor} {k : Key} (hk : m.update (.key k) = (f, .stay)) {rest : List Event}
      {outcome : Except Fault Editor} (h : LastDraw theme f rest outcome) :
      Close ⟨m, .wait⟩ (.read (.key k)) rest outcome
  | drawn (m : Editor) :
      Close ⟨m, .draw⟩ (.drew (m.frame theme) none) [.cancelled] (.error .cancelled)
  | drawFailed (m : Editor) (reason : String) (failure : Option String) :
      Close ⟨m, .draw⟩ (.drew (m.frame theme) (some reason)) [explanation theme reason failure]
        (.error (.session reason))
  | explained (m : Editor) (reason : String) (failure : Option String) :
      Close ⟨m, .explain reason⟩ (.drew (m.frame theme) failure) [] (.error (.session reason))

variable {theme}

theorem LastDraw.length_le {m : Editor} {rest : List Event} {outcome : Except Fault Editor}
    (h : LastDraw theme m rest outcome) : rest.length ≤ 2 := by
  cases h <;> simp

theorem LastDraw.read_notMem {m : Editor} {rest : List Event} {outcome : Except Fault Editor}
    (h : LastDraw theme m rest outcome) (answer : Answer) : .read answer ∉ rest := by
  cases h <;> simp [explanation]

theorem Close.length_le {s : Session} {event : Event} {rest : List Event}
    {outcome : Except Fault Editor} (h : Close theme s event rest outcome) : rest.length ≤ 2 := by
  cases h with
  | stay _ h => exact h.length_le
  | _ => simp

theorem Close.read_notMem {s : Session} {event : Event} {rest : List Event}
    {outcome : Except Fault Editor} (h : Close theme s event rest outcome) (answer : Answer) :
    .read answer ∉ rest := by
  cases h with
  | stay _ h => exact h.read_notMem answer
  | _ => simp [explanation]

end

section
variable {σ : Type} {d : Devices (StateM σ)} {theme : Terminal.Theme}

theorem Acts.act_eq {s : Session} {event : Event} {p q : σ} (h : Acts d theme s p event q) :
    s.act d theme p = (some event, q) := by
  cases h with
  | draw h | explain h =>
    simp only [act, bind, StateT.bind, h]
    rfl
  | @read _ _ r _ answer hc h =>
    have hread : (some (Event.read (d.read r).1), (d.read r).2) = (some (.read answer), q) := by
      rw [h]
    simp only [act, bind, StateT.bind, hc]
    exact hread
  | cancelled hc =>
    simp only [act, bind, StateT.bind, hc]
    rfl

/-- A run that ends the session is what proceeding gives from its length on. -/
theorem Runs.proceed_eq {s t : Session} {p q : σ} {events : List Event}
    (h : Runs d theme s p events t q) {outcome : Except Fault Editor}
    (ht : t.outcome? = some outcome) {n : Nat} (hn : events.length ≤ n) :
    s.proceed d theme n p = ((events, t), q) := by
  induction h generalizing n with
  | refl s p => exact proceed_of_outcome d theme ht n p
  | step ha _ ih =>
    obtain ⟨k, rfl⟩ : ∃ k, n = k + 1 := Nat.exists_eq_add_one.mpr (Nat.lt_of_lt_of_le (by simp) hn)
    have hk := Nat.le_of_succ_le_succ hn
    rw [proceed_of_acts d theme ha.act_eq, ih ht hk]

theorem Runs.trans {s t u : Session} {p q r : σ} {events rest : List Event}
    (h : Runs d theme s p events t q) (h' : Runs d theme t q rest u r) :
    Runs d theme s p (events ++ rest) u r := by
  induction h with
  | refl => exact h'
  | step ha _ ih => exact .step ha (ih h')

/-- What a run has brought about, one of its events has. -/
theorem Runs.exists_event {P : σ → Prop} {s t : Session} {p q : σ} {events : List Event}
    (h : Runs d theme s p events t q) (hp : ¬ P p) (hq : P q) :
    ∃ before event rest u p' q', events = before ++ event :: rest ∧
      Runs d theme s p before u p' ∧ Acts d theme u p' event q' ∧ ¬ P p' ∧ P q' := by
  induction h with
  | refl => exact absurd hq hp
  | @step s t p q r event events ha _ ih =>
    by_cases h : P q
    · exact ⟨[], event, events, s, p, q, rfl, .refl s p, ha, hp, h⟩
    · obtain ⟨before, event', rest, u, p', q', rfl, hrun, hact, hp', hq'⟩ := ih h hq
      exact ⟨event :: before, event', rest, u, p', q', rfl, .step ha hrun, hact, hp', hq'⟩

theorem runs_explain (d : Devices (StateM σ)) (theme : Terminal.Theme) (m : Editor)
    (reason : String) (p : σ) :
    ∃ failure q, Runs d theme ⟨{ m with failure := some reason }, .explain reason⟩ p
      [explanation theme reason failure]
      ⟨{ m with failure := some reason }, .ended (.error (.session reason))⟩ q :=
  ⟨_, _, .step (.explain rfl) (.refl _ _)⟩

namespace Latch
variable {raised : σ → Bool} (h : Latch d raised)
include h

theorem runs_wait {p : σ} (hp : raised p = true) (m : Editor) :
    Runs d theme ⟨m, .wait⟩ p [.cancelled] ⟨m, .ended (.error .cancelled)⟩ p := by
  have hlook : d.isCancelled p = (true, p) := by
    rw [h.look, hp]
  exact .step (.cancelled hlook) (.refl _ _)

theorem runs_draw (theme : Terminal.Theme) {p : σ} (hp : raised p = true) (m : Editor) :
    ∃ rest outcome t q, LastDraw theme m rest outcome ∧ t.stage = .ended outcome ∧
      Runs d theme ⟨m, .draw⟩ p rest t q := by
  have hq := h.draw (m.frame theme) p hp
  rcases hd : d.draw (m.frame theme) p with ⟨_ | reason, q⟩
  · rw [hd] at hq
    exact ⟨_, _, _, _, .drawn, rfl, .step (.draw hd) (h.runs_wait hq m)⟩
  · obtain ⟨failure, r, hr⟩ := runs_explain d theme m reason q
    exact ⟨_, _, _, _, .failed reason failure, rfl, .step (.draw hd) hr⟩

/-- A session that is cancelled in the course of an event closes as the event asks for. -/
theorem runs_after {s : Session} {event : Event} {p q : σ} (ha : Acts d theme s p event q)
    (hp : raised p = false) (hq : raised q = true) :
    ∃ rest outcome t r, Close theme s event rest outcome ∧ t.stage = .ended outcome ∧
      Runs d theme (s.after event) q rest t r := by
  cases ha with
  | @draw m _ _ failure =>
    cases failure with
    | none => exact ⟨_, _, _, _, .drawn m, rfl, h.runs_wait hq m⟩
    | some reason =>
      obtain ⟨failure, r, hr⟩ := runs_explain d theme m reason q
      exact ⟨_, _, _, _, .drawFailed m reason failure, rfl, hr⟩
  | @explain m reason _ _ failure =>
    exact ⟨_, _, _, _, .explained m reason failure, rfl, .refl _ _⟩
  | cancelled hc =>
    -- Looking for the cancellation does not bring it about.
    rw [h.look, hp] at hc
    cases hc
  | @read m _ _ _ answer =>
    cases answer with
    | nothing => exact ⟨_, _, _, _, .idle m, rfl, h.runs_wait hq m⟩
    | failed reason =>
      obtain ⟨failure, r, hr⟩ := runs_explain d theme m reason q
      exact ⟨_, _, _, _, .broken m reason failure, rfl, hr⟩
    | key k =>
      rcases hk : m.update (.key k) with ⟨f, _ | _⟩
      · obtain ⟨rest, outcome, t, r, hl, ht, hr⟩ := h.runs_draw theme hq f
        refine ⟨rest, outcome, t, r, .stay hk hl, ht, ?_⟩
        simpa only [after, press, hk] using hr
      · refine ⟨_, _, _, _, .quit hk, ?_, .refl _ _⟩
        simp only [after, press, hk]

end Latch

/-- A session that is found cancelled was so before it started or became so in the course of one
event. In the first case it draws once, in the second it closes as the event asks for. Either way it
waits for no more keys and has ended two events later at the latest. -/
theorem proceed_cancelled {raised : σ → Bool} (h : Latch d raised) (theme : Terminal.Theme)
    (e : Editor) (p : σ) :
    (∀ n, let r := proceed d theme ⟨e, .draw⟩ n p
      raised r.2 = true → raised p = true ∨
        ∃ before event rest s q q', r.1.1 = before ++ event :: rest ∧
          Runs d theme ⟨e, .draw⟩ p before s q ∧ Acts d theme s q event q' ∧
          raised q = false ∧ raised q' = true) ∧
    (raised p = true → ∃ rest outcome, LastDraw theme e rest outcome ∧
      (∀ answer, .read answer ∉ rest) ∧
      ∀ n, 2 ≤ n → let r := proceed d theme ⟨e, .draw⟩ n p
        r.1.1 = rest ∧ r.1.2.stage = .ended outcome) ∧
    ∀ before s q event q', Runs d theme ⟨e, .draw⟩ p before s q → Acts d theme s q event q' →
      raised q = false → raised q' = true → ∃ rest outcome, Close theme s event rest outcome ∧
        (∀ answer, .read answer ∉ rest) ∧
        ∀ n, before.length + 3 ≤ n → let r := proceed d theme ⟨e, .draw⟩ n p
          r.1.1 = before ++ event :: rest ∧ r.1.2.stage = .ended outcome := by
  refine ⟨?_, ?_, ?_⟩
  · intro n r hr
    by_cases hp : raised p = true
    · exact .inl hp
    · obtain ⟨before, event, rest, s, q, q', heq, hrun, hact, hq, hq'⟩ :=
        (proceed_runs d theme n ⟨e, .draw⟩ p).1.exists_event (P := (raised · = true)) hp hr
      exact .inr ⟨before, event, rest, s, q, q', heq, hrun, hact, Bool.eq_false_iff.mpr hq, hq'⟩
  · intro hp
    obtain ⟨rest, outcome, t, q, hl, ht, hr⟩ := h.runs_draw theme hp e
    refine ⟨rest, outcome, hl, hl.read_notMem, fun n hn => ?_⟩
    have hend : t.outcome? = some outcome := by
      rw [outcome?, ht]
    rw [hr.proceed_eq hend (Nat.le_trans hl.length_le hn)]
    exact ⟨rfl, ht⟩
  · intro before s q event q' hrun hact hq hq'
    obtain ⟨rest, outcome, t, r, hc, ht, hr⟩ := h.runs_after hact hq hq'
    refine ⟨rest, outcome, hc, hc.read_notMem, fun n hn => ?_⟩
    have hend : t.outcome? = some outcome := by
      rw [outcome?, ht]
    have hlen : (before ++ event :: rest).length ≤ n := by
      have hrest := hc.length_le
      simp only [List.length_append, List.length_cons]
      omega
    rw [(hrun.trans (.step hact hr)).proceed_eq hend hlen]
    exact ⟨rfl, ht⟩

/-- The key that comes with the cancellation is the last one, though another one waits. -/
theorem proceed_cancelled_key :
    let waits : List Wait :=
      [{ answer := .key (.char 'a'), cancels := true }, { answer := .key .enter }]
    let script : Script := { waits, exhausted := "", drawing := fun _ => {} }
    let e := Editor.new .builtin "alpine"
    let f := e.pressed [.char 'a']
    let start : Progress := { waits, cancelled := false }
    Latch script.devices (·.cancelled) ∧ ∀ n, 4 ≤ n →
      let r := proceed script.devices ⟨false⟩ ⟨e, .draw⟩ n start
      r.1.1 = [.drew (e.frame ⟨false⟩) none, .read (.key (.char 'a')), .drew (f.frame ⟨false⟩) none,
        .cancelled] ∧ r.1.2.stage = .ended (.error .cancelled) := by
  intro waits script e f start
  have h : Latch script.devices (·.cancelled) := script.latch
  have hrun : Runs script.devices ⟨false⟩ ⟨e, .draw⟩ start [.drew (e.frame ⟨false⟩) none] ⟨e, .wait⟩
      { start with draws := 1 } := .step (.draw rfl) (.refl _ _)
  have hact : Acts script.devices ⟨false⟩ ⟨e, .wait⟩ { start with draws := 1 }
      (.read (.key (.char 'a'))) { waits := waits.tail, draws := 1, cancelled := true } :=
    .read rfl rfl
  obtain ⟨_, _, hcancel⟩ := proceed_cancelled h ⟨false⟩ e start
  obtain ⟨rest, outcome, _, _, hr⟩ := hcancel _ _ _ _ _ hrun hact rfl rfl
  have hevents : (proceed script.devices ⟨false⟩ ⟨e, .draw⟩ 4 start).1.1 =
      [.drew (e.frame ⟨false⟩) none, .read (.key (.char 'a')), .drew (f.frame ⟨false⟩) none,
        .cancelled] := rfl
  have hstage : (proceed script.devices ⟨false⟩ ⟨e, .draw⟩ 4 start).1.2.stage =
      .ended (.error .cancelled) := rfl
  obtain ⟨hevents', hstage'⟩ := hr 4 (Nat.le_refl 4)
  refine ⟨h, fun n hn => ?_⟩
  obtain ⟨hn, hn'⟩ := hr n hn
  exact ⟨hn.trans (hevents'.symm.trans hevents), hn'.trans (hstage'.symm.trans hstage)⟩

end

end LaunchEditor.Session
