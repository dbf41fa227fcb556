import LaunchEditor.Editor.Session

/-! # Scripted sessions

A script says beforehand what the waits and draws of a session bring: a list of waits, of which
every one past the end fails, and the outcome of each draw by its number. Since every wait is
followed by at most one draw, a session that follows a script ends.
-/
namespace LaunchEditor.Session

/-- One wait; the session may be cancelled in the course of it. -/
structure Wait where
  answer : Answer
  cancels : Bool := false
  deriving DecidableEq, Repr

structure Drawing where
  failure : Option String := none
  cancels : Bool := false
  deriving DecidableEq, Repr

structure Script where
  waits : List Wait
  /-- The failure of every wait after the last of `waits`. -/
  exhausted : String
  drawing : Nat → Drawing

/-- Where a session stands in its script. -/
structure Progress where
  waits : List Wait
  draws : Nat := 0
  cancelled : Bool
  deriving DecidableEq, Repr

def Script.devices (script : Script) : Devices (StateM Progress) where
  draw _ p :=
    let d := script.drawing p.draws
    (d.failure, { p with draws := p.draws + 1, cancelled := p.cancelled || d.cancels })
  read p :=
    match p.waits with
    | [] => (.failed script.exhausted, p)
    | wait :: rest =>
      (wait.answer, { p with waits := rest, cancelled := p.cancelled || wait.cancels })
  isCancelled p := (p.cancelled, p)

def Stage.rank : Stage → Nat
  | draw => 3
  | wait => 2
  | explain _ => 1
  | ended _ => 0

/-- A bound for what is left to do of a session with `waits` waits ahead. -/
def budget (s : Session) (waits : Nat) : Nat := 2 * waits + s.stage.rank

theorem press_rank_le (s : Session) (k : Key) : (s.press k).stage.rank ≤ 3 := by
  unfold press
  split <;> simp [Stage.rank]

/-- Everything that a session does under a script brings it closer to its end. -/
theorem budget_after_lt {script : Script} {theme : Terminal.Theme} {s : Session} {p q : Progress}
    {event : Event} (h : Acts script.devices theme s p event q) :
    (s.after event).budget q.waits.length < s.budget p.waits.length := by
  obtain ⟨waits, draws, cancelled⟩ := p
  cases h with
  | draw h =>
    cases h
    cases hf : (script.drawing draws).failure <;> simp [after, drew, budget, Stage.rank]
  | explain h =>
    cases h
    simp [after, drew, budget, Stage.rank]
  | cancelled hc =>
    obtain ⟨_, rfl⟩ := Prod.mk.inj hc
    simp [after, budget, Stage.rank]
  | @read e _ _ _ answer hc h =>
    obtain ⟨_, rfl⟩ := Prod.mk.inj hc
    cases waits with
    | nil =>
      cases h
      simp [after, budget, Stage.rank]
    | cons wait rest =>
      cases h
      cases ha : wait.answer with
      | nothing => simp [after, budget]
      | failed reason =>
        simp only [after, budget, fail_stage, Stage.rank, List.length_cons]
        omega
      | key k =>
        have hk := press_rank_le ⟨e, .wait⟩ k
        simp only [after, budget, List.length_cons]
        simp only [Stage.rank] at hk ⊢
        omega

theorem Runs.length_add_budget_le {script : Script} {theme : Terminal.Theme} {s t : Session}
    {p q : Progress} {events : List Event} (h : Runs script.devices theme s p events t q) :
    events.length + t.budget q.waits.length ≤ s.budget p.waits.length := by
  induction h with
  | refl => simp
  | step h _ ih =>
    have hb := budget_after_lt h
    simp only [List.length_cons]
    omega

theorem outcome?_of_budget_eq_zero {s : Session} (waits : Nat) (h : s.budget waits = 0) :
    s.outcome?.isSome := by
  obtain ⟨e, stage⟩ := s
  cases stage with
  | ended outcome => rfl
  | _ => simp [budget, Stage.rank] at h

theorem proceed_ends (script : Script) (theme : Terminal.Theme) {n : Nat} {s : Session}
    {p : Progress} (h : s.budget p.waits.length ≤ n) :
    (s.proceed script.devices theme n p).1.2.outcome?.isSome := by
  obtain ⟨hr, hn | he⟩ := proceed_runs script.devices theme n s p
  · have hb := hr.length_add_budget_le
    apply outcome?_of_budget_eq_zero (s.proceed script.devices theme n p).2.waits.length
    omega
  · exact he

/-- One draw that was made: the frame, and whether it reached the screen. -/
structure Drawn where
  frame : String
  shown : Bool
  deriving DecidableEq, Repr

def Event.drawn? : Event → Option Drawn
  | drew frame failure => some ⟨frame, failure.isNone⟩
  | _ => none

structure Report where
  drawn : List Drawn
  unread : List Wait
  outcome : Except Fault Editor
  notices : List Notice

def Report.frames (r : Report) : List String := (r.drawn.filter (·.shown)).map (·.frame)

def endNotices : Except Fault Editor → List Notice
  | .error .cancelled => [⟨.info, "Session cancelled"⟩]
  | .error (.session reason) => [Fault.sessionNotice reason]
  | _ => []

def run (theme : Terminal.Theme) (script : Script) (cancelled : Bool) (e : Editor) : Report :=
  let start : Progress := { waits := script.waits, cancelled }
  let s : Session := ⟨e, .draw⟩
  let r := s.proceed script.devices theme (s.budget script.waits.length) start
  let outcome := r.1.2.outcome?.get (proceed_ends script theme (Nat.le_refl _))
  { drawn := r.1.1.filterMap (·.drawn?)
    unread := r.2.waits
    outcome
    notices := endNotices outcome }

end LaunchEditor.Session
