import LaunchEditor.Editor.Frame

/-! # A session

A session draws the editor, waits for a key, applies it and starts over, until a key quits, a draw
or a wait fails, or the session is cancelled. Cancellation is looked for before every wait. What
the session does next is settled by its stage, and what becomes of it by the answers of its
devices.
-/
namespace LaunchEditor

namespace Session

/-- What one wait for a key brings. -/
inductive Answer where
  | key (k : Key)
  | nothing
  | failed (reason : String)
  deriving DecidableEq, Repr

inductive Stage where
  | draw
  | wait
  /-- Draws the failure, whether or not that works. -/
  | explain (reason : String)
  | ended (outcome : Except Fault Editor)

/-- One thing that a session did, and what came of it. -/
inductive Event where
  | drew (frame : String) (failure : Option String)
  | read (answer : Answer)
  /-- Found itself cancelled. -/
  | cancelled
  deriving DecidableEq, Repr

structure Devices (m : Type → Type) where
  draw (frame : String) : m (Option String)
  read : m Answer
  isCancelled : m Bool

end Session

structure Session where
  editor : Editor
  stage : Session.Stage := .draw

namespace Session

def fail (s : Session) (reason : String) : Session :=
  ⟨(s.editor.update (.failure reason)).1, .explain reason⟩

@[simp] theorem fail_stage (s : Session) (reason : String) :
    (s.fail reason).stage = .explain reason := rfl

def drew (s : Session) (failure : Option String) : Session :=
  match s.stage, failure with
  | .explain reason, _ => { s with stage := .ended (.error (.session reason)) }
  | _, none => { s with stage := .wait }
  | _, some reason => s.fail reason

def press (s : Session) (k : Key) : Session :=
  match s.editor.update (.key k) with
  | (e, .quit) => ⟨e, .ended (.ok e)⟩
  | (e, .stay) => ⟨e, .draw⟩

def after (s : Session) : Event → Session
  | .drew _ failure => s.drew failure
  | .read (.key k) => s.press k
  | .read .nothing => s
  | .read (.failed reason) => s.fail reason
  | .cancelled => { s with stage := .ended (.error .cancelled) }

def outcome? (s : Session) : Option (Except Fault Editor) :=
  match s.stage with
  | .ended outcome => some outcome
  | _ => none

section
variable {m : Type → Type} [Monad m] (d : Devices m) (theme : Terminal.Theme)

/-- The next thing that a session does; one that has ended does nothing. -/
def act (s : Session) : m (Option Event) :=
  match s.stage with
  | .draw | .explain _ => do
    let frame := s.editor.frame theme
    return some (.drew frame (← d.draw frame))
  | .wait => do
    if ← d.isCancelled then return some .cancelled
    return some (.read (← d.read))
  | .ended _ => return none

/-- The first `n` things that a session does, and what becomes of it. -/
def proceed (s : Session) : Nat → m (List Event × Session)
  | 0 => return ([], s)
  | n + 1 => do
    match ← s.act d theme with
    | none => return ([], s)
    | some event =>
      let (events, t) ← (s.after event).proceed n
      return (event :: events, t)

end

section
variable {σ : Type} (d : Devices (StateM σ)) (theme : Terminal.Theme)

/-- What a session may do next on devices that have a state. -/
inductive Acts : Session → σ → Event → σ → Prop where
  | draw {e : Editor} {p q : σ} {failure : Option String}
      (h : d.draw (e.frame theme) p = (failure, q)) :
      Acts ⟨e, .draw⟩ p (.drew (e.frame theme) failure) q
  | explain {e : Editor} {reason : String} {p q : σ} {failure : Option String}
      (h : d.draw (e.frame theme) p = (failure, q)) :
      Acts ⟨e, .explain reason⟩ p (.drew (e.frame theme) failure) q
  | read {e : Editor} {p q r : σ} {answer : Answer} (hc : d.isCancelled p = (false, q))
      (h : d.read q = (answer, r)) : Acts ⟨e, .wait⟩ p (.read answer) r
  | cancelled {e : Editor} {p q : σ} (hc : d.isCancelled p = (true, q)) :
      Acts ⟨e, .wait⟩ p .cancelled q

inductive Runs : Session → σ → List Event → Session → σ → Prop where
  | refl (s : Session) (p : σ) : Runs s p [] s p
  | step {s t : Session} {p q r : σ} {event : Event} {events : List Event}
      (h : Acts d theme s p event q) (hr : Runs (s.after event) q events t r) :
      Runs s p (event :: events) t r

/-- A session does something unless it has ended. -/
theorem act_spec (s : Session) (p : σ) :
    (∃ outcome, s.outcome? = some outcome ∧ s.act d theme p = (none, p)) ∨
      ∃ event q, s.act d theme p = (some event, q) ∧ Acts d theme s p event q := by
  obtain ⟨e, stage⟩ := s
  cases stage with
  | draw => exact .inr ⟨_, _, rfl, .draw rfl⟩
  | explain reason => exact .inr ⟨_, _, rfl, .explain rfl⟩
  | ended outcome => exact .inl ⟨outcome, rfl, rfl⟩
  | wait =>
    right
    rcases hc : d.isCancelled p with ⟨_ | _, q⟩
    · refine ⟨.read (d.read q).1, (d.read q).2, ?_, .read hc rfl⟩
      simp only [act, bind, StateT.bind, hc]
      rfl
    · refine ⟨.cancelled, q, ?_, .cancelled hc⟩
      simp only [act, bind, StateT.bind, hc]
      rfl

theorem proceed_of_outcome {s : Session} {outcome : Except Fault Editor}
    (h : s.outcome? = some outcome) (n : Nat) (p : σ) : s.proceed d theme n p = (([], s), p) := by
  cases n with
  | zero => rfl
  | succ n =>
    rcases act_spec d theme s p with ⟨_, _, ha⟩ | ⟨event, q, _, hs⟩
    · simp only [proceed, bind, StateT.bind, ha]
      rfl
    · cases hs <;> simp [outcome?] at h

theorem proceed_of_acts {s : Session} {p q : σ} {event : Event}
    (h : s.act d theme p = (some event, q)) (n : Nat) :
    s.proceed d theme (n + 1) p =
      let r := (s.after event).proceed d theme n q
      ((event :: r.1.1, r.1.2), r.2) := by
  simp only [proceed, bind, StateT.bind, h]
  rfl

/-- Proceeding gives a run that is as long as asked for unless the session ends in it. -/
theorem proceed_runs (n : Nat) (s : Session) (p : σ) :
    let r := s.proceed d theme n p
    Runs d theme s p r.1.1 r.1.2 r.2 ∧ (r.1.1.length = n ∨ r.1.2.outcome?.isSome) := by
  induction n generalizing s p with
  | zero => exact ⟨.refl s p, .inl rfl⟩
  | succ n ih =>
    rcases act_spec d theme s p with ⟨outcome, ho, _⟩ | ⟨event, q, ha, hs⟩
    · rw [proceed_of_outcome d theme ho]
      exact ⟨.refl s p, .inr (by simp [ho])⟩
    · rw [proceed_of_acts d theme ha]
      obtain ⟨hr, hn⟩ := ih (s.after event) q
      exact ⟨.step hs hr, hn.imp_left (congrArg (· + 1))⟩

end

end Session
end LaunchEditor
