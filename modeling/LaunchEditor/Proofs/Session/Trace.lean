import LaunchEditor.Editor.Session
import Mathlib.Data.List.Basic

/-! # The trace of a session

A session alternates between drawing the editor and waiting for a key, and a key that does not
quit leads to the next draw. What a session draws and how it ends follow from the keys, the
failures and the cancellation alone; waits that bring nothing leave no mark on either.
-/
namespace LaunchEditor

namespace Editor

def pressed (e : Editor) (ks : List Key) : Editor := e.run (ks.map .key)

/-- No key of the sequence quits. -/
def Stays : Editor → List Key → Prop
  | _, [] => True
  | e, k :: ks => (e.update (.key k)).2 = .stay ∧ Stays (e.update (.key k)).1 ks

@[simp] theorem pressed_nil (e : Editor) : e.pressed [] = e := rfl

@[simp] theorem pressed_cons (e : Editor) (k : Key) (ks : List Key) :
    e.pressed (k :: ks) = (e.update (.key k)).1.pressed ks := rfl

theorem pressed_concat (e : Editor) (ks : List Key) (k : Key) :
    e.pressed (ks ++ [k]) = ((e.pressed ks).update (.key k)).1 := by
  simp [pressed, run]

theorem stays_concat {e : Editor} {ks : List Key} {k : Key} :
    e.Stays (ks ++ [k]) ↔ e.Stays ks ∧ ((e.pressed ks).update (.key k)).2 = .stay := by
  induction ks generalizing e with
  | nil => simp [Stays]
  | cons j ks ih => simp only [List.cons_append, Stays, ih, pressed_cons, and_assoc]

end Editor

namespace Session

def Event.frame? : Event → Option String
  | .drew frame _ => some frame
  | _ => none

def Event.key? : Event → Option Key
  | .read (.key k) => some k
  | _ => none

/-- The frames that were drawn, shown or not. -/
def frames (events : List Event) : List String := events.filterMap (·.frame?)

def keys (events : List Event) : List Key := events.filterMap (·.key?)

theorem frames_append (t u : List Event) : frames (t ++ u) = frames t ++ frames u :=
  List.filterMap_append

theorem keys_append (t u : List Event) : keys (t ++ u) = keys t ++ keys u :=
  List.filterMap_append

/-- What a session may learn from its devices. -/
inductive News where
  | drawn (failure : Option String)
  | pressed (k : Key)
  | broken (reason : String)
  | cancelled

def Event.news? : Event → Option News
  | .drew _ failure => some (.drawn failure)
  | .read (.key k) => some (.pressed k)
  | .read .nothing => none
  | .read (.failed reason) => some (.broken reason)
  | .cancelled => some .cancelled

def news (events : List Event) : List News := events.filterMap (·.news?)

section
variable {σ : Type} (d : Devices (StateM σ))

/-- The devices do what the events tell, and nothing else in between. -/
inductive Devices.Performs : σ → List Event → σ → Prop where
  | nil (p : σ) : Performs p [] p
  | drew {frame : String} {failure : Option String} {events : List Event} {p q r : σ}
      (h : d.draw frame p = (failure, q)) (hr : Performs q events r) :
      Performs p (.drew frame failure :: events) r
  | read {answer : Answer} {events : List Event} {p q r t : σ}
      (hc : d.isCancelled p = (false, q)) (h : d.read q = (answer, r))
      (hr : Performs r events t) : Performs p (.read answer :: events) t
  | cancelled {events : List Event} {p q r : σ} (hc : d.isCancelled p = (true, q))
      (hr : Performs q events r) : Performs p (.cancelled :: events) r

theorem Runs.performs {d : Devices (StateM σ)} {theme : Terminal.Theme} {s t : Session} {p q : σ}
    {events : List Event} (h : Runs d theme s p events t q) : d.Performs p events q := by
  induction h with
  | refl s p => exact .nil p
  | step h _ ih =>
    cases h with
    | draw h | explain h => exact .drew h ih
    | read hc h => exact .read hc h ih
    | cancelled hc => exact .cancelled hc ih

end

/-- The waits that bring nothing before a key comes, and the key. -/
structure Turn where
  polls : Nat
  key : Key

/-- No turn quits, and together they make `e` into `m`. -/
def Leads (e : Editor) (turns : List Turn) (m : Editor) : Prop :=
  e.Stays (turns.map (·.key)) ∧ e.pressed (turns.map (·.key)) = m

theorem Leads.concat {e m f : Editor} {turns : List Turn} (h : Leads e turns m) (polls : Nat)
    {k : Key} (hk : m.update (.key k) = (f, .stay)) : Leads e (turns ++ [⟨polls, k⟩]) f := by
  obtain ⟨hs, rfl⟩ := h
  constructor
  · rw [List.map_append]
    exact Editor.stays_concat.mpr ⟨hs, by rw [hk]⟩
  · rw [List.map_append]
    exact (Editor.pressed_concat _ _ _).trans (by rw [hk])

section
variable (theme : Terminal.Theme)

def pause (e : Editor) (polls : Nat) : List Event :=
  .drew (e.frame theme) none :: .replicate polls (.read .nothing)

/-- The first `n` frames that the keys lead to. -/
def views (e : Editor) (ks : List Key) (n : Nat) : List String :=
  (List.range n).map fun i => (e.pressed (ks.take i)).frame theme

theorem views_succ (e : Editor) (ks : List Key) (n : Nat) :
    views theme e ks (n + 1) = views theme e ks n ++ [(e.pressed (ks.take n)).frame theme] := by
  simp [views, List.range_succ]

theorem frames_pause (e : Editor) (polls : Nat) :
    frames (pause theme e polls) = [e.frame theme] := by
  simp [frames, pause, Event.frame?, List.filterMap_replicate_of_none]

theorem keys_pause (e : Editor) (polls : Nat) : keys (pause theme e polls) = [] := by
  simp [keys, pause, Event.key?, List.filterMap_replicate_of_none]

/-- Each turn draws the editor as the keys of the turns before it left it. -/
def exchange (e : Editor) : List Turn → List Event
  | [] => []
  | turn :: turns =>
    pause theme e turn.polls ++
      .read (.key turn.key) :: exchange (e.update (.key turn.key)).1 turns

theorem exchange_concat (e : Editor) (turns : List Turn) (turn : Turn) :
    exchange theme e (turns ++ [turn]) =
      exchange theme e turns ++ pause theme (e.pressed (turns.map (·.key))) turn.polls ++
        [.read (.key turn.key)] := by
  induction turns generalizing e with
  | nil => simp [exchange]
  | cons first turns ih => simp [exchange, ih]

/-- What a session on `e` may have done so far, and what has become of it. -/
inductive Course (e : Editor) : List Event → Session → Prop where
  | drawing {turns : List Turn} {m : Editor} (h : Leads e turns m) :
      Course e (exchange theme e turns) ⟨m, .draw⟩
  | waiting {turns : List Turn} {m : Editor} (h : Leads e turns m) (polls : Nat) :
      Course e (exchange theme e turns ++ pause theme m polls) ⟨m, .wait⟩
  | quit {turns : List Turn} {m f : Editor} (h : Leads e turns m) (polls : Nat) {k : Key}
      (hk : m.update (.key k) = (f, .quit)) :
      Course e (exchange theme e (turns ++ [⟨polls, k⟩])) ⟨f, .ended (.ok f)⟩
  | cancelled {turns : List Turn} {m : Editor} (h : Leads e turns m) (polls : Nat) :
      Course e (exchange theme e turns ++ pause theme m polls ++ [.cancelled])
        ⟨m, .ended (.error .cancelled)⟩
  | drawFailed {turns : List Turn} {m : Editor} (h : Leads e turns m) (reason : String) :
      Course e (exchange theme e turns ++ [.drew (m.frame theme) (some reason)])
        ⟨{ m with failure := some reason }, .explain reason⟩
  | readFailed {turns : List Turn} {m : Editor} (h : Leads e turns m) (polls : Nat)
      (reason : String) :
      Course e (exchange theme e turns ++ pause theme m polls ++ [.read (.failed reason)])
        ⟨{ m with failure := some reason }, .explain reason⟩
  /-- The failure is drawn once, and the session fails with it whatever comes of that. -/
  | failed {events : List Event} {m : Editor} {reason : String}
      (h : Course e events ⟨m, .explain reason⟩) (failure : Option String) :
      Course e (events ++ [.drew (theme.paint .error reason ++ "\n") failure])
        ⟨m, .ended (.error (.session reason))⟩

variable {theme}

theorem Course.frame_of_explain {e m : Editor} {events : List Event} {reason : String}
    (h : Course theme e events ⟨m, .explain reason⟩) :
    m.frame theme = theme.paint .error reason ++ "\n" := by
  cases h <;> rfl

theorem pause_succ (m : Editor) (polls : Nat) :
    pause theme m (polls + 1) = pause theme m polls ++ [.read .nothing] := by
  simp [pause, List.replicate_succ']

theorem Course.acts {σ : Type} {d : Devices (StateM σ)} {e : Editor} {events : List Event}
    {s : Session} {event : Event} {p q : σ} (h : Course theme e events s)
    (ha : Acts d theme s p event q) : Course theme e (events ++ [event]) (s.after event) := by
  cases ha with
  | @draw m p q failure =>
    cases h with
    | drawing h =>
      cases failure with
      | none => exact .waiting h 0
      | some reason => exact .drawFailed h reason
  | @explain m reason p q failure =>
    rw [h.frame_of_explain]
    exact .failed h failure
  | @cancelled m =>
    cases h with
    | waiting h polls => exact .cancelled h polls
  | @read m p q r answer =>
    cases h with
    | @waiting turns _ h polls =>
      cases answer with
      | nothing =>
        rw [List.append_assoc, ← pause_succ]
        exact .waiting h (polls + 1)
      | failed reason => exact .readFailed h polls reason
      | key k =>
        have hturn : exchange theme e turns ++ pause theme m polls ++ [.read (.key k)] =
            exchange theme e (turns ++ [⟨polls, k⟩]) := by
          rw [exchange_concat, h.2]
        rw [hturn]
        simp only [after, press]
        split
        · next f hk => exact .quit h polls hk
        · next f hk => exact .drawing (h.concat polls hk)

-- The trace so far grows at its end, so the induction is on the rest of the run.
theorem Course.runs {σ : Type} {d : Devices (StateM σ)} {e : Editor} {before events : List Event}
    {s t : Session} {p q : σ} (h : Course theme e before s) (hr : Runs d theme s p events t q) :
    Course theme e (before ++ events) t := by
  induction hr generalizing before with
  | refl => simpa using h
  | step ha _ ih => simpa using ih (h.acts ha)

theorem frames_exchange (e : Editor) (turns : List Turn) :
    frames (exchange theme e turns) = views theme e (turns.map (·.key)) turns.length := by
  induction turns generalizing e with
  | nil => rfl
  | cons turn turns ih =>
    let f := (e.update (.key turn.key)).1
    have hread : frames (.read (.key turn.key) :: exchange theme f turns) =
        frames (exchange theme f turns) := rfl
    rw [exchange, frames_append, frames_pause, hread, ih]
    simp [views, List.range_succ_eq_map, Function.comp_def, f]

theorem keys_exchange (e : Editor) (turns : List Turn) :
    keys (exchange theme e turns) = turns.map (·.key) := by
  induction turns generalizing e with
  | nil => rfl
  | cons turn turns ih =>
    rw [exchange, keys_append, keys_pause]
    exact congrArg (turn.key :: ·) (ih _)

theorem Course.frames_of_explain {e m : Editor} {events : List Event} {reason : String}
    (h : Course theme e events ⟨m, .explain reason⟩) :
    frames events = views theme e (keys events) ((keys events).length + 1) := by
  cases h with
  | @drawFailed turns m h =>
    have hdrew : frames [.drew (m.frame theme) (some reason)] = [m.frame theme] := rfl
    have hnone : keys [.drew (m.frame theme) (some reason)] = [] := rfl
    rw [frames_append, keys_append, hnone, List.append_nil, frames_exchange, keys_exchange, hdrew,
      views_succ, List.take_length, h.2, List.length_map]
  | @readFailed turns m h polls =>
    have hread : frames [.read (.failed reason)] = [] := rfl
    have hnone : keys [.read (.failed reason)] = [] := rfl
    rw [frames_append, frames_append, keys_append, keys_append, keys_pause, hnone, List.append_nil,
      List.append_nil, frames_exchange, frames_pause, keys_exchange, hread, List.append_nil,
      views_succ, List.take_length, h.2, List.length_map]

theorem Course.ok {e f : Editor} {events : List Event} {s : Session} (h : Course theme e events s)
    (hs : s.stage = .ended (.ok f)) :
    f = e.pressed (keys events) ∧
      frames events = views theme e (keys events) (keys events).length := by
  cases h with
  | @quit turns m g h polls k hk =>
    cases hs
    have hf : f = e.pressed ((turns ++ [⟨polls, k⟩] : List Turn).map (·.key)) := by
      simp [Editor.pressed_concat, h.2, hk]
    rw [keys_exchange, frames_exchange, List.length_map]
    exact ⟨hf, rfl⟩
  | _ => cases hs

theorem Course.session {e : Editor} {events : List Event} {s : Session} {reason : String}
    (h : Course theme e events s) (hs : s.stage = .ended (.error (.session reason))) :
    frames events = views theme e (keys events) ((keys events).length + 1) ++
      [theme.paint .error reason ++ "\n"] := by
  cases h with
  | failed h failure =>
    cases hs
    have hnone : keys [.drew (theme.paint .error reason ++ "\n") failure] = [] := rfl
    rw [frames_append, keys_append, hnone, List.append_nil, h.frames_of_explain]
    rfl
  | _ => cases hs

end

def hear (s : Session) : News → Session
  | .drawn failure => s.drew failure
  | .pressed k => s.press k
  | .broken reason => s.fail reason
  | .cancelled => { s with stage := .ended (.error .cancelled) }

/-- The frames that a session draws in the course of some news, and what becomes of it. -/
def retrace (theme : Terminal.Theme) (s : Session) : List News → List String × Session
  | [] => ([], s)
  | .drawn failure :: rest =>
    let r := retrace theme (s.hear (.drawn failure)) rest
    (s.editor.frame theme :: r.1, r.2)
  | item :: rest => retrace theme (s.hear item) rest

/-- The news of a run settle its frames and what becomes of its session. -/
theorem Runs.retrace_eq {σ : Type} {d : Devices (StateM σ)} {theme : Terminal.Theme}
    {s t : Session} {p q : σ} {events : List Event} (h : Runs d theme s p events t q) :
    retrace theme s (news events) = (frames events, t) := by
  induction h with
  | refl => rfl
  | @step s t p q r event events h _ ih =>
    cases h with
    | @draw e | @explain e =>
      exact congrArg (fun x : List String × Session => (e.frame theme :: x.1, x.2)) ih
    | cancelled => exact ih
    | @read _ _ _ _ answer =>
      cases answer with
      | nothing | key | failed => exact ih

/-- A session on any devices keeps to its course for as long as it is watched, and only the news
that it gets have a bearing on its frames and on what becomes of it. -/
theorem proceed_course {σ : Type} (d : Devices (StateM σ)) (theme : Terminal.Theme) (e : Editor)
    (p : σ) (n : Nat) :
    let r := proceed d theme ⟨e, .draw⟩ n p
    d.Performs p r.1.1 r.2 ∧ Course theme e r.1.1 r.1.2 ∧
      (r.1.1.length = n ∨ r.1.2.outcome?.isSome) ∧
      (∀ f, r.1.2.stage = .ended (.ok f) → f = e.pressed (keys r.1.1) ∧
        frames r.1.1 = views theme e (keys r.1.1) (keys r.1.1).length) ∧
      (∀ reason, r.1.2.stage = .ended (.error (.session reason)) →
        frames r.1.1 = views theme e (keys r.1.1) ((keys r.1.1).length + 1) ++
          [theme.paint .error reason ++ "\n"]) ∧
      ∀ {τ : Type} (d' : Devices (StateM τ)) (p' : τ) (n' : Nat),
        let r' := proceed d' theme ⟨e, .draw⟩ n' p'
        news r'.1.1 = news r.1.1 → frames r'.1.1 = frames r.1.1 ∧ r'.1.2 = r.1.2 := by
  intro r
  obtain ⟨hr, hn⟩ := proceed_runs d theme n ⟨e, .draw⟩ p
  have hlead : Leads e [] e := ⟨trivial, rfl⟩
  have hc : Course theme e r.1.1 r.1.2 := (Course.drawing hlead).runs hr
  refine ⟨hr.performs, hc, hn, fun f => hc.ok, fun reason => hc.session, ?_⟩
  intro τ d' p' n' r' hnews
  obtain ⟨hr', _⟩ := proceed_runs d' theme n' ⟨e, .draw⟩ p'
  have heq := hr'.retrace_eq
  rw [hnews, hr.retrace_eq] at heq
  exact ⟨(congrArg Prod.fst heq).symm, (congrArg Prod.snd heq).symm⟩

end Session
end LaunchEditor
