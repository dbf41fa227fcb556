import LaunchEditor.Program
import LaunchEditor.Terminal.Input

/-! # The command line

The program on a real terminal: what it finds around it, the bytes of the keyboard and the frames.
The terminal has to be in raw mode for keys to arrive one at a time.
-/
namespace LaunchEditor

/-- What has come from the keyboard and has not been used: whole keys, the start of another, and
the read under way. -/
structure Keyboard where
  keys : List Key := []
  decoder : Terminal.Input := .ready
  reading : Option (Task (Except IO.Error ByteArray)) := none

/-- A terminal in use; the deadline is in milliseconds. -/
structure Console where
  deadline : Option Nat
  input : IO.FS.Stream
  output : IO.FS.Stream
  keyboard : IO.Ref Keyboard

namespace Console

/-- What `path` leads to. -/
def stateAt (path : String) : IO FileState := do
  try
    return .file (← IO.FS.readBinFile path)
  catch
    | .noFileOrDirectory .. => return .missing
    | .inappropriateType _ code _ => return if code = 21 then .directory else .notDirectory
    | .invalidArgument _ 36 _ => return .nameTooLong
    | .permissionDenied .. => return .refused "Permission denied (os error 13)"
    | e => return .refused (toString e)

/-- The surroundings of a run, with the one file that its words ask for. -/
def surroundings (words : List String) : IO Surroundings := do
  let home ← IO.getEnv "HOME"
  let noColor ← IO.getEnv "NO_COLOR"
  match Arguments.read words with
  | .error _ => return { home, noColor, fileAt := fun _ => .missing }
  | .ok a =>
    let state ← stateAt (Settings.catalogPath home a.catalogPath)
    return { home, noColor, fileAt := fun _ => state }

def draw (c : Console) (frame : String) : IO (Option String) := do
  try
    c.output.putStr (Terminal.draw frame)
    c.output.flush
    return none
  catch e => return some (toString e)

def isOver (c : Console) : IO Bool := do
  let now ← IO.monoMsNow
  return c.deadline.any (· ≤ now)

/-- Takes in what a read has brought, or that a hundredth of a second has brought nothing. -/
def take (c : Console) (k : Keyboard) : Option (Except IO.Error ByteArray) → IO Session.Answer
  | some (.error e) => return .failed (toString e)
  | some (.ok bytes) => do
    match bytes.toList with
    | [] => return .failed "end of input"
    | b :: _ =>
      let (decoder, event) := k.decoder.feed b
      c.keyboard.set { decoder, keys := (event.bind (·.key?)).toList }
      return .nothing
  | none => do
    let (decoder, events) := k.decoder.events []
    c.keyboard.set { k with decoder, keys := events.filterMap (·.key?) }
    return .nothing

/-- The input is read one byte at a time, since a longer read waits for all of its bytes. -/
def read (c : Console) : IO Session.Answer := do
  let k ← c.keyboard.get
  match k.keys with
  | key :: keys =>
    c.keyboard.set { k with keys }
    return .key key
  | [] =>
    let reading ← match k.reading with
      | some reading => pure reading
      | none => IO.asTask (c.input.read 1)
    unless ← IO.hasFinished reading do IO.sleep 10
    let brought ← if ← IO.hasFinished reading then pure (some reading.get) else pure none
    take c { k with reading := some reading } brought

def devices (c : Console) : Session.Devices IO where
  draw := c.draw
  read := c.read
  isCancelled := c.isOver

partial def finish (c : Console) (theme : Terminal.Theme) (s : Session) :
    IO (Except Fault Editor) := do
  match s.outcome? with
  | some outcome => return outcome
  | none => finish c theme (← s.proceed c.devices theme 1).2

/-- The session of a run that starts the editor. -/
def edit (t : Program.Setup) : IO Program.Ending := do
  let start ← IO.monoMsNow
  let c : Console :=
    { deadline := t.arguments.timeout.map fun seconds => start + 1000 * seconds
      input := ← IO.getStdin
      output := ← IO.getStdout
      keyboard := ← IO.mkRef {} }
  let options := t.arguments.options
  c.output.putStr Terminal.acquire
  let outcome ← c.finish t.theme ⟨.new t.catalog options.launch.image, .draw⟩
  c.output.putStr Terminal.restore
  c.output.flush
  return t.ended (options.settle outcome)

def run (words : List String) : IO UInt32 := do
  let ending ← match Program.withoutEditor (← surroundings words) words with
    | .ok ending => pure ending
    | .error t => edit t
  IO.print ending.stdout
  IO.eprint ending.stderr
  return ending.code.toUInt32

end Console
end LaunchEditor

def main (words : List String) : IO UInt32 := LaunchEditor.Console.run words
