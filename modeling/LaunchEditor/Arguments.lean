import LaunchEditor.Options
import LaunchEditor.Text.Digit

/-! # Command-line arguments

Arguments are read from left to right and the first fault wins. An option that takes a value may
have it attached or as the next word; in the second case it stays pending, and is only stored when
the next option or the image is read, or at the end. After `--` every word stands for itself.
-/
namespace LaunchEditor

structure Arguments where
  image : String := ""
  name : Option String := none
  volumes : List String := []
  entrypoint : Option String := none
  env : List String := []
  publish : List String := []
  detach : Bool := false
  interactive : Bool := false
  tty : Bool := false
  catalogPath : Option String := none
  noColor : Bool := false
  /-- Only print the command. -/
  noEditor : Bool := false
  /-- Seconds after which the session is cancelled. -/
  timeout : Option Nat := none
  deriving DecidableEq, Repr

namespace Arguments

/-- Why a command line is not accepted. Asking for help is one of the reasons. -/
inductive Rejection where
  | missingImage
  | unknownArgument
  | repeated
  | missingValue
  | surplusValue
  | badTimeout
  | help (long : Bool)
  deriving DecidableEq, Repr

inductive Valued where
  | name
  | volume
  | entrypoint
  | env
  | publish
  | catalogPath
  | timeout
  deriving DecidableEq, Repr

inductive Switch where
  | detach
  | interactive
  | tty
  | noColor
  | noEditor
  deriving DecidableEq, Repr

inductive Declared where
  | valued (v : Valued)
  | switch (s : Switch)
  | help
  deriving DecidableEq, Repr

def longOptions : List (String × Declared) :=
  [("name", .valued .name), ("volume", .valued .volume), ("entrypoint", .valued .entrypoint),
    ("env", .valued .env), ("publish", .valued .publish), ("detach", .switch .detach),
    ("interactive", .switch .interactive), ("tty", .switch .tty),
    ("catalog-path", .valued .catalogPath), ("no-color", .switch .noColor),
    ("no-tui", .switch .noEditor), ("timeout", .valued .timeout), ("help", .help)]

def shortOptions : List (Char × Declared) :=
  [('v', .valued .volume), ('e', .valued .env), ('p', .valued .publish), ('d', .switch .detach),
    ('i', .switch .interactive), ('t', .switch .tty), ('c', .valued .catalogPath), ('h', .help)]

/-- A number of seconds of at most 64 bits: ASCII digits, after a plus sign or not. -/
def readSeconds? (s : String) : Option Nat :=
  let digits := match s.toList with
    | '+' :: rest => rest
    | cs => cs
  if digits = [] ∨ ¬ digits.all Char.isDigit then none
  else
    let n := Text.decimalValue digits
    if n < Nat.pow 2 64 then some n else none

/-- The arguments read so far. -/
structure Reading where
  arguments : Arguments := {}
  image : Option String := none
  /-- An option whose value is not stored yet, and the value if it has been read. -/
  pending : Option (Valued × Option String) := none
  /-- Whether every further word stands for itself. -/
  literal : Bool := false
  deriving DecidableEq, Repr

/-- Sets a value that can be given only once. -/
def once {α : Type} (old : Option α) (new : α) : Except Rejection (Option α) :=
  if old.isSome then .error .repeated else .ok (some new)

def switchOnce (old : Bool) : Except Rejection Bool :=
  if old then .error .repeated else .ok true

def store (a : Arguments) (v : Valued) (value : String) : Except Rejection Arguments :=
  match v with
  | .name => (once a.name value).map ({ a with name := · })
  | .volume => .ok { a with volumes := a.volumes ++ [value] }
  | .entrypoint => (once a.entrypoint value).map ({ a with entrypoint := · })
  | .env => .ok { a with env := a.env ++ [value] }
  | .publish => .ok { a with publish := a.publish ++ [value] }
  | .catalogPath => (once a.catalogPath value).map ({ a with catalogPath := · })
  | .timeout =>
    if a.timeout.isSome then .error .repeated
    else match readSeconds? value with
      | some n => .ok { a with timeout := some n }
      | none => .error .badTimeout

def switchOn (a : Arguments) (s : Switch) : Except Rejection Arguments :=
  match s with
  | .detach => (switchOnce a.detach).map ({ a with detach := · })
  | .interactive => (switchOnce a.interactive).map ({ a with interactive := · })
  | .tty => (switchOnce a.tty).map ({ a with tty := · })
  | .noColor => (switchOnce a.noColor).map ({ a with noColor := · })
  | .noEditor => (switchOnce a.noEditor).map ({ a with noEditor := · })

namespace Reading

/-- Stores the pending option. -/
def settle (r : Reading) : Except Rejection Reading :=
  match r.pending with
  | none => .ok r
  | some (_, none) => .error .missingValue
  | some (v, some value) =>
    (r.arguments.store v value).map ({ r with arguments := ·, pending := none })

def value (r : Reading) (v : Valued) (value : String) : Except Rejection Reading := do
  let r ← r.settle
  return { r with arguments := ← r.arguments.store v value }

def await (r : Reading) (v : Valued) : Except Rejection Reading := do
  let r ← r.settle
  return { r with pending := some (v, none) }

def switch (r : Reading) (s : Switch) : Except Rejection Reading := do
  let r ← r.settle
  return { r with arguments := ← r.arguments.switchOn s }

def help (r : Reading) (long : Bool) : Except Rejection Reading := do
  let _ ← r.settle
  throw (.help long)

/-- A word after two hyphens, split at its first equals sign. -/
def long (r : Reading) (body : List Char) : Except Rejection Reading :=
  let name := String.ofList (body.takeWhile (· != '='))
  let attached := match body.dropWhile (· != '=') with
    | _ :: value => some (String.ofList value)
    | [] => none
  match longOptions.lookup name, attached with
  | none, _ => .error .unknownArgument
  | some (.valued v), some value => r.value v value
  | some (.valued v), none => r.await v
  | some _, some _ => .error .surplusValue
  | some (.switch s), none => r.switch s
  | some .help, none => r.help true

/-- Letters after one hyphen. What follows the first one that takes a value is its value, less one
equals sign. -/
def short (r : Reading) : List Char → Except Rejection Reading
  | [] => .ok r
  | c :: rest =>
    match shortOptions.lookup c with
    | none => .error .unknownArgument
    | some (.switch s) => r.switch s >>= (short · rest)
    | some .help => r.help false
    | some (.valued v) =>
      match rest with
      | [] => r.await v
      | '=' :: value => r.value v (String.ofList value)
      | value => r.value v (String.ofList value)

def positional (r : Reading) (word : String) : Except Rejection Reading :=
  match r.image with
  | none => do
    let r ← r.settle
    return { r with image := some word }
  | some _ => .error .unknownArgument

def word (r : Reading) (w : String) : Except Rejection Reading :=
  if r.literal then r.positional w
  else match w.toList with
    | ['-', '-'] => .ok { r with literal := true }
    | '-' :: '-' :: body => r.long body
    | '-' :: c :: rest => r.short (c :: rest)
    | _ =>
      match r.pending with
      | some (v, none) => .ok { r with pending := some (v, some w) }
      | _ => r.positional w

def finish (r : Reading) : Except Rejection Arguments := do
  let r ← r.settle
  match r.image with
  | none => throw .missingImage
  | some image => return { r.arguments with image }

end Reading

/-- Reads the words after the name of the program. -/
def read (words : List String) : Except Rejection Arguments :=
  words.foldlM Reading.word {} >>= Reading.finish

/-- The flags given on the command line. -/
def explicit (a : Arguments) : List String :=
  (if a.name.isSome then [ParameterKind.name.flag] else []) ++
  (if a.volumes.isEmpty then [] else [ParameterKind.volume.flag]) ++
  (if a.entrypoint.isSome then [ParameterKind.entrypoint.flag] else []) ++
  (if a.env.isEmpty then [] else [ParameterKind.env.flag]) ++
  (if a.publish.isEmpty then [] else [ParameterKind.port.flag]) ++
  (if a.detach then [RunFlag.detach.token] else []) ++
  (if a.interactive then [RunFlag.interactive.token] else []) ++
  (if a.tty then [RunFlag.tty.token] else [])

def options (a : Arguments) : Options where
  explicit := FlagSet.setAll {} a.explicit
  launch :=
    { image := a.image, name := a.name, volumes := a.volumes, entrypoint := a.entrypoint
      env := a.env, publish := a.publish, interactive := a.interactive, tty := a.tty
      detach := a.detach }

end Arguments
end LaunchEditor
