import LaunchEditor.Editor.Selections

/-! # Launch options

The options of the command that is launched, and which of them were asked for explicitly. Applying
selections appends to the options that hold lists and replaces the others.
-/
namespace LaunchEditor

/-- A set of flags in the order in which they were first set. -/
structure FlagSet where
  flags : List String := []
  deriving DecidableEq, Repr

namespace FlagSet

def changed (s : FlagSet) (flag : String) : Bool := s.flags.contains flag

def set (s : FlagSet) (flag : String) : FlagSet :=
  if s.changed flag then s else ⟨s.flags ++ [flag]⟩

def setAll (s : FlagSet) (flags : List String) : FlagSet := flags.foldl set s

end FlagSet

structure LaunchOptions where
  image : String := ""
  name : Option String := none
  volumes : List String := []
  entrypoint : Option String := none
  env : List String := []
  publish : List String := []
  interactive : Bool := false
  tty : Bool := false
  detach : Bool := false
  deriving DecidableEq, Repr

namespace LaunchOptions

def switchOn (o : LaunchOptions) : RunFlag → LaunchOptions
  | .interactive => { o with interactive := true }
  | .tty => { o with tty := true }
  | .detach => { o with detach := true }

def apply (o : LaunchOptions) (s : Selections) : LaunchOptions :=
  s.flags.foldl switchOn
    { o with
      name := s.name.or o.name
      volumes := o.volumes ++ s.volumes
      entrypoint := s.entrypoint.or o.entrypoint
      env := o.env ++ s.env
      publish := o.publish ++ s.publish }

def switches (o : LaunchOptions) : List RunFlag :=
  (if o.interactive then [.interactive] else []) ++ (if o.tty then [.tty] else []) ++
    (if o.detach then [.detach] else [])

/-- Every value with its kind, in the order in which the command has them. -/
def values (o : LaunchOptions) : List (ParameterKind × String) :=
  o.name.toList.map (.name, ·) ++ o.volumes.map (.volume, ·) ++
    o.entrypoint.toList.map (.entrypoint, ·) ++ o.env.map (.env, ·) ++ o.publish.map (.port, ·)

/-- The command that launches the image, the words of the program first. -/
def commandLine (program : String) (o : LaunchOptions) : List String :=
  Text.words program ++ o.switches.map (·.token) ++
    o.values.flatMap (fun v => [v.1.flag, v.2]) ++ [o.image]

end LaunchOptions

/-- Launch options together with the flags that were set explicitly. -/
structure Options where
  explicit : FlagSet := {}
  launch : LaunchOptions := {}
  deriving DecidableEq, Repr

def Options.apply (o : Options) (s : Selections) : Options where
  explicit := o.explicit.setAll (s.flags.map (·.token))
  launch := o.launch.apply s

end LaunchEditor
