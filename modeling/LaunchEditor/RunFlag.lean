/-! # Switches of the launched command -/
namespace LaunchEditor

/-- A switch that an image's profile can ask for. -/
inductive RunFlag where
  | interactive
  | tty
  | detach
  deriving DecidableEq, Repr

namespace RunFlag

def all : List RunFlag := [interactive, tty, detach]

def token : RunFlag → String
  | interactive => "--interactive"
  | tty => "--tty"
  | detach => "--detach"

def ofToken? (s : String) : Option RunFlag := all.find? (·.token == s)

theorem ofToken?_token (f : RunFlag) : ofToken? f.token = some f := by
  cases f <;> decide

end RunFlag
end LaunchEditor
