import LaunchEditor.Notice

/-! # Faults

Everything that can go wrong, by cause. The wording is in `Fault.message` and nowhere else.
-/
namespace LaunchEditor

inductive Fault where
  /-- The terminal itself could not be set up. -/
  | terminal (detail : String)
  /-- Reading a key or drawing a frame failed. -/
  | session (detail : String)
  | cancelled
  /-- The session ended in a state that holds no selections. -/
  | unfinished (detail : String)
  /-- The contents of a file could not be understood. -/
  | malformed (action subject path detail : String)
  /-- A file could not be opened. -/
  | unreadable (subject path detail : String)
  | noCandidates (image flag : String)
  | blankImageName
  deriving DecidableEq, Repr

namespace Fault

def message : Fault → String
  | terminal detail => "STDIO error: " ++ detail
  | session detail => "Terminal session failed: " ++ detail
  | cancelled => "The session was cancelled before it finished."
  | unfinished detail => "The session ended in an unexpected state: " ++ detail
  | malformed action subject path detail =>
    "Error " ++ action ++ " " ++ subject ++ " file at `" ++ path ++ "`: " ++ detail
  | unreadable subject path detail =>
    "IO error with " ++ subject ++ " file at path `" ++ path ++ "`: " ++ detail
  | noCandidates image flag =>
    "Parameter `" ++ flag ++ "` for image `" ++ image ++ "` has no candidate values."
  | blankImageName => "Invalid catalog: image names may not be empty"

/-- Reported at the moment a running session fails. -/
def sessionNotice (detail : String) : Notice := ⟨.error, "Session error: " ++ detail⟩

end Fault
end LaunchEditor
