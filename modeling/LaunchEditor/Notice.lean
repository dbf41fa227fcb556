/-! # Notices

Messages for whoever runs the editor, kept apart from its answers: an operation that has
something to report returns its notices in order beside its result.
-/
namespace LaunchEditor

inductive Level where
  | error
  | warning
  | info
  deriving DecidableEq, Repr

structure Notice where
  level : Level
  text : String
  deriving DecidableEq, Repr

end LaunchEditor
