import LaunchEditor.Editor.Script
import LaunchEditor.Options

/-! # Editing options

One session on the profile of the image to launch, and its selections applied to the options. The
options stay as they are if the session fails, is cancelled or selects nothing.
-/
namespace LaunchEditor

structure EditReport where
  session : Session.Report
  options : Except Fault Options
  notices : List Notice

namespace Options

/-- The options once a session has ended. -/
def settle (o : Options) (outcome : Except Fault Editor) : Except Fault Options := do
  return o.apply (← (← outcome).commit)

def settleNotices : Except Fault Editor → List Notice
  | .error _ => []
  | .ok e => e.commitNotices

def edit (c : Catalog) (theme : Terminal.Theme) (script : Session.Script) (cancelled : Bool)
    (o : Options) : EditReport :=
  let session := Session.run theme script cancelled (.new c o.launch.image)
  { session
    options := o.settle session.outcome
    notices :=
      c.profileNotices o.launch.image ++ session.notices ++ settleNotices session.outcome }

end Options

end LaunchEditor
