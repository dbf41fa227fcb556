/-! # Settings from the surroundings -/
namespace LaunchEditor.Settings

def defaultCatalogPath : String := "~/.run-builder/catalog.yml"

/-- Replaces a tilde that is the whole path or its first component by the home directory. -/
def expandTilde (home : Option String) (path : String) : String :=
  match home, path.toList with
  | some home, ['~'] => home
  | some home, '~' :: '/' :: rest => home ++ "/" ++ String.ofList rest
  | _, _ => path

def catalogPath (home path : Option String) : String :=
  expandTilde home (path.getD defaultCatalogPath)

/-- Colour is on unless a switch or a variable that is set and not empty turns it off. -/
def colorEnabled (noColor : Bool) (setting : Option String) : Bool :=
  !noColor && setting.getD "" == ""

end LaunchEditor.Settings
