import LaunchEditor.Arguments
import LaunchEditor.Catalog.File
import LaunchEditor.Options.Edit
import LaunchEditor.Program.Help
import LaunchEditor.Settings
import LaunchEditor.Shell
import LaunchEditor.Terminal.Screen

/-! # The program

From the words of a command line to the command that is printed, by way of the catalog and, unless
it is to be skipped, the editor.
-/
namespace LaunchEditor

/-- What the program finds around it. -/
structure Surroundings where
  home : Option String
  /-- The variable that turns colour off. -/
  noColor : Option String
  fileAt : String → FileState

namespace Program

/-- How a run of the program ends. -/
inductive Ending where
  | help (long : Bool)
  | rejected (reason : Arguments.Rejection)
  | failed (fault : Fault)
  | launched (command : String)
  deriving DecidableEq, Repr

def ofRejection : Arguments.Rejection → Ending
  | .help long => .help long
  | reason => .rejected reason

def Ending.code : Ending → Nat
  | help _ | launched _ => 0
  | rejected _ => 2
  | failed _ => 1

def rejectionText : Arguments.Rejection → String
  | .missingImage => "error: the image to run was not provided"
  | .unknownArgument => "error: unexpected argument found"
  | .repeated => "error: an option cannot be used multiple times"
  | .missingValue => "error: a value is required for an option but none was supplied"
  | .surplusValue => "error: unexpected value for an option found; no more were expected"
  | .badTimeout => "error: invalid value for the timeout"
  | .help _ => ""

def Ending.stdout : Ending → String
  | help true => longHelp ++ "\n"
  | help false => shortHelp ++ "\n"
  | launched command => command ++ "\n"
  | rejected _ | failed _ => ""

def Ending.stderr : Ending → String
  | rejected reason => rejectionText reason ++ "\n"
  | failed fault => fault.message ++ "\n"
  | help _ | launched _ => ""

/-- What has been settled before the editor would start. -/
structure Setup where
  arguments : Arguments
  catalog : Catalog
  theme : Terminal.Theme

/-- A catalog that is named on the command line has to exist. -/
def setup (s : Surroundings) (words : List String) : Except Ending Setup := do
  let arguments ← (Arguments.read words).mapError ofRejection
  let path := Settings.catalogPath s.home arguments.catalogPath
  let catalog ←
    (Catalog.load path arguments.catalogPath.isSome (s.fileAt path)).mapError .failed
  return { arguments, catalog, theme := ⟨Settings.colorEnabled arguments.noColor s.noColor⟩ }

def command (c : Catalog) (o : LaunchOptions) : String := Shell.line (o.commandLine c.program)

/-- A run that ends before the editor, or in its place. The rest start the editor. -/
def withoutEditor (s : Surroundings) (words : List String) : Except Setup Ending :=
  match setup s words with
  | .error ending => .ok ending
  | .ok t =>
    if t.arguments.noEditor then .ok (.launched (command t.catalog t.arguments.options.launch))
    else .error t

/-- The ending of a run that has started the editor. -/
def Setup.ended (t : Setup) : Except Fault Options → Ending
  | .ok o => .launched (command t.catalog o.launch)
  | .error fault => .failed fault

/-- All that a run writes to a terminal, where the ends of its last lines also return to the
first column, and the keys that it has not read. -/
structure Transcript where
  ending : Ending
  output : String
  unread : Nat

def returnLines (s : String) : String :=
  String.join (s.toList.map fun c => if c = '\n' then "\r\n" else String.singleton c)

def Ending.output (e : Ending) : String := returnLines (e.stdout ++ e.stderr)

/-- A run on a terminal whose user presses `keys`. Without time the session is cancelled as soon
as it has begun; any more time is enough. -/
def onTerminal (s : Surroundings) (words : List String) (keys : List Key) : Transcript :=
  match withoutEditor s words with
  | .ok ending => { ending, output := ending.output, unread := keys.length }
  | .error t =>
    let script : Session.Script :=
      { waits := keys.map fun k => { answer := .key k }
        exhausted := "no more keys"
        drawing := fun _ => {} }
    let report := t.arguments.options.edit t.catalog t.theme script
      (t.arguments.timeout == some 0)
    let ending := t.ended report.options
    { ending
      output := Terminal.acquire ++ String.join (report.session.frames.map Terminal.draw) ++
        Terminal.restore ++ ending.output
      unread := report.session.unread.length }

end Program
end LaunchEditor
