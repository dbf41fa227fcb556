import LaunchEditor.Text.Blank

/-! # Writing arguments on a shell line

Arguments stand side by side with one space between them. One that is empty or holds a blank or an
apostrophe is put in single quotes, with each apostrophe written outside of them.
-/
namespace LaunchEditor.Shell

def apostrophe : Char := '\x27'

def needsQuotes (cs : List Char) : Bool :=
  cs.isEmpty || cs.any fun c => Text.isBlank c || c == apostrophe

/-- Closes the quotes, writes the apostrophe behind a backslash, and opens them again. -/
def escapeQuote (c : Char) : List Char :=
  if c = apostrophe then [apostrophe, '\\', apostrophe, apostrophe] else [c]

def quote (cs : List Char) : List Char :=
  if needsQuotes cs then apostrophe :: cs.flatMap escapeQuote ++ [apostrophe] else cs

def line (arguments : List String) : String :=
  " ".intercalate (arguments.map fun a => String.ofList (quote a.toList))

end LaunchEditor.Shell
