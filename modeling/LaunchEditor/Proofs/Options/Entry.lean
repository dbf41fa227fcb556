import LaunchEditor.Options
import Mathlib.Data.List.Basic

/-! # Entries of a command

Between its program and its image a command has entries: switches, and values behind the option
that takes them. The words of a command give its entries back, also where a value looks like an
option, since the word behind an option is always its value. The entries and the image in turn are
all that there is to the options, so no two options make the same command.
-/
namespace LaunchEditor

@[simp] theorem RunFlag.mem_all (f : RunFlag) : f ∈ all := by
  cases f <;> decide

namespace ParameterKind

@[simp] theorem mem_all (k : ParameterKind) : k ∈ all := by
  cases k <;> decide

def ofFlag? (s : String) : Option ParameterKind := all.find? (·.flag == s)

theorem ofFlag?_flag (k : ParameterKind) : ofFlag? k.flag = some k := by
  cases k <;> decide

theorem ofFlag?_token (f : RunFlag) : ofFlag? f.token = none := by
  cases f <;> decide

end ParameterKind

inductive Entry where
  | switch (f : RunFlag)
  | value (k : ParameterKind) (v : String)
  deriving DecidableEq, Repr

namespace Entry

def flag : Entry → String
  | switch f => f.token
  | value k _ => k.flag

def value? : Entry → Option String
  | switch _ => none
  | value _ v => some v

def words : Entry → List String
  | switch f => [f.token]
  | value k v => [k.flag, v]

theorem words_eq (e : Entry) : e.words = e.flag :: e.value?.toList := by
  cases e <;> rfl

/-- The entry as it is shown. -/
def text (e : Entry) : String := " ".intercalate e.words

/-- The entries that some words stand for. -/
def ofWords? : List String → Option (List Entry)
  | [] => some []
  | [w] => (RunFlag.ofToken? w).map fun f => [switch f]
  | w :: v :: rest =>
    match ParameterKind.ofFlag? w, RunFlag.ofToken? w with
    | some k, _ => (ofWords? rest).map (value k v :: ·)
    | none, some f => (ofWords? (v :: rest)).map (switch f :: ·)
    | none, none => none

theorem ofWords?_words_append (e : Entry) (rest : List String) :
    ofWords? (e.words ++ rest) = (ofWords? rest).map (e :: ·) := by
  cases e with
  | value k v => simp [words, ofWords?, ParameterKind.ofFlag?_flag]
  | switch f =>
    cases rest with
    | nil => simp [words, ofWords?, RunFlag.ofToken?_token]
    | cons v rest => simp [words, ofWords?, ParameterKind.ofFlag?_token, RunFlag.ofToken?_token]

theorem ofWords?_flatMap_words (es : List Entry) : ofWords? (es.flatMap words) = some es := by
  induction es with
  | nil => rfl
  | cons e es ih => rw [List.flatMap_cons, ofWords?_words_append, ih, Option.map_some]

/-- The values of one kind, in order. -/
def valuesOf (k : ParameterKind) (es : List Entry) : List String :=
  es.filterMap fun
    | switch _ => none
    | value j v => if j = k then some v else none

theorem valuesOf_append (k : ParameterKind) (es fs : List Entry) :
    valuesOf k (es ++ fs) = valuesOf k es ++ valuesOf k fs := List.filterMap_append

theorem valuesOf_map_switch (k : ParameterKind) (fs : List RunFlag) :
    valuesOf k (fs.map switch) = [] := by
  simp [valuesOf]

theorem valuesOf_map_value (k j : ParameterKind) (vs : List String) :
    valuesOf k (vs.map (value j)) = if j = k then vs else [] := by
  by_cases h : j = k <;> simp [valuesOf, h]

/-- Entries for the values of every kind, one kind after the other. -/
def ofValues (values : ParameterKind → List String) : List Entry :=
  ParameterKind.all.flatMap fun k => (values k).map (value k)

theorem value_mem_ofValues (values : ParameterKind → List String) (k : ParameterKind)
    (v : String) : value k v ∈ ofValues values ↔ v ∈ values k := by
  simp [ofValues]

theorem valuesOf_ofValues (values : ParameterKind → List String) (k : ParameterKind) :
    valuesOf k (ofValues values) = values k := by
  cases k <;> simp [ofValues, ParameterKind.all, valuesOf_append, valuesOf_map_value]

theorem length_ofValues (values : ParameterKind → List String) : (ofValues values).length =
    (values .name).length + (values .volume).length + (values .entrypoint).length +
      (values .env).length + (values .port).length := by
  simp [ofValues, ParameterKind.all, Nat.add_assoc]

/-- The words of a command between those of its program and its image. -/
def between (program : String) (command : List String) : List String :=
  (command.drop (Text.words program).length).dropLast

end Entry

namespace LaunchOptions

def valuesOf (o : LaunchOptions) : ParameterKind → List String
  | .name => o.name.toList
  | .volume => o.volumes
  | .entrypoint => o.entrypoint.toList
  | .env => o.env
  | .port => o.publish

def isOn (o : LaunchOptions) : RunFlag → Bool
  | .interactive => o.interactive
  | .tty => o.tty
  | .detach => o.detach

theorem switches_eq (o : LaunchOptions) : o.switches = RunFlag.all.filter o.isOn := by
  obtain ⟨_, _, _, _, _, _, i, t, d⟩ := o
  cases i <;> cases t <;> cases d <;> rfl

def entries (o : LaunchOptions) : List Entry :=
  o.switches.map .switch ++ Entry.ofValues o.valuesOf

theorem commandLine_eq (program : String) (o : LaunchOptions) :
    o.commandLine program =
      Text.words program ++ o.entries.flatMap Entry.words ++ [o.image] := by
  have hs : (o.switches.map Entry.switch).flatMap Entry.words = o.switches.map (·.token) := by
    rw [List.flatMap_map, List.map_eq_flatMap]
    rfl
  simp [commandLine, values, entries, Entry.ofValues, valuesOf, ParameterKind.all, hs,
    List.flatMap_map, Entry.words]

theorem between_commandLine (program : String) (o : LaunchOptions) :
    Entry.between program (o.commandLine program) = o.entries.flatMap Entry.words := by
  simp [Entry.between, commandLine_eq, List.append_assoc]

theorem entriesOf_commandLine (program : String) (o : LaunchOptions) :
    Entry.ofWords? (Entry.between program (o.commandLine program)) = some o.entries := by
  rw [between_commandLine, Entry.ofWords?_flatMap_words]

theorem switch_mem_entries (o : LaunchOptions) (g : RunFlag) :
    .switch g ∈ o.entries ↔ o.isOn g = true := by
  simp [entries, Entry.ofValues, switches_eq]

theorem value_mem_entries (o : LaunchOptions) (k : ParameterKind) (v : String) :
    .value k v ∈ o.entries ↔ v ∈ o.valuesOf k := by
  simp [entries, Entry.value_mem_ofValues]

theorem valuesOf_entries (o : LaunchOptions) (k : ParameterKind) :
    Entry.valuesOf k o.entries = o.valuesOf k := by
  rw [entries, Entry.valuesOf_append, Entry.valuesOf_map_switch, Entry.valuesOf_ofValues,
    List.nil_append]

/-- The options that some entries and an image stand for. -/
def ofEntries (es : List Entry) (image : String) : LaunchOptions where
  image
  name := (Entry.valuesOf .name es).head?
  volumes := Entry.valuesOf .volume es
  entrypoint := (Entry.valuesOf .entrypoint es).head?
  env := Entry.valuesOf .env es
  publish := Entry.valuesOf .port es
  interactive := .switch .interactive ∈ es
  tty := .switch .tty ∈ es
  detach := .switch .detach ∈ es

theorem ofEntries_entries (o : LaunchOptions) : ofEntries o.entries o.image = o := by
  simp [ofEntries, valuesOf_entries, switch_mem_entries, valuesOf, isOn]

/-- The options behind a command of the program. What its words stand for is a matter of their
places only: the first ones are the program's, the last one is the image, and what is behind the
option of a value is a value. -/
def ofCommand? (program : String) (command : List String) : Option LaunchOptions := do
  return ofEntries (← Entry.ofWords? (Entry.between program command)) (← command.getLast?)

theorem ofCommand?_commandLine (program : String) (o : LaunchOptions) :
    ofCommand? program (o.commandLine program) = some o := by
  have himage : (o.commandLine program).getLast? = some o.image := List.getLast?_concat
  rw [ofCommand?, entriesOf_commandLine, himage]
  exact congrArg some o.ofEntries_entries

example : ofCommand? "docker run" ["docker", "run", "--tty", "--env", "--tty", "-p", "", "--tty"] =
    some { tty := true, env := ["--tty"], publish := [""], image := "--tty" } := by decide

/-- Different options make different commands, even where a value or the image looks like an
option or is empty. -/
theorem commandLine_injective (program : String) :
    Function.Injective (commandLine program) := by
  intro o p h
  have hread := congrArg (ofCommand? program) h
  rw [ofCommand?_commandLine, ofCommand?_commandLine] at hread
  exact Option.some.inj hread

end LaunchOptions
end LaunchEditor
