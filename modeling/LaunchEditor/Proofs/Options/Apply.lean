import LaunchEditor.Proofs.Options.Entry

/-! # What selections bring to options

Of every kind the options hold the values that they held before and behind them the selected ones,
except that of a name and of an entrypoint only the last is left. Switches are only switched on.
-/
namespace LaunchEditor

/-- The values of a kind that a command can have at once. -/
def ParameterKind.keep (k : ParameterKind) (vs : List String) : List String :=
  match k with
  | .name | .entrypoint => vs.getLast?.toList
  | .volume | .env | .port => vs

namespace ParameterKind

theorem keep_keep_append (k : ParameterKind) (vs ws : List String) :
    k.keep (k.keep vs ++ ws) = k.keep (vs ++ ws) := by
  have hlast : vs.getLast?.toList.getLast? = vs.getLast? := by
    cases vs.getLast? <;> rfl
  have h : (vs.getLast?.toList ++ ws).getLast? = (vs ++ ws).getLast? := by
    rw [List.getLast?_append, List.getLast?_append, hlast]
  cases k with
  | name | entrypoint => exact congrArg Option.toList h
  | volume | env | port => rfl

theorem keep_sublist (k : ParameterKind) (vs : List String) : (k.keep vs).Sublist vs := by
  have h : vs.getLast?.toList.Sublist vs := by
    cases hv : vs.getLast? with
    | none => exact List.nil_sublist vs
    | some v => exact List.singleton_sublist.mpr (List.mem_of_getLast? hv)
  cases k with
  | name | entrypoint => exact h
  | volume | env | port => exact List.Sublist.refl vs

theorem toList_or (x y : Option String) :
    (y.or x).toList = (x.toList ++ y.toList).getLast?.toList := by
  cases x <;> cases y <;> rfl

theorem keep_of_mem {k : ParameterKind} (hk : k ∈ [.volume, .env, .port]) (vs : List String) :
    k.keep vs = vs := by
  cases k with
  | name | entrypoint => simp at hk
  | volume | env | port => rfl

end ParameterKind

namespace Selections

def valuesOf (s : Selections) : ParameterKind → List String
  | .name => s.name.toList
  | .volume => s.volumes
  | .entrypoint => s.entrypoint.toList
  | .env => s.env
  | .port => s.publish

theorem keep_valuesOf (s : Selections) (k : ParameterKind) :
    k.keep (s.valuesOf k) = s.valuesOf k := by
  cases k with
  | name => cases h : s.name <;> simp [valuesOf, ParameterKind.keep, h]
  | entrypoint => cases h : s.entrypoint <;> simp [valuesOf, ParameterKind.keep, h]
  | volume | env | port => rfl

theorem valuesOf_record (s : Selections) (j k : ParameterKind) (v : String) :
    (s.record j v).valuesOf k =
      if j = k then k.keep (s.valuesOf k ++ [v]) else s.valuesOf k := by
  cases j <;> cases k <;> simp [record, valuesOf, ParameterKind.keep]

end Selections

/-- What a parameter says in a command. -/
def Parameter.entry (p : Parameter) : Entry := .value p.kind p.effective

theorem Selections.valuesOf_foldl_record (ps : List Parameter) (s : Selections)
    (k : ParameterKind) :
    (ps.foldl (fun s p => s.record p.kind p.effective) s).valuesOf k =
      k.keep (s.valuesOf k ++ Entry.valuesOf k (ps.map (·.entry))) := by
  induction ps generalizing s with
  | nil => simp [Entry.valuesOf, keep_valuesOf]
  | cons p ps ih =>
    rw [List.foldl_cons, ih, valuesOf_record]
    by_cases h : p.kind = k
    · rw [if_pos h, ParameterKind.keep_keep_append]
      simp [Entry.valuesOf, Parameter.entry, h]
    · simp [Entry.valuesOf, Parameter.entry, h]

theorem Selections.valuesOf_ofParameters (ps : List Parameter) (k : ParameterKind) :
    (ofParameters ps).valuesOf k = k.keep (Entry.valuesOf k (ps.map (·.entry))) := by
  rw [ofParameters, valuesOf_foldl_record]
  cases k <;> rfl

namespace LaunchOptions

@[simp] theorem switchOn_valuesOf (o : LaunchOptions) (f : RunFlag) :
    (o.switchOn f).valuesOf = o.valuesOf := by
  funext k
  cases f <;> cases k <;> rfl

@[simp] theorem switchOn_image (o : LaunchOptions) (f : RunFlag) :
    (o.switchOn f).image = o.image := by
  cases f <;> rfl

theorem switchOn_isOn (o : LaunchOptions) (f g : RunFlag) :
    (o.switchOn f).isOn g = true ↔ o.isOn g = true ∨ g = f := by
  cases f <;> cases g <;> simp [switchOn, isOn]

section
variable (fs : List RunFlag) (o : LaunchOptions)

theorem foldl_switchOn_isOn (g : RunFlag) :
    (fs.foldl switchOn o).isOn g = true ↔ o.isOn g = true ∨ g ∈ fs := by
  induction fs generalizing o with
  | nil => simp
  | cons f fs ih => rw [List.foldl_cons, ih, switchOn_isOn, List.mem_cons, or_assoc]

theorem foldl_switchOn_valuesOf : (fs.foldl switchOn o).valuesOf = o.valuesOf := by
  induction fs generalizing o with
  | nil => rfl
  | cons f fs ih => rw [List.foldl_cons, ih, switchOn_valuesOf]

theorem foldl_switchOn_image : (fs.foldl switchOn o).image = o.image := by
  induction fs generalizing o with
  | nil => rfl
  | cons f fs ih => rw [List.foldl_cons, ih, switchOn_image]

end

section
variable (o : LaunchOptions) (s : Selections)

theorem apply_isOn (g : RunFlag) : (o.apply s).isOn g = true ↔ o.isOn g = true ∨ g ∈ s.flags :=
  foldl_switchOn_isOn s.flags _ g

theorem apply_image : (o.apply s).image = o.image := foldl_switchOn_image s.flags _

theorem apply_valuesOf (k : ParameterKind) :
    (o.apply s).valuesOf k = k.keep (o.valuesOf k ++ s.valuesOf k) := by
  rw [apply, foldl_switchOn_valuesOf]
  cases k with
  | name => exact ParameterKind.toList_or o.name s.name
  | entrypoint => exact ParameterKind.toList_or o.entrypoint s.entrypoint
  | volume | env | port => rfl

end

end LaunchOptions
end LaunchEditor
