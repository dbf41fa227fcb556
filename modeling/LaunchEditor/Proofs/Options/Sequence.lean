import LaunchEditor.Proofs.Options.Explicit

/-! # Selections one after the other

Selections that are made one after the other amount to selections that are made at once: lists and
switches stand behind each other, and a later name or entrypoint replaces an earlier one. What the
options hold of a kind, which switches are on and which flags are marked can each be told of both,
and nothing else is left of an option. What was there before is only added to.
-/
namespace LaunchEditor

namespace Selections

/-- All that `s` selects and then all that `t` selects. -/
instance : Append Selections where
  append s t :=
    { name := t.name.or s.name
      volumes := s.volumes ++ t.volumes
      entrypoint := t.entrypoint.or s.entrypoint
      env := s.env ++ t.env
      publish := s.publish ++ t.publish
      flags := s.flags ++ t.flags }

theorem append_eq (s t : Selections) : s ++ t =
    { name := t.name.or s.name, volumes := s.volumes ++ t.volumes
      entrypoint := t.entrypoint.or s.entrypoint, env := s.env ++ t.env
      publish := s.publish ++ t.publish, flags := s.flags ++ t.flags } := rfl

theorem append_assoc (s t u : Selections) : s ++ t ++ u = s ++ (t ++ u) := by
  simp only [append_eq, List.append_assoc, Option.or_assoc]

theorem empty_append (s : Selections) : ({} : Selections) ++ s = s := by
  simp [append_eq]

theorem append_empty (s : Selections) : s ++ ({} : Selections) = s := by
  simp [append_eq]

theorem valuesOf_append (s t : Selections) (k : ParameterKind) :
    (s ++ t).valuesOf k = k.keep (s.valuesOf k ++ t.valuesOf k) := by
  cases k with
  | name => exact ParameterKind.toList_or s.name t.name
  | entrypoint => exact ParameterKind.toList_or s.entrypoint t.entrypoint
  | volume | env | port => rfl

end Selections

theorem ParameterKind.keep_append_keep_eq (k : ParameterKind) (vs ws : List String) :
    k.keep (vs ++ k.keep ws) = k.keep (vs ++ ws) := by
  have hlast : (vs ++ ws.getLast?.toList).getLast? = (vs ++ ws).getLast? := by
    rw [List.getLast?_append, List.getLast?_append]
    cases ws.getLast? <;> rfl
  cases k with
  | name | entrypoint => exact congrArg Option.toList hlast
  | volume | env | port => rfl

namespace FlagSet

theorem setAll_append (s : FlagSet) (fs gs : List String) :
    s.setAll (fs ++ gs) = (s.setAll fs).setAll gs := List.foldl_append

theorem prefix_setAll (s : FlagSet) (fs : List String) : s.flags <+: (s.setAll fs).flags :=
  ⟨_, (flags_setAll s fs).symm⟩

end FlagSet

namespace LaunchOptions

/-- Options are nothing but an image, the values of every kind and the switches that are on. -/
theorem eq_of_valuesOf {o p : LaunchOptions} (himage : o.image = p.image)
    (hvalues : ∀ k, o.valuesOf k = p.valuesOf k) (hon : ∀ f, o.isOn f = true ↔ p.isOn f = true) :
    o = p := by
  have hentries : o.entries = p.entries := by
    rw [entries, entries, switches_eq, switches_eq, funext hvalues,
      funext fun f => Bool.eq_iff_iff.mpr (hon f)]
  rw [← o.ofEntries_entries, ← p.ofEntries_entries, hentries, himage]

theorem apply_apply (o : LaunchOptions) (s t : Selections) :
    (o.apply s).apply t = o.apply (s ++ t) := by
  refine eq_of_valuesOf ?_ (fun k => ?_) fun f => ?_
  · simp only [apply_image]
  · rw [apply_valuesOf, apply_valuesOf, apply_valuesOf, Selections.valuesOf_append,
      ParameterKind.keep_keep_append, ParameterKind.keep_append_keep_eq, List.append_assoc]
  · have hflags : f ∈ (s ++ t).flags ↔ f ∈ s.flags ∨ f ∈ t.flags := List.mem_append
    rw [apply_isOn, apply_isOn, apply_isOn, hflags, or_assoc]

theorem apply_empty (o : LaunchOptions) : o.apply {} = o := by
  simp [apply]

theorem prefix_apply {k : ParameterKind} (hk : k ∈ [.volume, .env, .port]) (o : LaunchOptions)
    (s : Selections) : o.valuesOf k <+: (o.apply s).valuesOf k := by
  rw [apply_valuesOf, ParameterKind.keep_of_mem hk]
  exact List.prefix_append _ _

end LaunchOptions

/-- Selections act on options as the monoid that they are. Nothing that was there goes away by it
but a name or an entrypoint that is replaced. -/
theorem Options.apply_append (o : Options) (s t u : Selections) :
    (s ++ t ++ u = s ++ (t ++ u) ∧ {} ++ s = s ∧ s ++ {} = s) ∧
    (o.apply s).apply t = o.apply (s ++ t) ∧ o.apply {} = o ∧
    (o.apply s).launch.image = o.launch.image ∧
    (∀ k ∈ [.volume, .env, .port], o.launch.valuesOf k <+: (o.apply s).launch.valuesOf k) ∧
    (∀ f, o.launch.isOn f = true → (o.apply s).launch.isOn f = true) ∧
    o.explicit.flags <+: (o.apply s).explicit.flags := by
  have htokens : (s ++ t).flags.map RunFlag.token =
      s.flags.map RunFlag.token ++ t.flags.map RunFlag.token := List.map_append
  have hlaws := And.intro (s.append_assoc t u) (And.intro s.empty_append s.append_empty)
  refine ⟨hlaws, ?_, ?_, o.launch.apply_image s, fun k hk => o.launch.prefix_apply hk s, ?_,
    o.explicit.prefix_setAll _⟩
  · simp only [Options.apply, LaunchOptions.apply_apply, htokens, FlagSet.setAll_append]
  · simp only [Options.apply, LaunchOptions.apply_empty]
    rfl
  · intro f hf
    exact (LaunchOptions.apply_isOn _ _ f).mpr (.inl hf)

example : ({ launch := { name := some "a", env := ["X=1"] } } : Options).apply
      ({ env := ["Y=2"], flags := [.tty, .tty] } ++ { name := some "b", flags := [.detach, .tty] }) =
    { explicit := ⟨["--tty", "--detach"]⟩
      launch := { name := some "b", env := ["X=1", "Y=2"], tty := true, detach := true } } := by
  decide

end LaunchEditor
