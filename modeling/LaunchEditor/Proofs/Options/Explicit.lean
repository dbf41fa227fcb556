import LaunchEditor.Proofs.Editor.Confirmed
import LaunchEditor.Proofs.Options.Preview
import LaunchEditor.Proofs.Options.Unambiguous
import LaunchEditor.Proofs.Session.Outcome
import LaunchEditor.Proofs.Session.Trace
import Mathlib.Data.List.Nodup

/-! # The flags that are set explicitly

The flags of a command line are marked as they are read into the options, and what a session selects
marks the switches of the profile as it turns them on. So a switch is marked just when it is on, an
option with a value just when it was given, and no flag twice.
-/
namespace LaunchEditor

theorem RunFlag.token_injective : Function.Injective token := by
  intro f g h
  have hf := ofToken?_token f
  rw [h, ofToken?_token] at hf
  exact (Option.some.inj hf).symm

theorem ParameterKind.flag_injective : Function.Injective flag := by
  intro j k h
  have hj := ofFlag?_flag j
  rw [h, ofFlag?_flag] at hj
  exact (Option.some.inj hj).symm

theorem ParameterKind.flag_ne_token (k : ParameterKind) (f : RunFlag) : k.flag ≠ f.token := by
  intro h
  have hk := ofFlag?_flag k
  rw [h, ofFlag?_token] at hk
  cases hk

namespace FlagSet

theorem flags_set (s : FlagSet) (f : String) :
    (s.set f).flags = if f ∈ s.flags then s.flags else s.flags ++ [f] := by
  by_cases h : f ∈ s.flags <;> simp [set, changed, h]

/-- New flags stand behind the old ones, each where it first occurs. -/
theorem flags_setAll (s : FlagSet) (fs : List String) :
    (s.setAll fs).flags = s.flags ++ (fs.filter (· ∉ s.flags)).eraseDups := by
  induction fs generalizing s with
  | nil => simp [setAll]
  | cons f fs ih =>
    rw [setAll_cons, ih, flags_set]
    by_cases h : f ∈ s.flags
    · simp [h]
    · have hfilter : fs.filter (· ∉ s.flags ++ [f]) =
          (fs.filter (· ∉ s.flags)).filter (fun g => !g == f) := by
        rw [List.filter_filter]
        refine List.filter_congr fun g _ => ?_
        by_cases hg : g ∈ s.flags <;> by_cases hgf : g = f <;> simp [hg, hgf]
      rw [if_neg h, hfilter, List.filter_cons_of_pos (by simpa using h), List.eraseDups_cons]
      simp

theorem nodup_set {s : FlagSet} (h : s.flags.Nodup) (f : String) : (s.set f).flags.Nodup := by
  rw [flags_set]
  split
  · exact h
  · next hf =>
    rw [← List.concat_eq_append]
    exact List.Nodup.concat hf h

theorem nodup_setAll {s : FlagSet} (h : s.flags.Nodup) (fs : List String) :
    (s.setAll fs).flags.Nodup := by
  induction fs generalizing s with
  | nil => exact h
  | cons f fs ih => exact ih (nodup_set h f)

theorem flags_setAll_of_nodup {s : FlagSet} {fs : List String} (h : (s.flags ++ fs).Nodup) :
    (s.setAll fs).flags = s.flags ++ fs := by
  induction fs generalizing s with
  | nil => simp [setAll]
  | cons f fs ih =>
    obtain ⟨_, _, hdisjoint⟩ := List.nodup_append.mp h
    have hf : f ∉ s.flags := fun hf => hdisjoint f hf f List.mem_cons_self rfl
    have hset : (s.set f).flags = s.flags ++ [f] := by
      rw [flags_set, if_neg hf]
    have hnodup : ((s.set f).flags ++ fs).Nodup := by
      rw [hset, List.append_assoc]
      exact h
    rw [setAll_cons, ih hnodup, hset, List.append_assoc]
    rfl

end FlagSet

namespace Arguments

/-- The flags that items ask for, in the order in which options mark them. -/
def Item.marks (items : List Item) : List String :=
  (ParameterKind.all.filter fun k => valuesOf k.valued items ≠ []).map (·.flag) ++
    ([RunFlag.detach, .interactive, .tty].filter fun f => .switch f.switch ∈ items).map (·.token)

theorem Item.marks_nodup (items : List Item) : (marks items).Nodup := by
  have hkinds : ParameterKind.all.Nodup := by decide
  have hflags : [RunFlag.detach, .interactive, .tty].Nodup := by decide
  refine List.nodup_append.mpr ⟨List.Nodup.map ParameterKind.flag_injective (hkinds.filter _),
    List.Nodup.map RunFlag.token_injective (hflags.filter _), ?_⟩
  intro x hx y hy
  obtain ⟨k, _, rfl⟩ := List.mem_map.mp hx
  obtain ⟨f, _, rfl⟩ := List.mem_map.mp hy
  exact k.flag_ne_token f

theorem Item.flag_mem_marks (items : List Item) (k : ParameterKind) :
    k.flag ∈ marks items ↔ valuesOf k.valued items ≠ [] := by
  have hne (f : RunFlag) : f.token ≠ k.flag := (k.flag_ne_token f).symm
  simp [marks, ParameterKind.flag_injective.eq_iff, hne]

theorem Item.token_mem_marks (items : List Item) (f : RunFlag) :
    f.token ∈ marks items ↔ .switch f.switch ∈ items := by
  have hf : f ∈ [RunFlag.detach, .interactive, .tty] := by
    cases f <;> decide
  simp only [marks, List.mem_append, List.mem_map, List.mem_filter, RunFlag.token_injective.eq_iff,
    ParameterKind.flag_ne_token, and_false, exists_false, false_or, exists_eq_right, hf, true_and,
    decide_eq_true_eq]

theorem flatMap_ite_eq_map_filter {α β : Type} (p : α → Prop) [DecidablePred p] (f : α → β)
    (l : List α) : (l.flatMap fun a => if p a then [f a] else []) = (l.filter p).map f := by
  induction l with
  | nil => rfl
  | cons a l ih => by_cases h : p a <;> simp [h, ih]

theorem MadeOf.explicit_eq_marks {a : Arguments} {image : Option String} {items : List Item}
    (h : a.MadeOf image items) : a.explicit = Item.marks items := by
  have ha : a.explicit = (ofLaunch a.options.launch).explicit := rfl
  have hkinds : (ParameterKind.all.flatMap fun k =>
      if (a.options.launch.valuesOf k).isEmpty then [] else [k.flag]) =
      ParameterKind.all.flatMap fun k =>
        if Item.valuesOf k.valued items ≠ [] then [k.flag] else [] := by
    simp only [h.values, List.isEmpty_iff, ite_not]
  have hflags : ([RunFlag.detach, .interactive, .tty].flatMap fun f =>
      if a.options.launch.isOn f then [f.token] else []) =
      [RunFlag.detach, .interactive, .tty].flatMap fun f =>
        if .switch f.switch ∈ items then [f.token] else [] := by
    simp only [h.switches]
  rw [ha, explicit_eq, hkinds, hflags, flatMap_ite_eq_map_filter, flatMap_ite_eq_map_filter]
  rfl

theorem MadeOf.explicit_flags {a : Arguments} {image : Option String} {items : List Item}
    (h : a.MadeOf image items) : a.options.explicit.flags = Item.marks items := by
  have hnodup : (([] : List String) ++ a.explicit).Nodup := by
    rw [List.nil_append, h.explicit_eq_marks]
    exact Item.marks_nodup items
  exact (FlagSet.flags_setAll_of_nodup (s := {}) hnodup).trans h.explicit_eq_marks

end Arguments

namespace Session

/-- After any session that ends well on the options of a command line, a switch is marked if and
only if it is on, and an option with a value if and only if it was given. Every flag is marked once:
first those given, then those that the profile adds, in its order. -/
theorem settle_explicit {σ : Type} (d : Devices (StateM σ)) (theme : Terminal.Theme) (n : Nat)
    (c : Catalog) (p : σ) {words : List String} {a : Arguments}
    (hread : Arguments.read words = .ok a) {m : Editor}
    (hend : (proceed d theme ⟨.new c a.image, .draw⟩ n p).1.2.stage = .ended (.ok m)) :
    ∃ items o, (∀ items', Arguments.Gives none words items' ↔ items' = items) ∧
      a.options.settle (.ok m) = .ok o ∧
      (∀ f : RunFlag, o.explicit.changed f.token = true ↔ o.launch.isOn f = true) ∧
      (∀ k : ParameterKind, o.explicit.changed k.flag = true ↔
        Arguments.Item.valuesOf k.valued items ≠ []) ∧
      o.explicit.flags.Nodup ∧
      o.explicit.flags = Arguments.Item.marks items ++
        (((c.profile a.image).flags.map (·.token)).filter
          (· ∉ Arguments.Item.marks items)).eraseDups := by
  obtain ⟨items, hgives, hmade⟩ := Arguments.gives_of_read hread
  obtain ⟨_, _, _, hok, _⟩ := proceed_course d theme (.new c a.image) p n
  obtain ⟨hm, _⟩ := hok m hend
  obtain ⟨hsettled, _⟩ := settle_proceed d theme n c a.options p hend
  obtain ⟨_, _, s, hcommit, hsettle⟩ := hsettled m rfl
  obtain ⟨_, _, rfl⟩ := Editor.commit_eq_ok.mp hcommit
  have hflags : m.flags = (c.profile a.image).flags := by
    rw [hm]
    exact congrArg (·.2.2) (Editor.run_invocation (.new c a.image) _)
  have hmarks := hmade.explicit_flags
  have hchanged (f : String) : (a.options.apply m.selections).explicit.changed f = true ↔
      f ∈ Arguments.Item.marks items ∨ f ∈ m.flags.map (·.token) := by
    rw [← hmarks]
    refine (FlagSet.changed_setAll a.options.explicit _ f).trans (or_congr_left ?_)
    simp [FlagSet.changed]
  refine ⟨items, _, ?_, hsettle, ?_, ?_, ?_, ?_⟩
  · intro items'
    constructor
    · exact fun h => h.unique hgives
    · rintro rfl
      exact hgives
  · intro f
    rw [hchanged, Arguments.Item.token_mem_marks, ← hmade.switches,
      List.mem_map_of_injective RunFlag.token_injective]
    exact (LaunchOptions.apply_isOn a.options.launch m.selections f).symm
  · intro k
    have hk : k.flag ∉ m.flags.map (·.token) := by
      intro h
      obtain ⟨f, _, hf⟩ := List.mem_map.mp h
      exact k.flag_ne_token f hf.symm
    rw [hchanged, Arguments.Item.flag_mem_marks]
    exact or_iff_left hk
  · refine FlagSet.nodup_setAll ?_ _
    rw [hmarks]
    exact Arguments.Item.marks_nodup items
  · rw [← hflags, ← hmarks]
    exact FlagSet.flags_setAll a.options.explicit _

/-- A switch that was given is not marked again, and one that the profile repeats is marked once. -/
theorem settle_explicit_repeated :
    let profile : Profile := { flags := [.interactive, .tty, .interactive, .detach] }
    let c : Catalog := { images := [("image", profile)] }
    let words := ["-t", "--env=A=1", "image"]
    let waits : List Wait := [{ answer := .key .enter }]
    let script : Script := { waits, exhausted := "", drawing := fun _ => {} }
    let e := Editor.new c "image"
    let r := proceed script.devices ⟨false⟩ ⟨e, .draw⟩ 2 { waits, cancelled := false }
    ∃ a o, Arguments.read words = .ok a ∧ r.1.2.stage = .ended (.ok e) ∧
      a.options.settle (.ok e) = .ok o ∧ o.explicit.changed "--name" = false ∧
      o.explicit.flags = ["--env", "--tty", "--interactive", "--detach"] := by
  intro profile c words waits script e r
  let a : Arguments := { image := "image", env := ["A=1"], tty := true }
  have hread : Arguments.read words = .ok a := by decide
  have hend : r.1.2.stage = .ended (.ok e) := rfl
  obtain ⟨items, o, hgives, hsettle, _, hkinds, _, hmarks⟩ :=
    settle_explicit script.devices ⟨false⟩ 2 c { waits, cancelled := false } hread hend
  have hitems : [.switch .tty, .value .env "A=1", .image "image"] = items := by
    refine (hgives _).mp ?_
    have himage : Arguments.Gives none ["image"] [.image "image"] := .image (by decide) .nil
    have henv : Arguments.Asks "--env=A=1" [.value .env "A=1"] none :=
      @Arguments.Asks.equals "env" .env rfl "A=1"
    have htty : Arguments.Asks "-t" [.switch .tty] none := .letters (.switch rfl .nil)
    exact .options htty (.options henv himage)
  subst hitems
  refine ⟨a, o, hread, hend, hsettle, ?_, ?_⟩
  · refine Bool.eq_false_iff.mpr fun h => ?_
    exact (hkinds .name).mp h rfl
  · rw [hmarks]
    decide

end Session
end LaunchEditor
