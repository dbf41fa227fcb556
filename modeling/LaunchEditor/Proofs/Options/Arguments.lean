import LaunchEditor.Arguments
import LaunchEditor.Proofs.Options.Entry

/-! # Reading the words of a command

The words of a command behind those of its program are a command line, and reading it gives the
options that the command was made of. A value is stored only once the next option or the image is
read, so what carries over from one entry to the next is what a reading settles to.
-/
namespace LaunchEditor

def RunFlag.switch : RunFlag → Arguments.Switch
  | interactive => .interactive
  | tty => .tty
  | detach => .detach

def ParameterKind.valued : ParameterKind → Arguments.Valued
  | name => .name
  | volume => .volume
  | entrypoint => .entrypoint
  | env => .env
  | port => .publish

namespace FlagSet

theorem changed_set (s : FlagSet) (f g : String) :
    (s.set f).changed g = true ↔ s.changed g = true ∨ g = f := by
  unfold set
  split
  · rename_i h
    constructor
    · exact .inl
    · rintro (hg | rfl)
      · exact hg
      · exact h
  · simp [changed]

theorem setAll_cons (s : FlagSet) (f : String) (fs : List String) :
    s.setAll (f :: fs) = (s.set f).setAll fs := rfl

theorem changed_setAll (s : FlagSet) (fs : List String) (g : String) :
    (s.setAll fs).changed g = true ↔ s.changed g = true ∨ g ∈ fs := by
  induction fs generalizing s with
  | nil => simp [setAll]
  | cons f fs ih =>
    rw [setAll_cons, ih, changed_set, List.mem_cons, or_assoc]

end FlagSet

namespace Arguments

/-- Whether a word is read as an option rather than as a value or an image. -/
def Dashed (w : String) : Prop := w ≠ "-" ∧ w.toList.head? = some '-'

instance (w : String) : Decidable (Dashed w) := inferInstanceAs (Decidable (_ ∧ _))

theorem dashed_flag (e : Entry) : Dashed e.flag := by
  cases e with
  | switch f => cases f <;> decide
  | value k v =>
    have h : ∀ k : ParameterKind, Dashed k.flag := by
      intro k
      cases k <;> decide
    exact h k

/-- What succeeds for a part goes on with the rest. -/
theorem foldlM_append_of_ok {ε α β : Type} {f : β → α → Except ε β} {xs ys : List α} {b c : β}
    (h : xs.foldlM f b = .ok c) : (xs ++ ys).foldlM f b = ys.foldlM f c := by
  rw [List.foldlM_append, h]
  rfl

/-- Stores an entry. -/
def enter (a : Arguments) : Entry → Except Rejection Arguments
  | .switch f => a.switchOn f.switch
  | .value k v => a.store k.valued v

namespace Reading

/-- Once its pending option is stored, the reading has come to some arguments and to no image. -/
def Settles (r : Reading) (a : Arguments) : Prop := r.settle = .ok { arguments := a }

variable {r : Reading} {a b : Arguments} {w : String}

theorem Settles.fields (h : r.Settles a) :
    r.literal = false ∧ r.image = none ∧ ∀ v, r.pending ≠ some (v, none) := by
  obtain ⟨arguments, image, pending, literal⟩ := r
  match pending with
  | none =>
    cases h
    simp
  | some (v, none) => cases h
  | some (v, some value) =>
    simp only [Settles, settle] at h
    cases hs : arguments.store v value with
    | error e => simp [hs, Except.map] at h
    | ok c => simp_all [Except.map]

theorem word_token (h : r.literal = false) (f : RunFlag) : r.word f.token = r.switch f.switch := by
  cases f <;> simp only [word, h] <;> rfl

theorem word_flag (h : r.literal = false) (k : ParameterKind) :
    r.word k.flag = r.await k.valued := by
  cases k <;> simp only [word, h] <;> rfl

theorem word_plain (h : r.literal = false) (hw : ¬ Dashed w) :
    r.word w = match r.pending with
      | some (v, none) => .ok { r with pending := some (v, some w) }
      | _ => r.positional w := by
  have hdash (c : Char) (rest : List Char) : w.toList ≠ '-' :: c :: rest := by
    intro hl
    refine hw ⟨?_, by rw [hl]; rfl⟩
    rintro rfl
    cases hl
  rw [word, if_neg (by simp [h])]
  split
  · exact absurd ‹_› (hdash _ _)
  · exact absurd ‹_› (hdash _ _)
  · exact absurd ‹_› (hdash _ _)
  · rfl

theorem Settles.positional (h : r.Settles a) (w : String) :
    r.positional w = .ok { arguments := a, image := some w } := by
  have hsettle : r.settle = .ok { arguments := a } := h
  rw [Reading.positional, h.fields.2.1]
  simp only [hsettle]
  rfl

/-- Reading the words of an entry comes to storing it. -/
theorem Settles.words (h : r.Settles a) {e : Entry} (he : ∀ v ∈ e.value?, ¬ Dashed v)
    (hb : a.enter e = .ok b) : ∃ s, e.words.foldlM word r = .ok s ∧ s.Settles b := by
  have hliteral := h.fields.1
  have hsettle : r.settle = .ok { arguments := a } := h
  cases e with
  | switch f =>
    have hon : a.switchOn f.switch = .ok b := hb
    refine ⟨{ arguments := b }, ?_, rfl⟩
    simp only [Entry.words, List.foldlM_cons, List.foldlM_nil, word_token hliteral, switch, hsettle,
      hon, bind, pure, Except.bind, Except.pure]
  | value k v =>
    have hstore : a.store k.valued v = .ok b := hb
    have hflag : r.word k.flag = .ok { arguments := a, pending := some (k.valued, none) } := by
      simp only [word_flag hliteral, await, hsettle, bind, pure, Except.bind, Except.pure]
    -- The value is pending now, and `b` is what comes of it whenever that is settled.
    refine ⟨{ arguments := a, pending := some (k.valued, some v) }, ?_, ?_⟩
    · simp only [Entry.words, List.foldlM_cons, List.foldlM_nil, hflag, bind, pure, Except.bind,
        Except.pure]
      rw [word_plain rfl (he v rfl)]
    · simp [Settles, settle, hstore, Except.map]

theorem Settles.run {es : List Entry} (h : r.Settles a) (hes : ∀ e ∈ es, ∀ v ∈ e.value?, ¬ Dashed v)
    (hb : es.foldlM enter a = .ok b) :
    ∃ s, (es.flatMap Entry.words).foldlM word r = .ok s ∧ s.Settles b := by
  induction es generalizing r a with
  | nil =>
    cases hb
    exact ⟨r, rfl, h⟩
  | cons e es ih =>
    rw [List.foldlM_cons] at hb
    cases hc : a.enter e with
    | error _ =>
      rw [hc] at hb
      cases hb
    | ok c =>
      rw [hc] at hb
      obtain ⟨s, hs, hsc⟩ := h.words (hes e List.mem_cons_self) hc
      obtain ⟨t, ht, htb⟩ := ih hsc (fun f hf => hes f (List.mem_cons_of_mem e hf)) hb
      refine ⟨t, ?_, htb⟩
      rw [List.flatMap_cons, foldlM_append_of_ok hs]
      exact ht

end Reading

/-- Entries that can be stored one after the other can be read off their words. -/
theorem read_words {es : List Entry} {image : String} {a : Arguments}
    (hes : ∀ e ∈ es, ∀ v ∈ e.value?, ¬ Dashed v) (himage : ¬ Dashed image)
    (ha : es.foldlM enter {} = .ok a) :
    read (es.flatMap Entry.words ++ [image]) = .ok { a with image } := by
  obtain ⟨r, hr, h⟩ := Reading.Settles.run (r := {}) (a := {}) rfl hes ha
  have hword : r.word image = .ok { arguments := a, image := some image } := by
    rw [Reading.word_plain h.fields.1 himage]
    split
    · exact absurd ‹_› (h.fields.2.2 _)
    · exact h.positional image
  rw [read, foldlM_append_of_ok hr, List.foldlM_cons, hword]
  rfl

/-- The arguments that ask for some options and for nothing else. -/
def ofLaunch (o : LaunchOptions) : Arguments where
  image := o.image
  name := o.name
  volumes := o.volumes
  entrypoint := o.entrypoint
  env := o.env
  publish := o.publish
  detach := o.detach
  interactive := o.interactive
  tty := o.tty

section
variable (a : Arguments)

/-- Puts values of a kind behind those that are there; of a name or an entrypoint there is one. -/
def extend (k : ParameterKind) (vs : List String) : Arguments :=
  match k with
  | .name => { a with name := a.name.or vs.head? }
  | .volume => { a with volumes := a.volumes ++ vs }
  | .entrypoint => { a with entrypoint := a.entrypoint.or vs.head? }
  | .env => { a with env := a.env ++ vs }
  | .port => { a with publish := a.publish ++ vs }

theorem extend_nil (k : ParameterKind) : a.extend k [] = a := by
  cases k <;> simp [extend]

theorem enter_value {k : ParameterKind}
    (h : k ∈ [.volume, .env, .port] ∨ a.options.launch.valuesOf k = []) (v : String) :
    a.enter (.value k v) = .ok (a.extend k [v]) := by
  cases k with
  | volume | env | port => rfl
  | name | entrypoint =>
    have hnone := Option.toList_eq_nil_iff.mp (h.resolve_left (by decide))
    simp only [options] at hnone
    simp [enter, store, once, extend, ParameterKind.valued, hnone, Except.map]

/-- Any number of volumes, variables and ports can be stored. -/
theorem foldlM_enter_list {k : ParameterKind} (hk : k ∈ [.volume, .env, .port]) (vs : List String) :
    (vs.map (.value k)).foldlM enter a = .ok (a.extend k vs) := by
  induction vs generalizing a with
  | nil => exact congrArg Except.ok (a.extend_nil k).symm
  | cons v vs ih =>
    have happend : (a.extend k [v]).extend k vs = a.extend k (v :: vs) := by
      cases k with
      | name | entrypoint => simp at hk
      | volume | env | port => simp [extend]
    rw [List.map_cons, List.foldlM_cons, a.enter_value (.inl hk), ← happend]
    exact ih _

/-- One value of any kind can be stored. -/
theorem foldlM_enter_option {k : ParameterKind} (h : a.options.launch.valuesOf k = [])
    (v : Option String) :
    (v.toList.map (.value k)).foldlM enter a = .ok (a.extend k v.toList) := by
  cases v with
  | none => exact congrArg Except.ok (a.extend_nil k).symm
  | some v =>
    rw [Option.toList_some, List.map_singleton, List.foldlM_cons, a.enter_value (.inr h)]
    rfl

end

theorem foldlM_enter_switches (o : LaunchOptions) : (o.switches.map .switch).foldlM enter {} =
    .ok { detach := o.detach, interactive := o.interactive, tty := o.tty } := by
  obtain ⟨_, _, _, _, _, _, i, t, d⟩ := o
  cases i <;> cases t <;> cases d <;> rfl

theorem foldlM_enter_entries (o : LaunchOptions) :
    o.entries.foldlM enter {} = .ok { ofLaunch o with image := "" } := by
  simp only [LaunchOptions.entries, Entry.ofValues, ParameterKind.all, List.flatMap_cons,
    List.flatMap_nil, List.append_nil, LaunchOptions.valuesOf]
  rw [foldlM_append_of_ok (foldlM_enter_switches o),
    foldlM_append_of_ok (foldlM_enter_option _ rfl _),
    foldlM_append_of_ok (foldlM_enter_list _ (by decide) _),
    foldlM_append_of_ok (foldlM_enter_option _ rfl _),
    foldlM_append_of_ok (foldlM_enter_list _ (by decide) _), foldlM_enter_list _ (by decide)]
  simp [extend, ofLaunch]

theorem explicit_eq (o : LaunchOptions) : (ofLaunch o).explicit =
    (ParameterKind.all.flatMap fun k => if (o.valuesOf k).isEmpty then [] else [k.flag]) ++
      [RunFlag.detach, .interactive, .tty].flatMap fun g => if o.isOn g then [g.token] else [] := by
  obtain ⟨_, name, _, entrypoint, _, _, _, _, _⟩ := o
  simp only [explicit, ParameterKind.all, List.flatMap_cons, List.flatMap_nil, List.append_assoc,
    List.append_nil]
  cases name <;> cases entrypoint <;> rfl

theorem mem_explicit (o : LaunchOptions) (f : String) : f ∈ (ofLaunch o).explicit ↔
    (∃ k, o.valuesOf k ≠ [] ∧ k.flag = f) ∨ ∃ g, o.isOn g = true ∧ g.token = f := by
  have hflag (g : RunFlag) : g ∈ [RunFlag.detach, .interactive, .tty] := by
    cases g <;> decide
  simp only [explicit_eq, List.mem_append, List.mem_flatMap, ParameterKind.mem_all, hflag, true_and]
  refine or_congr (exists_congr fun k => ?_) (exists_congr fun g => ?_)
  · cases o.valuesOf k <;> simp [eq_comm]
  · by_cases h : o.isOn g = true <;> simp [h, eq_comm]

/-- The options given explicitly are those that the command has entries for. -/
theorem mem_explicit_iff_entry (o : LaunchOptions) (f : String) :
    f ∈ (ofLaunch o).explicit ↔ ∃ e ∈ o.entries, e.flag = f := by
  rw [mem_explicit]
  constructor
  · rintro (⟨k, hk, rfl⟩ | ⟨g, hg, rfl⟩)
    · obtain ⟨v, hv⟩ := List.exists_mem_of_ne_nil _ hk
      exact ⟨.value k v, (o.value_mem_entries k v).mpr hv, rfl⟩
    · exact ⟨.switch g, (o.switch_mem_entries g).mpr hg, rfl⟩
  · rintro ⟨e, he, rfl⟩
    cases e with
    | switch g => exact .inr ⟨g, (o.switch_mem_entries g).mp he, rfl⟩
    | value k v => exact .inl ⟨k, List.ne_nil_of_mem ((o.value_mem_entries k v).mp he), rfl⟩

theorem mem_words_dashed {es : List Entry} {image : String}
    (hes : ∀ e ∈ es, ∀ v ∈ e.value?, ¬ Dashed v) (himage : ¬ Dashed image) (f : String) :
    f ∈ es.flatMap Entry.words ++ [image] ∧ Dashed f ↔ ∃ e ∈ es, e.flag = f := by
  constructor
  · rintro ⟨hf, hd⟩
    rcases List.mem_append.mp hf with hf | hf
    · obtain ⟨e, he, hfe⟩ := List.mem_flatMap.mp hf
      rw [Entry.words_eq, List.mem_cons] at hfe
      rcases hfe with rfl | hv
      · exact ⟨e, he, rfl⟩
      · exact absurd hd (hes e he f (Option.mem_toList.mp hv))
    · rw [List.mem_singleton] at hf
      exact absurd (hf ▸ hd) himage
  · rintro ⟨e, he, rfl⟩
    refine ⟨List.mem_append_left _ (List.mem_flatMap.mpr ⟨e, he, ?_⟩), dashed_flag e⟩
    rw [Entry.words_eq]
    exact List.mem_cons_self

/-- Behind its program, a command with no value or image that looks like an option is a command
line for the options that it was made of, and marks just the options that it has as explicit. -/
theorem read_commandLine (program : String) (o : LaunchOptions) (himage : ¬ Dashed o.image)
    (hvalues : ∀ k, ∀ v ∈ o.valuesOf k, ¬ Dashed v) :
    let words := (o.commandLine program).drop (Text.words program).length
    ∃ a, read words = .ok a ∧ a.options.launch = o ∧
      ∀ f, a.options.explicit.changed f = true ↔ f ∈ words ∧ Dashed f := by
  intro words
  have hwords : words = o.entries.flatMap Entry.words ++ [o.image] := by
    simp only [words, LaunchOptions.commandLine_eq, List.append_assoc, List.drop_left]
  have hes : ∀ e ∈ o.entries, ∀ v ∈ e.value?, ¬ Dashed v := by
    intro e he v hv
    cases e with
    | switch g => cases hv
    | value k w =>
      obtain rfl : w = v := Option.some.inj hv
      exact hvalues k w ((o.value_mem_entries k w).mp he)
  refine ⟨ofLaunch o, ?_, rfl, fun f => ?_⟩
  · rw [hwords, read_words hes himage (foldlM_enter_entries o)]
    rfl
  · rw [hwords, mem_words_dashed hes himage, ← mem_explicit_iff_entry, options,
      FlagSet.changed_setAll]
    simp [FlagSet.changed]

/-- A value that is empty or a lone hyphen is read back as well, and so is such an image. -/
theorem read_commandLine_hyphens :
    let o : LaunchOptions :=
      { image := "-", name := some "", volumes := ["-", ":/data"], entrypoint := some "-"
        env := ["", "LEVEL=-v"], publish := ["8080:80"], tty := true, detach := true }
    let words := ["--tty", "--detach", "--name", "", "--volume", "-", "--volume", ":/data",
      "--entrypoint", "-", "--env", "", "--env", "LEVEL=-v", "-p", "8080:80", "-"]
    (¬ Dashed o.image ∧ ∀ k, ∀ v ∈ o.valuesOf k, ¬ Dashed v) ∧
      ∃ a, read words = .ok a ∧ a.options.launch = o ∧
        a.options.explicit.changed "--env" = true ∧
        a.options.explicit.changed "--interactive" = false := by
  intro o words
  have himage : ¬ Dashed o.image := by decide
  have hvalues : ∀ k, ∀ v ∈ o.valuesOf k, ¬ Dashed v := by
    intro k
    cases k <;> decide
  have hwords : (o.commandLine "docker run").drop (Text.words "docker run").length = words := by
    decide
  obtain ⟨a, ha, ho, hf⟩ := read_commandLine "docker run" o himage hvalues
  rw [hwords] at ha
  refine ⟨⟨himage, hvalues⟩, a, ha, ho, (hf _).mpr ?_, Bool.eq_false_iff.mpr fun h => ?_⟩
  · rw [hwords]
    decide
  · have hmem := ((hf _).mp h).1
    rw [hwords] at hmem
    exact absurd hmem (by decide)

end Arguments
end LaunchEditor
