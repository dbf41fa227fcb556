import LaunchEditor.Proofs.Except
import LaunchEditor.Proofs.Options.Arguments

/-! # What a command line gives

A grammar of command lines that knows nothing of stored and pending options. Whatever is read
without a fault is in the grammar, and the arguments are made of just what it gives, the values of
each option in the order in which they stand.
-/
namespace LaunchEditor

namespace Arguments

inductive Item where
  | value (v : Valued) (text : String)
  | switch (s : Switch)
  | image (word : String)
  deriving DecidableEq

namespace Item

def valuesOf (v : Valued) (items : List Item) : List String :=
  items.filterMap fun
    | value u text => if u = v then some text else none
    | _ => none

def images (items : List Item) : List String :=
  items.filterMap fun
    | image word => some word
    | _ => none

theorem valuesOf_append (v : Valued) (items new : List Item) :
    valuesOf v (items ++ new) = valuesOf v items ++ valuesOf v new := List.filterMap_append

theorem images_append (items new : List Item) :
    images (items ++ new) = images items ++ images new := List.filterMap_append

end Item

theorem Dashed.exists_eq {w : String} (h : Dashed w) :
    ∃ c cs, w = String.ofList ('-' :: c :: cs) := by
  obtain ⟨hne, hhead⟩ := h
  cases hw : w.toList with
  | nil => simp [hw] at hhead
  | cons d rest =>
    obtain rfl : d = '-' := by simpa [hw] using hhead
    cases rest with
    | nil => exact absurd (String.toList_inj.mp hw) hne
    | cons c cs => exact ⟨c, cs, by rw [← hw, String.ofList_toList]⟩

/-- What the letters behind a hyphen give, and the option among them whose value is yet to come. -/
inductive Letters : List Char → List Item → Option Valued → Prop where
  | nil : Letters [] [] none
  | switch {c : Char} {s : Switch} {cs : List Char} {items : List Item} {next : Option Valued}
      (hc : shortOptions.lookup c = some (.switch s)) (h : Letters cs items next) :
      Letters (c :: cs) (.switch s :: items) next
  | await {c : Char} {v : Valued} (hc : shortOptions.lookup c = some (.valued v)) :
      Letters [c] [] (some v)
  | equals {c : Char} {v : Valued} (hc : shortOptions.lookup c = some (.valued v))
      (text : List Char) : Letters (c :: '=' :: text) [.value v (String.ofList text)] none
  | attached {c d : Char} {v : Valued} (hc : shortOptions.lookup c = some (.valued v))
      (hd : d ≠ '=') (text : List Char) :
      Letters (c :: d :: text) [.value v (String.ofList (d :: text))] none

/-- What a word of options gives, likewise. -/
inductive Asks : String → List Item → Option Valued → Prop where
  | switch {name : String} {s : Switch} (hn : longOptions.lookup name = some (.switch s)) :
      Asks ("--" ++ name) [.switch s] none
  | await {name : String} {v : Valued} (hn : longOptions.lookup name = some (.valued v)) :
      Asks ("--" ++ name) [] (some v)
  | equals {name : String} {v : Valued} (hn : longOptions.lookup name = some (.valued v))
      (text : String) : Asks ("--" ++ name ++ "=" ++ text) [.value v text] none
  | letters {c : Char} {cs : List Char} {items : List Item} {next : Option Valued}
      (h : Letters (c :: cs) items next) : Asks (String.ofList ('-' :: c :: cs)) items next

/-- What the words of a command line give where the value of an option may still be to come. -/
inductive Gives : Option Valued → List String → List Item → Prop where
  | nil : Gives none [] []
  | literal (words : List String) : Gives none ("--" :: words) (words.map .image)
  | image {w : String} {words : List String} {items : List Item} (hw : ¬ Dashed w)
      (h : Gives none words items) : Gives none (w :: words) (.image w :: items)
  | value {v : Valued} {w : String} {words : List String} {items : List Item} (hw : ¬ Dashed w)
      (h : Gives none words items) : Gives (some v) (w :: words) (.value v w :: items)
  | options {w : String} {words : List String} {new items : List Item} {next : Option Valued}
      (hw : Asks w new next) (h : Gives next words items) : Gives none (w :: words) (new ++ items)

/-- The arguments and the image come of these items, in their order. -/
structure MadeOf (a : Arguments) (image : Option String) (items : List Item) : Prop where
  values : ∀ k : ParameterKind, a.options.launch.valuesOf k = Item.valuesOf k.valued items
  switches : ∀ f : RunFlag, a.options.launch.isOn f = true ↔ .switch f.switch ∈ items
  image : image.toList = Item.images items

theorem madeOf_nil : MadeOf {} none [] where
  values k := by cases k <;> rfl
  switches f := by cases f <;> simp [options, LaunchOptions.isOn]
  image := rfl

section
variable {a b : Arguments}

theorem once_eq_ok {α : Type} {old new : Option α} {x : α} :
    once old x = .ok new ↔ old = none ∧ new = some x := by
  cases old <;> simp [once, eq_comm]

theorem switchOnce_eq_ok {old new : Bool} :
    switchOnce old = .ok new ↔ old = false ∧ new = true := by
  cases old <;> simp [switchOnce, eq_comm]

/-- Storing a value adds it behind those of its option and switches nothing on or off. -/
theorem store_spec {v : Valued} {text : String} (h : a.store v text = .ok b) :
    (∀ k : ParameterKind, b.options.launch.valuesOf k =
        a.options.launch.valuesOf k ++ if v = k.valued then [text] else []) ∧
      ∀ f, b.options.launch.isOn f = a.options.launch.isOn f := by
  cases v with
  | volume | env | publish =>
    cases h
    constructor
    · intro k
      cases k <;> simp [options, LaunchOptions.valuesOf, ParameterKind.valued]
    · intro f
      cases f <;> rfl
  | name | entrypoint | catalogPath =>
    obtain ⟨new, honce, rfl⟩ := map_eq_ok.mp h
    obtain ⟨hold, rfl⟩ := once_eq_ok.mp honce
    constructor
    · intro k
      cases k <;> simp [options, LaunchOptions.valuesOf, ParameterKind.valued, hold]
    · intro f
      cases f <;> rfl
  | timeout =>
    simp only [store] at h
    split at h
    · cases h
    · split at h
      · cases h
        constructor
        · intro k
          cases k <;> simp [options, LaunchOptions.valuesOf, ParameterKind.valued]
        · intro f
          cases f <;> rfl
      · cases h

theorem switchOn_spec {s : Switch} (h : a.switchOn s = .ok b) :
    (∀ k, b.options.launch.valuesOf k = a.options.launch.valuesOf k) ∧
      ∀ f : RunFlag, b.options.launch.isOn f = true ↔
        a.options.launch.isOn f = true ∨ f.switch = s := by
  constructor
  · intro k
    cases s <;> obtain ⟨new, _, rfl⟩ := map_eq_ok.mp h <;> cases k <;> rfl
  · intro f
    cases s <;> obtain ⟨new, honce, rfl⟩ := map_eq_ok.mp h <;>
      obtain ⟨_, rfl⟩ := switchOnce_eq_ok.mp honce <;>
      cases f <;> simp [options, LaunchOptions.isOn, RunFlag.switch]

end

namespace MadeOf
variable {a b : Arguments} {image : Option String} {items : List Item}

theorem store (h : a.MadeOf image items) {v : Valued} {text : String}
    (hs : a.store v text = .ok b) : b.MadeOf image (items ++ [.value v text]) where
  values k := by
    rw [(store_spec hs).1, h.values, Item.valuesOf_append]
    congr 1
    by_cases hv : v = k.valued <;> simp [Item.valuesOf, hv]
  switches f := by
    rw [(store_spec hs).2, h.switches]
    simp
  image := by
    rw [h.image, Item.images_append]
    simp [Item.images]

theorem switchOn (h : a.MadeOf image items) {s : Switch} (hs : a.switchOn s = .ok b) :
    b.MadeOf image (items ++ [.switch s]) where
  values k := by
    rw [(switchOn_spec hs).1, h.values, Item.valuesOf_append]
    simp [Item.valuesOf]
  switches f := by
    rw [(switchOn_spec hs).2, h.switches]
    simp
  image := by
    rw [h.image, Item.images_append]
    simp [Item.images]

theorem addImage (h : a.MadeOf none items) (w : String) :
    a.MadeOf (some w) (items ++ [.image w]) where
  values k := by
    rw [h.values, Item.valuesOf_append]
    simp [Item.valuesOf]
  switches f := by
    rw [h.switches]
    simp
  image := by
    rw [Item.images_append, ← h.image]
    rfl

theorem withImage (h : a.MadeOf image items) (w : String) :
    { a with image := w }.MadeOf image items where
  values k := by
    rw [← h.values]
    cases k <;> rfl
  switches f := by
    rw [← h.switches]
    cases f <;> rfl
  image := h.image

end MadeOf

namespace Reading

/-- What has been read gives these items, and the value of an option may be to come. -/
inductive Stands (literal : Bool) : Reading → List Item → Option Valued → Prop where
  | stored {a : Arguments} {image : Option String} {items : List Item}
      (h : a.MadeOf image items) : Stands literal ⟨a, image, none, literal⟩ items none
  | pending {a : Arguments} {image : Option String} {items : List Item}
      (h : a.MadeOf image items) (v : Valued) (text : String) :
      Stands literal ⟨a, image, some (v, some text), literal⟩ (items ++ [.value v text]) none
  | awaiting {a : Arguments} {image : Option String} {items : List Item}
      (h : a.MadeOf image items) (v : Valued) :
      Stands literal ⟨a, image, some (v, none), literal⟩ items (some v)

namespace Stands
variable {literal : Bool} {r s : Reading} {items : List Item} {next : Option Valued}

theorem literal_eq (h : Stands literal r items next) : r.literal = literal := by
  cases h <;> rfl

theorem toLiteral (h : Stands literal r items next) :
    Stands true { r with literal := true } items next := by
  cases h with
  | stored h => exact .stored h
  | pending h v text => exact .pending h v text
  | awaiting h v => exact .awaiting h v

theorem settle (h : Stands literal r items next) (hs : r.settle = .ok s) :
    next = none ∧ ∃ a : Arguments, s = ⟨a, r.image, none, literal⟩ ∧ a.MadeOf r.image items := by
  cases h with
  | stored h =>
    cases hs
    exact ⟨rfl, _, rfl, h⟩
  | pending h v text =>
    obtain ⟨a, hstore, rfl⟩ := map_eq_ok.mp hs
    exact ⟨rfl, a, rfl, h.store hstore⟩
  | awaiting h v => cases hs

theorem switch (h : Stands literal r items next) {x : Switch} (hs : r.switch x = .ok s) :
    next = none ∧ Stands literal s (items ++ [.switch x]) none := by
  obtain ⟨t, ht, hs⟩ := bind_eq_ok.mp hs
  obtain ⟨hnext, a, rfl, ha⟩ := h.settle ht
  obtain ⟨b, hb, hs⟩ := bind_eq_ok.mp hs
  cases hs
  exact ⟨hnext, .stored (ha.switchOn hb)⟩

theorem value (h : Stands literal r items next) {v : Valued} {text : String}
    (hs : r.value v text = .ok s) :
    next = none ∧ Stands literal s (items ++ [.value v text]) none := by
  obtain ⟨t, ht, hs⟩ := bind_eq_ok.mp hs
  obtain ⟨hnext, a, rfl, ha⟩ := h.settle ht
  obtain ⟨b, hb, hs⟩ := bind_eq_ok.mp hs
  cases hs
  exact ⟨hnext, .stored (ha.store hb)⟩

theorem await (h : Stands literal r items next) {v : Valued} (hs : r.await v = .ok s) :
    next = none ∧ Stands literal s items (some v) := by
  obtain ⟨t, ht, hs⟩ := bind_eq_ok.mp hs
  obtain ⟨hnext, a, rfl, ha⟩ := h.settle ht
  cases hs
  exact ⟨hnext, .awaiting ha v⟩

theorem positional (h : Stands literal r items next) {w : String} (hs : r.positional w = .ok s) :
    next = none ∧ Stands literal s (items ++ [.image w]) none := by
  unfold Reading.positional at hs
  split at hs
  · next himage =>
    obtain ⟨t, ht, hs⟩ := bind_eq_ok.mp hs
    obtain ⟨hnext, a, rfl, ha⟩ := h.settle ht
    cases hs
    rw [himage] at ha
    exact ⟨hnext, .stored (ha.addImage w)⟩
  · cases hs

theorem not_help (r : Reading) (long : Bool) : r.help long ≠ .ok s := by
  intro hs
  obtain ⟨_, _, hs⟩ := bind_eq_ok.mp hs
  cases hs

/-- Every letter first settles what is pending, so none is read while a value is to come. -/
theorem short {c : Char} {cs : List Char} (h : Stands literal r items next)
    (hs : r.short (c :: cs) = .ok s) :
    next = none ∧ ∃ new next', Letters (c :: cs) new next' ∧
      Stands literal s (items ++ new) next' := by
  induction cs generalizing c r items next with
  | nil =>
    simp only [Reading.short] at hs
    split at hs
    · cases hs
    · next x hc =>
      obtain ⟨t, ht, hs⟩ := bind_eq_ok.mp hs
      cases hs
      obtain ⟨hnext, ht⟩ := h.switch ht
      exact ⟨hnext, _, _, .switch hc .nil, ht⟩
    · exact absurd hs (not_help _ _)
    · next v hc =>
      obtain ⟨hnext, ht⟩ := h.await hs
      exact ⟨hnext, _, _, .await hc, by simpa using ht⟩
  | cons d cs ih =>
    rw [Reading.short] at hs
    split at hs
    · cases hs
    · next x hc =>
      obtain ⟨t, ht, hs⟩ := bind_eq_ok.mp hs
      obtain ⟨hnext, ht⟩ := h.switch ht
      obtain ⟨_, new, next', hnew, hr⟩ := ih ht hs
      exact ⟨hnext, _, _, .switch hc hnew, by simpa using hr⟩
    · exact absurd hs (not_help _ _)
    · next v hc =>
      split at hs
      · contradiction
      · next text heq =>
        cases heq
        obtain ⟨hnext, ht⟩ := h.value hs
        exact ⟨hnext, _, _, .equals hc _, ht⟩
      · next hne =>
        obtain ⟨hnext, ht⟩ := h.value hs
        refine ⟨hnext, _, _, .attached hc ?_ _, ht⟩
        rintro rfl
        exact hne cs rfl

theorem long {body : List Char} (h : Stands literal r items next) (hs : r.long body = .ok s) :
    next = none ∧ ∃ new next', Asks (String.ofList ('-' :: '-' :: body)) new next' ∧
      Stands literal s (items ++ new) next' := by
  let name := String.ofList (body.takeWhile (· != '='))
  unfold Reading.long at hs
  cases hrest : body.dropWhile (· != '=') with
  | nil =>
    have hbody : body.takeWhile (· != '=') = body := by
      simpa [hrest] using List.takeWhile_append_dropWhile (p := (· != '=')) (l := body)
    have hword : String.ofList ('-' :: '-' :: body) = "--" ++ name := by
      simp [name, hbody, ← String.toList_inj]
    rw [hword]
    simp only [hrest] at hs
    split at hs
    · cases hs
    · contradiction
    · next v hn _ =>
      obtain ⟨hnext, ht⟩ := h.await hs
      exact ⟨hnext, _, _, .await hn, by simpa using ht⟩
    · contradiction
    · next x hn _ =>
      obtain ⟨hnext, ht⟩ := h.switch hs
      exact ⟨hnext, _, _, .switch hn, ht⟩
    · exact absurd hs (not_help _ _)
  | cons d text =>
    have hd : d = '=' := by
      have hhead := List.head_dropWhile_not (p := (· != '=')) (l := body) (by simp [hrest])
      simpa [hrest] using hhead
    have hbody : body.takeWhile (· != '=') ++ '=' :: text = body := by
      simpa [hrest, hd] using List.takeWhile_append_dropWhile (p := (· != '=')) (l := body)
    have hword : String.ofList ('-' :: '-' :: body) =
        "--" ++ name ++ "=" ++ String.ofList text := by
      rw [← hbody]
      simp [name, ← String.toList_inj]
    rw [hword]
    simp only [hrest] at hs
    split at hs
    · cases hs
    · next v value hn heq =>
      cases heq
      obtain ⟨hnext, ht⟩ := h.value hs
      exact ⟨hnext, _, _, .equals hn _, ht⟩
    · contradiction
    · cases hs
    · contradiction
    · contradiction

/-- A word that is read before `--` gives something in front of whatever the rest gives. -/
theorem word {w : String} (h : Stands false r items next) (hw : w ≠ "--")
    (hs : r.word w = .ok s) : ∃ new next', Stands false s (items ++ new) next' ∧
      ∀ words rest, Gives next' words rest → Gives next (w :: words) (new ++ rest) := by
  have hliteral := h.literal_eq
  by_cases hd : Dashed w
  · have hoptions : next = none ∧
        ∃ new next', Asks w new next' ∧ Stands false s (items ++ new) next' := by
      obtain ⟨c, cs, rfl⟩ := hd.exists_eq
      simp only [Reading.word, hliteral, Bool.false_eq_true, ↓reduceIte, String.toList_ofList] at hs
      split at hs
      · next heq => exact absurd (congrArg String.ofList heq) hw
      · next body heq =>
        rw [heq]
        exact h.long hs
      · next d rest _ _ heq =>
        obtain ⟨hnext, new, next', hnew, ht⟩ := h.short hs
        rw [heq]
        exact ⟨hnext, new, next', .letters hnew, ht⟩
      · next hnot => exact absurd rfl (hnot c cs)
    obtain ⟨rfl, new, next', hnew, ht⟩ := hoptions
    exact ⟨new, next', ht, fun words rest hrest => .options hnew hrest⟩
  · rw [Reading.word_plain hliteral hd] at hs
    cases h with
    | awaiting h v =>
      cases hs
      exact ⟨[.value v w], none, .pending h v w, fun words rest hrest => .value hd hrest⟩
    | stored h =>
      obtain ⟨_, ht⟩ := (Stands.stored h).positional hs
      exact ⟨[.image w], none, ht, fun words rest hrest => .image hd hrest⟩
    | pending h v text =>
      obtain ⟨_, ht⟩ := (Stands.pending h v text).positional hs
      exact ⟨[.image w], none, ht, fun words rest hrest => .image hd hrest⟩

theorem finish {a : Arguments} (h : Stands literal r items next) (hs : r.finish = .ok a) :
    next = none ∧ a.MadeOf (some a.image) items := by
  obtain ⟨s, hsettle, hs⟩ := bind_eq_ok.mp hs
  obtain ⟨hnext, b, rfl, hb⟩ := h.settle hsettle
  cases himage : r.image with
  | none =>
    rw [himage] at hs
    cases hs
  | some image =>
    rw [himage] at hs hb
    cases hs
    exact ⟨hnext, hb.withImage image⟩

/-- Behind `--` every word is an image. -/
theorem literal_run {words : List String} {a : Arguments} (h : Stands true r items next)
    (hs : words.foldlM Reading.word r >>= Reading.finish = .ok a) :
    next = none ∧ a.MadeOf (some a.image) (items ++ words.map .image) := by
  induction words generalizing r items next with
  | nil =>
    simpa using h.finish hs
  | cons w words ih =>
    rw [List.foldlM_cons, bind_assoc] at hs
    obtain ⟨t, ht, hs⟩ := bind_eq_ok.mp hs
    rw [Reading.word, if_pos h.literal_eq] at ht
    obtain ⟨hnext, ht⟩ := h.positional ht
    obtain ⟨_, ha⟩ := ih ht hs
    exact ⟨hnext, by simpa using ha⟩

theorem run {words : List String} {a : Arguments} (h : Stands false r items next)
    (hs : words.foldlM Reading.word r >>= Reading.finish = .ok a) :
    ∃ rest, Gives next words rest ∧ a.MadeOf (some a.image) (items ++ rest) := by
  induction words generalizing r items next with
  | nil =>
    obtain ⟨rfl, ha⟩ := h.finish hs
    exact ⟨[], .nil, by simpa using ha⟩
  | cons w words ih =>
    rw [List.foldlM_cons, bind_assoc] at hs
    obtain ⟨t, ht, hs⟩ := bind_eq_ok.mp hs
    by_cases hw : w = "--"
    · subst hw
      have hword : r.word "--" = .ok { r with literal := true } := by
        simp [Reading.word, h.literal_eq]
      rw [hword] at ht
      cases ht
      obtain ⟨rfl, ha⟩ := h.toLiteral.literal_run hs
      exact ⟨words.map .image, .literal words, ha⟩
    · obtain ⟨new, next', ht, hgives⟩ := h.word hw ht
      obtain ⟨rest, hrest, ha⟩ := ih ht hs
      exact ⟨new ++ rest, hgives words rest hrest, by simpa using ha⟩

end Stands
end Reading

/-- A command line that is accepted gives what its arguments are made of. -/
theorem gives_of_read {words : List String} {a : Arguments} (h : read words = .ok a) :
    ∃ items, Gives none words items ∧ a.MadeOf (some a.image) items :=
  (Reading.Stands.stored madeOf_nil).run h

end Arguments
end LaunchEditor
