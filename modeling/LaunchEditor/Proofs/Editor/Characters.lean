import LaunchEditor.Proofs.Editor.FixedPart

/-! # Where the characters of a value come from

A value is put together from the default, from separators, and from printable characters that were
typed. So what holds of printable characters and of those of the default holds of every character
that the parameter shows, and of every segment that an edit keeps.
-/
namespace LaunchEditor

namespace Text

/-- All characters of the text have the property. -/
def Over (P : Char → Prop) (s : String) : Prop := ∀ c ∈ s.toList, P c

section
variable {P : Char → Prop}

theorem Over.append {s t : String} (hs : Over P s) (ht : Over P t) : Over P (s ++ t) := by
  intro c hc
  rw [String.toList_append] at hc
  rcases List.mem_append.mp hc with hc | hc
  · exact hs c hc
  · exact ht c hc

theorem Over.intercalate {sep : String} (hsep : Over P sep) {l : List String}
    (h : ∀ s ∈ l, Over P s) : Over P (sep.intercalate l) := by
  induction l with
  | nil =>
    intro c hc
    simp at hc
  | cons s l ih =>
    obtain ⟨hs, hl⟩ := List.forall_mem_cons.mp h
    cases l with
    | nil => simpa using hs
    | cons t l =>
      rw [String.intercalate_cons_cons]
      exact (hs.append hsep).append (ih hl)

theorem Over.join {l : List String} (h : ∀ s ∈ l, Over P s) : Over P (String.join l) := by
  intro c hc
  rw [String.toList_join] at hc
  obtain ⟨s, hs, hcs⟩ := List.mem_flatMap.mp hc
  exact h s hs c hcs

theorem mem_of_mem_pieces {p : Char → Bool} {cs w : List Char} (hw : w ∈ pieces p cs) {c : Char}
    (hc : c ∈ w) : c ∈ cs := by
  induction cs generalizing w with
  | nil =>
    simp only [pieces, List.mem_singleton] at hw
    subst hw
    exact hc
  | cons x r ih =>
    rw [pieces] at hw
    split at hw
    · rcases List.mem_cons.mp hw with rfl | hw
      · cases hc
      · exact List.mem_cons_of_mem x (ih hw hc)
    · cases hr : pieces p r with
      | nil => exact absurd hr (pieces_ne_nil p r)
      | cons v vs =>
        rw [hr] at hw ih
        rcases List.mem_cons.mp hw with rfl | hw
        · rcases List.mem_cons.mp hc with rfl | hc
          · exact List.mem_cons_self
          · exact List.mem_cons_of_mem x (ih List.mem_cons_self hc)
        · exact List.mem_cons_of_mem x (ih (List.mem_cons_of_mem v hw) hc)

theorem Over.splitOn {s : String} (h : Over P s) (sep : Char) :
    ∀ t ∈ Text.splitOn sep s, Over P t := by
  intro t ht c hc
  obtain ⟨w, hw, rfl⟩ := List.mem_map.mp ht
  rw [String.toList_ofList] at hc
  exact h c (mem_of_mem_pieces hw hc)

end

end Text

open Text

section
variable {P : Char → Prop} (hP : ∀ c, Printable c → P c)

namespace ParameterKind

theorem printable_separator {k : ParameterKind} {sep : Char} (h : sep ∈ k.separator?) :
    Printable sep := by
  cases k with
  | name | entrypoint => cases h
  | volume | env | port =>
    cases h
    exact (printable_iff_isInsertable _).mpr rfl

theorem over_split? (k : ParameterKind) {v : String} (h : Over P v) :
    ∀ segments ∈ k.split? v, ∀ s ∈ segments, Over P s := by
  intro segments hsegments s hs
  obtain ⟨sep, _, rfl⟩ := Option.map_eq_some_iff.mp hsegments
  rcases List.mem_append.mp hs with hs | hs
  · exact h.splitOn sep s hs
  · obtain rfl := List.eq_of_mem_replicate hs
    intro c hc
    cases hc

include hP in
theorem over_singleton_separator {k : ParameterKind} {sep : Char} (h : sep ∈ k.separator?) :
    Over P (String.singleton sep) := by
  intro c hc
  rw [String.toList_singleton, List.mem_singleton] at hc
  subst hc
  exact hP c (printable_separator h)

include hP in
theorem over_assemble (k : ParameterKind) {segments : Option (List String)}
    (hs : ∀ l ∈ segments, ∀ s ∈ l, Over P s) {b : String} (hb : Over P b) :
    Over P (k.assemble segments b) := by
  cases segments with
  | none => exact hb
  | some l =>
    cases hsep : k.separator? with
    | none => simpa only [assemble, hsep] using hb
    | some sep =>
      simp only [assemble, hsep]
      refine (over_singleton_separator hP hsep).intercalate ?_
      intro s hmem
      rcases List.mem_or_eq_of_mem_set hmem with hmem | rfl
      · exact hs l rfl s hmem
      · exact hb

end ParameterKind

/-- What holds of the characters of the default holds of those of the value shown. -/
def Parameter.Inherits (P : Char → Prop) (p : Parameter) : Prop :=
  Over P p.default → Over P p.effective

include hP in
theorem Parameter.Inherits.put {p : Parameter} (h : p.Inherits P) {b : String} (hb : Over P b) :
    (p.put b).Inherits P := by
  intro hd
  have hsegments := p.kind.over_split? (h hd)
  have hvalue := p.kind.over_assemble hP hsegments hb
  rw [put_effective]
  dsimp only [Parameter.segments?]
  split
  · exact hd
  · exact hvalue

namespace Editor

include hP in
theorem run_inherits (c : Catalog) (image : String) (messages : List Message) :
    ∀ p ∈ ((new c image).run messages).parameters, p.Inherits P := by
  refine run_forall_parameters_of_printable ?_ (new_consistent c image) ?_ messages
  · intro p b hb hp
    exact hp.put hP fun c hc => hP c (hb c hc)
  · intro p hp hd
    obtain ⟨q, _, rfl⟩ := List.mem_map.mp hp
    exact hd

end Editor

end

end LaunchEditor
