import LaunchEditor.Yaml.Decode
import LaunchEditor.Yaml.Document
import Mathlib.Data.List.Forall2

/-! # Values spelled as nodes

Texts are spelled as scalars, lists as sequences and records as mappings from the names of their
fields, wherever the nodes stand in a text and however it is styled. A decoder takes from a node
what the node spells if the decoders for its parts do.
-/
namespace LaunchEditor.Yaml

theorem Document.ofBytes_of_outline {bytes : ByteArray} {events : List Event} {flaw : Option Flaw}
    (h : Event.ofTokens (Token.all (Source.ofBytes bytes)).1 (Token.all (Source.ofBytes bytes)).2 =
      (events, flaw)) : Document.ofBytes bytes = .ofEvents events flaw := by
  unfold Document.ofBytes
  split
  rename_i tokens stop htokens
  rw [htokens] at h
  rw [h]

/-- A scalar without a tag, quoted or not. -/
inductive SpellsText (s : String) : Node → Prop where
  | scalar (place : Place) (plain : Bool) : SpellsText s (.scalar place none plain s)

/-- A sequence without a tag whose items spell those of a list. The empty one may be left out. -/
inductive SpellsList {α : Type} (R : α → Node → Prop) : List α → Node → Prop where
  | sequence (place : Place) {as : List α} {items : List Node} (h : List.Forall₂ R as items) :
      SpellsList R as (.sequence place none items)
  | leftOut (place : Place) : SpellsList R [] (.scalar place none true "")

/-- A mapping without a tag, in the same way. -/
inductive SpellsMap {α : Type} (R : α → Node × Node → Prop) : List α → Node → Prop where
  | mapping (place : Place) {as : List α} {entries : List (Node × Node)}
      (h : List.Forall₂ R as entries) : SpellsMap R as (.mapping place none entries)
  | leftOut (place : Place) : SpellsMap R [] (.scalar place none true "")

/-- A mapping of named fields in any order. Each is given once, or not at all if it can be spared. -/
def SpellsRecord {φ : Type} (name : φ → String) (value : φ → Node → Prop) (spare : φ → Prop)
    (n : Node) : Prop :=
  ∃ fields : List φ, fields.Nodup ∧ (∀ f, f ∉ fields → spare f) ∧
    SpellsMap (fun f e => SpellsText (name f) e.1 ∧ value f e.2) fields n

section
variable {α φ : Type}

theorem exists_spellsText (s : String) : ∃ n, SpellsText s n := ⟨_, .scalar {} false⟩

theorem exists_forall₂ {β : Type} {R : α → β → Prop} {as : List α} (h : ∀ a ∈ as, ∃ b, R a b) :
    ∃ bs, List.Forall₂ R as bs := by
  induction as with
  | nil => exact ⟨[], .nil⟩
  | cons a as ih =>
    obtain ⟨ha, has⟩ := List.forall_mem_cons.mp h
    obtain ⟨b, hb⟩ := ha
    obtain ⟨bs, hbs⟩ := ih has
    exact ⟨b :: bs, .cons hb hbs⟩

theorem exists_spellsList {R : α → Node → Prop} {as : List α} (h : ∀ a ∈ as, ∃ n, R a n) :
    ∃ n, SpellsList R as n := by
  obtain ⟨items, hitems⟩ := exists_forall₂ h
  exact ⟨_, .sequence {} hitems⟩

theorem exists_spellsMap {R : α → Node × Node → Prop} {as : List α} (h : ∀ a ∈ as, ∃ e, R a e) :
    ∃ n, SpellsMap R as n := by
  obtain ⟨entries, hentries⟩ := exists_forall₂ h
  exact ⟨_, .mapping {} hentries⟩

/-- What can be spared need not be left out. -/
theorem exists_spellsRecord {name : φ → String} {value : φ → Node → Prop} {spare : φ → Prop}
    {fields : List φ} (hnodup : fields.Nodup) (hall : ∀ f, f ∈ fields)
    (hvalue : ∀ f, ∃ n, value f n) : ∃ n, SpellsRecord name value spare n := by
  have hentry : ∀ f ∈ fields, ∃ e : Node × Node, SpellsText (name f) e.1 ∧ value f e.2 := by
    intro f _
    obtain ⟨key, hkey⟩ := exists_spellsText (name f)
    obtain ⟨v, hv⟩ := hvalue f
    exact ⟨(key, v), hkey, hv⟩
  obtain ⟨n, hn⟩ := exists_spellsMap hentry
  exact ⟨n, fields, hnodup, fun f hf => absurd (hall f) hf, hn⟩

end

namespace Decode
variable {α σ φ : Type} (d : Document) (path : Path)

theorem text_of_spells (expected : String) {s : String} {n : Node} (h : SpellsText s n) :
    text d path expected n = pure s := by
  cases h
  rfl

theorem variant_of_spells {variants : Variants α} {s : String} {v : α} {n : Node}
    (h : SpellsText s n) (hv : variants.ofWord? s = some v) :
    variant d path variants n = pure v := by
  cases h
  have hpick : pick variants s = pure v := by rw [pick, hv]
  change located path _ (pick variants s) = pure v
  rw [hpick]
  rfl

theorem once_none (name : String) {read : Decode α} {a : α} (h : read = pure a) :
    once name none read = pure (some a) := by
  rw [h]
  rfl

theorem mapM_zipIdx_of_spells {R : α → Node → Prop} {item : Path → Node → Decode α} {as : List α}
    {ns : List Node} (h : List.Forall₂ R as ns)
    (hitem : ∀ path, ∀ a ∈ as, ∀ n, R a n → item path n = pure a) (k : Nat) :
    (ns.zipIdx k).mapM (fun e => item (.index e.2 :: path) e.1) = pure as := by
  induction h generalizing k with
  | nil => rfl
  | @cons a n as ns ha _ ih =>
    have hhead := hitem (.index k :: path) a List.mem_cons_self n ha
    have htail := ih (fun path b hb => hitem path b (List.mem_cons_of_mem a hb)) (k + 1)
    rw [List.zipIdx_cons, List.mapM_cons, hhead, htail, pure_bind, pure_bind]

theorem items_of_spells {R : α → Node → Prop} {item : Path → Node → Decode α} {as : List α}
    {n : Node} (h : SpellsList R as n)
    (hitem : ∀ path, ∀ a ∈ as, ∀ n, R a n → item path n = pure a) :
    items d path item n = pure as := by
  cases h with
  | sequence place h =>
    change located path place (List.mapM _ (List.zipIdx _)) = pure as
    rw [mapM_zipIdx_of_spells path h hitem]
    rfl
  | leftOut place => rfl

/-- Reading entries one after the other goes through the values of `state` if each entry takes it
from what has been read to that with the entry's own part. -/
theorem foldlM_of_spells {R : α → Node × Node → Prop} {entry : σ → Node × Node → Decode σ}
    {state : List α → σ} {as : List α} {es : List (Node × Node)} (h : List.Forall₂ R as es)
    (done : List α) (hentry : ∀ before a after e, done ++ as = before ++ a :: after → R a e →
      entry (state before) e = pure (state (before ++ [a]))) :
    es.foldlM entry (state done) = pure (state (done ++ as)) := by
  induction h generalizing done with
  | nil => rw [List.append_nil]; rfl
  | @cons a e as es ha _ ih =>
    have hassoc : done ++ a :: as = done ++ [a] ++ as := by simp
    rw [List.foldlM_cons, hentry done a as e rfl ha, pure_bind, hassoc]
    apply ih
    rwa [← hassoc]

theorem entries_of_spells {R : α → Node × Node → Prop} {entry : σ → Node × Node → Decode σ}
    {finish : σ → Decode φ} {state : List α → σ} {as : List α} {b : φ} (expected : String)
    (hentry : ∀ before a after e, as = before ++ a :: after → R a e →
      entry (state before) e = pure (state (before ++ [a])))
    (hfinish : finish (state as) = pure b) {n : Node} (h : SpellsMap R as n) :
    entries d path expected (state []) entry finish n = pure b := by
  cases h with
  | @mapping place _ es h =>
    have hread : es.foldlM entry (state []) = pure (state as) := foldlM_of_spells h [] hentry
    change located path place (es.foldlM entry (state []) >>= finish) = pure b
    rw [hread, pure_bind, hfinish]
    rfl
  | leftOut place =>
    change located path place (finish (state [])) = pure b
    rw [hfinish]
    rfl

/-- Which fields have been read decides what has been read of a record. -/
theorem entries_of_spellsRecord {name : φ → String} {value : φ → Node → Prop} {spare : φ → Prop}
    {entry : σ → Node × Node → Decode σ} {finish : σ → Decode α} {state : List φ → σ} {a : α}
    (expected : String)
    (hentry : ∀ before f e, f ∉ before → SpellsText (name f) e.1 → value f e.2 →
      entry (state before) e = pure (state (before ++ [f])))
    (hfinish : ∀ fields, (∀ f, f ∉ fields → spare f) → finish (state fields) = pure a) {n : Node}
    (h : SpellsRecord name value spare n) :
    entries d path expected (state []) entry finish n = pure a := by
  obtain ⟨fields, hnodup, hspare, hmap⟩ := h
  refine entries_of_spells d path expected ?_ (hfinish fields hspare) hmap
  rintro before f after e rfl ⟨hkey, hvalue⟩
  have hnew : f ∉ before := fun hf =>
    (List.nodup_append.mp hnodup).2.2 f hf f List.mem_cons_self rfl
  exact hentry before f e hnew hkey hvalue

/-- The value of a field, once it has been read. -/
def given [DecidableEq φ] (fields : List φ) (f : φ) (a : α) : Option α :=
  if f ∈ fields then some a else none

section
variable [DecidableEq φ] {fields : List φ} {f g : φ}

theorem given_of_notMem (h : f ∉ fields) (a : α) : given fields f a = none := if_neg h

theorem given_append_self (a : α) : given (fields ++ [f]) f a = some a := if_pos (by simp)

theorem given_append_of_ne (h : f ≠ g) (a : α) :
    given (fields ++ [g]) f a = given fields f a := by
  simp [given, h]

end

/-- A field that is left out where its value is the one it then has makes no difference. -/
theorem getD_given [DecidableEq φ] {fields : List φ} {f : φ} {a b : α}
    (h : f ∉ fields → a = b) : (given fields f a).getD b = a := by
  unfold given
  split
  · rfl
  · exact (h ‹_›).symm

end Decode
end LaunchEditor.Yaml
