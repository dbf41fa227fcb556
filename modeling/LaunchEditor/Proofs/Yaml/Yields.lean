import LaunchEditor.Yaml.Decode

/-! # What decoders give

A property of all that a decoder can give, whatever the document and however many aliases have been
followed. There is a rule for each way to build a decoder.
-/
namespace LaunchEditor.Yaml.Decode

/-- Every result of `x` satisfies `P`. -/
def Yields {α : Type} (x : Decode α) (P : α → Prop) : Prop :=
  ∀ n a m, x.run n = .ok (a, m) → P a

/-- Where a decoder fails nothing else is tried: only the report changes. -/
theorem run_located_eq_ok {α : Type} {x : Decode α} {path : Path} {place : Place} {n : Nat}
    {r : α × Nat} : (located path place x).run n = .ok r ↔ x.run n = .ok r := by
  unfold located
  change tryCatch (x.run n) _ = _ ↔ _
  cases x.run n with
  | ok s => rfl
  | error m =>
    change StateT.run _ n = _ ↔ _
    split <;> exact iff_of_false (fun h => nomatch h) (fun h => nomatch h)

namespace Yields
variable {α β σ ε : Type} {P : α → Prop} {Q : β → Prop}

theorem pure {a : α} (h : P a) : Yields (pure a : Decode α) P := by
  rintro n _ m ⟨⟩
  exact h

theorem refuse (problem : Problem) : Yields (Decode.refuse problem : Decode α) P := by
  rintro n a m ⟨⟩

theorem bind {x : Decode α} {f : α → Decode β} (hx : Yields x P) (hf : ∀ a, P a → Yields (f a) Q) :
    Yields (x >>= f) Q := by
  intro n b m h
  rw [StateT.run_bind] at h
  cases hr : x.run n with
  | error e =>
    rw [hr] at h
    cases h
  | ok r =>
    rw [hr] at h
    exact hf r.1 (hx n r.1 r.2 hr) r.2 b m h

/-- What comes in between does not matter if the rest gives `Q` for whatever it gives. -/
theorem bind_of_forall {f : α → Decode β} (hf : ∀ a, Yields (f a) Q) (x : Decode α) :
    Yields (x >>= f) Q :=
  bind (P := fun _ => True) (fun _ _ _ _ => trivial) fun a _ => hf a

theorem map {x : Decode α} {f : α → β} (hx : Yields x fun a => Q (f a)) : Yields (f <$> x) Q := by
  rw [map_eq_pure_bind]
  exact hx.bind fun a ha => .pure ha

theorem located {x : Decode α} (hx : Yields x P) (path : Path) (place : Place) :
    Yields (Decode.located path place x) P :=
  fun n a m h => hx n a m (run_located_eq_ok.mp h)

theorem foldlM {f : σ → ε → Decode σ} {I : σ → Prop} (hf : ∀ s e, I s → Yields (f s e) I)
    (es : List ε) {s : σ} (hs : I s) : Yields (es.foldlM f s) I := by
  induction es generalizing s with
  | nil => exact .pure hs
  | cons e es ih =>
    rw [List.foldlM_cons]
    exact (hf s e hs).bind fun t ht => ih ht

theorem mapM {f : ε → Decode α} (hf : ∀ e, Yields (f e) P) (es : List ε) :
    Yields (es.mapM f) fun as => ∀ a ∈ as, P a := by
  induction es with
  | nil => exact .pure (by simp)
  | cons e es ih =>
    rw [List.mapM_cons]
    refine (hf e).bind fun a ha => ih.bind fun as has => .pure ?_
    exact List.forall_mem_cons.mpr ⟨ha, has⟩

theorem once {x : Decode α} (hx : Yields x P) (name : String) (old : Option α) :
    Yields (Decode.once name old x) fun o => ∀ a ∈ o, P a := by
  unfold Decode.once
  split
  · exact .refuse _
  · refine map ?_
    intro n a m h b hb
    cases hb
    exact hx n a m h

theorem items {item : Path → Node → Decode α} (hitem : ∀ path n, Yields (item path n) P)
    (d : Document) (path : Path) (n : Node) :
    Yields (Decode.items d path item n) fun as => ∀ a ∈ as, P a := by
  refine bind_of_forall (fun n => located ?_ path _) _
  split
  · exact mapM (fun e => hitem _ _) _
  · split
    · exact .pure (by simp)
    · exact .refuse _

/-- Every entry of a mapping has to keep what the result is concluded from. -/
theorem entries {I : σ → Prop} {start : σ} {entry : σ → Node × Node → Decode σ}
    {finish : σ → Decode α} (hstart : I start) (hentry : ∀ s e, I s → Yields (entry s e) I)
    (hfinish : ∀ s, I s → Yields (finish s) P) (d : Document) (path : Path) (expected : String)
    (n : Node) : Yields (Decode.entries d path expected start entry finish n) P := by
  refine bind_of_forall (fun n => located ?_ path _) _
  split
  · exact (foldlM hentry _ hstart).bind hfinish
  · split
    · exact hfinish _ hstart
    · exact .refuse _

end Yields
end LaunchEditor.Yaml.Decode
