import LaunchEditor.Catalog
import LaunchEditor.Proofs.Text.ScoreTable

/-! # The suggested name

The names of a catalog are scored in their order, and one table is handed on from each to the next.
The last of the names with the highest score is suggested, so there is a suggestion just in case one
of the names has a score, which is settled by the names alone. Its height is not: a name that is put
among the others can raise a score behind it, unless it is not similar or all patterns are short.
-/
namespace LaunchEditor.Catalog
open Text

/-- One of the names is found in the other. -/
def Similar (known image : String) : Prop :=
  Within image.toList known.toList ∨ Within known.toList image.toList

instance (known image : String) : Decidable (Similar known image) :=
  inferInstanceAs (Decidable (_ ∨ _))

section
variable (t : ScoreTable) (known image : String)

/-- The second reading is only tried if the first one does not fit. -/
theorem score?_eq : score? t known image =
    if Within image.toList known.toList then similarity? t known.toList image.toList
    else similarity? t image.toList known.toList := by
  by_cases h : Within image.toList known.toList
  · obtain ⟨s, hs⟩ := Option.isSome_iff_exists.mp
      ((similarity?_isSome_iff t known.toList image.toList).mpr h)
    have hpair : similarity? t known.toList image.toList =
        (some s, (similarity? t known.toList image.toList).2) := Prod.ext hs rfl
    rw [if_pos h, score?, hpair]
  · rw [if_neg h, score?, similarity?_of_not_within t h]

theorem score?_isSome_iff : (score? t known image).1.isSome = true ↔ Similar known image := by
  rw [score?_eq, Similar]
  split
  · next h => exact (similarity?_isSome_iff _ _ _).trans (iff_of_true h (.inl h))
  · next h => exact (similarity?_isSome_iff _ _ _).trans (or_iff_right h).symm

variable {known image}

theorem score?_of_not_similar (h : ¬ Similar known image) :
    score? t known image = (none, t) := by
  obtain ⟨himage, hknown⟩ := not_or.mp h
  rw [score?_eq, if_neg himage, similarity?_of_not_within t hknown]

end

/-- The names with their scores, each from the table that the one before hands on. -/
def scores (image : String) : ScoreTable → List String → List (String × Option Int)
  | _, [] => []
  | t, name :: names =>
    (name, (score? t name image).1) :: scores image (score? t name image).2 names

/-- The best of scored names, or `best` if it is better than they are. -/
def pick (best : Option (Int × String)) (l : List (String × Option Int)) : Option (Int × String) :=
  l.foldl (fun best e => better best e.1 e.2) best

theorem foldl_rank (image : String) (names : List String) (best : Option (Int × String))
    (t : ScoreTable) :
    (names.foldl (rank image) (best, t)).1 = pick best (scores image t names) := by
  induction names generalizing best t with
  | nil => rfl
  | cons name names ih => exact ih _ _

theorem closest?_eq (c : Catalog) (image : String) :
    c.closest? image = (pick none (scores image {} c.names)).map (·.2) := by
  rw [closest?, foldl_rank]

theorem map_fst_scores (image : String) (t : ScoreTable) (names : List String) :
    (scores image t names).map (·.1) = names := by
  induction names generalizing t with
  | nil => rfl
  | cons name names ih => rw [scores, List.map_cons, ih]

theorem isSome_of_mem_scores {image : String} {t : ScoreTable} {names : List String}
    {e : String × Option Int} (he : e ∈ scores image t names) :
    e.2.isSome = true ↔ Similar e.1 image := by
  induction names generalizing t with
  | nil => cases he
  | cons name names ih =>
    rcases List.mem_cons.mp he with rfl | he
    · exact score?_isSome_iff t name image
    · exact ih he

theorem better_eq_some_iff {best : Option (Int × String)} {name : String} {r : Option Int}
    {s : Int} {w : String} : better best name r = some (s, w) ↔
      (best = some (s, w) ∧ ∀ x ∈ r, x < s) ∨ (name, r) = (w, some s) ∧ ∀ b ∈ best, b.1 ≤ s := by
  cases r with
  | none => simp [better]
  | some x =>
    cases best with
    | none => simp [better, and_comm]
    | some b =>
      obtain ⟨top, n⟩ := b
      simp only [better, Option.mem_some_iff, forall_eq', Option.some.injEq, Prod.mk.injEq]
      split <;> grind

theorem better_le_iff {best : Option (Int × String)} {name : String} {r : Option Int} {s : Int} :
    (∀ b ∈ better best name r, b.1 ≤ s) ↔ (∀ b ∈ best, b.1 ≤ s) ∧ ∀ x ∈ r, x ≤ s := by
  cases r with
  | none => simp [better]
  | some x =>
    cases best with
    | none => simp [better]
    | some b =>
      simp only [better, Option.mem_some_iff, forall_eq']
      split <;> simp only [Option.mem_some_iff, forall_eq'] <;> omega

theorem better_isSome_iff {best : Option (Int × String)} {name : String} {r : Option Int} :
    (better best name r).isSome = true ↔ best.isSome = true ∨ r.isSome = true := by
  cases r with
  | none => simp [better]
  | some x =>
    cases best with
    | none => simp [better]
    | some b =>
      simp only [better]
      split <;> simp

theorem pick_isSome_iff {best : Option (Int × String)} {l : List (String × Option Int)} :
    (pick best l).isSome = true ↔ best.isSome = true ∨ ∃ e ∈ l, e.2.isSome = true := by
  induction l generalizing best with
  | nil => simp [pick]
  | cons e l ih =>
    have hstep : pick best (e :: l) = pick (better best e.1 e.2) l := rfl
    rw [hstep, ih, better_isSome_iff, List.exists_mem_cons_iff, or_assoc]

/-- The name picked is the last of those with the highest score. -/
theorem pick_eq_some_iff {best : Option (Int × String)} {l : List (String × Option Int)} {s : Int}
    {w : String} : pick best l = some (s, w) ↔
      (best = some (s, w) ∧ ∀ e ∈ l, ∀ x ∈ e.2, x < s) ∨
      ∃ l₁ l₂, l = l₁ ++ (w, some s) :: l₂ ∧ (∀ b ∈ best, b.1 ≤ s) ∧
        (∀ e ∈ l₁, ∀ x ∈ e.2, x ≤ s) ∧ ∀ e ∈ l₂, ∀ x ∈ e.2, x < s := by
  induction l generalizing best with
  | nil => simp [pick]
  | cons e l ih =>
    have hstep : pick best (e :: l) = pick (better best e.1 e.2) l := rfl
    rw [hstep, ih, better_eq_some_iff, better_le_iff]
    constructor
    · rintro (⟨⟨hbest, he⟩ | ⟨he, hbest⟩, hl⟩ | ⟨l₁, l₂, rfl, ⟨hbest, he⟩, h₁, h₂⟩)
      · exact .inl ⟨hbest, List.forall_mem_cons.mpr ⟨he, hl⟩⟩
      · exact .inr ⟨[], l, congrArg (· :: l) he, hbest, by simp, hl⟩
      · exact .inr ⟨e :: l₁, l₂, rfl, hbest, List.forall_mem_cons.mpr ⟨he, h₁⟩, h₂⟩
    · rintro (⟨hbest, hall⟩ | ⟨l₁, l₂, heq, hbest, h₁, h₂⟩)
      · obtain ⟨he, hl⟩ := List.forall_mem_cons.mp hall
        exact .inl ⟨.inl ⟨hbest, he⟩, hl⟩
      · cases l₁ with
        | nil =>
          obtain ⟨rfl, rfl⟩ := List.cons.inj heq
          exact .inl ⟨.inr ⟨rfl, hbest⟩, h₂⟩
        | cons x l₁ =>
          obtain ⟨rfl, rfl⟩ := List.cons.inj heq
          obtain ⟨he, h₁⟩ := List.forall_mem_cons.mp h₁
          exact .inr ⟨l₁, l₂, rfl, ⟨hbest, he⟩, h₁, h₂⟩

theorem mem_of_pick {l : List (String × Option Int)} {s : Int} {w : String}
    (h : pick none l = some (s, w)) : (w, some s) ∈ l := by
  rcases pick_eq_some_iff.mp h with ⟨hnone, _⟩ | ⟨l₁, l₂, rfl, _⟩
  · cases hnone
  · exact List.mem_append_right l₁ List.mem_cons_self

/-- A lower score among the others changes nothing, wherever it stands. -/
theorem pick_insert {best : Option (Int × String)} {l₁ l₂ : List (String × Option Int)} {s : Int}
    {w : String} (h : pick best (l₁ ++ l₂) = some (s, w)) {e : String × Option Int}
    (he : ∀ x ∈ e.2, x < s) : pick best (l₁ ++ e :: l₂) = some (s, w) := by
  have hinsert : pick best (l₁ ++ e :: l₂) = pick (better (pick best l₁) e.1 e.2) l₂ := by
    simp only [pick, List.foldl_append, List.foldl_cons]
  have hsplit : pick best (l₁ ++ l₂) = pick (pick best l₁) l₂ := List.foldl_append
  rw [hsplit, pick_eq_some_iff] at h
  rw [hinsert, pick_eq_some_iff, better_eq_some_iff, better_le_iff]
  rcases h with ⟨hbest, hl⟩ | ⟨m₁, m₂, hl, hbest, h₁, h₂⟩
  · exact .inl ⟨.inl ⟨hbest, he⟩, hl⟩
  · exact .inr ⟨m₁, m₂, hl, ⟨hbest, fun x hx => Int.le_of_lt (he x hx)⟩, h₁, h₂⟩

/-- There is a suggestion if and only if a known name and the image are similar, and what is
suggested is such a name. -/
theorem closest?_isSome_iff (c : Catalog) (image : String) :
    ((c.closest? image).isSome = true ↔ ∃ name ∈ c.names, Similar name image) ∧
      ∀ name ∈ c.closest? image, name ∈ c.names ∧ Similar name image := by
  have hnames := map_fst_scores image {} c.names
  have hmem (e : String × Option Int) (he : e ∈ scores image {} c.names) : e.1 ∈ c.names := by
    rw [← hnames]
    exact List.mem_map_of_mem he
  rw [closest?_eq]
  constructor
  · rw [Option.isSome_map, pick_isSome_iff]
    constructor
    · rintro (hnone | ⟨e, he, hsome⟩)
      · cases hnone
      · exact ⟨e.1, hmem e he, (isSome_of_mem_scores he).mp hsome⟩
    · rintro ⟨name, hname, hsimilar⟩
      rw [← hnames] at hname
      obtain ⟨e, he, rfl⟩ := List.mem_map.mp hname
      exact .inr ⟨e, he, (isSome_of_mem_scores he).mpr hsimilar⟩
  · intro name hname
    obtain ⟨⟨s, w⟩, hpick, rfl⟩ := Option.map_eq_some_iff.mp hname
    have he := mem_of_pick hpick
    exact ⟨hmem _ he, (isSome_of_mem_scores he).mp rfl⟩

/-- The score of a name that is the only one in the catalog. -/
def ownScore (name image : String) : Option Int := (score? {} name image).1

/-- Neither of the names can be found in the other as a pattern of three or more characters. -/
def Brief (known image : String) : Prop := known.length ≤ 2 ∨ image.length ≤ 2

theorem similarity?_congr_of_brief {t t' : ScoreTable} (ht : t.Moderate) (ht' : t'.Moderate)
    {choice pattern : List Char} (h : choice.length ≤ 2 ∨ pattern.length ≤ 2) :
    (similarity? t choice pattern).1 = (similarity? t' choice pattern).1 := by
  by_cases hw : Within pattern choice
  · have hle := hw.length_le
    exact similarity?_congr ht ht' choice (by omega)
  · rw [similarity?_of_not_within t hw, similarity?_of_not_within t' hw]

theorem score?_congr {t t' : ScoreTable} (ht : t.Moderate) (ht' : t'.Moderate)
    {known image : String} (h : Brief known image) :
    (score? t known image).1 = (score? t' known image).1 := by
  rw [score?_eq, score?_eq]
  split
  · exact similarity?_congr_of_brief ht ht' h
  · exact similarity?_congr_of_brief ht ht' h.symm

theorem moderate_score? {t : ScoreTable} (ht : t.Moderate) (known image : String) :
    (score? t known image).2.Moderate := by
  rw [score?_eq]
  split <;> exact moderate_similarity? ht _ _

/-- Short patterns make no difference to each other. -/
theorem scores_eq_map {image : String} {t : ScoreTable} (ht : t.Moderate) {names : List String}
    (h : ∀ name ∈ names, Brief name image) :
    scores image t names = names.map fun name => (name, ownScore name image) := by
  induction names generalizing t with
  | nil => rfl
  | cons name names ih =>
    obtain ⟨hname, hnames⟩ := List.forall_mem_cons.mp h
    have hown : (score? t name image).1 = ownScore name image :=
      score?_congr ht ScoreTable.Moderate.empty hname
    rw [scores, ih (moderate_score? ht name image) hnames, hown, List.map_cons]

theorem closest?_of_brief {c : Catalog} {image : String} (h : ∀ name ∈ c.names, Brief name image) :
    c.closest? image =
      (pick none (c.names.map fun name => (name, ownScore name image))).map (·.2) := by
  rw [closest?_eq, scores_eq_map .empty h]

/-- A name that is not similar is passed over without a trace. -/
theorem rank_of_not_similar {name image : String} (h : ¬ Similar name image)
    (state : Option (Int × String) × ScoreTable) : rank image state name = state := by
  rw [rank, score?_of_not_similar _ h]
  rfl

theorem exists_pick_of_brief {c : Catalog} {image w : String}
    (h : ∀ name ∈ c.names, Brief name image) (hw : c.closest? image = some w) :
    ∃ top, ownScore w image = some top ∧
      pick none (c.names.map fun name => (name, ownScore name image)) = some (top, w) := by
  rw [closest?_of_brief h] at hw
  obtain ⟨⟨top, best⟩, hpick, rfl⟩ := Option.map_eq_some_iff.mp hw
  obtain ⟨_, _, he⟩ := List.mem_map.mp (mem_of_pick hpick)
  obtain ⟨rfl, htop⟩ := Prod.mk.inj he
  exact ⟨top, htop, hpick⟩

section
variable {c : Catalog} {image name w : String} (profile : Profile)
variable {before after : List (String × Profile)}

theorem names_insert : { c with images := before ++ (name, profile) :: after }.names =
    before.map (·.1) ++ name :: after.map (·.1) := by
  simp [names]

theorem closest?_insert_of_not_similar (hc : c.images = before ++ after)
    (h : ¬ Similar name image) :
    { c with images := before ++ (name, profile) :: after }.closest? image = c.closest? image := by
  have hnames : c.names = before.map (·.1) ++ after.map (·.1) := by
    rw [names, hc, List.map_append]
  simp only [closest?, names_insert, hnames, List.foldl_append, List.foldl_cons,
    rank_of_not_similar h]

theorem closest?_insert_of_brief (hc : c.images = before ++ after)
    (hw : c.closest? image = some w) (h : ∀ n ∈ name :: c.names, Brief n image)
    (hlower : ∀ top ∈ ownScore w image, ∀ s ∈ ownScore name image, s < top) :
    { c with images := before ++ (name, profile) :: after }.closest? image = some w := by
  have hnames : c.names = before.map (·.1) ++ after.map (·.1) := by
    rw [names, hc, List.map_append]
  obtain ⟨hname, hrest⟩ := List.forall_mem_cons.mp h
  have hall : ∀ n ∈ { c with images := before ++ (name, profile) :: after }.names,
      Brief n image := by
    intro n hn
    rw [names_insert, List.mem_append, List.mem_cons, or_left_comm, ← List.mem_append,
      ← hnames] at hn
    rcases hn with rfl | hn
    · exact hname
    · exact hrest n hn
  obtain ⟨top, htop, hpick⟩ := exists_pick_of_brief hrest hw
  rw [hnames, List.map_append] at hpick
  have hinsert := pick_insert hpick (e := (name, ownScore name image)) (hlower top htop)
  rw [closest?_of_brief hall, names_insert, List.map_append, List.map_cons, hinsert]
  rfl

/-- The suggestion stays if another name is put among those of the catalog that is not similar to
the image, or less similar than the suggestion. In the second case no longer pattern may be looked
for, as its own score and those behind it could then be higher than they are alone. -/
theorem closest?_insert (hc : c.images = before ++ after) (hw : c.closest? image = some w)
    (h : ownScore name image = none ∨
      (∃ s r, ownScore name image = some s ∧ ownScore w image = some r ∧ s < r) ∧
        ∀ n ∈ name :: c.names, Brief n image) :
    { c with images := before ++ (name, profile) :: after }.closest? image = some w := by
  rcases h with hnone | ⟨⟨s, r, hs, hr, hlt⟩, hbrief⟩
  · have hsimilar : ¬ Similar name image := by
      rw [← score?_isSome_iff {}]
      exact Option.not_isSome_iff_eq_none.mpr hnone
    rw [closest?_insert_of_not_similar profile hc hsimilar, hw]
  · refine closest?_insert_of_brief profile hc hw hbrief ?_
    rw [hr, hs]
    rintro _ ⟨⟩ _ ⟨⟩
    exact hlt

end

/-- A name that is a little less similar is put in the middle. -/
theorem closest?_insert_short :
    let profile : Profile := {}
    let before := [("mariadb", profile)]
    let after := [("db-dump", profile)]
    let c : Catalog := { images := before ++ after }
    c.closest? "db" = some "db-dump" ∧ ownScore "d-bus" "db" = some 50 ∧
      ownScore "db-dump" "db" = some 51 ∧ (∀ n ∈ "d-bus" :: c.names, Brief n "db") ∧
      { c with images := before ++ ("d-bus", profile) :: after }.closest? "db" = some "db-dump" := by
  intro profile before after c
  have hw : c.closest? "db" = some "db-dump" := by decide +kernel
  have hname : ownScore "d-bus" "db" = some 50 := by decide +kernel
  have htop : ownScore "db-dump" "db" = some 51 := by decide +kernel
  have hbrief : ∀ n ∈ "d-bus" :: c.names, Brief n "db" := fun n _ => .inr (by decide)
  exact ⟨hw, hname, htop, hbrief,
    closest?_insert profile rfl hw (.inr ⟨⟨50, 51, hname, htop, by decide⟩, hbrief⟩)⟩

/-- With three characters a less similar name can take over from the suggestion. -/
theorem closest?_insert_long :
    let c : Catalog := { images := [("aa--", {})] }
    c.closest? "aa-" = some "aa--" ∧ ownScore "aa--" "aa-" = some 71 ∧
      ownScore "a-a-" "aa-" = some 70 ∧
      { c with images := [("aa--", {}), ("a-a-", {})] }.closest? "aa-" = some "a-a-" := by
  decide +kernel

end LaunchEditor.Catalog
