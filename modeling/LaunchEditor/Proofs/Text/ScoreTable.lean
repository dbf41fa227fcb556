import LaunchEditor.Proofs.Text.Within

/-! # What a comparison finds in its table

A comparison prepares the upper row of the table and one cell of the lower row. In the rest of the
lower row it finds what earlier comparisons left there, and of that it reads nothing but the runs,
and these for the third character of a pattern at the earliest. So shorter patterns score the same
with every table that a comparison can leave.
-/
namespace LaunchEditor.Text

/-- What the upper row is filled with before a comparison. -/
def Cell.blank : Cell := ⟨-32768, -1, 0⟩

/-- What the neighbours of a cell are made from, the run apart. -/
def Cell.scores (c : Cell) : Int × Int := (c.hit, c.gap)

theorem startBonus_range (a b : CharClass) : 0 ≤ startBonus a b ∧ startBonus a b ≤ 8 := by
  cases a <;> cases b <;> decide

theorem withBonus_range {choice : List Char} {e : Char × Int} (he : e ∈ withBonus choice) :
    0 ≤ e.2 ∧ e.2 ≤ 16 := by
  have hzip (e : Char × Int) (h : e ∈ choice.zip (List.zipWith startBonus
      (.empty :: choice.map CharClass.of) (choice.map CharClass.of))) : 0 ≤ e.2 ∧ e.2 ≤ 8 := by
    obtain ⟨_, hbonus⟩ := List.of_mem_zip h
    obtain ⟨i, hi, hget⟩ := List.mem_iff_getElem.mp hbonus
    rw [List.getElem_zipWith] at hget
    rw [← hget]
    exact startBonus_range _ _
  unfold withBonus at he
  dsimp only at he
  split at he
  · cases he
  · next c b rest hlist =>
    rw [hlist] at hzip
    rcases List.mem_cons.mp he with rfl | he
    · have hfirst := hzip (c, b) List.mem_cons_self
      dsimp only at hfirst ⊢
      omega
    · have hrest := hzip e (List.mem_cons_of_mem _ he)
      omega

theorem length_withBonus (choice : List Char) : (withBonus choice).length = choice.length := by
  have hlen : (choice.zip (List.zipWith startBonus (.empty :: choice.map CharClass.of)
      (choice.map CharClass.of))).length = choice.length := by
    simp
  unfold withBonus
  dsimp only
  split
  · next hnil => simpa [hnil] using hlen
  · next hcons => simpa [hcons] using hlen

theorem drop_zipIdx {α : Type} (l : List α) (n k : Nat) :
    (l.zipIdx k).drop n = (l.drop n).zipIdx (k + n) := by
  apply List.ext_getElem?
  intro i
  simp only [List.getElem?_drop, List.getElem?_zipIdx, Nat.add_assoc]

namespace ScoreTable

@[simp] theorem size_put (t : ScoreTable) (i : Nat) (c : Cell) :
    (t.put i c).cells.size = t.cells.size := Array.size_setIfInBounds

theorem cell_put (t : ScoreTable) (i j : Nat) (c : Cell) :
    (t.put i c).cell j = if j = i ∧ i < t.cells.size then c else t.cell j := by
  by_cases h : j = i
  · subst h
    by_cases hj : j < t.cells.size <;> simp [cell, put, hj]
  · have hij : ¬ i = j := fun hij => h hij.symm
    simp [cell, put, h, hij]

@[simp] theorem size_resize (t : ScoreTable) (n : Nat) : (t.resize n).cells.size = n := by
  simp only [resize, Array.size_append, Array.take_eq_extract, Array.size_extract,
    Array.size_replicate]
  omega

theorem cell_resize (t : ScoreTable) (n i : Nat) :
    (t.resize n).cell i = if i < n then t.cell i else .fresh := by
  simp only [cell, resize, Array.getD_eq_getD_getElem?, Array.getElem?_append,
    Array.take_eq_extract, Array.size_extract, Array.getElem?_extract, Array.getElem?_replicate]
  grind

/-- The same cell in each of the first places. -/
theorem cell_foldl_put (t : ScoreTable) (n : Nat) (c : Cell) :
    let t' := (List.range n).foldl (fun t i => t.put i c) t
    t'.cells.size = t.cells.size ∧
      ∀ j, t'.cell j = if j < n ∧ j < t.cells.size then c else t.cell j := by
  induction n with
  | zero => simp
  | succ n ih =>
    obtain ⟨hsize, hcell⟩ := ih
    simp only [List.range_succ, List.foldl_append, List.foldl_cons, List.foldl_nil] at hsize ⊢
    refine ⟨(size_put _ _ _).trans hsize, fun j => ?_⟩
    rw [cell_put, hsize, hcell]
    grind

theorem cell_prepare (t : ScoreTable) {cols first : Nat} (h : first < cols) :
    (t.prepare cols first).cells.size = 2 * cols ∧
      ∀ j, (t.prepare cols first).cell j =
        if j < cols then .blank
        else if j = cols + first then .fresh
        else if j < 2 * cols then t.cell j else .fresh := by
  obtain ⟨hsize, hcell⟩ :=
    ((t.resize (2 * cols)).put (cols + first) .fresh).cell_foldl_put cols .blank
  rw [size_put, size_resize] at hsize hcell
  refine ⟨hsize, fun j => (hcell j).trans ?_⟩
  rw [cell_put, size_resize, cell_resize]
  grind

section
variable (same : Char → Char → Bool) (cols row above : Nat) (p : Char) (t : ScoreTable)

@[simp] theorem size_enter (e : (Char × Int) × Nat) :
    (enter same cols row above p t e).cells.size = t.cells.size := by
  unfold enter
  dsimp only
  split <;> simp

/-- Entering a character writes its own cell, and the run of the one before it if it is a hit. -/
theorem cell_enter (c : Char) (bonus : Int) {col : Nat} (hcol : 0 < col)
    (hsize : row * cols + col < t.cells.size) (j : Nat) :
    let here := row * cols + col
    let last := t.cell (here - 1)
    let prev := t.cell (above * cols + col - 1)
    let run := max (max last.run bonus) 4
    let gap := max (last.hit - 4) (last.gap - 1)
    (enter same cols row above p t ((c, bonus), col)).cell j =
      if j = here then
        if same p c then
          ⟨(if p = c then 16 else 14) + max (prev.hit + run) (prev.gap + bonus), gap,
            (t.cell here).run⟩
        else ⟨-32768, gap, 0⟩
      else if j = here - 1 ∧ same p c = true then { last with run } else t.cell j := by
  intro here last prev run gap
  have hne : here ≠ here - 1 := by omega
  unfold enter
  dsimp only
  split
  · next hsame =>
    rw [cell_put, size_put, cell_put, cell_put]
    grind
  · next hsame =>
    rw [cell_put]
    grind

/-- Of another cell than its own a character changes nothing but the run. -/
theorem scores_enter_of_ne (c : Char) (bonus : Int) {col : Nat} (hcol : 0 < col)
    (hsize : row * cols + col < t.cells.size) {j : Nat} (hj : j ≠ row * cols + col) :
    ((enter same cols row above p t ((c, bonus), col)).cell j).scores = (t.cell j).scores := by
  rw [cell_enter same cols row above p t c bonus hcol hsize, if_neg hj]
  split
  · next h => rw [h.1]; rfl
  · rfl

theorem cell_enter_of_lt (c : Char) (bonus : Int) {col : Nat} (hcol : 0 < col)
    (hsize : row * cols + col < t.cells.size) {j : Nat} (hj : j + 1 < row * cols + col) :
    (enter same cols row above p t ((c, bonus), col)).cell j = t.cell j := by
  have hne : j ≠ row * cols + col := by omega
  have hbefore : ¬ (j = row * cols + col - 1 ∧ same p c = true) := fun h => by omega
  rw [cell_enter same cols row above p t c bonus hcol hsize, if_neg hne, if_neg hbefore]

end

/-- No run is worth more than the start of a text. -/
def Moderate (t : ScoreTable) : Prop := ∀ i, (t.cell i).run ≤ 16

namespace Moderate
variable {t : ScoreTable}

theorem empty : Moderate {} := fun i => by simp [cell, Cell.fresh]

theorem put (h : t.Moderate) (i : Nat) {c : Cell} (hc : c.run ≤ 16) : (t.put i c).Moderate := by
  intro j
  rw [cell_put]
  split
  · exact hc
  · exact h j

theorem prepare (h : t.Moderate) {cols first : Nat} (hfirst : first < cols) :
    (t.prepare cols first).Moderate := by
  have hblank : Cell.blank.run ≤ 16 := by decide
  have hfresh : Cell.fresh.run ≤ 16 := by decide
  intro j
  rw [(t.cell_prepare hfirst).2]
  split_ifs
  · exact hblank
  · exact hfresh
  · exact h j
  · exact hfresh

theorem enter (h : t.Moderate) (same : Char → Char → Bool) (cols row above : Nat) (p : Char)
    {e : (Char × Int) × Nat} (he : e.1.2 ≤ 16) :
    (t.enter same cols row above p e).Moderate := by
  have hlast := h (row * cols + e.2 - 1)
  have hrun : max (max (t.cell (row * cols + e.2 - 1)).run e.1.2) 4 ≤ 16 := by omega
  unfold ScoreTable.enter
  dsimp only
  split
  · have hput : (t.put (row * cols + e.2 - 1) { t.cell (row * cols + e.2 - 1) with
        run := max (max (t.cell (row * cols + e.2 - 1)).run e.1.2) 4 }).Moderate := h.put _ hrun
    exact hput.put _ (hput _)
  · exact h.put _ (by simp)

theorem enterRow (h : t.Moderate) (same : Char → Char → Bool) {choice : List (Char × Int)}
    (hchoice : ∀ e ∈ choice, e.2 ≤ 16) (e : (Char × Nat) × Nat) :
    (t.enterRow same choice e).Moderate := by
  unfold ScoreTable.enterRow
  refine List.foldlRecOn _ _ h fun t ht entry hentry => ht.enter _ _ _ _ _ (hchoice _ ?_)
  exact List.fst_mem_of_mem_zipIdx (List.mem_of_mem_drop hentry)

end Moderate

/-- Two tables that agree on all that can still be read: the cells of the upper row, and hits and
gaps in the lower row from column `first` up to column `k`. -/
structure Alike (cols first k : Nat) (t t' : ScoreTable) : Prop where
  size : t.cells.size = 2 * cols
  size' : t'.cells.size = 2 * cols
  upper : ∀ i < cols, t.cell i = t'.cell i
  lower : ∀ i, first ≤ i → i ≤ k → (t.cell (cols + i)).scores = (t'.cell (cols + i)).scores

/-- In the first row of a comparison no hit stands above another, so runs have no say in scores. -/
theorem scores_enter_lower {t : ScoreTable} (ht : t.Moderate) {cols k : Nat}
    (hsize : t.cells.size = 2 * cols) (hk : k + 1 < cols) (hblank : t.cell k = .blank)
    (same : Char → Char → Bool) (p c : Char) {bonus : Int} (hb : 0 ≤ bonus ∧ bonus ≤ 16) :
    ((t.enter same cols 1 0 p ((c, bonus), k + 1)).cell (cols + (k + 1))).scores =
      (if same p c then (if p = c then 16 else 14) + (bonus - 1) else -32768,
        max ((t.cell (cols + k)).hit - 4) ((t.cell (cols + k)).gap - 1)) := by
  have hcell := cell_enter same cols 1 0 p t c bonus (Nat.succ_pos k) (by omega) (cols + (k + 1))
  have hlast : 1 * cols + (k + 1) - 1 = cols + k := by omega
  have hprev : 0 * cols + (k + 1) - 1 = k := by omega
  have hhere : cols + (k + 1) = 1 * cols + (k + 1) := by omega
  have hrun := ht (cols + k)
  simp only [Nat.succ_eq_add_one, hlast, hprev, hblank, if_pos hhere] at hcell
  rw [hcell]
  split
  · have hmax : max (Cell.blank.hit + max (max (t.cell (cols + k)).run bonus) 4)
        (Cell.blank.gap + bonus) = bonus - 1 := by
      simp only [Cell.blank]
      omega
    rw [Cell.scores, hmax]
  · rfl

namespace Alike
variable {cols first k : Nat} {t t' : ScoreTable}

theorem lt_size (h : Alike cols first k t t') {row col : Nat} (hrow : row ≤ 1) (hcol : col < cols) :
    row * cols + col < t.cells.size ∧ row * cols + col < t'.cells.size := by
  have hle : row * cols ≤ 1 * cols := Nat.mul_le_mul_right cols hrow
  rw [h.size, h.size']
  omega

theorem prepare (t t' : ScoreTable) (h : first < cols) :
    Alike cols first first (t.prepare cols first) (t'.prepare cols first) := by
  obtain ⟨hsize, hcell⟩ := t.cell_prepare h
  obtain ⟨hsize', hcell'⟩ := t'.cell_prepare h
  refine ⟨hsize, hsize', fun i hi => ?_, fun i hi hi' => ?_⟩
  · rw [hcell, hcell', if_pos hi, if_pos hi]
  · obtain rfl : first = i := by omega
    have hlower : ¬ cols + first < cols := by omega
    rw [hcell, hcell', if_neg hlower, if_neg hlower, if_pos rfl, if_pos rfl]

theorem enter_lower (h : Alike cols first k t t') (hblank : ∀ i < cols, t.cell i = .blank)
    (ht : t.Moderate) (ht' : t'.Moderate) (hk : first ≤ k) (hcol : k + 1 < cols)
    (same : Char → Char → Bool) (p c : Char) {bonus : Int} (hb : 0 ≤ bonus ∧ bonus ≤ 16) :
    Alike cols first (k + 1) (t.enter same cols 1 0 p ((c, bonus), k + 1))
      (t'.enter same cols 1 0 p ((c, bonus), k + 1)) := by
  obtain ⟨hsize, hsize'⟩ := h.lt_size (Nat.le_refl 1) hcol
  refine ⟨by simp [h.size], by simp [h.size'], fun i hi => ?_, fun i hi hi' => ?_⟩
  · have hlt : i + 1 < 1 * cols + (k + 1) := by omega
    rw [cell_enter_of_lt _ _ _ _ _ _ _ _ k.succ_pos hsize hlt,
      cell_enter_of_lt _ _ _ _ _ _ _ _ k.succ_pos hsize' hlt, h.upper i hi]
  · rcases Nat.lt_or_eq_of_le hi' with hlt | rfl
    · have hne : cols + i ≠ 1 * cols + (k + 1) := by omega
      rw [scores_enter_of_ne _ _ _ _ _ _ _ _ k.succ_pos hsize hne,
        scores_enter_of_ne _ _ _ _ _ _ _ _ k.succ_pos hsize' hne]
      exact h.lower i hi (Nat.le_of_lt_succ hlt)
    · obtain ⟨hhit, hgap⟩ := Prod.mk.inj (h.lower k hk (Nat.le_refl k))
      have hblank' : t'.cell k = .blank := by rw [← h.upper k (by omega), hblank k (by omega)]
      rw [scores_enter_lower ht h.size hcol (hblank k (by omega)) same p c hb,
        scores_enter_lower ht' h.size' hcol hblank' same p c hb, hhit, hgap]

/-- So the first row leaves nothing of what its cells were before. -/
theorem foldl_enter_lower {l : List (Char × Int)} (hl : ∀ e ∈ l, 0 ≤ e.2 ∧ e.2 ≤ 16)
    (h : Alike cols first k t t') (hblank : ∀ i < cols, t.cell i = .blank)
    (ht : t.Moderate) (ht' : t'.Moderate) (hk : first ≤ k) (hlen : k + l.length < cols)
    (same : Char → Char → Bool) (p : Char) :
    Alike cols first (k + l.length) ((l.zipIdx (k + 1)).foldl (enter same cols 1 0 p) t)
      ((l.zipIdx (k + 1)).foldl (enter same cols 1 0 p) t') := by
  induction l generalizing k t t' with
  | nil => exact h
  | cons e l ih =>
    obtain ⟨c, bonus⟩ := e
    obtain ⟨he, hl⟩ := List.forall_mem_cons.mp hl
    rw [List.length_cons] at hlen
    obtain ⟨hsize, _⟩ := h.lt_size (Nat.le_refl 1) (by omega : k + 1 < cols)
    have hstep := h.enter_lower hblank ht ht' hk (by omega) same p c he
    have hkept : ∀ i < cols, (t.enter same cols 1 0 p ((c, bonus), k + 1)).cell i = .blank := by
      intro i hi
      rw [cell_enter_of_lt _ _ _ _ _ _ _ _ k.succ_pos hsize (by omega), hblank i hi]
    have hrest := ih hl hstep hkept (ht.enter _ _ _ _ _ he.2) (ht'.enter _ _ _ _ _ he.2)
      (by omega) (by omega)
    rw [List.length_cons, Nat.add_comm l.length 1, ← Nat.add_assoc]
    exact hrest

/-- The second row reads no run but those of its own. -/
theorem enter_upper (h : Alike cols first k t t') {col : Nat} (hfirst : first < col)
    (hk : col ≤ k + 1) (hcol : col < cols) (same : Char → Char → Bool) (p : Char)
    (e : Char × Int) :
    Alike cols first k (t.enter same cols 0 1 p (e, col)) (t'.enter same cols 0 1 p (e, col)) := by
  obtain ⟨c, bonus⟩ := e
  obtain ⟨hsize, hsize'⟩ := h.lt_size (Nat.zero_le 1) hcol
  refine ⟨by simp [h.size], by simp [h.size'], fun i hi => ?_, fun i hi hi' => ?_⟩
  · have hprev : 1 * cols + col - 1 = cols + (col - 1) := by omega
    obtain ⟨hhit, hgap⟩ := Prod.mk.inj (h.lower (col - 1) (by omega) (by omega))
    rw [cell_enter _ _ _ _ _ _ _ _ (by omega) hsize, cell_enter _ _ _ _ _ _ _ _ (by omega) hsize']
    simp only [Nat.zero_mul, Nat.zero_add, hprev, hhit, hgap, h.upper i hi, h.upper col hcol,
      h.upper (col - 1) (by omega)]
  · have hne : cols + i ≠ 0 * cols + col := by omega
    rw [scores_enter_of_ne _ _ _ _ _ _ _ _ (by omega) hsize hne,
      scores_enter_of_ne _ _ _ _ _ _ _ _ (by omega) hsize' hne]
    exact h.lower i hi hi'

section
variable {choice : List (Char × Int)} (same : Char → Char → Bool) (p : Char)

theorem enterRow_lower (hchoice : ∀ e ∈ choice, 0 ≤ e.2 ∧ e.2 ≤ 16) (h : first < choice.length)
    (ht : t.Moderate) (ht' : t'.Moderate) :
    Alike (choice.length + 1) first choice.length
      ((t.prepare (choice.length + 1) first).enterRow same choice ((p, first), 0))
      ((t'.prepare (choice.length + 1) first).enterRow same choice ((p, first), 0)) := by
  have hfirst : first < choice.length + 1 := by omega
  have hrest : ∀ e ∈ choice.drop first, 0 ≤ e.2 ∧ e.2 ≤ 16 := fun e he =>
    hchoice e (List.mem_of_mem_drop he)
  have hlen : first + (choice.drop first).length = choice.length := by
    rw [List.length_drop]
    omega
  have hblank : ∀ i < choice.length + 1,
      (t.prepare (choice.length + 1) first).cell i = .blank := by
    intro i hi
    rw [(t.cell_prepare hfirst).2, if_pos hi]
  have hrow := (Alike.prepare t t' hfirst).foldl_enter_lower hrest hblank (ht.prepare hfirst)
    (ht'.prepare hfirst) (Nat.le_refl first) (by omega) same p
  rw [hlen] at hrow
  simpa only [enterRow, drop_zipIdx, Nat.add_comm 1 first] using hrow

theorem enterRow_upper (h : Alike (choice.length + 1) first choice.length t t') {n : Nat}
    (hn : first < n) :
    Alike (choice.length + 1) first choice.length (t.enterRow same choice ((p, n), 1))
      (t'.enterRow same choice ((p, n), 1)) := by
  refine List.foldl_rel h fun e he u u' hu => ?_
  have hlt := List.snd_lt_of_mem_zipIdx (List.mem_of_mem_drop he)
  rw [drop_zipIdx] at he
  have hle := List.le_snd_of_mem_zipIdx he
  exact hu.enter_upper (by omega) (by omega) hlt same p e.1

end

theorem best_upper (h : Alike cols first k t t') (n : Nat) : t.best cols 0 n = t'.best cols 0 n := by
  refine List.foldl_ext _ _ _ fun m col hcol => ?_
  have hlt : col < cols := List.mem_range.mp (List.mem_of_mem_drop hcol)
  rw [Nat.zero_mul, Nat.zero_add, h.upper col hlt]

theorem best_lower (h : Alike cols first k t t') (hk : cols ≤ k + 1) :
    t.best cols 1 first = t'.best cols 1 first := by
  refine List.foldl_ext _ _ _ fun m col hcol => ?_
  obtain ⟨i, hi, hget⟩ := List.mem_drop_iff_getElem.mp hcol
  rw [List.getElem_range] at hget
  rw [List.length_range] at hi
  have hhit := congrArg Prod.fst (h.lower col (by omega) (by omega))
  rw [Nat.one_mul]
  exact congrArg (max m) hhit

end Alike

end ScoreTable

/-- Every comparison hands on a moderate table. -/
theorem moderate_similarity? {t : ScoreTable} (ht : t.Moderate) (choice pattern : List Char) :
    (similarity? t choice pattern).2.Moderate := by
  simp only [similarity?]
  split
  · exact ht
  · exact ht
  · next first firsts h =>
    obtain ⟨_, _, hrange⟩ := leftmost_spec h
    have hfirst := hrange first List.mem_cons_self
    refine List.foldlRecOn _ _ (ht.prepare (by omega)) fun t ht e _ => ?_
    exact ht.enterRow _ (fun e he => (withBonus_range he).2) e

/-- A pattern of at most two characters has the same score with every table. -/
theorem similarity?_congr {t t' : ScoreTable} (ht : t.Moderate) (ht' : t'.Moderate)
    (choice : List Char) {pattern : List Char} (h : pattern.length ≤ 2) :
    (similarity? t choice pattern).1 = (similarity? t' choice pattern).1 := by
  simp only [similarity?]
  split
  · rfl
  · rfl
  · next first firsts hfound =>
    obtain ⟨hlen, hsorted, hrange⟩ := leftmost_spec hfound
    obtain ⟨_, hfirst⟩ := hrange first List.mem_cons_self
    rw [Nat.zero_add, ← length_withBonus] at hfirst
    have hlower (p : Char) := ScoreTable.Alike.enterRow_lower (comparison pattern) p
      (fun _ => withBonus_range) hfirst ht ht'
    rw [← length_withBonus]
    obtain hone | htwo : pattern.length = 1 ∨ pattern.length = 2 := by
      rw [List.length_cons] at hlen
      omega
    · obtain ⟨p, rfl⟩ := List.length_eq_one_iff.mp hone
      obtain rfl : firsts = [] := by simpa using hlen
      exact congrArg some ((hlower p).best_lower (Nat.le_refl _))
    · obtain ⟨p, q, rfl⟩ := List.length_eq_two.mp htwo
      obtain ⟨second, rfl⟩ : ∃ second, firsts = [second] :=
        List.length_eq_one_iff.mp (by simpa using hlen)
      have hsecond : first < second := by simpa using hsorted
      have hboth := (hlower p).enterRow_upper (comparison [p, q]) q hsecond
      have heven : [p, q].length % 2 = 0 := by simp
      rw [heven]
      exact congrArg some (hboth.best_upper _)

end LaunchEditor.Text
