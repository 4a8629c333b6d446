import Mathlib
import LessonGrid.Proofs.Formula.Grammar
import LessonGrid.Proofs.Formula.Language

/-!
# The height of formulas

Whatever walks the tree of a formula goes as deep as the tree is high. On the way from the root to a
leaf, a step into a negation or into the right operand of an operator is a turn, and the steps between
two turns run along left operands. The limit of nesting bounds the turns (`turns_le_of_derives`), but
not the runs: a sum or a product is grouped from the left, however long it is, so a run of left operands
takes no nesting at all. Heights are therefore bounded where runs are, and nowhere else; the text of a
formula is at least as long as its tree is high.

Main statements: `heights_bounded_iff_runs_bounded` and `height_unbounded`.
-/

set_option autoImplicit false

namespace LessonGrid

namespace Tree

/-! ## Turns and runs -/

/-- The most turns on a way from the root to a leaf: steps into negations and into right operands. -/
def turns : Tree → Nat
  | negation t => t.turns + 1
  | binary _ left right => max left.turns (right.turns + 1)
  | _ => 0

/-- The number of steps from the root along left operands. -/
def run : Tree → Nat
  | binary _ left _ => left.run + 1
  | _ => 0

/-- The length of the longest run along left operands, from wherever it starts. -/
def longestRun : Tree → Nat
  | negation t => t.longestRun
  | binary _ left right => max (left.run + 1) (max left.longestRun right.longestRun)
  | _ => 0

theorem run_le_longestRun (t : Tree) : t.run ≤ t.longestRun := by
  cases t with
  | binary op left right => exact Nat.le_max_left _ _
  | _ => exact Nat.zero_le _

theorem run_lt_height (t : Tree) : t.run < t.height := by
  induction t with
  | binary op left right ihleft _ => simp only [run, height]; omega
  | _ => simp [run, height]

theorem longestRun_lt_height (t : Tree) : t.longestRun < t.height := by
  induction t with
  | negation t ih => simp only [longestRun, height]; omega
  | binary op left right ihleft ihright =>
    have hrun := run_lt_height left
    simp only [longestRun, height]
    omega
  | _ => simp [longestRun, height]

/-- The way to a leaf is the run at the root, and after each turn another run. -/
theorem height_le_run_add (t : Tree) : t.height ≤ t.run + 1 + t.turns * (t.longestRun + 1) := by
  induction t with
  | negation t ih =>
    have hrun := run_le_longestRun t
    simp only [height, run, turns, longestRun, Nat.add_mul]
    omega
  | binary op left right ihleft ihright =>
    have hrun := run_le_longestRun right
    have hlongest : left.longestRun ≤ (binary op left right).longestRun ∧
        right.longestRun ≤ (binary op left right).longestRun := by
      simp only [longestRun]
      omega
    have hturns : left.turns ≤ (binary op left right).turns ∧
        right.turns + 1 ≤ (binary op left right).turns := by
      simp only [turns]
      omega
    have hleft := Nat.mul_le_mul hturns.1 (Nat.add_le_add_right hlongest.1 1)
    have hright := Nat.mul_le_mul hturns.2 (Nat.add_le_add_right hlongest.2 1)
    rw [Nat.add_mul, Nat.one_mul] at hright
    simp only [height, run]
    omega
  | _ => simp [height, run, turns]

/-- A tree is no higher than its turns and its longest run allow. -/
theorem height_le_mul (t : Tree) : t.height ≤ (t.turns + 1) * (t.longestRun + 1) := by
  have hheight := height_le_run_add t
  have hrun := run_le_longestRun t
  rw [Nat.add_mul, Nat.one_mul]
  omega

end Tree

/-! ## What the grammar allows -/

/-- How many turns a phrase has beyond those that its nesting accounts for: one into the right factor
of a product, and one into the right term of a sum. -/
def Phrase.extraTurns : Phrase → Nat
  | .operand => 0
  | .product => 1
  | .sum => 2

/-- Each level of nesting makes two turns at most, or one if it is a negation. -/
theorem turns_le_of_derives {limit under : Nat} {phrase : Phrase} {ts : List Token} {t : Tree}
    (h : Derives limit phrase under ts t) :
    under ≤ limit ∧ t.turns ≤ 2 * (limit - under) + phrase.extraTurns := by
  induction h with
  | number x hle => exact ⟨hle, Nat.zero_le _⟩
  | cell a hle => exact ⟨hle, Nat.zero_le _⟩
  | call f r hle => exact ⟨hle, Nat.zero_le _⟩
  | parentheses hle _ ih =>
    simp only [Phrase.extraTurns] at *
    omega
  | negation hle _ ih =>
    simp only [Tree.turns, Phrase.extraTurns] at *
    omega
  | operand _ ih =>
    simp only [Phrase.extraTurns] at *
    omega
  | times _ _ _ ihleft ihright =>
    simp only [Tree.turns, Phrase.extraTurns] at *
    omega
  | product _ ih =>
    simp only [Phrase.extraTurns] at *
    omega
  | plus _ _ _ ihleft ihright =>
    simp only [Tree.turns, Phrase.extraTurns] at *
    omega

/-- Every node has a token of its own. -/
theorem height_le_length_of_derives {limit under : Nat} {phrase : Phrase} {ts : List Token}
    {t : Tree} (h : Derives limit phrase under ts t) : t.height ≤ ts.length := by
  induction h with
  | parentheses _ _ ih =>
    simp only [List.length_cons, List.length_append]
    omega
  | negation _ _ ih =>
    simp only [Tree.height, List.length_cons]
    omega
  | operand _ ih => exact ih
  | product _ ih => exact ih
  | times _ _ _ ihleft ihright =>
    simp only [Tree.height, List.length_append, List.length_cons]
    omega
  | plus _ _ _ ihleft ihright =>
    simp only [Tree.height, List.length_append, List.length_cons]
    omega
  | _ => simp [Tree.height]

/-- Every token has a character of its own. -/
theorem Token.length_le_of_scan {cs : List Char} {ts : List Token} (h : scan cs = .ok ts) :
    ts.length ≤ cs.length := by
  induction cs using scan.induct generalizing ts with
  | case1 =>
    rw [scan_nil] at h
    cases h
    exact Nat.le_refl 0
  | case2 c cs hblank ih =>
    rw [scan_of_blank cs hblank] at h
    exact Nat.le_succ_of_le (ih h)
  | case3 c cs hblank fault htoken =>
    rw [scan_of_scanToken_error hblank htoken] at h
    cases h
  | case4 c cs hblank t rest htoken hle fault hrest ih =>
    rw [scan_of_scanToken_ok hblank htoken, hrest] at h
    cases h
  | case5 c cs hblank t rest htoken hle us hrest ih =>
    rw [scan_of_scanToken_ok hblank htoken, hrest] at h
    cases h
    exact Nat.succ_le_succ (Nat.le_trans (ih hrest) hle)

theorem exists_derives_of_ofBody {body : List Char} {t : Tree} (h : Tree.ofBody body = .ok t) :
    ∃ ts, Token.scan body = .ok ts ∧ Derives nestingLimit .sum 0 ts t := by
  cases hscan : Token.scan body with
  | error fault =>
    rw [ofBody_of_scan_error hscan] at h
    cases h
  | ok ts =>
    rw [ofBody_of_scan_ok hscan] at h
    exact ⟨ts, rfl, ofTokens_eq_ok_iff.mp h⟩

/-- The tree of a formula has a bounded number of turns, is as high as its longest run at least and as
its turns and this run allow at most, and is not higher than its text is long. -/
theorem height_cases_of_ofBody {body : List Char} {t : Tree} (h : Tree.ofBody body = .ok t) :
    t.turns ≤ 2 * nestingLimit + 2 ∧ t.longestRun < t.height ∧
      t.height ≤ (2 * nestingLimit + 3) * (t.longestRun + 1) ∧ t.height ≤ body.length := by
  obtain ⟨ts, hscan, hderives⟩ := exists_derives_of_ofBody h
  have hturns : t.turns ≤ 2 * nestingLimit + 2 := (turns_le_of_derives hderives).2
  refine ⟨hturns, t.longestRun_lt_height, ?_, ?_⟩
  · calc t.height ≤ (t.turns + 1) * (t.longestRun + 1) := t.height_le_mul
      _ ≤ (2 * nestingLimit + 3) * (t.longestRun + 1) :=
        Nat.mul_le_mul_right _ (Nat.succ_le_succ hturns)
  · exact (height_le_length_of_derives hderives).trans (Token.length_le_of_scan hscan)

/-- The heights of some formulas are bounded exactly when the lengths of their runs along left operands
are: the limit of nesting bounds everything else on the way to a leaf. Each tree is at least one node
higher than its longest run is long, and no higher than its text is long. -/
theorem heights_bounded_iff_runs_bounded (bodies : Set (List Char)) :
    ((∃ bound, ∀ body ∈ bodies, ∀ t, Tree.ofBody body = .ok t → t.height ≤ bound) ↔
      ∃ bound, ∀ body ∈ bodies, ∀ t, Tree.ofBody body = .ok t → t.longestRun ≤ bound) ∧
    ∀ body ∈ bodies, ∀ t, Tree.ofBody body = .ok t →
      t.turns ≤ 2 * nestingLimit + 2 ∧ t.longestRun < t.height ∧
      t.height ≤ (2 * nestingLimit + 3) * (t.longestRun + 1) ∧ t.height ≤ body.length := by
  refine ⟨⟨?_, ?_⟩, fun body _ t h => height_cases_of_ofBody h⟩
  · rintro ⟨bound, hbound⟩
    refine ⟨bound, fun body hbody t h => ?_⟩
    obtain ⟨_, hrun, _⟩ := height_cases_of_ofBody h
    exact (Nat.le_of_lt hrun).trans (hbound body hbody t h)
  · rintro ⟨bound, hbound⟩
    refine ⟨(2 * nestingLimit + 3) * (bound + 1), fun body hbody t h => ?_⟩
    obtain ⟨_, _, hheight, _⟩ := height_cases_of_ofBody h
    exact hheight.trans (Nat.mul_le_mul_left _ (Nat.succ_le_succ (hbound body hbody t h)))

/-! ## Long sums -/

/-- The text of a sum of ones, with the given number of plus signs. -/
def onesText : Nat → List Char
  | 0 => ['1']
  | n + 1 => onesText n ++ ['+', '1']

/-- The number that the text of one stands for. -/
def oneTree : Tree :=
  .number (Token.numberValue ['1'] [])

/-- The tree of a sum of ones. -/
def onesTree : Nat → Tree
  | 0 => oneTree
  | n + 1 => .binary .add (onesTree n) oneTree

theorem height_onesTree (n : Nat) : (onesTree n).height = n + 1 := by
  induction n with
  | zero => rfl
  | succ n ih =>
    simp only [onesTree, oneTree, Tree.height, ih]
    omega

/-- A sum of ones is read at the outermost level, whatever its length. -/
theorem onesText_derives (n : Nat) : ∃ ts, Token.Scans (onesText n) ts ∧
    Derives nestingLimit .sum 0 ts (onesTree n) := by
  have hone : Token.Scans ['1'] [.number (Token.numberValue ['1'] [])] :=
    Token.scans_number (by simp)
  have hoperand : Derives nestingLimit .operand 0 [.number (Token.numberValue ['1'] [])] oneTree :=
    .number _ (Nat.zero_le _)
  induction n with
  | zero => exact ⟨_, hone, .product (.operand hoperand)⟩
  | succ n ih =>
    obtain ⟨ts, hscans, hderives⟩ := ih
    have hplus : Token.Scans ['+', '1'] [.operator .add, .number (Token.numberValue ['1'] [])] :=
      hone.after_mark rfl
    have hapart : Token.Apart ['+', '1'] := Token.apart_cons (by decide) (by decide)
    exact ⟨_, hscans.append hplus hapart, .plus (.inl rfl) hderives (.operand hoperand)⟩

theorem ofBody_onesText (n : Nat) : Tree.ofBody (onesText n) = .ok (onesTree n) := by
  obtain ⟨ts, hscans, hderives⟩ := onesText_derives n
  have hscan : Token.scan (onesText n) = .ok ts := by
    simpa using hscans [] [] Token.apart_nil Token.scan_nil
  rw [ofBody_of_scan_ok hscan]
  exact ofTokens_eq_ok_iff.mpr hderives

/-- No bound holds for the heights of all formulas. -/
theorem height_unbounded :
    ¬ ∃ bound, ∀ body t, Tree.ofBody body = .ok t → t.height ≤ bound := by
  rintro ⟨bound, hbound⟩
  have hheight := hbound _ _ (ofBody_onesText bound)
  rw [height_onesTree] at hheight
  omega

end LessonGrid
