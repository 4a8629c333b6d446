import LessonGrid.Formula.Parse

/-!
# What the readers of formulas take

A reader gives a tree together with the tokens left over and the proof that they are fewer. This
module puts the proof aside: `Takes p ts t rest` says that `p` takes `t` off the front of `ts` and
leaves `rest`, and each reader is described by what it takes. The loop that joins the operands of
one level becomes the relation `Joins`, so that what a whole chain does is shown by induction on its
steps.

Main statements: `takes_chain_iff`, `takes_closed_iff` and `takes_operand_succ_iff`.
-/

set_option autoImplicit false

namespace LessonGrid.Reader

/-- The reader takes a tree off the front of some tokens and leaves the tokens after it. -/
def Takes (p : Reader) (ts : List Token) (t : Tree) (rest : List Token) : Prop :=
  ∃ h : rest.length < ts.length, p ts = .ok (t, ⟨rest, h⟩)

/-- A reader takes at most one tree off the front of some tokens. -/
theorem Takes.unique {p : Reader} {ts rest rest' : List Token} {t t' : Tree}
    (h : p.Takes ts t rest) (h' : p.Takes ts t' rest') : t = t' ∧ rest = rest' := by
  obtain ⟨_, h⟩ := h
  obtain ⟨_, h'⟩ := h'
  rw [h] at h'
  cases h'
  exact ⟨rfl, rfl⟩

/-! ## Chains of one level -/

/-- The tokens do not go on with an operator of the level. -/
def Stops (level : Operator → Bool) (ts : List Token) : Prop :=
  ∀ op after, ts = .operator op :: after → level op = false

theorem stops_nil (level : Operator → Bool) : Stops level [] := by
  intro op after h
  cases h

theorem stops_closing (level : Operator → Bool) (ts : List Token) :
    Stops level (.closing :: ts) := by
  intro op after h
  cases h

theorem stops_operator {level : Operator → Bool} {op : Operator} (h : level op = false)
    (ts : List Token) : Stops level (.operator op :: ts) := by
  intro op' after heq
  cases heq
  exact h

/-- A chain whose first operands make the tree `left` goes on over some tokens to a whole tree and
leaves a rest: it stops where no operator of the level follows, and takes one more operand where one
does. -/
inductive Joins (level : Operator → Bool) (p : Reader) :
    Tree → List Token → Tree → List Token → Prop
  | stop {left : Tree} {ts : List Token} :
      Stops level ts → Joins level p left ts left ts
  | more {left right t : Tree} {op : Operator} {after mid rest : List Token} :
      level op = true → p.Takes after right mid →
      Joins level p (.binary op left right) mid t rest →
      Joins level p left (.operator op :: after) t rest

/-- Every chain that is read makes the joins of its operands. -/
theorem joins_of_chainFrom {level : Operator → Bool} {p : Reader} {left t : Tree}
    {ts rest : List Token} {hrest : rest.length ≤ ts.length}
    (h : chainFrom level p left ts = .ok (t, ⟨rest, hrest⟩)) : Joins level p left ts t rest := by
  induction left, ts using chainFrom.induct level p with
  | case1 left op after hop fault hp =>
    rw [chainFrom, if_pos hop, hp] at h
    cases h
  | case2 left op after hop right mid hmid hp fault hjoin ih =>
    rw [chainFrom, if_pos hop, hp] at h
    simp only [hjoin] at h
    cases h
  | case3 left op after hop right mid hmid hp t' rest' hrest' hjoin ih =>
    rw [chainFrom, if_pos hop, hp] at h
    simp only [hjoin] at h
    cases h
    exact .more hop ⟨hmid, hp⟩ (ih hjoin)
  | case4 left op after hop =>
    rw [chainFrom, if_neg hop] at h
    cases h
    exact .stop (stops_operator (Bool.eq_false_iff.mpr hop) after)
  | case5 left ts hts =>
    rw [chainFrom.eq_2 level p left ts hts] at h
    cases h
    exact .stop fun op after heq => absurd heq (hts op after)

/-- The joins of some operands are what is read of their chain. -/
theorem chainFrom_of_joins {level : Operator → Bool} {p : Reader} {left t : Tree}
    {ts rest : List Token} (h : Joins level p left ts t rest) :
    ∃ hrest, chainFrom level p left ts = .ok (t, ⟨rest, hrest⟩) := by
  induction h with
  | @stop left ts hstops =>
    unfold chainFrom
    split
    · next op after =>
      rw [if_neg (by simp [hstops op after rfl])]
      exact ⟨Nat.le_refl _, rfl⟩
    · exact ⟨Nat.le_refl _, rfl⟩
  | @more left right t op after mid rest hop hp _ ih =>
    obtain ⟨hmid, hp⟩ := hp
    obtain ⟨hrest, hjoin⟩ := ih
    rw [chainFrom, if_pos hop, hp]
    simp only [hjoin]
    have hle : rest.length ≤ after.length := Nat.le_trans hrest (Nat.le_of_lt hmid)
    exact ⟨Nat.le_succ_of_le hle, trivial⟩

/-- A chain is its first operand and the operands joined to it. -/
theorem takes_chain_iff {level : Operator → Bool} {p : Reader} {ts rest : List Token} {t : Tree} :
    (chain level p).Takes ts t rest ↔
      ∃ left mid, p.Takes ts left mid ∧ Joins level p left mid t rest := by
  constructor
  · rintro ⟨hrest, h⟩
    unfold chain at h
    split at h
    · cases h
    · next left mid hmid hp =>
      split at h
      · cases h
      · next t' rest' hrest' hjoin =>
        cases h
        exact ⟨left, mid, ⟨hmid, hp⟩, joins_of_chainFrom hjoin⟩
  · rintro ⟨left, mid, ⟨hmid, hp⟩, hjoin⟩
    obtain ⟨hrest, hjoin⟩ := chainFrom_of_joins hjoin
    refine ⟨Nat.lt_of_le_of_lt hrest hmid, ?_⟩
    simp only [chain, hp, hjoin]

/-! ## Operands -/

/-- A formula up to a closing parenthesis is a formula with the parenthesis right after it. -/
theorem takes_closed_iff {inner : Reader} {ts rest : List Token} {t : Tree} :
    (closed inner).Takes ts t rest ↔ inner.Takes ts t (.closing :: rest) := by
  constructor
  · rintro ⟨hrest, h⟩
    unfold closed at h
    split at h
    · cases h
    · next t' rest' hrest' hinner =>
      cases h
      exact ⟨hrest', hinner⟩
    · cases h
    · cases h
  · rintro ⟨hrest, h⟩
    refine ⟨Nat.lt_of_succ_lt hrest, ?_⟩
    simp only [closed, h]

theorem takes_operand_zero {ts rest : List Token} {t : Tree} :
    ¬ (operand 0).Takes ts t rest := by
  rintro ⟨hrest, h⟩
  cases h

theorem takes_operand_number (depth : Nat) (x : Float) (rest : List Token) :
    (operand (depth + 1)).Takes (.number x :: rest) (.number x) rest :=
  ⟨Nat.lt_succ_self _, rfl⟩

theorem takes_operand_cell (depth : Nat) (a : Address) (rest : List Token) :
    (operand (depth + 1)).Takes (.cell a :: rest) (.cell a) rest :=
  ⟨Nat.lt_succ_self _, rfl⟩

theorem takes_operand_call (depth : Nat) (f : Aggregate) (r : Range) (rest : List Token) :
    (operand (depth + 1)).Takes (.call f r :: rest) (.aggregate f r) rest :=
  ⟨Nat.lt_succ_self _, rfl⟩

theorem takes_operand_negation {depth : Nat} {ts rest : List Token} {t : Tree}
    (h : (operand depth).Takes ts t rest) :
    (operand (depth + 1)).Takes (.operator .sub :: ts) (.negation t) rest := by
  obtain ⟨hrest, h⟩ := h
  refine ⟨Nat.lt_succ_of_lt hrest, ?_⟩
  simp only [operand, h]

theorem takes_operand_opening {depth : Nat} {ts rest : List Token} {t : Tree}
    (h : (expression (operand depth)).Takes ts t (.closing :: rest)) :
    (operand (depth + 1)).Takes (.opening :: ts) t rest := by
  obtain ⟨hrest, h⟩ := takes_closed_iff.mpr h
  refine ⟨Nat.lt_succ_of_lt hrest, ?_⟩
  simp only [operand, h]

/-- Everything that a single operand can be, when parentheses and negations are still allowed. -/
theorem takes_operand_succ_iff {depth : Nat} {ts rest : List Token} {t : Tree} :
    (operand (depth + 1)).Takes ts t rest ↔
      (∃ x, ts = .number x :: rest ∧ t = .number x) ∨
      (∃ a, ts = .cell a :: rest ∧ t = .cell a) ∨
      (∃ f r, ts = .call f r :: rest ∧ t = .aggregate f r) ∨
      (∃ after inner, ts = .operator .sub :: after ∧ t = .negation inner ∧
        (operand depth).Takes after inner rest) ∨
      (∃ after, ts = .opening :: after ∧
        (expression (operand depth)).Takes after t (.closing :: rest)) := by
  constructor
  · rintro ⟨hrest, h⟩
    cases ts with
    | nil => cases h
    | cons token after =>
      cases token with
      | number x => cases h; exact .inl ⟨x, rfl, rfl⟩
      | cell a => cases h; exact .inr (.inl ⟨a, rfl, rfl⟩)
      | call f r => cases h; exact .inr (.inr (.inl ⟨f, r, rfl, rfl⟩))
      | operator op =>
        cases op with
        | sub =>
          unfold operand at h
          split at h
          · cases h
          · next inner rest' hrest' hinner =>
            cases h
            exact .inr (.inr (.inr (.inl ⟨after, inner, rfl, rfl, hrest', hinner⟩)))
        | add => cases h
        | mul => cases h
        | div => cases h
      | opening =>
        unfold operand at h
        split at h
        · cases h
        · next t' rest' hrest' hclosed =>
          cases h
          exact .inr (.inr (.inr (.inr ⟨after, rfl, takes_closed_iff.mp ⟨hrest', hclosed⟩⟩)))
      | closing => cases h
      | colon => cases h
      | point => cases h
  · rintro (⟨x, rfl, rfl⟩ | ⟨a, rfl, rfl⟩ | ⟨f, r, rfl, rfl⟩ | ⟨after, inner, rfl, rfl, h⟩ |
      ⟨after, rfl, h⟩)
    · exact takes_operand_number depth x rest
    · exact takes_operand_cell depth a rest
    · exact takes_operand_call depth f r rest
    · exact takes_operand_negation h
    · exact takes_operand_opening h

end LessonGrid.Reader
