import LessonGrid.Proofs.Formula.Reader

/-!
# The grammar of formulas

The grammar as a relation that mentions no reader: `Derives limit phrase under ts t` says that the
tokens `ts`, under `under` enclosing parentheses and negations, are a phrase with the tree `t`, and
that no operand in it stands under more than `limit` of them.

```text
sum     := product (('+' | '-') product)*
product := operand (('*' | '/') operand)*
operand := number | cell | call | '(' sum ')' | '-' operand
```

The readers are sound for the grammar (`operand_sound`) and complete for it, with any tokens behind
the phrase that cannot prolong it (`readAs_of_derives`). The grammar therefore has at most one tree
for a list of tokens; nothing here assumes it.

Main statement: `ofBody_eq_ok_iff_derives`.
-/

set_option autoImplicit false

namespace LessonGrid

open Reader

/-! ## Derivations -/

/-- The phrases of the grammar. -/
inductive Phrase where
  | sum
  | product
  | operand
  deriving DecidableEq, Repr

/-- The derivations of the grammar. Sums and products grow to the right, so that their operators are
grouped from the left. -/
inductive Derives (limit : Nat) : Phrase → Nat → List Token → Tree → Prop
  | number {under : Nat} (x : Float) :
      under ≤ limit → Derives limit .operand under [.number x] (.number x)
  | cell {under : Nat} (a : Address) :
      under ≤ limit → Derives limit .operand under [.cell a] (.cell a)
  | call {under : Nat} (f : Aggregate) (r : Range) :
      under ≤ limit → Derives limit .operand under [.call f r] (.aggregate f r)
  | parentheses {under : Nat} {ts : List Token} {t : Tree} :
      under ≤ limit → Derives limit .sum (under + 1) ts t →
      Derives limit .operand under (.opening :: (ts ++ [.closing])) t
  | negation {under : Nat} {ts : List Token} {t : Tree} :
      under ≤ limit → Derives limit .operand (under + 1) ts t →
      Derives limit .operand under (.operator .sub :: ts) (.negation t)
  | operand {under : Nat} {ts : List Token} {t : Tree} :
      Derives limit .operand under ts t → Derives limit .product under ts t
  | times {under : Nat} {op : Operator} {us vs : List Token} {left right : Tree} :
      op = .mul ∨ op = .div →
      Derives limit .product under us left → Derives limit .operand under vs right →
      Derives limit .product under (us ++ .operator op :: vs) (.binary op left right)
  | product {under : Nat} {ts : List Token} {t : Tree} :
      Derives limit .product under ts t → Derives limit .sum under ts t
  | plus {under : Nat} {op : Operator} {us vs : List Token} {left right : Tree} :
      op = .add ∨ op = .sub →
      Derives limit .sum under us left → Derives limit .product under vs right →
      Derives limit .sum under (us ++ .operator op :: vs) (.binary op left right)

theorem isProduct_eq_true_iff {op : Operator} : isProduct op = true ↔ op = .mul ∨ op = .div := by
  cases op <;> simp [isProduct]

theorem isSum_eq_true_iff {op : Operator} : isSum op = true ↔ op = .add ∨ op = .sub := by
  cases op <;> simp [isSum, isProduct]

theorem isProduct_eq_false_of_isSum {op : Operator} (h : isSum op = true) :
    isProduct op = false := by
  simpa [isSum] using h

/-- A colon stands only within a call and a point only within a number, so neither is a token of a
phrase. -/
theorem mark_not_mem_of_derives {limit under : Nat} {phrase : Phrase} {ts : List Token} {t : Tree}
    (h : Derives limit phrase under ts t) : Token.colon ∉ ts ∧ Token.point ∉ ts := by
  induction h with
  | number x _ => simp
  | cell a _ => simp
  | call f r _ => simp
  | parentheses _ _ ih => simpa using ih
  | negation _ _ ih => simpa using ih
  | operand _ ih => exact ih
  | times _ _ _ ih₁ ih₂ => simp [ih₁, ih₂]
  | product _ ih => exact ih
  | plus _ _ _ ih₁ ih₂ => simp [ih₁, ih₂]

/-! ## Soundness -/

/-- The reader takes only what a grammar derives. -/
def Reader.Sound (p : Reader) (G : List Token → Tree → Prop) : Prop :=
  ∀ ts t rest, p.Takes ts t rest → ∃ us, ts = us ++ rest ∧ G us t

/-- Joining operands to the tree of a phrase makes the tree of a longer phrase, when the phrases of
the level may be prolonged by an operator and an operand. -/
theorem joins_sound {level : Operator → Bool} {p : Reader} {P C : List Token → Tree → Prop}
    (hp : Sound p P)
    (hmore : ∀ us vs op l r, C us l → level op = true → P vs r →
      C (us ++ .operator op :: vs) (.binary op l r))
    {left t : Tree} {ts rest : List Token} (h : Joins level p left ts t rest) :
    ∀ us, C us left → ∃ vs, ts = vs ++ rest ∧ C (us ++ vs) t := by
  induction h with
  | stop _ =>
    intro us hleft
    exact ⟨[], rfl, by simpa using hleft⟩
  | @more left right t op after mid rest hop hright _ ih =>
    intro us hleft
    obtain ⟨ws, rfl, hws⟩ := hp _ _ _ hright
    obtain ⟨vs, rfl, hvs⟩ := ih _ (hmore us ws op left right hleft hop hws)
    refine ⟨.operator op :: (ws ++ vs), by simp, ?_⟩
    simpa using hvs

theorem chain_sound {level : Operator → Bool} {p : Reader} {P C : List Token → Tree → Prop}
    (hp : Sound p P) (hone : ∀ us t, P us t → C us t)
    (hmore : ∀ us vs op l r, C us l → level op = true → P vs r →
      C (us ++ .operator op :: vs) (.binary op l r)) :
    Sound (chain level p) C := by
  intro ts t rest h
  obtain ⟨left, mid, hleft, hjoin⟩ := takes_chain_iff.mp h
  obtain ⟨us, rfl, hus⟩ := hp _ _ _ hleft
  obtain ⟨vs, rfl, hvs⟩ := joins_sound hp hmore hjoin us (hone us left hus)
  exact ⟨us ++ vs, by simp, hvs⟩

/-- Sums of products of sound operands are sound. -/
theorem expression_sound {limit under : Nat} {p : Reader}
    (hp : Sound p (Derives limit .operand under)) :
    Sound (expression p) (Derives limit .sum under) := by
  have hproduct : Sound (chain isProduct p) (Derives limit .product under) :=
    chain_sound hp (fun _ _ => .operand) fun _ _ _ _ _ hl hop hr =>
      .times (isProduct_eq_true_iff.mp hop) hl hr
  exact chain_sound hproduct (fun _ _ => .product) fun _ _ _ _ _ hl hop hr =>
    .plus (isSum_eq_true_iff.mp hop) hl hr

/-- The nesting still allowed and the nesting around an operand make up the limit. The reader refuses
an operand that has no nesting left, even before it looks at the tokens. -/
theorem operand_sound (limit : Nat) : ∀ depth under, under + depth = limit + 1 →
    Sound (operand depth) (Derives limit .operand under) := by
  intro depth
  induction depth with
  | zero =>
    intro under _ ts t rest h
    exact absurd h takes_operand_zero
  | succ depth ih =>
    intro under hunder ts t rest h
    have hle : under ≤ limit := by omega
    have hdeeper : Sound (operand depth) (Derives limit .operand (under + 1)) :=
      ih (under + 1) (by omega)
    rcases takes_operand_succ_iff.mp h with ⟨x, rfl, rfl⟩ | ⟨a, rfl, rfl⟩ | ⟨f, r, rfl, rfl⟩ |
      ⟨after, inner, rfl, rfl, hinner⟩ | ⟨after, rfl, hinner⟩
    · exact ⟨[.number x], rfl, .number x hle⟩
    · exact ⟨[.cell a], rfl, .cell a hle⟩
    · exact ⟨[.call f r], rfl, .call f r hle⟩
    · obtain ⟨us, rfl, hus⟩ := hdeeper _ _ _ hinner
      exact ⟨.operator .sub :: us, rfl, .negation hle hus⟩
    · obtain ⟨us, rfl, hus⟩ := expression_sound hdeeper _ _ _ hinner
      exact ⟨.opening :: (us ++ [.closing]), by simp, .parentheses hle hus⟩

/-! ## Completeness -/

/-- What the readers make of the tokens of a phrase, whatever follows them. The tree of a sum or a
product need not be all that is read, since the chain goes on as long as it can: what is read is what
the joins to that tree come to. -/
def ReadAs (depth : Nat) : Phrase → List Token → Tree → Prop
  | .operand, us, t => ∀ rest, (operand depth).Takes (us ++ rest) t rest
  | .product, us, t => ∀ rest t' rest', Joins isProduct (operand depth) t rest t' rest' →
      (chain isProduct (operand depth)).Takes (us ++ rest) t' rest'
  | .sum, us, t => ∀ rest t' rest', Stops isProduct rest →
      Joins isSum (chain isProduct (operand depth)) t rest t' rest' →
      (expression (operand depth)).Takes (us ++ rest) t' rest'

/-- A product is read as a whole where no further factor follows. -/
theorem ReadAs.takes_product {depth : Nat} {us rest : List Token} {t : Tree}
    (h : ReadAs depth .product us t) (hrest : Stops isProduct rest) :
    (chain isProduct (operand depth)).Takes (us ++ rest) t rest :=
  h rest t rest (.stop hrest)

/-- A sum is read as a whole where no operator follows. -/
theorem ReadAs.takes_sum {depth : Nat} {us rest : List Token} {t : Tree}
    (h : ReadAs depth .sum us t) (hproduct : Stops isProduct rest) (hsum : Stops isSum rest) :
    (expression (operand depth)).Takes (us ++ rest) t rest :=
  h rest t rest hproduct (.stop hsum)

/-- An operand within the limit leaves some nesting to its reader. -/
theorem exists_eq_succ_of_le_limit {limit under depth : Nat} (hle : under ≤ limit)
    (hdepth : under + depth = limit + 1) : ∃ depth', depth = depth' + 1 := by
  have hpos : 0 < depth := by omega
  exact Nat.exists_eq_succ_of_ne_zero (Nat.ne_of_gt hpos)

theorem readAs_of_derives {limit under : Nat} {phrase : Phrase} {us : List Token} {t : Tree}
    (h : Derives limit phrase under us t) :
    ∀ depth, under + depth = limit + 1 → ReadAs depth phrase us t := by
  induction h with
  | number x hle =>
    intro depth hdepth rest
    obtain ⟨depth, rfl⟩ := exists_eq_succ_of_le_limit hle hdepth
    exact takes_operand_number depth x rest
  | cell a hle =>
    intro depth hdepth rest
    obtain ⟨depth, rfl⟩ := exists_eq_succ_of_le_limit hle hdepth
    exact takes_operand_cell depth a rest
  | call f r hle =>
    intro depth hdepth rest
    obtain ⟨depth, rfl⟩ := exists_eq_succ_of_le_limit hle hdepth
    exact takes_operand_call depth f r rest
  | @parentheses under us t hle _ ih =>
    intro depth hdepth rest
    obtain ⟨depth, rfl⟩ := exists_eq_succ_of_le_limit hle hdepth
    have hinner := (ih depth (by omega)).takes_sum (stops_closing isProduct rest)
      (stops_closing isSum rest)
    simpa using takes_operand_opening hinner
  | negation hle _ ih =>
    intro depth hdepth rest
    obtain ⟨depth, rfl⟩ := exists_eq_succ_of_le_limit hle hdepth
    exact takes_operand_negation (ih depth (by omega) rest)
  | operand _ ih =>
    intro depth hdepth rest t' rest' hjoin
    exact takes_chain_iff.mpr ⟨_, _, ih depth hdepth rest, hjoin⟩
  | @times under op us vs left right hop _ _ ihleft ihright =>
    intro depth hdepth rest t' rest' hjoin
    have hright := ihright depth hdepth rest
    have hmore := Joins.more (isProduct_eq_true_iff.mpr hop) hright hjoin
    simpa using ihleft depth hdepth _ _ _ hmore
  | product _ ih =>
    intro depth hdepth rest t' rest' hrest hjoin
    exact takes_chain_iff.mpr ⟨_, _, (ih depth hdepth).takes_product hrest, hjoin⟩
  | @plus under op us vs left right hop _ _ ihleft ihright =>
    intro depth hdepth rest t' rest' hrest hjoin
    have hsum : isSum op = true := isSum_eq_true_iff.mpr hop
    have hright := (ihright depth hdepth).takes_product hrest
    have hstops := stops_operator (isProduct_eq_false_of_isSum hsum) (vs ++ rest)
    simpa using ihleft depth hdepth _ _ _ hstops (Joins.more hsum hright hjoin)

/-! ## Formulas -/

/-- A whole list of tokens is read as a sum exactly when the grammar derives it. -/
theorem takes_expression_iff_derives {limit : Nat} {ts : List Token} {t : Tree} :
    (expression (operand (limit + 1))).Takes ts t [] ↔ Derives limit .sum 0 ts t := by
  constructor
  · intro h
    obtain ⟨us, rfl, hus⟩ :=
      expression_sound (operand_sound limit (limit + 1) 0 (Nat.zero_add _)) _ _ _ h
    simpa using hus
  · intro h
    simpa using (readAs_of_derives h (limit + 1) (Nat.zero_add _)).takes_sum (stops_nil isProduct)
      (stops_nil isSum)

/-- A list of tokens has at most one tree. -/
theorem Derives.unique {limit : Nat} {ts : List Token} {t t' : Tree}
    (h : Derives limit .sum 0 ts t) (h' : Derives limit .sum 0 ts t') : t = t' :=
  ((takes_expression_iff_derives.mpr h).unique (takes_expression_iff_derives.mpr h')).1

theorem ofTokens_eq_ok_iff {ts : List Token} {t : Tree} :
    Tree.ofTokens ts = .ok t ↔ Derives nestingLimit .sum 0 ts t := by
  rw [← takes_expression_iff_derives]
  constructor
  · intro h
    unfold Tree.ofTokens at h
    split at h
    · cases h
    · split at h
      · cases h
      · next t' hrest htakes =>
        cases h
        exact ⟨hrest, htakes⟩
      · cases h
  · rintro ⟨hrest, htakes⟩
    have hne : ts.isEmpty = false := by
      cases ts with
      | nil => cases hrest
      | cons _ _ => rfl
    simp only [Tree.ofTokens, hne, htakes, Bool.false_eq_true, if_false]

theorem ofBody_eq_ok_iff {body : List Char} {t : Tree} : Tree.ofBody body = .ok t ↔
    ∃ ts, Token.scan body = .ok ts ∧ Derives nestingLimit .sum 0 ts t := by
  unfold Tree.ofBody
  cases hscan : Token.scan body with
  | error fault => simp
  | ok ts => simp [ofTokens_eq_ok_iff]

/-- The tree of a formula's body is the tree that the grammar derives from all its tokens: every
body that has tokens with a derivation is accepted and no other. The tree is the only one that the
tokens have, under whatever limit of nesting, and none of them is a colon or a point by itself. -/
theorem ofBody_eq_ok_iff_derives :
    (∀ (body : List Char) (t : Tree), Tree.ofBody body = .ok t ↔
      ∃ ts, Token.scan body = .ok ts ∧ Derives nestingLimit .sum 0 ts t) ∧
    (∀ (limit : Nat) (ts : List Token) (t t' : Tree),
      Derives limit .sum 0 ts t → Derives limit .sum 0 ts t' → t = t') ∧
    (∀ (limit : Nat) (ts : List Token) (t : Tree),
      Derives limit .sum 0 ts t → Token.colon ∉ ts ∧ Token.point ∉ ts) :=
  ⟨fun _ _ => ofBody_eq_ok_iff, fun _ _ _ _ => Derives.unique, fun _ _ _ => mark_not_mem_of_derives⟩

end LessonGrid
