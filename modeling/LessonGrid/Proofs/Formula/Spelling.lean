import LessonGrid.Proofs.Formula.Grammar
import LessonGrid.Proofs.Formula.Words

/-!
# The spellings of a formula

A tree can be written in many ways: with parentheses where its place asks for them and with any others
that do no harm, with blanks or none around its signs and parentheses, and in capitals or small letters.
`Spells place depth t cs` says that `cs` is a spelling of `t` at a place, in which the deepest part of
`t` stands under `depth` parentheses and negations.

Every spelling is scanned to tokens of which the grammar derives the tree, whatever stands apart behind
it (`exists_derives_of_spells`); at each place the grammar has a phrase that may stand there without
parentheses.

Main statement: `ofBody_of_spells`.
-/

set_option autoImplicit false

namespace LessonGrid

open Token

/-! ## Places -/

/-- The two kinds of operations, of which the second binds more tightly. -/
inductive Level where
  | additive
  | multiplicative
  deriving DecidableEq, Repr

/-- The level of an operator. -/
def Operator.level : Operator → Level
  | add => .additive
  | sub => .additive
  | mul => .multiplicative
  | div => .multiplicative

/-- Where a part of a formula stands: by itself or in parentheses, before or behind an operator, or
under a negation. -/
inductive Place where
  | whole
  | left (outer : Operator)
  | right (outer : Operator)
  | negated
  deriving DecidableEq, Repr

namespace Place

/-- Whether an operation has to stand in parentheses at a place: an addition or a subtraction as an
operand of a multiplication or a division, an operation as the right operand of one of its own level,
and every operation under a negation. -/
def NeedsParentheses : Place → Operator → Prop
  | whole, _ => False
  | left outer, op => outer.level = .multiplicative ∧ op.level = .additive
  | right outer, op =>
    (outer.level = .multiplicative ∧ op.level = .additive) ∨ outer.level = op.level
  | negated, _ => True

instance : ∀ (place : Place) (op : Operator), Decidable (place.NeedsParentheses op)
  | whole, _ => inferInstanceAs (Decidable False)
  | left _, _ => inferInstanceAs (Decidable (_ ∧ _))
  | right _, _ => inferInstanceAs (Decidable (_ ∨ _))
  | negated, _ => inferInstanceAs (Decidable True)

end Place

/-! ## Spellings -/

/-- The spellings of a tree at a place. -/
inductive Spells : Place → Nat → Tree → List Char → Prop
  | digits {place : Place} {whole : List Char} :
      whole ≠ [] → (∀ c ∈ whole, c.isDigit = true) →
      Spells place 0 (.number (numberValue whole [])) whole
  | decimal {place : Place} {whole fraction : List Char} :
      whole ≠ [] → (∀ c ∈ whole, c.isDigit = true) →
      fraction ≠ [] → (∀ c ∈ fraction, c.isDigit = true) →
      Spells place 0 (.number (numberValue whole fraction)) (whole ++ '.' :: fraction)
  | cell {place : Place} {a : Address} {cs : List Char} :
      a.Nameable → a.text? = some (cs.map Char.toUpper) → Spells place 0 (.cell a) cs
  | call {place : Place} {f : Aggregate} {first last : Address} {name cs ds : List Char} :
      name.map Char.toUpper = f.name.toList → first.Nameable → last.Nameable →
      first.text? = some (cs.map Char.toUpper) → last.text? = some (ds.map Char.toUpper) →
      Spells place 0 (.aggregate f ⟨first, last⟩) (name ++ '(' :: (cs ++ ':' :: (ds ++ [')'])))
  | negation {place : Place} {depth : Nat} {t : Tree} {ws cs : List Char} :
      isBlankText ws = true → Spells .negated depth t cs →
      Spells place (depth + 1) (.negation t) ('-' :: (ws ++ cs))
  | binary {place : Place} {m n : Nat} {op : Operator} {l r : Tree} {us vs ws xs : List Char} :
      ¬ place.NeedsParentheses op → Spells (.left op) m l us → Spells (.right op) n r vs →
      isBlankText ws = true → isBlankText xs = true →
      Spells place (max m n) (.binary op l r) (us ++ (ws ++ op.sign :: (xs ++ vs)))
  | parentheses {place : Place} {depth : Nat} {t : Tree} {cs ws xs : List Char} :
      Spells .whole depth t cs → isBlankText ws = true → isBlankText xs = true →
      Spells place (depth + 1) t ('(' :: (ws ++ (cs ++ (xs ++ [')']))))

/-- The trees that have spellings: their numbers are those of some digits, and a formula can name their
cells. -/
inductive Tree.Writable : Tree → Prop
  | number {whole fraction : List Char} :
      whole ≠ [] → (∀ c ∈ whole, c.isDigit = true) → (∀ c ∈ fraction, c.isDigit = true) →
      Writable (.number (numberValue whole fraction))
  | cell {a : Address} : a.Nameable → Writable (.cell a)
  | aggregate {f : Aggregate} {first last : Address} :
      first.Nameable → last.Nameable → Writable (.aggregate f ⟨first, last⟩)
  | negation {t : Tree} : Writable t → Writable (.negation t)
  | binary {op : Operator} {l r : Tree} : Writable l → Writable r → Writable (.binary op l r)

/-! ## Places and phrases -/

theorem Operator.level_eq_additive_iff {op : Operator} :
    op.level = .additive ↔ op = .add ∨ op = .sub := by
  cases op <;> simp [level]

theorem Operator.level_eq_multiplicative_iff {op : Operator} :
    op.level = .multiplicative ↔ op = .mul ∨ op = .div := by
  cases op <;> simp [level]

namespace Place

/-- The phrase of the grammar that may stand at a place without parentheses. -/
def phrase : Place → Phrase
  | whole => .sum
  | left outer =>
    match outer.level with
    | .additive => .sum
    | .multiplicative => .product
  | right outer =>
    match outer.level with
    | .additive => .product
    | .multiplicative => .operand
  | negated => .operand

variable {place : Place} {op : Operator}

/-- Where an addition needs no parentheses, a sum may stand. -/
theorem phrase_eq_sum (hplace : ¬ place.NeedsParentheses op) (hop : op.level = .additive) :
    place.phrase = .sum := by
  cases place with
  | whole => rfl
  | left outer =>
    cases houter : outer.level with
    | additive => simp [phrase, houter]
    | multiplicative => exact absurd ⟨houter, hop⟩ hplace
  | right outer =>
    cases houter : outer.level with
    | additive => exact absurd (.inr (houter.trans hop.symm)) hplace
    | multiplicative => exact absurd (.inl ⟨houter, hop⟩) hplace
  | negated => exact absurd trivial hplace

/-- Where a multiplication needs no parentheses, a product may stand. -/
theorem phrase_ne_operand (hplace : ¬ place.NeedsParentheses op)
    (hop : op.level = .multiplicative) : place.phrase ≠ .operand := by
  cases place with
  | whole => exact nofun
  | left outer => cases houter : outer.level <;> simp [phrase, houter]
  | right outer =>
    cases houter : outer.level with
    | additive => simp [phrase, houter]
    | multiplicative => exact absurd (.inr (houter.trans hop.symm)) hplace
  | negated => exact absurd trivial hplace

end Place

namespace Derives

variable {limit under : Nat} {phrase : Phrase} {place : Place} {ts us vs : List Token}
  {t l r : Tree} {op : Operator}

/-- A product is a phrase of every kind but an operand. -/
theorem of_product (h : Derives limit .product under ts t) (hphrase : phrase ≠ .operand) :
    Derives limit phrase under ts t := by
  cases phrase with
  | sum => exact .product h
  | product => exact h
  | operand => exact absurd rfl hphrase

/-- An operand is a phrase of every kind. -/
theorem of_operand (h : Derives limit .operand under ts t) : Derives limit phrase under ts t := by
  by_cases hphrase : phrase = .operand
  · rwa [hphrase]
  · exact (Derives.operand h).of_product hphrase

/-- An operation between what may stand on its sides may stand at every place where it needs no
parentheses. -/
theorem binary (hplace : ¬ place.NeedsParentheses op)
    (hl : Derives limit (Place.left op).phrase under us l)
    (hr : Derives limit (Place.right op).phrase under vs r) :
    Derives limit place.phrase under (us ++ .operator op :: vs) (.binary op l r) := by
  cases hop : op.level with
  | additive =>
    simp only [Place.phrase, hop] at hl hr
    rw [Place.phrase_eq_sum hplace hop]
    exact .plus (Operator.level_eq_additive_iff.mp hop) hl hr
  | multiplicative =>
    simp only [Place.phrase, hop] at hl hr
    have hproduct := Derives.times (Operator.level_eq_multiplicative_iff.mp hop) hl hr
    exact hproduct.of_product (Place.phrase_ne_operand hplace hop)

end Derives

/-! ## Spellings are read as their trees -/

theorem apart_sign (op : Operator) (cs : List Char) : Apart (op.sign :: cs) := by
  cases op <;> exact apart_cons rfl (by decide)

theorem apart_closing (cs : List Char) : Apart (')' :: cs) :=
  apart_cons rfl (by decide)

theorem ofMark?_sign (op : Operator) : ofMark? op.sign = some (.operator op) := by
  cases op <;> rfl

/-- A spelling is scanned to tokens that are a phrase of its place with the tree it spells, under
whatever else stands around it, as long as the limit of nesting allows for its depth. -/
theorem exists_derives_of_spells {place : Place} {depth : Nat} {t : Tree} {cs : List Char}
    (h : Spells place depth t cs) : ∃ ts, Scans cs ts ∧
      ∀ limit under, under + depth ≤ limit → Derives limit place.phrase under ts t := by
  induction h with
  | @digits place whole hne hwhole =>
    obtain ⟨d, ds, rfl⟩ := List.exists_cons_of_ne_nil hne
    exact ⟨_, scans_number hwhole, fun limit under hle => .of_operand (.number _ hle)⟩
  | @decimal place whole fraction hne hwhole hne' hfraction =>
    obtain ⟨d, ds, rfl⟩ := List.exists_cons_of_ne_nil hne
    exact ⟨_, scans_decimal hwhole hfraction hne', fun limit under hle =>
      .of_operand (.number _ hle)⟩
  | cell ha hcs =>
    exact ⟨_, scans_cell ha hcs, fun limit under hle => .of_operand (.cell _ hle)⟩
  | call hname hfirst hlast hcs hds =>
    exact ⟨_, scans_call hname hfirst hlast hcs hds, fun limit under hle =>
      .of_operand (.call _ _ hle)⟩
  | @negation place depth t ws cs hws _ ih =>
    -- Of a negation's depth, one is the sign: it stands around all parts of the operand.
    obtain ⟨ts, hscans, hderives⟩ := ih
    refine ⟨.operator .sub :: ts, (hscans.after_blanks hws).after_mark rfl, ?_⟩
    intro limit under hle
    exact .of_operand (.negation (by omega) (hderives limit (under + 1) (by omega)))
  | @binary place m n op l r us vs ws xs hplace _ _ hws hxs ihl ihr =>
    obtain ⟨ts, hscansl, hderivesl⟩ := ihl
    obtain ⟨ts', hscansr, hderivesr⟩ := ihr
    have hright : Scans (op.sign :: (xs ++ vs)) (.operator op :: ts') :=
      (hscansr.after_blanks hxs).after_mark (ofMark?_sign op)
    refine ⟨ts ++ .operator op :: ts', ?_, ?_⟩
    -- The left operand ends where the blanks or the sign begin, since neither can prolong a word.
    · exact hscansl.append (hright.after_blanks hws) ((apart_sign op _).after_blanks hws)
    · intro limit under hle
      exact .binary hplace (hderivesl limit under (by omega)) (hderivesr limit under (by omega))
  | @parentheses place depth t cs ws xs _ hws hxs ih =>
    obtain ⟨ts, hscans, hderives⟩ := ih
    have hclosing : Scans [')'] [.closing] := scans_nil.after_mark rfl
    have hinner : Scans (ws ++ (cs ++ (xs ++ [')']))) (ts ++ [.closing]) :=
      (hscans.append (hclosing.after_blanks hxs)
        ((apart_closing []).after_blanks hxs)).after_blanks hws
    refine ⟨.opening :: (ts ++ [.closing]), hinner.after_mark rfl, ?_⟩
    intro limit under hle
    exact .of_operand (.parentheses (by omega) (hderives limit (under + 1) (by omega)))

/-! ## Every tree within the language has spellings -/

/-- A tree that is spelled is one that can be written. -/
theorem writable_of_spells {place : Place} {depth : Nat} {t : Tree} {cs : List Char}
    (h : Spells place depth t cs) : t.Writable := by
  induction h with
  | digits hne hwhole => exact .number hne hwhole (fun _ hc => absurd hc List.not_mem_nil)
  | decimal hne hwhole _ hfraction => exact .number hne hwhole hfraction
  | cell ha _ => exact .cell ha
  | call _ hfirst hlast _ _ => exact .aggregate hfirst hlast
  | negation _ _ ih => exact .negation ih
  | binary _ _ _ _ _ ihl ihr => exact .binary ihl ihr
  | parentheses _ _ _ ih => exact ih

/-- A tree that can be written has a spelling at every place. -/
theorem exists_spells_of_writable {t : Tree} (h : t.Writable) :
    ∀ place, ∃ depth cs, Spells place depth t cs := by
  have hnone : isBlankText [] = true := rfl
  induction h with
  | @number whole fraction hne hwhole hfraction =>
    intro place
    by_cases hnil : fraction = []
    · subst hnil
      exact ⟨_, _, .digits hne hwhole⟩
    · exact ⟨_, _, .decimal hne hwhole hnil hfraction⟩
  | cell ha =>
    obtain ⟨cs, hcs⟩ := ha.exists_spelling
    exact fun place => ⟨_, _, .cell ha hcs⟩
  | @aggregate f first last hfirst hlast =>
    have hname : f.name.toList.map Char.toUpper = f.name.toList := by cases f <;> decide
    obtain ⟨cs, hcs⟩ := hfirst.exists_spelling
    obtain ⟨ds, hds⟩ := hlast.exists_spelling
    exact fun place => ⟨_, _, .call hname hfirst hlast hcs hds⟩
  | negation _ ih =>
    intro place
    obtain ⟨depth, cs, hcs⟩ := ih .negated
    exact ⟨_, _, .negation hnone hcs⟩
  | @binary op l r _ _ ihl ihr =>
    intro place
    obtain ⟨m, us, hus⟩ := ihl (.left op)
    obtain ⟨n, vs, hvs⟩ := ihr (.right op)
    by_cases hplace : place.NeedsParentheses op
    · have hwhole : Spells .whole _ (.binary op l r) _ := .binary id hus hvs hnone hnone
      exact ⟨_, _, .parentheses hwhole hnone hnone⟩
    · exact ⟨_, _, .binary hplace hus hvs hnone hnone⟩

/-- Every spelling of a formula, with blanks or none at both ends, is read as the tree it spells, as
long as none of its parts stands under more parentheses and negations than are allowed. The trees that
have a spelling are those whose numbers are of digits and whose cells a formula can name. -/
theorem ofBody_of_spells :
    (∀ (depth : Nat) (t : Tree) (front cs back : List Char), Spells .whole depth t cs →
      isBlankText front = true → isBlankText back = true → depth ≤ nestingLimit →
      Tree.ofBody (front ++ (cs ++ back)) = .ok t) ∧
    (∀ t : Tree, (∃ depth cs, Spells .whole depth t cs) ↔ t.Writable) := by
  constructor
  · intro depth t front cs back h hfront hback hdepth
    obtain ⟨ts, hscans, hderives⟩ := exists_derives_of_spells h
    have hend : Scans back [] := by simpa using scans_nil.after_blanks hback
    have hwhole : Scans (front ++ (cs ++ back)) (ts ++ []) :=
      (hscans.append hend (by simpa using apart_nil.after_blanks hback)).after_blanks hfront
    have hscan : scan (front ++ (cs ++ back)) = .ok ts := by
      simpa using hwhole [] [] apart_nil scan_nil
    simp only [Tree.ofBody, hscan]
    exact ofTokens_eq_ok_iff.mpr (hderives nestingLimit 0 (by omega))
  · exact fun t => ⟨fun ⟨_, _, h⟩ => writable_of_spells h, fun h => exists_spells_of_writable h _⟩

/-- A formula of every kind of part, with the last of the rows that have a number. -/
def sprawling : Tree :=
  .binary .sub
    (.negation (.binary .mul
      (.binary .add (.cell ⟨0, 0⟩) (.number (numberValue ['0', '1'] ['5', '0'])))
      (.aggregate .sum ⟨⟨1, 1⟩, ⟨4, 8⟩⟩)))
    (.cell ⟨4, 18446744073709551614⟩)

/-- A spelling may have parentheses that are not needed, superfluous zeros, a wide blank and names in
mixed case. -/
theorem ofBody_of_sprawling :
    Tree.ofBody "-( (a1\u3000+01.50)*sUm(b2:E9)) - (e18446744073709551615) ".toList =
      .ok sprawling := by
  have hnone : isBlankText [] = true := rfl
  have hblank : isBlankText [' '] = true := rfl
  have hwide : isBlankText ['\u3000'] = true := rfl
  have ha1 : (⟨0, 0⟩ : Address).text? = some (['a', '1'].map Char.toUpper) := rfl
  have hb2 : (⟨1, 1⟩ : Address).text? = some (['b', '2'].map Char.toUpper) := rfl
  have he9 : (⟨4, 8⟩ : Address).text? = some (['E', '9'].map Char.toUpper) := rfl
  have hname : ['s', 'U', 'm'].map Char.toUpper = Aggregate.sum.name.toList := rfl
  have hnumber : Spells (.right .add) 0 (.number (numberValue ['0', '1'] ['5', '0'])) _ :=
    .decimal (List.cons_ne_nil _ _) (by simp) (List.cons_ne_nil _ _) (by simp)
  have hsum : Spells (.left .mul) 1 _ _ :=
    .parentheses (.binary (by decide) (.cell ⟨by decide, by decide⟩ ha1) hnumber hwide hnone)
      hnone hnone
  have hcall : Spells (.right .mul) 0 (.aggregate .sum ⟨⟨1, 1⟩, ⟨4, 8⟩⟩) _ :=
    .call hname ⟨by decide, by decide⟩ ⟨by decide, by decide⟩ hb2 he9
  have hproduct : Spells .negated 2 _ _ :=
    .parentheses (.binary (by decide) hsum hcall hnone hnone) hblank hnone
  have hlast : Spells .whole 0 (.cell ⟨4, 18446744073709551614⟩) "e18446744073709551615".toList :=
    .cell ⟨by decide, by decide⟩ (by cbv)
  have hwhole : Spells .whole 3 sprawling _ :=
    .binary (by decide) (.negation hnone hproduct) (.parentheses hlast hnone hnone) hblank hblank
  have hbody := ofBody_of_spells.1 3 sprawling [] _ [' '] hwhole hnone hblank (by decide)
  simpa [Operator.sign] using hbody

end LessonGrid
