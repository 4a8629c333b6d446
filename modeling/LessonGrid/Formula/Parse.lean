import LessonGrid.Formula.Scan
import LessonGrid.Formula.Tree

/-!
# Reading formulas

A formula is a sum of products of operands, both levels grouped from the left. An operand is a
number, a cell, a call, a negated operand, or a formula in parentheses; parentheses and negations
may stand at most `nestingLimit` deep.

A `Reader` takes a tree off the front of some tokens and proves that fewer tokens are left. The
reader of operands is defined by recursion on the nesting still allowed, and the chains of a level
by recursion on the tokens left.
-/

set_option autoImplicit false

namespace LessonGrid

/-- Takes a tree off the front of some tokens and gives the tokens after it, which are fewer. -/
abbrev Reader :=
  (ts : List Token) → Except Fault (Tree × { rest : List Token // rest.length < ts.length })

namespace Reader

/-- The rest of a chain whose first operands make the tree `left`: as long as an operator of the
level follows, one more operand joins from the right. -/
def chainFrom (level : Operator → Bool) (operand : Reader) (left : Tree) (ts : List Token) :
    Except Fault (Tree × { rest : List Token // rest.length ≤ ts.length }) :=
  match ts with
  | .operator op :: after =>
    if level op then
      match operand after with
      | .error fault => .error fault
      | .ok (right, ⟨rest, hrest⟩) =>
        match chainFrom level operand (.binary op left right) rest with
        | .error fault => .error fault
        | .ok (tree, ⟨rest', hrest'⟩) => .ok (tree, ⟨rest', by simp only [List.length_cons]; omega⟩)
    else .ok (left, ⟨.operator op :: after, Nat.le_refl _⟩)
  | ts => .ok (left, ⟨ts, Nat.le_refl _⟩)
termination_by ts.length
decreasing_by simp only [List.length_cons]; omega

/-- Operands with the operators of one level between them, grouped from the left. -/
def chain (level : Operator → Bool) (operand : Reader) : Reader := fun ts =>
  match operand ts with
  | .error fault => .error fault
  | .ok (left, ⟨rest, hrest⟩) =>
    match chainFrom level operand left rest with
    | .error fault => .error fault
    | .ok (tree, ⟨rest', hrest'⟩) => .ok (tree, ⟨rest', Nat.lt_of_le_of_lt hrest' hrest⟩)

/-- Multiplication and division bind more tightly than addition and subtraction. -/
def isProduct : Operator → Bool
  | .mul => true
  | .div => true
  | _ => false

/-- Addition and subtraction. -/
def isSum (op : Operator) : Bool :=
  !isProduct op

/-- Sums of products of the given operands. -/
def expression (operand : Reader) : Reader :=
  chain isSum (chain isProduct operand)

/-- A formula up to a closing parenthesis, which is taken off too. -/
def closed (inner : Reader) : Reader := fun ts =>
  match inner ts with
  | .error fault => .error fault
  | .ok (tree, ⟨.closing :: rest, hrest⟩) =>
    .ok (tree, ⟨rest, by simp only [List.length_cons] at hrest; omega⟩)
  | .ok (_, ⟨[], _⟩) => .error .unclosed
  | .ok (_, ⟨t :: _, _⟩) => .error (.misplaced .insteadOfClosing t)

/-- A single operand under fewer than the given number of further parentheses and negations. -/
def operand : Nat → Reader
  | 0, _ => .error .nestedTooDeeply
  | _ + 1, [] => .error .unexpectedEnd
  | _ + 1, .number x :: rest => .ok (.number x, ⟨rest, Nat.lt_succ_self _⟩)
  | _ + 1, .cell a :: rest => .ok (.cell a, ⟨rest, Nat.lt_succ_self _⟩)
  | _ + 1, .call f r :: rest => .ok (.aggregate f r, ⟨rest, Nat.lt_succ_self _⟩)
  | depth + 1, .operator .sub :: ts =>
    match operand depth ts with
    | .error fault => .error fault
    | .ok (tree, ⟨rest, hrest⟩) => .ok (.negation tree, ⟨rest, Nat.lt_succ_of_lt hrest⟩)
  | depth + 1, .opening :: ts =>
    match closed (expression (operand depth)) ts with
    | .error fault => .error fault
    | .ok (tree, ⟨rest, hrest⟩) => .ok (tree, ⟨rest, Nat.lt_succ_of_lt hrest⟩)
  | _ + 1, t :: _ => .error (.misplaced .asOperand t)

end Reader

/-- The largest number of parentheses and negations around any part of a formula. -/
def nestingLimit : Nat :=
  256

namespace Tree

/-- The tree of a formula's tokens, all of which belong to it. -/
def ofTokens (ts : List Token) : Except Fault Tree :=
  if ts.isEmpty then .error .emptyFormula
  else
    match Reader.expression (Reader.operand (nestingLimit + 1)) ts with
    | .error fault => .error fault
    | .ok (tree, ⟨[], _⟩) => .ok tree
    | .ok (_, ⟨t :: _, _⟩) => .error (.misplaced .afterExpression t)

/-- The tree of the body of a formula. -/
def ofBody (body : List Char) : Except Fault Tree :=
  match Token.scan body with
  | .error fault => .error fault
  | .ok ts => ofTokens ts

end Tree

end LessonGrid
