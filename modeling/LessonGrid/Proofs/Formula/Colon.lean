import LessonGrid.Proofs.Formula.Grammar

/-!
# Which colons are found

A formula is read from left to right and refused at the first token that cannot stand where it is. A
colon can stand nowhere, so it is the fault of a formula exactly when everything in front of it could
have been the front of some formula: such a front is read through to the colon, and from any other one
the reader does not come as far.

Main statement: `ofTokens_blames_colon_iff`.
-/

set_option autoImplicit false

namespace LessonGrid

open Reader

/-- The tokens are the front of a phrase: more tokens, or none, make one of them. -/
def Begins (limit : Nat) (phrase : Phrase) (under : Nat) (ts : List Token) : Prop :=
  ∃ us t, Derives limit phrase under (ts ++ us) t

theorem begins_of_derives {limit under : Nat} {phrase : Phrase} {ts : List Token} {t : Tree}
    (h : Derives limit phrase under ts t) : Begins limit phrase under ts :=
  ⟨[], t, by simpa using h⟩

/-- Anything at all may follow where an operand is to begin. -/
theorem begins_nil {limit under : Nat} (hle : under ≤ limit) : Begins limit .operand under [] :=
  ⟨[.number 0], .number 0, .number 0 hle⟩

namespace Begins

variable {limit under : Nat} {op : Operator} {us ts : List Token} {t : Tree}

theorem product (h : Begins limit .operand under ts) : Begins limit .product under ts := by
  obtain ⟨us, t, h⟩ := h
  exact ⟨us, t, .operand h⟩

theorem sum (h : Begins limit .product under ts) : Begins limit .sum under ts := by
  obtain ⟨us, t, h⟩ := h
  exact ⟨us, t, .product h⟩

theorem times (hleft : Derives limit .product under us t) (hop : isProduct op = true)
    (h : Begins limit .operand under ts) : Begins limit .product under (us ++ .operator op :: ts) := by
  obtain ⟨vs, r, h⟩ := h
  refine ⟨vs, .binary op t r, ?_⟩
  simpa using Derives.times (isProduct_eq_true_iff.mp hop) hleft h

theorem plus (hleft : Derives limit .sum under us t) (hop : isSum op = true)
    (h : Begins limit .product under ts) : Begins limit .sum under (us ++ .operator op :: ts) := by
  obtain ⟨vs, r, h⟩ := h
  refine ⟨vs, .binary op t r, ?_⟩
  simpa using Derives.plus (isSum_eq_true_iff.mp hop) hleft h

theorem negation (hle : under ≤ limit) (h : Begins limit .operand (under + 1) ts) :
    Begins limit .operand under (.operator .sub :: ts) := by
  obtain ⟨us, t, h⟩ := h
  exact ⟨us, .negation t, .negation hle h⟩

theorem parentheses (hle : under ≤ limit) (h : Begins limit .sum (under + 1) ts) :
    Begins limit .operand under (.opening :: ts) := by
  obtain ⟨us, t, h⟩ := h
  refine ⟨us ++ [.closing], t, ?_⟩
  simpa using Derives.parentheses hle h

end Begins

/-! ## A colon that is blamed stands behind the front of a phrase -/

/-- Whenever the reader blames a colon, what it has read up to there satisfies the condition. -/
def Reader.BlamesColonBehind (p : Reader) (B : List Token → Prop) : Prop :=
  ∀ ts place, p ts = .error (.misplaced place .colon) →
    ∃ front back, ts = front ++ .colon :: back ∧ B front

/-- A chain blames a colon for one of its operands, and what it has joined up to there is a chain too. -/
theorem blames_chainFrom {level : Operator → Bool} {p : Reader} {P C : List Token → Tree → Prop}
    {B D : List Token → Prop} (hp : Sound p P) (hblames : p.BlamesColonBehind B)
    (hmore : ∀ us vs op l r, C us l → level op = true → P vs r →
      C (us ++ .operator op :: vs) (.binary op l r))
    (hbegins : ∀ us vs op l, C us l → level op = true → B vs → D (us ++ .operator op :: vs))
    {left : Tree} {ts : List Token} {place : Misplacement}
    (h : chainFrom level p left ts = .error (.misplaced place .colon)) :
    ∀ us, C us left → ∃ front back, ts = front ++ .colon :: back ∧ D (us ++ front) := by
  induction left, ts using chainFrom.induct level p with
  | case1 left op after hop fault hright =>
    intro us hleft
    rw [chainFrom, if_pos hop, hright] at h
    cases h
    obtain ⟨front, back, rfl, hfront⟩ := hblames _ _ hright
    exact ⟨.operator op :: front, back, rfl, hbegins us front op left hleft hop hfront⟩
  | case2 left op after hop right mid hmid hright fault hjoin ih =>
    intro us hleft
    rw [chainFrom, if_pos hop, hright] at h
    simp only [hjoin] at h
    cases h
    obtain ⟨ws, rfl, hws⟩ := hp _ _ _ ⟨hmid, hright⟩
    obtain ⟨front, back, rfl, hfront⟩ := ih hjoin _ (hmore us ws op left right hleft hop hws)
    refine ⟨.operator op :: (ws ++ front), back, by simp, ?_⟩
    simpa using hfront
  | case3 left op after hop right mid hmid hright t rest hrest hjoin ih =>
    rw [chainFrom, if_pos hop, hright] at h
    simp only [hjoin] at h
    cases h
  | case4 left op after hop =>
    rw [chainFrom, if_neg hop] at h
    cases h
  | case5 left ts hts =>
    rw [chainFrom.eq_2 level p left ts hts] at h
    cases h

theorem blames_chain {level : Operator → Bool} {p : Reader} {P C : List Token → Tree → Prop}
    {B D : List Token → Prop} (hp : Sound p P) (hblames : p.BlamesColonBehind B)
    (hone : ∀ us t, P us t → C us t) (hbegin : ∀ us, B us → D us)
    (hmore : ∀ us vs op l r, C us l → level op = true → P vs r →
      C (us ++ .operator op :: vs) (.binary op l r))
    (hbegins : ∀ us vs op l, C us l → level op = true → B vs → D (us ++ .operator op :: vs)) :
    (chain level p).BlamesColonBehind D := by
  intro ts place h
  unfold chain at h
  split at h
  · next fault hleft =>
    cases h
    obtain ⟨front, back, rfl, hfront⟩ := hblames _ _ hleft
    exact ⟨front, back, rfl, hbegin front hfront⟩
  · next left mid hmid hleft =>
    obtain ⟨us, rfl, hus⟩ := hp _ _ _ ⟨hmid, hleft⟩
    split at h
    · next fault hjoin =>
      cases h
      obtain ⟨front, back, rfl, hfront⟩ :=
        blames_chainFrom hp hblames hmore hbegins hjoin us (hone us left hus)
      exact ⟨us ++ front, back, by simp, hfront⟩
    · cases h

theorem blames_expression {limit under : Nat} {p : Reader}
    (hp : Sound p (Derives limit .operand under))
    (hblames : p.BlamesColonBehind (Begins limit .operand under)) :
    (expression p).BlamesColonBehind (Begins limit .sum under) := by
  have hproduct : Sound (chain isProduct p) (Derives limit .product under) :=
    chain_sound hp (fun _ _ => .operand) fun _ _ _ _ _ hl hop hr =>
      .times (isProduct_eq_true_iff.mp hop) hl hr
  have hblamesProduct : (chain isProduct p).BlamesColonBehind (Begins limit .product under) :=
    blames_chain hp hblames (fun _ _ => .operand) (fun _ => Begins.product)
      (fun _ _ _ _ _ hl hop hr => .times (isProduct_eq_true_iff.mp hop) hl hr)
      (fun _ _ _ _ hl hop h => h.times hl hop)
  exact blames_chain hproduct hblamesProduct (fun _ _ => .product) (fun _ => Begins.sum)
    (fun _ _ _ _ _ hl hop hr => .plus (isSum_eq_true_iff.mp hop) hl hr)
    (fun _ _ _ _ hl hop h => h.plus hl hop)

/-- Before a closing parenthesis the colon is blamed by the formula inside, or stands in place of the
parenthesis. -/
theorem blames_closed {p : Reader} {C : List Token → Tree → Prop} {D : List Token → Prop}
    (hp : Sound p C) (hblames : p.BlamesColonBehind D) (hwhole : ∀ us t, C us t → D us) :
    (closed p).BlamesColonBehind D := by
  intro ts place h
  unfold closed at h
  split at h
  · next fault hinner =>
    cases h
    exact hblames _ _ hinner
  · cases h
  · cases h
  · next t token rest hrest _ hinner =>
    cases h
    obtain ⟨us, rfl, hus⟩ := hp _ _ _ ⟨hrest, hinner⟩
    exact ⟨us, rest, rfl, hwhole us t hus⟩

theorem blames_operand (limit : Nat) : ∀ depth under, under + depth = limit + 1 →
    (operand depth).BlamesColonBehind (Begins limit .operand under) := by
  intro depth
  induction depth with
  | zero =>
    intro under _ ts place h
    cases h
  | succ depth ih =>
    intro under hunder ts place h
    have hle : under ≤ limit := by omega
    have hsound : Sound (operand depth) (Derives limit .operand (under + 1)) :=
      operand_sound limit depth (under + 1) (by omega)
    have hdeeper := ih (under + 1) (by omega)
    cases ts with
    | nil => cases h
    | cons token after =>
      cases token with
      | number x => cases h
      | cell a => cases h
      | call f r => cases h
      | operator op =>
        cases op with
        | sub =>
          unfold operand at h
          split at h
          · next fault hinner =>
            cases h
            obtain ⟨front, back, rfl, hfront⟩ := hdeeper _ _ hinner
            exact ⟨.operator .sub :: front, back, rfl, hfront.negation hle⟩
          · cases h
        | add => cases h
        | mul => cases h
        | div => cases h
      | opening =>
        unfold operand at h
        split at h
        · next fault hclosed =>
          cases h
          have hblames := blames_closed (expression_sound hsound)
            (blames_expression hsound hdeeper) fun _ _ => begins_of_derives
          obtain ⟨front, back, rfl, hfront⟩ := hblames _ _ hclosed
          exact ⟨.opening :: front, back, rfl, hfront.parentheses hle⟩
        · cases h
      | closing => cases h
      | colon => exact ⟨[], after, rfl, begins_nil hle⟩
      | point => cases h

/-! ## A colon behind the front of a phrase is found -/

/-- The reader refuses the tokens with the fault. -/
def Reader.Refuses (p : Reader) (ts : List Token) (fault : Fault) : Prop :=
  p ts = .error fault

/-- A chain whose first operands make the tree `left` comes to the fault further on. -/
def Reader.Breaks (level : Operator → Bool) (p : Reader) (left : Tree) (ts : List Token)
    (fault : Fault) : Prop :=
  chainFrom level p left ts = .error fault

section Faults

variable {level : Operator → Bool} {p : Reader} {left right : Tree} {op : Operator}
  {ts mid after : List Token} {fault : Fault}

theorem Reader.Refuses.chain (h : p.Refuses ts fault) : (chain level p).Refuses ts fault := by
  unfold Refuses at h ⊢
  simp only [Reader.chain, h]

theorem Reader.Breaks.chain (hfirst : p.Takes ts left mid) (h : Breaks level p left mid fault) :
    (Reader.chain level p).Refuses ts fault := by
  obtain ⟨_, hfirst⟩ := hfirst
  unfold Breaks at h
  simp only [Refuses, Reader.chain, hfirst, h]

theorem breaks_of_refuses (hop : level op = true) (h : p.Refuses after fault) :
    Breaks level p left (.operator op :: after) fault := by
  unfold Refuses at h
  rw [Breaks, chainFrom, if_pos hop, h]

theorem Reader.Breaks.more (hop : level op = true) (hright : p.Takes after right mid)
    (h : Breaks level p (.binary op left right) mid fault) :
    Breaks level p left (.operator op :: after) fault := by
  obtain ⟨_, hright⟩ := hright
  unfold Breaks at h
  rw [Breaks, chainFrom, if_pos hop, hright]
  simp only [h]

theorem refuses_negation {depth : Nat} (h : (operand depth).Refuses ts fault) :
    (operand (depth + 1)).Refuses (.operator .sub :: ts) fault := by
  unfold Refuses at h
  simp only [Refuses, operand, h]

theorem refuses_opening {depth : Nat} (h : (closed (expression (operand depth))).Refuses ts fault) :
    (operand (depth + 1)).Refuses (.opening :: ts) fault := by
  unfold Refuses at h
  simp only [Refuses, operand, h]

theorem Reader.Refuses.closed (h : p.Refuses ts fault) : (closed p).Refuses ts fault := by
  unfold Refuses at h
  simp only [Refuses, Reader.closed, h]

theorem refuses_closed_of_takes {t : Tree} (h : p.Takes ts t (.colon :: after)) :
    (closed p).Refuses ts (.misplaced .insteadOfClosing .colon) := by
  obtain ⟨_, h⟩ := h
  simp only [Refuses, closed, h]

end Faults

/-- How a fault comes about behind the tokens of a phrase: where going on from the tree of a sum or a
product comes to a fault, so does reading from its first token on. -/
def FailsAs (depth : Nat) : Phrase → List Token → Tree → Prop
  | .operand, _, _ => True
  | .product, us, t => ∀ rest fault, Breaks isProduct (operand depth) t rest fault →
      (chain isProduct (operand depth)).Refuses (us ++ rest) fault
  | .sum, us, t => ∀ rest fault, Stops isProduct rest →
      Breaks isSum (chain isProduct (operand depth)) t rest fault →
      (expression (operand depth)).Refuses (us ++ rest) fault

theorem failsAs_of_derives {limit under : Nat} {phrase : Phrase} {us : List Token} {t : Tree}
    (h : Derives limit phrase under us t) :
    ∀ depth, under + depth = limit + 1 → FailsAs depth phrase us t := by
  induction h with
  | number _ _ => exact fun _ _ => trivial
  | cell _ _ => exact fun _ _ => trivial
  | call _ _ _ => exact fun _ _ => trivial
  | parentheses _ _ _ => exact fun _ _ => trivial
  | negation _ _ _ => exact fun _ _ => trivial
  | operand hoperand _ =>
    intro depth hdepth rest fault hfault
    exact hfault.chain (readAs_of_derives hoperand depth hdepth rest)
  | @times under op us vs left right hop _ hright ih _ =>
    intro depth hdepth rest fault hfault
    have htakes := readAs_of_derives hright depth hdepth rest
    simpa using ih depth hdepth _ _ (hfault.more (isProduct_eq_true_iff.mpr hop) htakes)
  | product hproduct _ =>
    intro depth hdepth rest fault hrest hfault
    exact hfault.chain ((readAs_of_derives hproduct depth hdepth).takes_product hrest)
  | @plus under op us vs left right hop _ hright ih _ =>
    intro depth hdepth rest fault hrest hfault
    have hsum : isSum op = true := isSum_eq_true_iff.mpr hop
    have htakes := (readAs_of_derives hright depth hdepth).takes_product hrest
    have hstops := stops_operator (isProduct_eq_false_of_isSum hsum) (vs ++ rest)
    simpa using ih depth hdepth _ _ hstops (hfault.more hsum htakes)

/-- Behind the tokens stands a colon, and the reader blames it or stops right in front of it. -/
def Reader.ComesToColon (p : Reader) (front : List Token) : Prop :=
  ∀ back, (∃ place, p.Refuses (front ++ .colon :: back) (.misplaced place .colon)) ∨
    ∃ t, p.Takes (front ++ .colon :: back) t (.colon :: back)

theorem stops_colon (level : Operator → Bool) (ts : List Token) : Stops level (.colon :: ts) := by
  intro op after h
  cases h

/-- The reader of a phrase. -/
def Phrase.reader (depth : Nat) : Phrase → Reader
  | .operand => Reader.operand depth
  | .product => chain isProduct (Reader.operand depth)
  | .sum => expression (Reader.operand depth)

/-- A front of two pieces with an item between them is a front of the first one, or goes past the item
into the second one. -/
theorem prefix_append_cons_cases {α : Type} {front us vs : List α} {a : α}
    (h : front <+: us ++ a :: vs) :
    front <+: us ∨ ∃ front', front = us ++ a :: front' ∧ front' <+: vs := by
  obtain ⟨back, h⟩ := h
  rcases List.append_eq_append_iff.mp h with ⟨ws, rfl, _⟩ | ⟨ws, rfl, hws⟩
  · exact .inl (List.prefix_append _ _)
  · rcases List.prefix_cons_iff.mp ⟨back, hws.symm⟩ with rfl | ⟨front', rfl, hfront⟩
    · exact .inl (by simp)
    · exact .inr ⟨front', rfl, hfront⟩

theorem Reader.ComesToColon.chain {level : Operator → Bool} {p : Reader} {front : List Token}
    (h : p.ComesToColon front) : (chain level p).ComesToColon front := by
  intro back
  rcases h back with ⟨place, hfault⟩ | ⟨t, htakes⟩
  · exact .inl ⟨place, hfault.chain⟩
  · exact .inr ⟨t, takes_chain_iff.mpr ⟨t, _, htakes, .stop (stops_colon level back)⟩⟩

theorem comesToColon_nil (depth : Nat) : (operand (depth + 1)).ComesToColon [] :=
  fun _ => .inl ⟨.asOperand, rfl⟩

/-- A front of a single token is nothing or the token. -/
theorem comesToColon_singleton {depth : Nat} {token : Token} {t : Tree} {front : List Token}
    (h : ∀ rest, (operand (depth + 1)).Takes (token :: rest) t rest) (hfront : front <+: [token]) :
    (operand (depth + 1)).ComesToColon front := by
  rcases List.prefix_cons_iff.mp hfront with rfl | ⟨rest, rfl, hrest⟩
  · exact comesToColon_nil depth
  · obtain rfl := List.prefix_nil.mp hrest
    exact fun back => .inr ⟨t, h _⟩

/-- Behind any front of a phrase the colon is come to. The induction is on the derivation of the phrase:
the colon stands in the last of its pieces that the front reaches into, and the pieces before it are read
as a whole. -/
theorem comesToColon_of_derives {limit under : Nat} {phrase : Phrase} {us : List Token} {t : Tree}
    (h : Derives limit phrase under us t) : ∀ depth, under + depth = limit + 1 →
      ∀ front, front <+: us → (phrase.reader depth).ComesToColon front := by
  induction h with
  | number x hle =>
    intro depth hdepth front hfront
    obtain ⟨depth, rfl⟩ := exists_eq_succ_of_le_limit hle hdepth
    exact comesToColon_singleton (takes_operand_number depth x) hfront
  | cell a hle =>
    intro depth hdepth front hfront
    obtain ⟨depth, rfl⟩ := exists_eq_succ_of_le_limit hle hdepth
    exact comesToColon_singleton (takes_operand_cell depth a) hfront
  | call f r hle =>
    intro depth hdepth front hfront
    obtain ⟨depth, rfl⟩ := exists_eq_succ_of_le_limit hle hdepth
    exact comesToColon_singleton (takes_operand_call depth f r) hfront
  | @parentheses under us t hle hinner ih =>
    intro depth hdepth front hfront
    obtain ⟨depth, rfl⟩ := exists_eq_succ_of_le_limit hle hdepth
    rcases List.prefix_cons_iff.mp hfront with rfl | ⟨front, rfl, hinside⟩
    · exact comesToColon_nil depth
    intro back
    rcases prefix_append_cons_cases hinside with hinside | ⟨front, rfl, hbehind⟩
    · rcases ih depth (by omega) front hinside back with ⟨place, hfault⟩ | ⟨t', htakes⟩
      · exact .inl ⟨place, refuses_opening hfault.closed⟩
      · exact .inl ⟨_, refuses_opening (refuses_closed_of_takes htakes)⟩
    · obtain rfl := List.prefix_nil.mp hbehind
      have hinside := (readAs_of_derives hinner depth (by omega)).takes_sum
        (stops_closing isProduct (.colon :: back)) (stops_closing isSum (.colon :: back))
      exact .inr ⟨t, by simpa [Phrase.reader] using takes_operand_opening hinside⟩
  | negation hle _ ih =>
    intro depth hdepth front hfront
    obtain ⟨depth, rfl⟩ := exists_eq_succ_of_le_limit hle hdepth
    rcases List.prefix_cons_iff.mp hfront with rfl | ⟨front, rfl, hbehind⟩
    · exact comesToColon_nil depth
    intro back
    rcases ih depth (by omega) front hbehind back with ⟨place, hfault⟩ | ⟨t', htakes⟩
    · exact .inl ⟨place, refuses_negation hfault⟩
    · exact .inr ⟨_, takes_operand_negation htakes⟩
  | operand _ ih =>
    intro depth hdepth front hfront
    exact (ih depth hdepth front hfront).chain
  | @times under op us vs left right hop hleft _ ihleft ihright =>
    intro depth hdepth front hfront
    have hproduct : isProduct op = true := isProduct_eq_true_iff.mpr hop
    rcases prefix_append_cons_cases hfront with hfront | ⟨front, rfl, hbehind⟩
    · exact ihleft depth hdepth front hfront
    intro back
    -- The left factor does not stop the reader, so what becomes of the right one becomes of the chain.
    rcases ihright depth hdepth front hbehind back with ⟨place, hfault⟩ | ⟨t, htakes⟩
    · have hbreaks : Breaks isProduct (Reader.operand depth) left
          (.operator op :: (front ++ .colon :: back)) _ := breaks_of_refuses hproduct hfault
      exact .inl ⟨place,
        by simpa [Phrase.reader] using failsAs_of_derives hleft depth hdepth _ _ hbreaks⟩
    · have hjoins : Joins isProduct (Reader.operand depth) left
          (.operator op :: (front ++ .colon :: back)) _ _ :=
        .more hproduct htakes (.stop (stops_colon _ back))
      exact .inr ⟨_,
        by simpa [Phrase.reader] using readAs_of_derives hleft depth hdepth _ _ _ hjoins⟩
  | product _ ih =>
    intro depth hdepth front hfront
    exact (ih depth hdepth front hfront).chain
  | @plus under op us vs left right hop hleft _ ihleft ihright =>
    intro depth hdepth front hfront
    have hsum : isSum op = true := isSum_eq_true_iff.mpr hop
    rcases prefix_append_cons_cases hfront with hfront | ⟨front, rfl, hbehind⟩
    · exact ihleft depth hdepth front hfront
    intro back
    have hstops := stops_operator (isProduct_eq_false_of_isSum hsum) (front ++ .colon :: back)
    rcases ihright depth hdepth front hbehind back with ⟨place, hfault⟩ | ⟨t, htakes⟩
    · have hbreaks : Breaks isSum (chain isProduct (Reader.operand depth)) left
          (.operator op :: (front ++ .colon :: back)) _ := breaks_of_refuses hsum hfault
      exact .inl ⟨place,
        by simpa [Phrase.reader] using failsAs_of_derives hleft depth hdepth _ _ hstops hbreaks⟩
    · have hjoins : Joins isSum (chain isProduct (Reader.operand depth)) left
          (.operator op :: (front ++ .colon :: back)) _ _ :=
        .more hsum htakes (.stop (stops_colon _ back))
      exact .inr ⟨_,
        by simpa [Phrase.reader] using readAs_of_derives hleft depth hdepth _ _ _ hstops hjoins⟩

/-! ## The colons of whole formulas -/

theorem Begins.colon_not_mem {limit under : Nat} {phrase : Phrase} {ts : List Token}
    (h : Begins limit phrase under ts) : Token.colon ∉ ts := by
  obtain ⟨us, t, h⟩ := h
  exact fun hmem => (mark_not_mem_of_derives h).1 (List.mem_append_left _ hmem)

theorem takeWhile_ne_colon {front : List Token} (back : List Token) (h : Token.colon ∉ front) :
    (front ++ .colon :: back).takeWhile (· ≠ .colon) = front := by
  have hfront : ∀ t ∈ front, decide (t ≠ Token.colon) = true := by
    intro t ht
    exact decide_eq_true fun heq => h (heq ▸ ht)
  rw [List.takeWhile_append_of_pos hfront, List.takeWhile_cons_of_neg (by simp), List.append_nil]

/-- A colon is blamed exactly when there is one and the tokens in front of the first one are the front
of a formula. -/
theorem ofTokens_blames_colon_iff {ts : List Token} :
    (∃ place, Tree.ofTokens ts = .error (.misplaced place .colon)) ↔
      .colon ∈ ts ∧ Begins nestingLimit .sum 0 (ts.takeWhile (· ≠ .colon)) := by
  have hsound := operand_sound nestingLimit (nestingLimit + 1) 0 (Nat.zero_add _)
  constructor
  · rintro ⟨place, h⟩
    have hfound : ∃ front back, ts = front ++ .colon :: back ∧ Begins nestingLimit .sum 0 front := by
      unfold Tree.ofTokens at h
      split at h
      · cases h
      · split at h
        · next fault hread =>
          cases h
          exact blames_expression hsound (blames_operand _ _ _ (Nat.zero_add _)) _ _ hread
        · cases h
        · next t token rest hrest hread =>
          cases h
          obtain ⟨us, rfl, hus⟩ := expression_sound hsound _ _ _ ⟨hrest, hread⟩
          exact ⟨us, rest, rfl, begins_of_derives hus⟩
    obtain ⟨front, back, rfl, hfront⟩ := hfound
    rw [takeWhile_ne_colon back hfront.colon_not_mem]
    exact ⟨by simp, hfront⟩
  · rintro ⟨hmem, hbegins⟩
    obtain ⟨front, back, rfl, hfront⟩ := List.eq_append_cons_of_mem hmem
    rw [takeWhile_ne_colon back hfront] at hbegins
    obtain ⟨us, t, hderives⟩ := hbegins
    have hne : (front ++ Token.colon :: back).isEmpty = false := by simp
    rcases comesToColon_of_derives hderives (nestingLimit + 1) (Nat.zero_add _) front
      (List.prefix_append _ _) back with ⟨place, hfault⟩ | ⟨t', _, htakes⟩
    · unfold Refuses Phrase.reader at hfault
      exact ⟨place, by simp only [Tree.ofTokens, hne, hfault, Bool.false_eq_true, if_false]⟩
    · unfold Phrase.reader at htakes
      exact ⟨.afterExpression, by
        simp only [Tree.ofTokens, hne, htakes, Bool.false_eq_true, if_false]⟩

end LessonGrid
