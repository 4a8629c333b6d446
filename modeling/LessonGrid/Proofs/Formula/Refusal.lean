import LessonGrid.Proofs.Formula.Reader
import LessonGrid.Proofs.Formula.Scan

/-!
# Why a formula is not read

Scanning fails only where the text is outside the formula language. Once it has its tokens, a formula
is refused for its shape alone: it is empty, it ends too early, it is nested too deeply, or one of
its own tokens is misplaced.

Main statements: `shape_of_ofTokens_error` and `kind_of_ofBody_error`.
-/

set_option autoImplicit false

namespace LessonGrid

/-- A fault in the shape of an expression made of the given tokens. -/
def Fault.OfShape (ts : List Token) : Fault → Prop
  | .misplaced _ t => t ∈ ts
  | .emptyFormula => True
  | .unexpectedEnd => True
  | .unclosed => True
  | .nestedTooDeeply => True
  | _ => False

theorem Fault.OfShape.mono {ts us : List Token} {fault : Fault} (h : fault.OfShape ts)
    (hsub : ts ⊆ us) : fault.OfShape us := by
  cases fault with
  | misplaced place t => exact hsub h
  | _ => exact h

theorem Fault.OfShape.kind_cases {ts : List Token} {fault : Fault} (h : fault.OfShape ts) :
    fault.kind = .language ∨ fault.kind = .evaluation := by
  cases fault with
  | misplaced place t => cases t <;> simp [kind]
  | circular => exact h.elim
  | overflow => exact h.elim
  | _ => simp [kind]

namespace Reader

/-- The reader takes tokens off the front only, and refuses what it reads for its shape. -/
structure Orderly (p : Reader) : Prop where
  suffix : ∀ {ts rest : List Token} {t : Tree}, p.Takes ts t rest → rest <:+ ts
  shape : ∀ {ts : List Token} {fault : Fault}, p ts = .error fault → fault.OfShape ts

theorem Joins.suffix {level : Operator → Bool} {p : Reader} (hp : p.Orderly) {left t : Tree}
    {ts rest : List Token} (h : Joins level p left ts t rest) : rest <:+ ts := by
  induction h with
  | stop _ => exact List.suffix_refl _
  | @more left right t op after mid rest _ hright _ ih =>
    have hmid : mid <:+ after := hp.suffix hright
    exact (ih.trans hmid).trans (List.suffix_cons _ _)

theorem shape_of_chainFrom_error {level : Operator → Bool} {p : Reader} (hp : p.Orderly)
    {left : Tree} {ts : List Token} {fault : Fault} (h : chainFrom level p left ts = .error fault) :
    fault.OfShape ts := by
  induction left, ts using chainFrom.induct level p with
  | case1 left op after hop fault' hright =>
    rw [chainFrom, if_pos hop, hright] at h
    cases h
    exact (hp.shape hright).mono (List.subset_cons_self _ _)
  | case2 left op after hop right mid hmid hright fault' hjoin ih =>
    rw [chainFrom, if_pos hop, hright] at h
    simp only [hjoin] at h
    cases h
    have hsuffix : mid <:+ after := hp.suffix ⟨hmid, hright⟩
    exact (ih hjoin).mono (List.subset_cons_of_subset _ hsuffix.subset)
  | case3 left op after hop right mid hmid hright t' rest' hrest' hjoin ih =>
    rw [chainFrom, if_pos hop, hright] at h
    simp only [hjoin] at h
    cases h
  | case4 left op after hop =>
    rw [chainFrom, if_neg hop] at h
    cases h
  | case5 left ts hts =>
    rw [chainFrom.eq_2 level p left ts hts] at h
    cases h

theorem Orderly.chain {p : Reader} (hp : p.Orderly) (level : Operator → Bool) :
    (chain level p).Orderly where
  suffix := by
    intro ts rest t h
    obtain ⟨left, mid, hleft, hjoin⟩ := takes_chain_iff.mp h
    have hmid : mid <:+ ts := hp.suffix hleft
    exact (hjoin.suffix hp).trans hmid
  shape := by
    intro ts fault h
    unfold Reader.chain at h
    split at h
    · next fault' hleft =>
      cases h
      exact hp.shape hleft
    · next left mid hmid hleft =>
      have hsuffix : mid <:+ ts := hp.suffix ⟨hmid, hleft⟩
      split at h
      · next fault' hjoin =>
        cases h
        exact (shape_of_chainFrom_error hp hjoin).mono hsuffix.subset
      · cases h

theorem Orderly.closed {p : Reader} (hp : p.Orderly) : (closed p).Orderly where
  suffix := by
    intro ts rest t h
    have hclosing : .closing :: rest <:+ ts := hp.suffix (takes_closed_iff.mp h)
    exact (List.suffix_cons _ _).trans hclosing
  shape := by
    intro ts fault h
    unfold Reader.closed at h
    split at h
    · next fault' hinner =>
      cases h
      exact hp.shape hinner
    · cases h
    · cases h
      trivial
    · next t' token rest hrest _ hinner =>
      cases h
      have hsuffix : token :: rest <:+ ts := hp.suffix ⟨hrest, hinner⟩
      exact hsuffix.subset List.mem_cons_self

/-- An operand is refused for its first token, or for what stands under a parenthesis or a negation. -/
theorem shape_of_operand_error {depth : Nat} (hp : (operand depth).Orderly)
    (hexpression : (expression (operand depth)).Orderly) {ts : List Token} {fault : Fault}
    (h : operand (depth + 1) ts = .error fault) : fault.OfShape ts := by
  cases ts with
  | nil => cases h; trivial
  | cons token after =>
    cases token with
    | number x => cases h
    | cell a => cases h
    | call f r => cases h
    | operator op =>
      cases op with
      | sub =>
        unfold operand at h
        split at h
        · next fault' hinner =>
          cases h
          exact (hp.shape hinner).mono (List.subset_cons_self _ _)
        · cases h
      | add => cases h; exact List.mem_cons_self
      | mul => cases h; exact List.mem_cons_self
      | div => cases h; exact List.mem_cons_self
    | opening =>
      unfold operand at h
      split at h
      · next fault' hclosed =>
        cases h
        exact (hexpression.closed.shape hclosed).mono (List.subset_cons_self _ _)
      · cases h
    | closing => cases h; exact List.mem_cons_self
    | colon => cases h; exact List.mem_cons_self
    | point => cases h; exact List.mem_cons_self

theorem orderly_operand (depth : Nat) : (operand depth).Orderly := by
  induction depth with
  | zero =>
    refine ⟨fun h => absurd h takes_operand_zero, ?_⟩
    intro ts fault h
    cases h
    trivial
  | succ depth ih =>
    have hexpression : (expression (operand depth)).Orderly := (ih.chain isProduct).chain isSum
    constructor
    · intro ts rest t h
      rcases takes_operand_succ_iff.mp h with ⟨x, rfl, _⟩ | ⟨a, rfl, _⟩ | ⟨f, r, rfl, _⟩ |
        ⟨after, inner, rfl, _, hinner⟩ | ⟨after, rfl, hinner⟩
      · exact List.suffix_cons _ _
      · exact List.suffix_cons _ _
      · exact List.suffix_cons _ _
      · have hafter : rest <:+ after := ih.suffix hinner
        exact hafter.trans (List.suffix_cons _ _)
      · have hclosing : .closing :: rest <:+ after := hexpression.suffix hinner
        have hafter : rest <:+ after := (List.suffix_cons _ _).trans hclosing
        exact hafter.trans (List.suffix_cons _ _)
    · intro ts fault h
      exact shape_of_operand_error ih hexpression h

end Reader

/-- A formula that has tokens is refused for its shape. -/
theorem shape_of_ofTokens_error {ts : List Token} {fault : Fault}
    (h : Tree.ofTokens ts = .error fault) : fault.OfShape ts := by
  have hexpression : (Reader.expression (Reader.operand (nestingLimit + 1))).Orderly :=
    ((Reader.orderly_operand _).chain Reader.isProduct).chain Reader.isSum
  unfold Tree.ofTokens at h
  split at h
  · cases h
    trivial
  · split at h
    · next fault' hread =>
      cases h
      exact hexpression.shape hread
    · cases h
    · next t token rest hrest hread =>
      cases h
      have hsuffix : token :: rest <:+ ts := hexpression.suffix ⟨hrest, hread⟩
      exact hsuffix.subset List.mem_cons_self

/-- Reading a formula never comes to a circular reference, and never stops the program. -/
theorem kind_of_ofBody_error {body : List Char} {fault : Fault}
    (h : Tree.ofBody body = .error fault) :
    fault.kind = .language ∨ fault.kind = .evaluation := by
  unfold Tree.ofBody at h
  split at h
  · next fault' hscan =>
    cases h
    exact .inl (Token.kind_of_scan_error hscan)
  · exact (shape_of_ofTokens_error h).kind_cases

end LessonGrid
