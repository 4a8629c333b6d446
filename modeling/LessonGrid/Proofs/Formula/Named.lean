import LessonGrid.Proofs.Cell.Reading
import LessonGrid.Proofs.Formula.Grammar
import LessonGrid.Proofs.Formula.Refusal
import LessonGrid.Proofs.Formula.Words

/-!
# What formulas name

The cells and ranges of a formula come from its tokens, and these from words that are read as addresses.
So whatever a formula refers to can be named by a formula, and neither its tree nor the message of a
fault in it leads to the last row of all, which has no number.

Main statements: `references_of_derives`, `nameable_of_ofBody` and `exists_message?_of_ofBody_error`.
-/

set_option autoImplicit false

namespace LessonGrid

/-- The cell, or the ends of the range, can be named by a formula. -/
def Reference.Nameable : Reference → Prop
  | cell a => a.Nameable
  | range r => r.first.Nameable ∧ r.last.Nameable

theorem Reference.Nameable.exists_text? {ref : Reference} (h : ref.Nameable) :
    ∃ text, ref.text? = some text := by
  cases ref with
  | cell a => exact Address.Nameable.exists_text? h
  | range r =>
    obtain ⟨text, htext, _⟩ := Range.exists_text?_of_nameable h.1 h.2
    exact ⟨text, htext⟩

namespace Token

/-- What a token refers to. -/
def reference? : Token → Option Reference
  | cell a => some (.cell a)
  | call _ r => some (.range r)
  | _ => none

/-- What the token refers to can be named by a formula. -/
def Nameable (t : Token) : Prop :=
  ∀ ref, t.reference? = some ref → ref.Nameable

theorem nameable_of_reference?_eq_none {t : Token} (h : t.reference? = none) : t.Nameable :=
  fun ref href => by cases h.symm.trans href

/-- Messages can speak of every token that refers to what a formula can name. -/
theorem Nameable.exists_describe? {t : Token} (h : t.Nameable) :
    ∃ description, t.describe? = some description := by
  cases t with
  | cell a =>
    obtain ⟨text, htext⟩ := (h _ rfl).exists_text?
    exact ⟨_, by rw [describe?, show a.text? = some text from htext]; rfl⟩
  | call f r =>
    obtain ⟨text, htext⟩ := (h _ rfl).exists_text?
    exact ⟨_, by rw [describe?, show r.text? = some text from htext]; rfl⟩
  | _ => exact ⟨_, rfl⟩

/-! ## The tokens of a text -/

theorem nameable_of_ofMark? {c : Char} {t : Token} (h : ofMark? c = some t) : t.Nameable := by
  unfold ofMark? at h
  split at h
  · cases h; exact nameable_of_reference?_eq_none rfl
  · cases h; exact nameable_of_reference?_eq_none rfl
  · cases h; exact nameable_of_reference?_eq_none rfl
  · cases h; exact nameable_of_reference?_eq_none rfl
  · obtain ⟨op, _, rfl⟩ := Option.map_eq_some_iff.mp h
    exact nameable_of_reference?_eq_none rfl

theorem nameable_scanNumber (cs : List Char) : (scanNumber cs).1.Nameable := by
  refine nameable_of_reference?_eq_none ?_
  unfold scanNumber
  simp only
  split
  · split <;> rfl
  · rfl

theorem nameable_of_scanWord {cs rest : List Char} {t : Token} (h : scanWord cs = .ok (t, rest)) :
    t.Nameable := by
  unfold scanWord at h
  simp only at h
  -- A word is an address, the name in front of an argument, or refused.
  split at h
  · next a ha =>
    cases h
    rintro ref ⟨⟩
    exact (Address.ofChars?_eq_some_iff.mp ha).1
  · split at h
    · cases h
    · split at h
      · cases h
      · next r after hargument =>
        cases h
        rintro ref ⟨⟩
        obtain ⟨us, vs, -, -, -, hfirst, hlast⟩ := scanArgument?_eq_some_iff.mp hargument
        exact ⟨(Address.ofChars?_eq_some_iff.mp hfirst).1, (Address.ofChars?_eq_some_iff.mp hlast).1⟩

theorem nameable_of_scanToken {c : Char} {cs rest : List Char} {t : Token}
    (h : scanToken c cs = .ok (t, rest)) : t.Nameable := by
  unfold scanToken at h
  split at h
  · next hmark =>
    cases h
    exact nameable_of_ofMark? hmark
  · split at h
    · injection h with h
      have hnumber := nameable_scanNumber (c :: cs)
      rwa [h] at hnumber
    · split at h
      · exact nameable_of_scanWord h
      · cases h

/-- Every token of a text refers to what a formula can name. -/
theorem nameable_of_scan {cs : List Char} {ts : List Token} (h : scan cs = .ok ts) :
    ∀ t ∈ ts, t.Nameable := by
  induction cs using scan.induct generalizing ts with
  | case1 =>
    cases scan_nil.symm.trans h
    simp
  | case2 c cs hblank ih =>
    rw [scan_of_blank cs hblank] at h
    exact ih h
  | case3 c cs hblank fault htoken =>
    cases (scan_of_scanToken_error hblank htoken).symm.trans h
  | case4 c cs hblank t rest htoken hle fault hrest ih =>
    rw [scan_of_scanToken_ok hblank htoken, hrest] at h
    cases h
  | case5 c cs hblank t rest htoken hle us hrest ih =>
    rw [scan_of_scanToken_ok hblank htoken, hrest] at h
    cases h
    exact List.forall_mem_cons.mpr ⟨nameable_of_scanToken htoken, ih hrest⟩

end Token

/-! ## The references of a tree -/

/-- The references of a tree are those of its tokens, in their order. -/
theorem references_of_derives {limit under : Nat} {phrase : Phrase} {ts : List Token} {t : Tree}
    (h : Derives limit phrase under ts t) : t.references = ts.filterMap Token.reference? := by
  induction h with
  | number x _ => rfl
  | cell a _ => rfl
  | call f r _ => rfl
  | parentheses _ _ ih =>
    rw [ih, List.filterMap_cons_none rfl, List.filterMap_append, List.filterMap_cons_none rfl,
      List.filterMap_nil, List.append_nil]
  | negation _ _ ih => exact ih.trans (List.filterMap_cons_none rfl).symm
  | operand _ ih => exact ih
  | product _ ih => exact ih
  | times _ _ _ ihleft ihright =>
    rw [Tree.references, ihleft, ihright, List.filterMap_append, List.filterMap_cons_none rfl]
  | plus _ _ _ ihleft ihright =>
    rw [Tree.references, ihleft, ihright, List.filterMap_append, List.filterMap_cons_none rfl]

variable {body : List Char}

/-- Whatever a formula refers to can be named by a formula. -/
theorem nameable_of_ofBody {t : Tree} (h : Tree.ofBody body = .ok t) :
    ∀ ref ∈ t.references, ref.Nameable := by
  obtain ⟨ts, hscan, hderives⟩ := ofBody_eq_ok_iff.mp h
  rw [references_of_derives hderives]
  intro ref href
  obtain ⟨token, htoken, hreference⟩ := List.mem_filterMap.mp href
  exact Token.nameable_of_scan hscan token htoken ref hreference

/-! ## Messages -/

theorem Fault.exists_detail?_of_language {fault : Fault} (h : fault.kind = .language) :
    ∃ detail, fault.detail? = some detail := by
  cases fault with
  | misplaced place t => cases place <;> cases t <;> first | exact ⟨_, rfl⟩ | cases h
  | rangeTooLarge r => cases h
  | _ => exact ⟨_, rfl⟩

theorem Fault.OfShape.exists_detail? {fault : Fault} {ts : List Token} (h : fault.OfShape ts)
    (hts : ∀ t ∈ ts, t.Nameable) : ∃ detail, fault.detail? = some detail := by
  cases fault with
  | misplaced place t =>
    obtain ⟨description, hdescription⟩ := (hts t h).exists_describe?
    cases place <;> exact ⟨_, by rw [Fault.detail?, hdescription]; rfl⟩
  | rangeTooLarge r => exact h.elim
  | _ => exact ⟨_, rfl⟩

/-- Every fault that keeps a formula from being read has a message. A fault is put in words where it is
found, and so no text stops the program when it is read as a formula. -/
theorem exists_message?_of_ofBody_error {fault : Fault} (h : Tree.ofBody body = .error fault) :
    ∃ message, fault.message? = some message := by
  have hdetail : ∃ detail, fault.detail? = some detail := by
    unfold Tree.ofBody at h
    split at h
    · next fault' hscan =>
      cases h
      exact Fault.exists_detail?_of_language (Token.kind_of_scan_error hscan)
    · next ts hscan =>
      exact (shape_of_ofTokens_error h).exists_detail? (Token.nameable_of_scan hscan)
  obtain ⟨detail, hdetail⟩ := hdetail
  exact ⟨_, by rw [Fault.message?, hdetail]; rfl⟩

end LessonGrid
