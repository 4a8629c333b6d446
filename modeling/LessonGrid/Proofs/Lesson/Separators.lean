import LessonGrid.Proofs.Lesson.Fields

/-!
# Commas between fields and commas within them

Whether a comma ends a field hangs on the number of quotation marks before it alone. Where it is even,
the line falls apart there, and what follows is a line of its own. Where it is odd, the comma is a
character of the field that it stands in, like any other, and what follows goes on inside the quoted
part. So a line has one field more than it has commas of the first kind.

Main statement: `split_at_commas`.
-/

set_option autoImplicit false

namespace LessonGrid.Fields

variable {inside quoted : Bool} {reversed line : List Char}

/-! ## Commas within fields -/

/-- A line that starts in a quoted part, or in a field that has had one, puts its first field behind
what the field holds already. -/
theorem splitFrom_append_reversed (hquoted : quoted = true) (earlier : List Char) :
    splitFrom inside quoted (reversed ++ earlier) line =
      (splitFrom inside quoted reversed line).modifyHead (earlier.reverse ++ ·) := by
  fun_induction splitFrom inside quoted reversed line with
  | case1 inside quoted reversed =>
    rw [splitFrom_nil, List.modifyHead_cons, close, close, if_pos hquoted, if_pos hquoted,
      List.reverse_append]
  | case2 quoted reversed cs ih =>
    rw [splitFrom_doubled_mark]
    exact ih hquoted
  | case3 quoted reversed cs hcs ih =>
    rw [splitFrom_closing hcs]
    exact ih hquoted
  | case4 inside quoted reversed cs hinside ih =>
    obtain rfl : inside = false := by simpa using hinside
    rw [splitFrom_opening]
    exact ih rfl
  | case5 quoted reversed cs ih =>
    rw [splitFrom_comma_inside]
    exact ih hquoted
  | case6 inside quoted reversed cs hinside ih =>
    obtain rfl : inside = false := by simpa using hinside
    rw [splitFrom_comma_outside, split, List.modifyHead_cons, close, close, if_pos hquoted,
      if_pos hquoted, List.reverse_append]
  | case7 inside quoted reversed c cs hmark hcomma ih =>
    rw [splitFrom_other hmark hcomma]
    exact ih hquoted

/-- A comma with an odd number of quotation marks before it goes into the field in which the line before
it ends, and that field goes on as if a mark opened it. -/
theorem split_append_comma_inside (line rest : List Char) (h : line.count '"' % 2 = 1) :
    ∃ front field, split line = front ++ [field] ∧
      split (line ++ ',' :: rest) =
        front ++ (split ('"' :: rest)).modifyHead (field ++ ',' :: ·) := by
  obtain ⟨front, unclosed, marked, current, hparity, hmarked, hrest⟩ :=
    exists_splitFrom_append false false [] line
  obtain rfl : unclosed = true := by
    rw [← Bool.toNat_eq_one, hparity]
    simpa using h
  obtain rfl : marked = true := hmarked (by simp) rfl
  have hline : split line = front ++ [current.reverse] := by
    have hend := hrest [] (by simp)
    rwa [List.append_nil, splitFrom_nil, close, if_pos rfl] at hend
  have hcomma : split (line ++ ',' :: rest) = front ++ splitFrom true true (',' :: current) rest := by
    rw [split, hrest (',' :: rest) (by simp), splitFrom_comma_inside]
  have hgoesOn : splitFrom true true (',' :: current) rest =
      (splitFrom true true [] rest).modifyHead ((',' :: current).reverse ++ ·) :=
    @splitFrom_append_reversed true true [] rest rfl (',' :: current)
  refine ⟨front, current.reverse, hline, ?_⟩
  rw [hcomma, hgoesOn, split, splitFrom_opening]
  simp

/-! ## The number of fields -/

/-- The number of commas that end a field: those with an even number of quotation marks before them, one
more when the line starts in a quoted part. -/
def separatorCount (inside : Bool) (cs : List Char) : Nat :=
  (List.range cs.length).countP fun i =>
    cs[i]? = some ',' ∧ (cs.take i).count '"' % 2 = inside.toNat

/-- After its first character a line starts in a quoted part if it did so before, unless the character is
a quotation mark. -/
theorem separatorCount_cons (c : Char) (cs : List Char) : separatorCount inside (c :: cs) =
    separatorCount (inside != (c == '"')) cs + if c = ',' ∧ inside = false then 1 else 0 := by
  have hlater : ∀ i, ((c :: cs).take (i + 1)).count '"' % 2 = inside.toNat ↔
      (cs.take i).count '"' % 2 = (inside != (c == '"')).toNat := by
    intro i
    rw [List.take_succ_cons, List.count_cons]
    cases inside <;> cases c == '"' <;> simp <;> omega
  have hfirst : 0 = inside.toNat ↔ inside = false := by cases inside <;> simp
  rw [separatorCount, separatorCount, List.length_cons, List.range_succ_eq_map, List.countP_cons,
    List.countP_map]
  simp only [Function.comp_def, Nat.succ_eq_add_one, List.getElem?_cons_succ, hlater,
    List.getElem?_cons_zero, Option.some.injEq, List.take_zero, List.count_nil, Nat.zero_mod, hfirst,
    decide_eq_true_eq]

/-- A line has one field more than it has commas that end one. -/
theorem length_splitFrom :
    (splitFrom inside quoted reversed line).length = separatorCount inside line + 1 := by
  fun_induction splitFrom inside quoted reversed line with
  | case1 inside quoted reversed => rfl
  | case2 quoted reversed cs ih => simpa [separatorCount_cons] using ih
  | case3 quoted reversed cs hcs ih => simpa [separatorCount_cons] using ih
  | case4 inside quoted reversed cs hinside ih =>
    obtain rfl : inside = false := by simpa using hinside
    simpa [separatorCount_cons] using ih
  | case5 quoted reversed cs ih => simpa [separatorCount_cons] using ih
  | case6 inside quoted reversed cs hinside ih =>
    obtain rfl : inside = false := by simpa using hinside
    simpa [separatorCount_cons] using ih
  | case7 inside quoted reversed c cs hmark hcomma ih =>
    have hsame : (c == '"') = false := beq_false_of_ne hmark
    rw [separatorCount_cons, hsame, Bool.bne_false, if_neg fun h => hcomma h.1]
    exact ih

/-- What commas do to a line. One with an even number of quotation marks before it ends a field, and the
parts before and behind it are read as lines of their own. One with an odd number of them is a character
of the last field of the part before it, and the part behind it goes on in that field as if a quotation
mark opened it. So there is one field more than there are commas of the first kind. Fields written with
commas between them are read back. -/
theorem split_at_commas :
    (∀ before behind : List Char, before.count '"' % 2 = 0 →
      split (before ++ ',' :: behind) = split before ++ split behind) ∧
    (∀ before behind : List Char, before.count '"' % 2 = 1 → ∃ front field,
      split before = front ++ [field] ∧ split (before ++ ',' :: behind) =
        front ++ (split ('"' :: behind)).modifyHead (field ++ ',' :: ·)) ∧
    (∀ cs : List Char, (split cs).length = ((List.range cs.length).countP fun i =>
      cs[i]? = some ',' ∧ (cs.take i).count '"' % 2 = 0) + 1) ∧
    ∀ fields : List (List Char), fields ≠ [] →
      split ([','].intercalate (fields.map quote)) = fields := by
  exact ⟨fun before behind heven => splitFrom_append_comma before behind heven,
    split_append_comma_inside, fun cs => length_splitFrom, fun fields => split_joined⟩

/-- A comma behind a quoted part ends a field, one behind a quoted part that is never closed does not;
fields that hold a comma, a quotation mark or nothing are read back. -/
theorem commas_around_quoted_parts :
    (['"', ',', '"'].count '"' % 2 = 0 ∧
      split (['"', ',', '"'] ++ ',' :: ['b']) = split ['"', ',', '"'] ++ split ['b']) ∧
    (['a', ',', '"', 'b'].count '"' % 2 = 1 ∧ ∃ front field,
      split ['a', ',', '"', 'b'] = front ++ [field] ∧ split (['a', ',', '"', 'b'] ++ ',' :: ['c']) =
        front ++ (split ['"', 'c']).modifyHead (field ++ ',' :: ·)) ∧
    [[','], ['"'], []] ≠ [] ∧
      split ([','].intercalate ([[','], ['"'], []].map quote)) = [[','], ['"'], []] := by
  have heven : ['"', ',', '"'].count '"' % 2 = 0 := by decide
  have hodd : ['a', ',', '"', 'b'].count '"' % 2 = 1 := by decide
  have hsome : [[','], ['"'], []] ≠ [] := by decide
  exact ⟨⟨heven, split_at_commas.1 _ _ heven⟩, ⟨hodd, split_at_commas.2.1 _ _ hodd⟩, hsome,
    split_at_commas.2.2.2 _ hsome⟩

end LessonGrid.Fields
