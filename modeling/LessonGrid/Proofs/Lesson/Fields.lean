import LessonGrid.Lesson.Fields

/-!
# Fields are read back from their line

How a line falls apart into fields, character by character, and at its commas: a comma separates two
fields when it is not in a quoted part, that is when the number of quotation marks before it is even.
A field as it is written has an even number of them, and stands for itself alone.

Main statements: `exists_splitFrom_append`, `splitFrom_append_comma`, `split_quote` and `split_joined`.
-/

set_option autoImplicit false

namespace LessonGrid.Fields

variable {inside quoted : Bool} {reversed : List Char}

/-! ## One character -/

theorem splitFrom_nil : splitFrom inside quoted reversed [] = [close quoted reversed] := by
  rw [splitFrom]

theorem splitFrom_opening (cs : List Char) :
    splitFrom false quoted reversed ('"' :: cs) = splitFrom true true reversed cs := by
  rw [splitFrom.eq_def]
  exact if_neg Bool.false_ne_true

theorem splitFrom_doubled_mark (cs : List Char) :
    splitFrom true quoted reversed ('"' :: '"' :: cs) =
      splitFrom true quoted ('"' :: reversed) cs := by
  rw [splitFrom, if_pos rfl]

theorem splitFrom_closing {cs : List Char} (h : ∀ ds, cs ≠ '"' :: ds) :
    splitFrom true quoted reversed ('"' :: cs) = splitFrom false quoted reversed cs := by
  rw [splitFrom, if_pos rfl]
  exact h

theorem splitFrom_comma_inside (cs : List Char) :
    splitFrom true quoted reversed (',' :: cs) = splitFrom true quoted (',' :: reversed) cs := by
  rw [splitFrom, if_pos rfl]

theorem splitFrom_comma_outside (cs : List Char) :
    splitFrom false quoted reversed (',' :: cs) = close quoted reversed :: split cs := by
  rw [splitFrom, if_neg Bool.false_ne_true, split]

theorem splitFrom_other {c : Char} (hmark : c ≠ '"') (hcomma : c ≠ ',') (cs : List Char) :
    splitFrom inside quoted reversed (c :: cs) = splitFrom inside quoted (c :: reversed) cs := by
  rw [splitFrom]
  · exact hmark
  · exact hcomma

/-! ## The front of a line -/

/-- When the front of a line has been read, the fields that it ends are complete. The rest is read inside
a quoted part if and only if the quotation marks so far, one more when the line starts in a quoted part,
are odd in number; the field that goes on in the rest has then had a quoted part. A mark at the start of
the rest could make a pair with one at the end of the front, so there is none. -/
theorem exists_splitFrom_append (inside quoted : Bool) (reversed line : List Char) :
    ∃ front unclosed marked current, unclosed.toNat = (line.count '"' + inside.toNat) % 2 ∧
      ((inside = true → quoted = true) → unclosed = true → marked = true) ∧
      ∀ rest, (∀ ds, rest ≠ '"' :: ds) → splitFrom inside quoted reversed (line ++ rest) =
        front ++ splitFrom unclosed marked current rest := by
  fun_induction splitFrom inside quoted reversed line with
  | case1 inside quoted reversed =>
    refine ⟨[], inside, quoted, reversed, ?_, id, fun rest _ => rfl⟩
    cases inside <;> rfl
  | case2 quoted reversed cs ih =>
    obtain ⟨front, unclosed, marked, current, hparity, hmarked, hrest⟩ := ih
    refine ⟨front, unclosed, marked, current, ?_, hmarked, fun rest h => ?_⟩
    · simp only [List.count_cons_self]
      omega
    · rw [List.cons_append, List.cons_append, splitFrom_doubled_mark, hrest rest h]
  | case3 quoted reversed cs hcs ih =>
    obtain ⟨front, unclosed, marked, current, hparity, hmarked, hrest⟩ := ih
    refine ⟨front, unclosed, marked, current, ?_, fun _ => hmarked (by simp), fun rest h => ?_⟩
    · simp only [List.count_cons_self, Bool.toNat_true, Bool.toNat_false] at hparity ⊢
      omega
    · have hnext : ∀ ds, cs ++ rest ≠ '"' :: ds := by
        intro ds hds
        cases cs with
        | nil => exact h ds hds
        | cons c cs => exact hcs cs (by rw [(List.cons.inj hds).1])
      rw [List.cons_append, splitFrom_closing hnext, hrest rest h]
  | case4 inside quoted reversed cs hinside ih =>
    obtain rfl : inside = false := by simpa using hinside
    obtain ⟨front, unclosed, marked, current, hparity, hmarked, hrest⟩ := ih
    refine ⟨front, unclosed, marked, current, ?_, fun _ => hmarked fun _ => rfl, fun rest h => ?_⟩
    · simp only [List.count_cons_self, Bool.toNat_true, Bool.toNat_false] at hparity ⊢
      omega
    · rw [List.cons_append, splitFrom_opening, hrest rest h]
  | case5 quoted reversed cs ih =>
    obtain ⟨front, unclosed, marked, current, hparity, hmarked, hrest⟩ := ih
    refine ⟨front, unclosed, marked, current, ?_, hmarked, fun rest h => ?_⟩
    · rwa [List.count_cons_of_ne (by decide)]
    · rw [List.cons_append, splitFrom_comma_inside, hrest rest h]
  | case6 inside quoted reversed cs hinside ih =>
    obtain rfl : inside = false := by simpa using hinside
    obtain ⟨front, unclosed, marked, current, hparity, hmarked, hrest⟩ := ih
    refine ⟨close quoted reversed :: front, unclosed, marked, current, ?_, fun _ => hmarked (by simp),
      fun rest h => ?_⟩
    · rwa [List.count_cons_of_ne (by decide)]
    · rw [List.cons_append, splitFrom_comma_outside, split, hrest rest h, List.cons_append]
  | case7 inside quoted reversed c cs hmark hcomma ih =>
    obtain ⟨front, unclosed, marked, current, hparity, hmarked, hrest⟩ := ih
    refine ⟨front, unclosed, marked, current, ?_, hmarked, fun rest h => ?_⟩
    · rwa [List.count_cons_of_ne hmark]
    · rw [List.cons_append, splitFrom_other hmark hcomma, hrest rest h]

/-- A comma with an even number of quotation marks before it, one more when the line starts in a
quoted part, ends a field, and the rest is read as a line of its own. -/
theorem splitFrom_append_comma (line rest : List Char)
    (h : line.count '"' % 2 = inside.toNat) :
    splitFrom inside quoted reversed (line ++ ',' :: rest) =
      splitFrom inside quoted reversed line ++ split rest := by
  obtain ⟨front, unclosed, marked, current, hparity, -, hrest⟩ :=
    exists_splitFrom_append inside quoted reversed line
  obtain rfl : unclosed = false := by
    rw [← Bool.toNat_eq_zero, hparity]
    omega
  have hline : splitFrom inside quoted reversed line = front ++ [close marked current] := by
    rw [← splitFrom_nil, ← hrest [] (by simp), List.append_nil]
  rw [hrest (',' :: rest) (by simp), splitFrom_comma_outside, hline, List.append_assoc,
    List.singleton_append]

/-! ## Written fields -/

theorem count_doubled (field : List Char) : (doubled field).count '"' = 2 * field.count '"' := by
  fun_induction doubled field with
  | case1 => rfl
  | case2 cs ih =>
    simp only [List.count_cons_self, ih]
    omega
  | case3 c cs hmark ih => rw [List.count_cons_of_ne hmark, List.count_cons_of_ne hmark, ih]

/-- A doubled text in a quoted part is read back up to the mark that closes the part. -/
theorem splitFrom_doubled (field : List Char) :
    splitFrom true true reversed (doubled field ++ ['"']) = [reversed.reverse ++ field] := by
  fun_induction doubled field generalizing reversed with
  | case1 =>
    rw [List.nil_append, splitFrom_closing (by simp), splitFrom_nil, close, if_pos rfl,
      List.append_nil]
  | case2 cs ih =>
    rw [List.cons_append, List.cons_append, splitFrom_doubled_mark, ih]
    simp
  | case3 c cs hmark ih =>
    have hstep : splitFrom true true reversed (c :: (doubled cs ++ ['"'])) =
        splitFrom true true (c :: reversed) (doubled cs ++ ['"']) := by
      by_cases hcomma : c = ','
      · rw [hcomma, splitFrom_comma_inside]
      · rw [splitFrom_other hmark hcomma]
    rw [List.cons_append, hstep, ih]
    simp

/-- A text without commas and quotation marks is one field, which is trimmed. -/
theorem splitFrom_plain {field : List Char} (hmark : '"' ∉ field) (hcomma : ',' ∉ field) :
    splitFrom false false reversed field = [trim (reversed.reverse ++ field)] := by
  induction field generalizing reversed with
  | nil => rw [splitFrom_nil, close, if_neg Bool.false_ne_true, List.append_nil]
  | cons c cs ih =>
    rw [List.mem_cons, not_or] at hmark hcomma
    rw [splitFrom_other (Ne.symm hmark.1) (Ne.symm hcomma.1), ih hmark.2 hcomma.2]
    simp

/-- A field that needs no quotes holds neither commas nor quotation marks and is trimmed already. -/
theorem needsQuotes_eq_false_iff {field : List Char} :
    needsQuotes field = false ↔ ',' ∉ field ∧ '"' ∉ field ∧ trim field = field := by
  simp [needsQuotes, and_assoc]

theorem count_quote_mod_two (field : List Char) : (quote field).count '"' % 2 = 0 := by
  unfold quote
  split
  · simp only [List.cons_append, List.count_cons_self, List.count_append, count_doubled,
      List.count_nil]
    omega
  · next hquotes =>
    obtain ⟨_, hmark, _⟩ := needsQuotes_eq_false_iff.mp (eq_false_of_ne_true hquotes)
    rw [List.count_eq_zero.mpr hmark]

/-- A written field is read back. -/
theorem split_quote (field : List Char) : split (quote field) = [field] := by
  unfold split quote
  split
  · rw [List.cons_append, splitFrom_opening, splitFrom_doubled, List.reverse_nil, List.nil_append]
  · next hquotes =>
    obtain ⟨hcomma, hmark, htrim⟩ :=
      needsQuotes_eq_false_iff.mp (eq_false_of_ne_true hquotes)
    rw [splitFrom_plain hmark hcomma, List.reverse_nil, List.nil_append, htrim]

theorem joined_singleton (field : List Char) : joined [field] = quote field := by
  simp [joined, List.intercalate]

theorem joined_cons_cons (field next : List Char) (fields : List (List Char)) :
    joined (field :: next :: fields) = quote field ++ ',' :: joined (next :: fields) := by
  simp [joined, List.intercalate]

/-- Fields are read back from the line that is written of them, whatever characters they hold. -/
theorem split_joined {fields : List (List Char)} (h : fields ≠ []) :
    split (joined fields) = fields := by
  induction fields with
  | nil => exact absurd rfl h
  | cons field fields ih =>
    cases fields with
    | nil => rw [joined_singleton, split_quote]
    | cons next fields =>
      have hcomma : split (quote field ++ ',' :: joined (next :: fields)) =
          split (quote field) ++ split (joined (next :: fields)) :=
        splitFrom_append_comma _ _ (count_quote_mod_two field)
      rw [joined_cons_cons, hcomma, split_quote, ih (List.cons_ne_nil next fields)]
      rfl

/-! ## The characters of a line -/

/-- The fields of a line hold no characters that the line does not hold. -/
theorem mem_of_mem_splitFrom {line field : List Char} {c : Char}
    (hfield : field ∈ splitFrom inside quoted reversed line) (hc : c ∈ field) :
    c ∈ reversed ∨ c ∈ line := by
  have hclose : ∀ {quoted : Bool} {reversed : List Char}, c ∈ close quoted reversed →
      c ∈ reversed := by
    intro quoted reversed h
    unfold close at h
    split at h
    · exact List.mem_reverse.mp h
    · exact List.mem_reverse.mp ((trim_sublist _).mem h)
  fun_induction splitFrom inside quoted reversed line with
  | case1 inside quoted reversed =>
    rw [List.mem_singleton] at hfield
    exact .inl (hclose (hfield ▸ hc))
  | case2 quoted reversed cs ih => grind
  | case3 quoted reversed cs _ ih => grind
  | case4 inside quoted reversed cs _ ih => grind
  | case5 quoted reversed cs ih => grind
  | case6 inside quoted reversed cs _ ih =>
    rcases List.mem_cons.mp hfield with rfl | hfield
    · exact .inl (hclose hc)
    · exact .inr (List.mem_cons_of_mem _ ((ih hfield).resolve_left List.not_mem_nil))
  | case7 inside quoted reversed d cs _ _ ih => grind

theorem mem_of_mem_split {line field : List Char} {c : Char} (hfield : field ∈ split line)
    (hc : c ∈ field) : c ∈ line :=
  (mem_of_mem_splitFrom hfield hc).resolve_left List.not_mem_nil

/-- A written field holds the characters of the field, and quotation marks. -/
theorem mem_of_mem_quote {field : List Char} {c : Char} (hc : c ∈ quote field) :
    c ∈ field ∨ c = '"' := by
  have hdoubled : ∀ cs : List Char, c ∈ doubled cs → c ∈ cs ∨ c = '"' := by
    intro cs h
    fun_induction doubled cs <;> grind
  unfold quote at hc
  split at hc
  · simp only [List.cons_append, List.mem_cons, List.mem_append, List.not_mem_nil, or_false] at hc
    rcases hc with hc | hc | hc
    · exact .inr hc
    · exact hdoubled field hc
    · exact .inr hc
  · exact .inl hc

/-- The line of some fields holds the characters of the fields, quotation marks and commas. -/
theorem mem_of_mem_joined {fields : List (List Char)} {c : Char} (hc : c ∈ joined fields) :
    (∃ field ∈ fields, c ∈ field) ∨ c = '"' ∨ c = ',' := by
  induction fields with
  | nil => simp [joined, List.intercalate] at hc
  | cons field fields ih =>
    have hquote : c ∈ quote field → (∃ f ∈ field :: fields, c ∈ f) ∨ c = '"' ∨ c = ',' := by
      intro h
      rcases mem_of_mem_quote h with h | h
      · exact .inl ⟨field, List.mem_cons_self, h⟩
      · exact .inr (.inl h)
    cases fields with
    | nil => exact hquote (joined_singleton field ▸ hc)
    | cons next fields =>
      rw [joined_cons_cons, List.mem_append, List.mem_cons] at hc
      rcases hc with hc | hc | hc
      · exact hquote hc
      · exact .inr (.inr hc)
      · rcases ih hc with ⟨f, hf, hcf⟩ | h
        · exact .inl ⟨f, List.mem_cons_of_mem field hf, hcf⟩
        · exact .inr h

/-! ## The end of a line -/

/-- A written field does not end with a blank. -/
theorem isBlank_of_getLast?_quote {field : List Char} {c : Char}
    (h : (quote field).getLast? = some c) : isBlank c = false := by
  unfold quote at h
  split at h
  · rw [List.getLast?_concat] at h
    cases h
    decide
  · next hquotes =>
    obtain ⟨_, _, htrim⟩ := needsQuotes_eq_false_iff.mp (eq_false_of_ne_true hquotes)
    have hlast : (trim field).getLast? = some c := by rwa [htrim]
    exact isBlank_of_getLast?_trim hlast

/-- The line of some fields does not end with a blank. -/
theorem isBlank_of_getLast?_joined {fields : List (List Char)} {c : Char}
    (h : (joined fields).getLast? = some c) : isBlank c = false := by
  induction fields with
  | nil => simp [joined, List.intercalate] at h
  | cons field fields ih =>
    cases fields with
    | nil => exact isBlank_of_getLast?_quote (joined_singleton field ▸ h)
    | cons next fields =>
      rw [joined_cons_cons, List.getLast?_append, List.getLast?_cons, Option.some_or,
        Option.some.injEq] at h
      cases hlast : (joined (next :: fields)).getLast? with
      | none =>
        rw [hlast] at h
        subst h
        decide
      | some d =>
        rw [hlast] at h
        subst h
        exact ih hlast

end LessonGrid.Fields
