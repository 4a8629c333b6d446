import LessonGrid.CommandLine.Arguments
import LessonGrid.Proofs.Text.Cut
import Mathlib

/-!
# The language of the arguments

Arguments are read in groups: an option with its value, if it takes one, or the path of the lesson. What
stands behind an option that takes a value belongs to its group, whatever it looks like. Reading takes
groups off the front as long as there are any (`splits`), and what it makes of them is the same whatever
follows (`parseFrom_wordsOf`). So arguments are accepted exactly when they are groups with one
lesson among them, and ask for help exactly when groups with at most one lesson are followed by such a
request.

Main statement: `parse_reads_groups`.
-/

set_option autoImplicit false

namespace LessonGrid.CommandLine

/-! ## Values -/

/-- The numeral gives a number of decimal places: digits, zeros at the front among them, with or without
a plus, for a number that is a word. -/
def IsPlaces (numeral : String) (n : Nat) : Prop :=
  ∃ ds : List Char, (numeral.toList = ds ∨ numeral.toList = '+' :: ds) ∧ ds ≠ [] ∧
    (∀ d ∈ ds, d.isDigit = true) ∧ Numeral.value ds = n ∧ n < UInt64.size

/-- A text without the plus that it may start with. -/
def withoutPlus : List Char → List Char
  | '+' :: cs => cs
  | cs => cs

theorem withoutPlus_eq_iff {cs ds : List Char} (hds : ∀ d ∈ ds, d.isDigit = true) :
    withoutPlus cs = ds ↔ cs = ds ∨ cs = '+' :: ds := by
  have hplus : ¬ ('+').isDigit = true := Bool.false_ne_true
  constructor
  · intro h
    unfold withoutPlus at h
    split at h
    · exact .inr (h ▸ rfl)
    · exact .inl h
  · rintro (rfl | rfl)
    · unfold withoutPlus
      split
      · exact absurd (hds '+' List.mem_cons_self) hplus
      · rfl
    · rfl

theorem places?_eq (numeral : String) : places? numeral =
    (Numeral.natural? (withoutPlus numeral.toList)).filter fun n => n < UInt64.size := by
  unfold places?
  simp only
  split
  · next n hn =>
    have hnumeral : Numeral.natural? (withoutPlus numeral.toList) = some n := hn
    rw [hnumeral]
    simp [Option.filter]
  · next hn =>
    have hnumeral : Numeral.natural? (withoutPlus numeral.toList) = none := hn
    rw [hnumeral]
    rfl

theorem places?_eq_some_iff {numeral : String} {n : Nat} :
    places? numeral = some n ↔ IsPlaces numeral n := by
  rw [places?_eq, Option.filter_eq_some_iff, Numeral.natural?_eq_some_iff, decide_eq_true_iff]
  constructor
  · rintro ⟨⟨hne, hdigits, hvalue⟩, hlt⟩
    exact ⟨_, (withoutPlus_eq_iff hdigits).mp rfl, hne, hdigits, hvalue, hlt⟩
  · rintro ⟨ds, htext, hne, hdigits, hvalue, hlt⟩
    rw [(withoutPlus_eq_iff hdigits).mpr htext]
    exact ⟨⟨hne, hdigits, hvalue⟩, hlt⟩

/-- An edit is cut at its first equals sign. -/
theorem edit?_eq_some_iff {argument cell input : String} :
    edit? argument = some (cell, input) ↔
      argument = cell ++ "=" ++ input ∧ '=' ∉ cell.toList := by
  have htext : argument = cell ++ "=" ++ input ↔
      argument.toList = cell.toList ++ '=' :: input.toList := by
    rw [← String.toList_inj]
    simp
  rw [htext, CommandLine.edit?]
  constructor
  · intro h
    split at h
    · cases h
    · next c back hcut =>
      obtain ⟨rfl, hargument⟩ := dropWhile_ne_eq_cons_iff.mp hcut
      simp only [Option.some.injEq, Prod.mk.injEq] at h
      obtain ⟨rfl, rfl⟩ := h
      simp only [String.toList_ofList]
      exact ⟨hargument, mark_not_mem_takeWhile_ne _ _⟩
  · rintro ⟨hargument, hcell⟩
    simp only [hargument, dropWhile_ne_append hcell, takeWhile_ne_append hcell,
      String.ofList_toList]

/-! ## Options -/

/-- The names of an option. -/
def Flag.names : Flag → List String
  | help => ["-h", "--help"]
  | set => ["--set"]
  | formulas => ["--formulas"]
  | decimals => ["--decimals"]
  | output => ["-o", "--output"]
  | config => ["--config"]

theorem Flag.ofArgument?_eq_some_iff {argument : String} {flag : Flag} :
    Flag.ofArgument? argument = some flag ↔ argument ∈ flag.names := by
  cases flag <;> grind [Flag.ofArgument?, Flag.names]

theorem startsWith_dash_iff {argument : String} :
    argument.startsWith "-" = true ↔ argument.toList.head? = some '-' := by
  rw [String.startsWith_string_iff]
  cases hcs : argument.toList with
  | nil => simp
  | cons c cs => simp [eq_comm]

/-- What does not start with a dash names no option. -/
theorem Flag.ofArgument?_eq_none {argument : String} (h : argument.toList.head? ≠ some '-') :
    Flag.ofArgument? argument = none := by
  have hdash : ∀ flag : Flag, ∀ name ∈ flag.names, name.toList.head? = some '-' := by
    intro flag
    cases flag <;> simp [names]
  rw [Option.eq_none_iff_forall_ne_some]
  exact fun flag hflag => h (hdash flag argument (ofArgument?_eq_some_iff.mp hflag))

/-! ## Groups -/

/-- What arguments are made of: an option with its value, or the path of a lesson. -/
inductive Group where
  | edit (cell input : String) (cut : '=' ∉ cell.toList)
  | formulas
  | decimals (numeral : String) (n : Nat) (numeral_isPlaces : IsPlaces numeral n)
  | output (name path : String) (isName : name ∈ Flag.output.names)
  | config (path : String)
  | lesson (path : String) (plain : path.toList.head? ≠ some '-')

namespace Group

/-- The arguments of a group. -/
def words : Group → List String
  | edit cell input _ => ["--set", cell ++ "=" ++ input]
  | formulas => ["--formulas"]
  | decimals numeral _ _ => ["--decimals", numeral]
  | output name path _ => [name, path]
  | config path => ["--config", path]
  | lesson path _ => [path]

/-- The option of a group; a lesson has none. -/
def flag? : Group → Option Flag
  | edit _ _ _ => some .set
  | formulas => some .formulas
  | decimals _ _ _ => some .decimals
  | output _ _ _ => some .output
  | config _ => some .config
  | lesson _ _ => none

def edit? : Group → Option (String × String)
  | edit cell input _ => some (cell, input)
  | _ => none

def places? : Group → Option Nat
  | decimals _ n _ => some n
  | _ => none

def output? : Group → Option String
  | output _ path _ => some path
  | _ => none

def settings? : Group → Option String
  | config path => some path
  | _ => none

def lesson? : Group → Option String
  | lesson path _ => some path
  | _ => none

end Group

/-- A draft with what a group asks for. -/
def Draft.take (draft : Draft) : Group → Draft
  | .edit cell input _ => { draft with edits := (cell, input) :: draft.edits }
  | .formulas => { draft with showsFormulas := true }
  | .decimals _ n _ => { draft with places? := some n }
  | .output _ path _ => { draft with output? := some path }
  | .config path => { draft with settings? := some path }
  | .lesson path _ => { draft with lesson? := some path }

/-- A group is read whole, whatever follows it; only a second lesson is not read. -/
theorem parseFrom_words {draft : Draft} {g : Group} (h : g.lesson? = none ∨ draft.lesson? = none)
    (rest : List String) : parseFrom draft (g.words ++ rest) = parseFrom (draft.take g) rest := by
  cases g with
  | edit cell input cut =>
    have hedit : edit? (cell ++ "=" ++ input) = some (cell, input) :=
      edit?_eq_some_iff.mpr ⟨rfl, cut⟩
    simp [Group.words, parseFrom, Flag.ofArgument?, hedit, Draft.take]
  | formulas => simp [Group.words, parseFrom, Flag.ofArgument?, Draft.take]
  | decimals numeral n isPlaces =>
    have hplaces : places? numeral = some n := places?_eq_some_iff.mpr isPlaces
    simp [Group.words, parseFrom, Flag.ofArgument?, hplaces, Draft.take]
  | output name path isName =>
    have hflag : Flag.ofArgument? name = some .output := Flag.ofArgument?_eq_some_iff.mpr isName
    simp [Group.words, parseFrom, hflag, Draft.take]
  | config path => simp [Group.words, parseFrom, Flag.ofArgument?, Draft.take]
  | lesson path plain =>
    have hflag : Flag.ofArgument? path = none := Flag.ofArgument?_eq_none plain
    have hdash : ¬ path.startsWith "-" = true := startsWith_dash_iff.not.mpr plain
    have hfirst : draft.lesson? = none := h.resolve_left (by simp [Group.lesson?])
    simp [Group.words, parseFrom, hflag, hdash, hfirst, Draft.take]

/-! ## Lists of groups -/

/-- The arguments of some groups. -/
def wordsOf (gs : List Group) : List String :=
  gs.flatMap Group.words

/-- The lessons among some groups. -/
def lessonsOf (gs : List Group) : List String :=
  gs.filterMap Group.lesson?

theorem wordsOf_cons (g : Group) (gs : List Group) : wordsOf (g :: gs) = g.words ++ wordsOf gs :=
  List.flatMap_cons

section Draft

variable {draft : Draft} {g : Group} {gs : List Group}

theorem take_lesson? (draft : Draft) (g : Group) :
    (draft.take g).lesson? = g.lesson?.or draft.lesson? := by
  cases g <;> rfl

/-- A group that is read takes its lesson, if it has one, from the groups to the draft. -/
theorem lessons_take (h : g.lesson? = none ∨ draft.lesson? = none) (gs : List Group) :
    (draft.take g).lesson?.toList ++ lessonsOf gs =
      draft.lesson?.toList ++ lessonsOf (g :: gs) := by
  rw [take_lesson?, lessonsOf, lessonsOf, List.filterMap_cons]
  cases hg : g.lesson? with
  | none => rfl
  | some path =>
    have hdraft : draft.lesson? = none := h.resolve_left (by simp [hg])
    simp [hdraft]

/-- Where there is one lesson at most, the first group is not a second one. -/
theorem room_of_length_le (h : (draft.lesson?.toList ++ lessonsOf (g :: gs)).length ≤ 1) :
    g.lesson? = none ∨ draft.lesson? = none := by
  cases hg : g.lesson? with
  | none => exact .inl rfl
  | some path =>
    cases hdraft : draft.lesson? with
    | none => exact .inr rfl
    | some first => simp [lessonsOf, hg, hdraft] at h

/-- Groups are read whole as long as there is one lesson at most. -/
theorem parseFrom_wordsOf (draft : Draft) (h : (draft.lesson?.toList ++ lessonsOf gs).length ≤ 1)
    (rest : List String) :
    parseFrom draft (wordsOf gs ++ rest) = parseFrom (gs.foldl Draft.take draft) rest := by
  induction gs generalizing draft with
  | nil => rfl
  | cons g gs ih =>
    have hroom := room_of_length_le h
    rw [← lessons_take hroom] at h
    rw [wordsOf_cons, List.append_assoc, parseFrom_words hroom, ih _ h, List.foldl_cons]

/-- A second lesson is refused, whatever follows it. -/
theorem parseFrom_of_two_lessons (draft : Draft) {first second : String} {more : List String}
    (h : draft.lesson?.toList ++ lessonsOf gs = first :: second :: more) (rest : List String) :
    parseFrom draft (wordsOf gs ++ rest) = .error (.secondLesson second) := by
  induction gs generalizing draft with
  | nil => cases hdraft : draft.lesson? <;> simp [lessonsOf, hdraft] at h
  | cons g gs ih =>
    rw [wordsOf_cons, List.append_assoc]
    by_cases hroom : g.lesson? = none ∨ draft.lesson? = none
    · rw [parseFrom_words hroom, ih _ (lessons_take hroom gs ▸ h)]
    · rw [not_or] at hroom
      cases g with
      | lesson path plain =>
        obtain ⟨found, hdraft⟩ := Option.ne_none_iff_exists'.mp hroom.2
        have hflag : Flag.ofArgument? path = none := Flag.ofArgument?_eq_none plain
        have hdash : ¬ path.startsWith "-" = true := startsWith_dash_iff.not.mpr plain
        have hsecond : path = second := by
          simp only [hdraft, lessonsOf, Group.lesson?, List.filterMap_cons] at h
          simpa using (List.cons.inj (List.cons.inj h).2).1
        rw [← hsecond]
        simp [Group.words, parseFrom, hflag, hdash, hdraft]
      | _ => exact absurd rfl hroom.1

end Draft

/-- Arguments are groups, with one lesson at most, as far as these go; then there is nothing, a request
for help, or what is at fault. -/
def Splits (draft : Draft) (arguments : List String) : Prop :=
  ∃ gs rest, arguments = wordsOf gs ++ rest ∧
    (draft.lesson?.toList ++ lessonsOf gs).length ≤ 1 ∧
    (rest = [] ∨ (∃ help ∈ Flag.help.names, ∃ after, rest = help :: after) ∨
      ∃ fault, parseFrom (gs.foldl Draft.take draft) rest = .error fault)

theorem Splits.cons {draft : Draft} {g : Group} {rest : List String}
    (hroom : g.lesson? = none ∨ draft.lesson? = none) (h : Splits (draft.take g) rest) :
    Splits draft (g.words ++ rest) := by
  obtain ⟨gs, last, hrest, hlength, hlast⟩ := h
  rw [lessons_take hroom] at hlength
  exact ⟨g :: gs, last, by rw [hrest, wordsOf_cons, List.append_assoc], hlength, hlast⟩

theorem splits_of_error {draft : Draft} {arguments : List String} {fault : ArgumentFault}
    (h : parseFrom draft arguments = .error fault) : Splits draft arguments := by
  refine ⟨[], arguments, rfl, ?_, .inr (.inr ⟨fault, h⟩)⟩
  cases draft.lesson? <;> simp [lessonsOf]

/-- All arguments are so: each step of reading takes a group, or stops. -/
theorem splits (draft : Draft) (arguments : List String) : Splits draft arguments := by
  fun_induction parseFrom draft arguments with
  | case1 draft =>
    refine ⟨[], [], rfl, ?_, .inl rfl⟩
    cases draft.lesson? <;> simp [lessonsOf]
  | case2 draft argument rest hflag =>
    refine ⟨[], argument :: rest, rfl, ?_,
      .inr (.inl ⟨argument, Flag.ofArgument?_eq_some_iff.mp hflag, rest, rfl⟩)⟩
    cases draft.lesson? <;> simp [lessonsOf]
  | case3 draft argument rest hflag ih =>
    obtain rfl := List.mem_singleton.mp (Flag.ofArgument?_eq_some_iff.mp hflag)
    exact Splits.cons (g := .formulas) (.inl rfl) ih
  | case6 draft argument value rest hflag edit hedit ih =>
    obtain rfl := List.mem_singleton.mp (Flag.ofArgument?_eq_some_iff.mp hflag)
    obtain ⟨rfl, hcut⟩ := edit?_eq_some_iff.mp hedit
    exact Splits.cons (g := .edit _ _ hcut) (.inl rfl) ih
  | case9 draft argument value rest hflag n hplaces ih =>
    obtain rfl := List.mem_singleton.mp (Flag.ofArgument?_eq_some_iff.mp hflag)
    exact Splits.cons (g := .decimals _ _ (places?_eq_some_iff.mp hplaces)) (.inl rfl) ih
  | case11 draft argument value rest hflag ih =>
    exact Splits.cons (g := .output _ _ (Flag.ofArgument?_eq_some_iff.mp hflag)) (.inl rfl) ih
  | case13 draft argument value rest hflag ih =>
    obtain rfl := List.mem_singleton.mp (Flag.ofArgument?_eq_some_iff.mp hflag)
    exact Splits.cons (g := .config _) (.inl rfl) ih
  | case16 draft argument rest hflag hdash hlesson ih =>
    have hplain : argument.toList.head? ≠ some '-' := startsWith_dash_iff.not.mp hdash
    have hfirst : draft.lesson? = none := by simpa using hlesson
    exact Splits.cons (g := .lesson _ hplain) (.inr hfirst) ih
  -- All that is left is at fault where it starts.
  | _ => exact splits_of_error (by simp_all [parseFrom]; rfl)

/-! ## What groups ask for -/

/-- The draft that some groups give: their edits, the last one first, and of everything else what the last
group that gives it gives. -/
def draftOf (gs : List Group) : Draft where
  lesson? := (lessonsOf gs).getLast?
  edits := (gs.filterMap Group.edit?).reverse
  showsFormulas := gs.any fun g => g.flag? = some .formulas
  places? := (gs.filterMap Group.places?).getLast?
  output? := (gs.filterMap Group.output?).getLast?
  settings? := (gs.filterMap Group.settings?).getLast?

theorem foldl_take_empty (gs : List Group) : gs.foldl Draft.take .empty = draftOf gs := by
  induction gs using List.reverseRecOn with
  | nil => rfl
  | append_singleton gs g ih =>
    rw [List.foldl_append, ih]
    cases g <;> simp [draftOf, Draft.take, lessonsOf, Group.lesson?, Group.edit?, Group.flag?,
      Group.places?, Group.output?, Group.settings?]

/-- An invocation is what some groups ask for: their one lesson, all their edits in order, formulas where
some group asks for them, and of everything else what the last group that gives it gives. -/
structure Invocation.IsOf (inv : Invocation) (gs : List Group) : Prop where
  lesson : lessonsOf gs = [inv.lesson]
  edits : inv.edits = gs.filterMap Group.edit?
  showsFormulas : inv.showsFormulas = true ↔ Group.formulas ∈ gs
  places? : inv.places? = (gs.filterMap Group.places?).getLast?
  output? : inv.output? = (gs.filterMap Group.output?).getLast?
  settings? : inv.settings? = (gs.filterMap Group.settings?).getLast?

/-- Groups with one lesson at most give an invocation in the end exactly when it is what they ask for. -/
theorem finish_draftOf_iff {gs : List Group} (h : (lessonsOf gs).length ≤ 1) {inv : Invocation} :
    (draftOf gs).finish = .ok inv ↔ inv.IsOf gs := by
  have hshows : (draftOf gs).showsFormulas = true ↔ Group.formulas ∈ gs := by
    have hflag : ∀ g : Group, g.flag? = some .formulas ↔ g = .formulas := by
      rintro (_ | _ | _ | _ | _ | _) <;> simp [Group.flag?]
    simp [draftOf, hflag]
  have hlesson : ∀ lesson, (draftOf gs).lesson? = some lesson ↔ lessonsOf gs = [lesson] := by
    match hgs : lessonsOf gs, h with
    | [], _ => simp [draftOf, hgs]
    | [lesson], _ => simp [draftOf, hgs]
  obtain ⟨lesson, edits, shows, places?, output?, settings?⟩ := inv
  cases hdraft : (draftOf gs).lesson? with
  | none =>
    refine iff_of_false (by simp [Draft.finish, hdraft]) fun hinv => ?_
    simpa [hdraft] using (hlesson lesson).mpr hinv.lesson
  | some only =>
    simp only [Draft.finish, hdraft, Except.ok.injEq, Invocation.mk.injEq]
    constructor
    · rintro ⟨rfl, rfl, rfl, rfl, rfl, rfl⟩
      exact ⟨(hlesson _).mp hdraft, List.reverse_reverse _, hshows, rfl, rfl, rfl⟩
    · intro hinv
      refine ⟨?_, (List.reverse_reverse _).trans hinv.edits.symm, ?_, hinv.places?.symm,
        hinv.output?.symm, hinv.settings?.symm⟩
      · exact Option.some.inj (hdraft.symm.trans ((hlesson lesson).mpr hinv.lesson))
      · exact Bool.eq_iff_iff.mpr (hshows.trans hinv.showsFormulas.symm)

/-- Groups with one lesson among them ask for something. -/
theorem exists_isOf {gs : List Group} {lesson : String} (h : lessonsOf gs = [lesson]) :
    ∃ inv : Invocation, inv.IsOf gs := by
  have hlength : (lessonsOf gs).length ≤ 1 := by simp [h]
  have hlesson : (draftOf gs).lesson? = some lesson := by simp [draftOf, h]
  obtain ⟨inv, hinv⟩ : ∃ inv, (draftOf gs).finish = .ok inv := by simp [Draft.finish, hlesson]
  exact ⟨inv, (finish_draftOf_iff hlength).mp hinv⟩

/-! ## The three kinds of arguments -/

/-- The arguments are groups with one lesson among them. -/
def AreComplete (arguments : List String) : Prop :=
  ∃ gs lesson, arguments = wordsOf gs ∧ lessonsOf gs = [lesson]

/-- The arguments are groups with one lesson at most, then a request for help, then anything. -/
def AskForHelp (arguments : List String) : Prop :=
  ∃ gs, ∃ help ∈ Flag.help.names, ∃ after,
    arguments = wordsOf gs ++ help :: after ∧ (lessonsOf gs).length ≤ 1

section Parse

variable {gs : List Group} {arguments : List String}

/-- Groups with one lesson at most are read whole from the start. -/
theorem parse_wordsOf_append (h : (lessonsOf gs).length ≤ 1) (rest : List String) :
    parse (wordsOf gs ++ rest) = parseFrom (draftOf gs) rest := by
  rw [← foldl_take_empty]
  exact parseFrom_wordsOf .empty h rest

theorem parse_wordsOf (h : (lessonsOf gs).length ≤ 1) :
    parse (wordsOf gs) = (draftOf gs).finish.map some := by
  rw [← List.append_nil (wordsOf gs), parse_wordsOf_append h, parseFrom]

theorem parse_of_askForHelp (h : AskForHelp arguments) : parse arguments = .ok none := by
  obtain ⟨gs, help, hhelp, after, rfl, hlength⟩ := h
  simp only [parse_wordsOf_append hlength, parseFrom, Flag.ofArgument?_eq_some_iff.mpr hhelp]

theorem parse_cases (arguments : List String) :
    (∃ gs, arguments = wordsOf gs ∧ (lessonsOf gs).length ≤ 1) ∨ AskForHelp arguments ∨
      ∃ fault, parse arguments = .error fault := by
  obtain ⟨gs, rest, rfl, hlength, hrest⟩ := splits .empty arguments
  rcases hrest with rfl | ⟨help, hhelp, after, rfl⟩ | ⟨fault, hfault⟩
  · exact .inl ⟨gs, List.append_nil _, hlength⟩
  · exact .inr (.inl ⟨gs, help, hhelp, after, rfl, hlength⟩)
  · rw [foldl_take_empty] at hfault
    exact .inr (.inr ⟨fault, (parse_wordsOf_append hlength rest).trans hfault⟩)

theorem parse_eq_ok_some_iff {inv : Invocation} :
    parse arguments = .ok (some inv) ↔ ∃ gs, arguments = wordsOf gs ∧ inv.IsOf gs := by
  have hmap : ∀ result : Except ArgumentFault Invocation,
      result.map some = .ok (some inv) ↔ result = .ok inv := by
    rintro (fault | found) <;> simp [Except.map]
  constructor
  · intro hparse
    obtain ⟨gs, rfl, hlength⟩ | hhelp | ⟨fault, hfault⟩ := parse_cases arguments
    · rw [parse_wordsOf hlength, hmap] at hparse
      exact ⟨gs, rfl, (finish_draftOf_iff hlength).mp hparse⟩
    · simp [parse_of_askForHelp hhelp] at hparse
    · simp [hfault] at hparse
  · rintro ⟨gs, rfl, hinv⟩
    have hlength : (lessonsOf gs).length ≤ 1 := by simp [hinv.lesson]
    rw [parse_wordsOf hlength, hmap]
    exact (finish_draftOf_iff hlength).mpr hinv

theorem parse_eq_ok_none_iff : parse arguments = .ok none ↔ AskForHelp arguments := by
  refine ⟨fun hparse => ?_, parse_of_askForHelp⟩
  obtain ⟨gs, rfl, hlength⟩ | hhelp | ⟨fault, hfault⟩ := parse_cases arguments
  · rw [parse_wordsOf hlength] at hparse
    cases hfinish : (draftOf gs).finish <;> simp [hfinish, Except.map] at hparse
  · exact hhelp
  · simp [hfault] at hparse

end Parse

/-! ## The order of groups -/

/-- Groups in another order, with those of each option in the same order as before. -/
def SameOrder (gs hs : List Group) : Prop :=
  ∀ flag?, gs.filter (·.flag? = flag?) = hs.filter (·.flag? = flag?)

/-- What groups of one option give is the same in both orders. -/
theorem SameOrder.filterMap_eq {β : Type} {gs hs : List Group} (h : SameOrder gs hs)
    {given : Group → Option β} (flag? : Option Flag)
    (hgiven : ∀ g x, given g = some x → g.flag? = flag?) :
    gs.filterMap given = hs.filterMap given := by
  have hfilter : ∀ gs : List Group,
      (gs.filter (·.flag? = flag?)).filterMap given = gs.filterMap given := by
    intro gs
    rw [List.filterMap_filter]
    congr 1
    funext g
    cases hg : given g with
    | none => simp
    | some x => simp [hgiven g x hg]
  rw [← hfilter gs, h flag?, hfilter]

theorem SameOrder.lessonsOf_eq {gs hs : List Group} (h : SameOrder gs hs) :
    lessonsOf gs = lessonsOf hs :=
  h.filterMap_eq none fun g x hx => by cases g <;> first | rfl | cases hx

/-- The order of groups of different options makes no difference to what they ask for. -/
theorem SameOrder.draftOf_eq {gs hs : List Group} (h : SameOrder gs hs) :
    draftOf gs = draftOf hs := by
  have hshows : ∀ gs : List Group, gs.any (fun g => g.flag? = some .formulas) =
      (gs.filter (·.flag? = some .formulas)).any fun _ => true := fun gs => by
    simp [List.any_filter]
  have hedits : gs.filterMap Group.edit? = hs.filterMap Group.edit? :=
    h.filterMap_eq (some .set) fun g x hx => by cases g <;> first | rfl | cases hx
  have hplaces : gs.filterMap Group.places? = hs.filterMap Group.places? :=
    h.filterMap_eq (some .decimals) fun g x hx => by cases g <;> first | rfl | cases hx
  have houtput : gs.filterMap Group.output? = hs.filterMap Group.output? :=
    h.filterMap_eq (some .output) fun g x hx => by cases g <;> first | rfl | cases hx
  have hsettings : gs.filterMap Group.settings? = hs.filterMap Group.settings? :=
    h.filterMap_eq (some .config) fun g x hx => by cases g <;> first | rfl | cases hx
  simp only [draftOf, h.lessonsOf_eq, hshows, h (some .formulas), hedits, hplaces, houtput,
    hsettings]

/-- The order of groups of different options makes no difference, whatever follows them: where there is a
second lesson, it is the same one. -/
theorem SameOrder.parse_eq {gs hs : List Group} (h : SameOrder gs hs) (rest : List String) :
    parse (wordsOf gs ++ rest) = parse (wordsOf hs ++ rest) := by
  match hgs : lessonsOf gs with
  | [] | [_] =>
    have hlength : (lessonsOf gs).length ≤ 1 := by simp [hgs]
    rw [parse_wordsOf_append hlength, parse_wordsOf_append (h.lessonsOf_eq ▸ hlength), h.draftOf_eq]
  | first :: second :: more =>
    have herror : ∀ gs, lessonsOf gs = first :: second :: more →
        parse (wordsOf gs ++ rest) = .error (.secondLesson second) := fun gs hgs =>
      parseFrom_of_two_lessons .empty hgs rest
    rw [herror gs hgs, herror hs (h.lessonsOf_eq ▸ hgs)]

/-- Arguments are accepted exactly when they are groups with one lesson among them, and what is asked
for is what these ask for. They ask for help exactly when groups with one lesson at most stand in front of
such a request, whatever follows it. All others are at fault. Groups may stand in any order, as long as
those of one option keep theirs. -/
theorem parse_reads_groups (arguments : List String) :
    ((∃ inv, parse arguments = .ok (some inv)) ↔ AreComplete arguments) ∧
    (∀ inv : Invocation,
      parse arguments = .ok (some inv) ↔ ∃ gs, arguments = wordsOf gs ∧ inv.IsOf gs) ∧
    (parse arguments = .ok none ↔ AskForHelp arguments) ∧
    ((∃ fault, parse arguments = .error fault) ↔
      ¬ AreComplete arguments ∧ ¬ AskForHelp arguments) ∧
    ∀ (gs hs : List Group) (rest : List String), SameOrder gs hs →
      parse (wordsOf gs ++ rest) = parse (wordsOf hs ++ rest) := by
  have hcomplete : (∃ inv, parse arguments = .ok (some inv)) ↔ AreComplete arguments := by
    simp only [parse_eq_ok_some_iff]
    constructor
    · rintro ⟨inv, gs, hgs, hinv⟩
      exact ⟨gs, inv.lesson, hgs, hinv.lesson⟩
    · rintro ⟨gs, lesson, hgs, hlesson⟩
      obtain ⟨inv, hinv⟩ := exists_isOf hlesson
      exact ⟨inv, gs, hgs, hinv⟩
  refine ⟨hcomplete, fun inv => parse_eq_ok_some_iff, parse_eq_ok_none_iff, ?_,
    fun gs hs rest h => h.parse_eq rest⟩
  rw [← hcomplete, ← parse_eq_ok_none_iff]
  cases hparse : parse arguments with
  | error fault => simp
  | ok inv? => cases inv? <;> simp

theorem parse_formulas_around_lesson :
    SameOrder [.formulas, .lesson "lesson.csv" (by simp)] [.lesson "lesson.csv" (by simp), .formulas] ∧
    parse ["--formulas", "lesson.csv"] = parse ["lesson.csv", "--formulas"] := by
  have hsame : SameOrder [.formulas, .lesson "lesson.csv" (by simp)]
      [.lesson "lesson.csv" (by simp), .formulas] := by
    rintro (_ | _ | _) <;> rfl
  exact ⟨hsame, (parse_reads_groups []).2.2.2.2 _ _ [] hsame⟩

/-- What stands behind an option is its value, even where it looks like a request for help. -/
example : parse ["--config", "-h", "lesson.csv", "--set", "A1==B1"] =
    .ok (some ⟨"lesson.csv", [("A1", "=B1")], false, none, none, some "-h"⟩) := by cbv

end LessonGrid.CommandLine
