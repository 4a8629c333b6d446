import Mathlib
import LessonGrid.Evaluation.Display
import LessonGrid.Proofs.Evaluation.Reads

/-!
# The sign of a zero

There are two zeros, which are one number and are shown as one. Arithmetic keeps their signs apart
but never lets a sign decide anything else: what is computed from either zero is the same number or
the same fault. So two numbers are the same here when they are equal or both zero.

Main statement: `arithmetical_sameNumber`.
-/

set_option autoImplicit false

namespace LessonGrid

open Float.Model (UnpackedFloat)
open Float.Model.UnpackedFloat (Sign)

/-- Zero of either sign. -/
def IsZero (x : Float) : Prop :=
  (x == 0) = true

/-- One and the same number: two equal ones, or two zeros. -/
def SameNumber (x y : Float) : Prop :=
  x = y ∨ IsZero x ∧ IsZero y

namespace SameNumber

theorem refl (x : Float) : SameNumber x x :=
  .inl rfl

theorem isZero_iff {x y : Float} (h : SameNumber x y) : IsZero x ↔ IsZero y := by
  rcases h with rfl | ⟨hx, hy⟩
  · rfl
  · exact iff_of_true hx hy

theorem trans {x y z : Float} (hxy : SameNumber x y) (hyz : SameNumber y z) : SameNumber x z := by
  rcases hxy with rfl | ⟨hx, hy⟩
  · exact hyz
  · exact .inr ⟨hx, hyz.isZero_iff.mp hy⟩

end SameNumber

/-! ## Computing with unpacked numbers -/

/-- The two sides are equal, or zeros. -/
def SameUnpacked (u v : UnpackedFloat) : Prop :=
  u = v ∨ (∃ s, u = .zero s) ∧ ∃ t, v = .zero t

/-- From a zero of either sign the computation comes to the same number. -/
def SignBlind (f : UnpackedFloat → UnpackedFloat) : Prop :=
  ∀ s t, SameUnpacked (f (.zero s)) (f (.zero t))

theorem isZero_iff_unpack {x : Float} : IsZero x ↔ ∃ s, x.toModel.unpack = .zero s := by
  have hbeq : (x == 0) = x.toModel.unpack.beq (.zero .positive) := rfl
  rw [IsZero, hbeq, UnpackedFloat.beq]
  cases x.toModel.unpack with
  | notANumber => simp [UnpackedFloat.compare]
  | infinity s => cases s <;> simp [UnpackedFloat.compare]
  | zero s => simp [UnpackedFloat.compare]
  | finite s m e hm => cases s <;> simp [UnpackedFloat.compare]

theorem isZero_pack (s : Sign) : IsZero ⟨Float.Model.pack (.zero s)⟩ := by
  cases s <;> exact isZero_iff_unpack.mpr ⟨_, rfl⟩

/-- Computations that see no sign of a zero respect what number they start from. -/
theorem SameNumber.compute {x y : Float} (h : SameNumber x y) {f : UnpackedFloat → UnpackedFloat}
    (hf : SignBlind f) : SameNumber ⟨Float.Model.pack (f x.toModel.unpack)⟩
      ⟨Float.Model.pack (f y.toModel.unpack)⟩ := by
  rcases h with rfl | ⟨hx, hy⟩
  · exact .refl _
  · obtain ⟨s, hs⟩ := isZero_iff_unpack.mp hx
    obtain ⟨t, ht⟩ := isZero_iff_unpack.mp hy
    rw [hs, ht]
    rcases hf s t with heq | ⟨⟨s', hs'⟩, t', ht'⟩
    · rw [heq]
      exact .refl _
    · rw [hs', ht']
      exact .inr ⟨isZero_pack s', isZero_pack t'⟩

/-- What sees no sign of a zero is seen alike of the same numbers. -/
theorem SameNumber.observe {α : Type} {x y : Float} (h : SameNumber x y) (f : UnpackedFloat → α)
    (hf : ∀ s t, f (.zero s) = f (.zero t)) : f x.toModel.unpack = f y.toModel.unpack := by
  rcases h with rfl | ⟨hx, hy⟩
  · rfl
  · obtain ⟨s, hs⟩ := isZero_iff_unpack.mp hx
    obtain ⟨t, ht⟩ := isZero_iff_unpack.mp hy
    rw [hs, ht]
    exact hf s t

theorem signBlind_neg : SignBlind UnpackedFloat.neg :=
  fun s t => .inr ⟨⟨-s, rfl⟩, -t, rfl⟩

theorem signBlind_add_left (v : UnpackedFloat) : SignBlind (UnpackedFloat.add .binary64 · v) := by
  intro s t
  cases v with
  | notANumber => exact .inl rfl
  | infinity => exact .inl rfl
  | zero u => cases s <;> cases t <;> cases u <;> exact .inr ⟨⟨_, rfl⟩, _, rfl⟩
  | finite => exact .inl rfl

theorem signBlind_add_right (u : UnpackedFloat) : SignBlind (UnpackedFloat.add .binary64 u) := by
  intro s t
  cases u with
  | notANumber => exact .inl rfl
  | infinity => exact .inl rfl
  | zero u => cases s <;> cases t <;> cases u <;> exact .inr ⟨⟨_, rfl⟩, _, rfl⟩
  | finite => exact .inl rfl

theorem signBlind_sub_left (v : UnpackedFloat) : SignBlind (UnpackedFloat.sub .binary64 · v) := by
  intro s t
  cases v with
  | notANumber => exact .inl rfl
  | infinity => exact .inl rfl
  | zero u => cases s <;> cases t <;> cases u <;> exact .inr ⟨⟨_, rfl⟩, _, rfl⟩
  | finite => exact .inl rfl

theorem signBlind_sub_right (u : UnpackedFloat) : SignBlind (UnpackedFloat.sub .binary64 u) := by
  intro s t
  cases u with
  | notANumber => exact .inl rfl
  | infinity => exact .inl rfl
  | zero u => cases s <;> cases t <;> cases u <;> exact .inr ⟨⟨_, rfl⟩, _, rfl⟩
  | finite => exact .inl rfl

theorem signBlind_mul_left (v : UnpackedFloat) : SignBlind (UnpackedFloat.mul .binary64 · v) := by
  intro s t
  cases v with
  | notANumber => exact .inl rfl
  | infinity => exact .inl rfl
  | zero => exact .inr ⟨⟨_, rfl⟩, _, rfl⟩
  | finite => exact .inr ⟨⟨_, rfl⟩, _, rfl⟩

theorem signBlind_mul_right (u : UnpackedFloat) : SignBlind (UnpackedFloat.mul .binary64 u) := by
  intro s t
  cases u with
  | notANumber => exact .inl rfl
  | infinity => exact .inl rfl
  | zero => exact .inr ⟨⟨_, rfl⟩, _, rfl⟩
  | finite => exact .inr ⟨⟨_, rfl⟩, _, rfl⟩

/-- A zero is divided alike, whatever its sign. It does not divide alike: the two quotients of a
number by zero are opposite infinities. -/
theorem signBlind_div_left (v : UnpackedFloat) : SignBlind (UnpackedFloat.div .binary64 · v) := by
  intro s t
  cases v with
  | notANumber => exact .inl rfl
  | infinity => exact .inr ⟨⟨_, rfl⟩, _, rfl⟩
  | zero => exact .inl rfl
  | finite => exact .inr ⟨⟨_, rfl⟩, _, rfl⟩

/-! ## Arithmetic on the same numbers -/

namespace SameNumber

variable {x x' y y' : Float}

theorem neg (h : SameNumber x x') : SameNumber (-x) (-x') :=
  h.compute signBlind_neg

theorem add (hx : SameNumber x x') (hy : SameNumber y y') : SameNumber (x + y) (x' + y') :=
  (hx.compute (signBlind_add_left y.toModel.unpack)).trans
    (hy.compute (signBlind_add_right x'.toModel.unpack))

theorem sub (hx : SameNumber x x') (hy : SameNumber y y') : SameNumber (x - y) (x' - y') :=
  (hx.compute (signBlind_sub_left y.toModel.unpack)).trans
    (hy.compute (signBlind_sub_right x'.toModel.unpack))

theorem mul (hx : SameNumber x x') (hy : SameNumber y y') : SameNumber (x * y) (x' * y') :=
  (hx.compute (signBlind_mul_left y.toModel.unpack)).trans
    (hy.compute (signBlind_mul_right x'.toModel.unpack))

theorem div (hx : SameNumber x x') (y : Float) : SameNumber (x / y) (x' / y) :=
  hx.compute (signBlind_div_left y.toModel.unpack)

theorem isFinite_eq (h : SameNumber x x') : x.isFinite = x'.isFinite :=
  h.observe UnpackedFloat.isFinite fun _ _ => rfl

theorem isNaN_eq (h : SameNumber x x') : x.isNaN = x'.isNaN :=
  h.observe UnpackedFloat.isNaN fun _ _ => rfl

theorem lt_iff (hx : SameNumber x x') (hy : SameNumber y y') : x < y ↔ x' < y' := by
  have hlt : ∀ z w : Float, z < w ↔ z.toModel.unpack.lt w.toModel.unpack = true :=
    fun _ _ => decide_eq_true_iff
  have hleft : ∀ v : UnpackedFloat, x.toModel.unpack.lt v = x'.toModel.unpack.lt v := by
    intro v
    refine hx.observe (UnpackedFloat.lt · v) ?_
    intro s t
    cases v with
    | notANumber => rfl
    | infinity u => cases u <;> rfl
    | zero u => rfl
    | finite u => cases u <;> rfl
  have hright : ∀ u : UnpackedFloat, u.lt y.toModel.unpack = u.lt y'.toModel.unpack := by
    intro u
    refine hy.observe (UnpackedFloat.lt u) ?_
    intro s t
    cases u with
    | notANumber => rfl
    | infinity u => cases u <;> rfl
    | zero u => rfl
    | finite u => cases u <;> rfl
  rw [hlt, hlt, hleft, hright]

theorem lesser (hx : SameNumber x x') (hy : SameNumber y y') :
    SameNumber (Aggregate.lesser x y) (Aggregate.lesser x' y') := by
  simp only [Aggregate.lesser, hx.isNaN_eq, hy.isNaN_eq, hy.lt_iff hx]
  split
  · exact hy
  · split
    · exact hx
    · split
      · exact hy
      · exact hx

theorem greater (hx : SameNumber x x') (hy : SameNumber y y') :
    SameNumber (Aggregate.greater x y) (Aggregate.greater x' y') := by
  simp only [Aggregate.greater, hx.isNaN_eq, hy.isNaN_eq, hx.lt_iff hy]
  split
  · exact hy
  · split
    · exact hx
    · split
      · exact hy
      · exact hx

theorem finite (h : SameNumber x x') : Alike SameNumber (finite x) (finite x') := by
  simp only [LessonGrid.finite, h.isFinite_eq]
  split
  · exact .ok h
  · exact .error _

theorem operation (op : Operator) (hx : SameNumber x x') (hy : SameNumber y y') :
    Alike SameNumber (op.apply x y) (op.apply x' y') := by
  cases op with
  | add => exact (hx.add hy).finite
  | sub => exact (hx.sub hy).finite
  | mul => exact (hx.mul hy).finite
  | div =>
    simp only [Operator.apply]
    split
    · next hzero =>
      have hzero' : (y' == 0) = true := hy.isZero_iff.mp hzero
      rw [if_pos hzero']
      exact .error _
    · next hzero =>
      -- Two divisors that are the same number, but no zeros, are equal.
      obtain rfl : y = y' := hy.resolve_right fun h => hzero h.1
      rw [if_neg hzero]
      exact (hx.div y).finite

/-- Folding the same numbers into the same number comes to the same number. -/
theorem foldl {f : Float → Float → Float}
    (hf : ∀ {x x' y y'}, SameNumber x x' → SameNumber y y' → SameNumber (f x y) (f x' y'))
    {xs ys : List Float} (h : List.Forall₂ SameNumber xs ys) {x y : Float} (hxy : SameNumber x y) :
    SameNumber (xs.foldl f x) (ys.foldl f y) := by
  have hlift : Relator.LiftFun SameNumber (Relator.LiftFun SameNumber SameNumber) f f :=
    fun _ _ hx _ _ hy => hf hx hy
  exact List.rel_foldl hlift hxy h

theorem reduction (f : Aggregate) {xs ys : List Float} (h : List.Forall₂ SameNumber xs ys) :
    Alike SameNumber (f.apply xs) (f.apply ys) := by
  have htotal : SameNumber (Aggregate.total xs) (Aggregate.total ys) := foldl add h (.refl 0)
  have hlength : xs.length = ys.length := h.length_eq
  cases f with
  | sum => exact .ok htotal
  | count =>
    simp only [Aggregate.apply, Aggregate.reduce?, hlength]
    exact .ok (.refl _)
  | average =>
    cases h with
    | nil => exact .error _
    | cons =>
      simp only [Aggregate.apply, Aggregate.reduce?, hlength]
      exact .ok (htotal.div _)
  | min =>
    cases h with
    | nil => exact .error _
    | cons hhead htail => exact .ok (foldl lesser htail hhead)
  | max =>
    cases h with
    | nil => exact .error _
    | cons hhead htail => exact .ok (foldl greater htail hhead)

/-- The same number is shown in the same way. -/
theorem numberText_eq (h : SameNumber x y) (places : Nat) :
    numberText x places = numberText y places := by
  have hshown : ∀ z, IsZero z → numberText z places = "0" := by
    intro z hz
    obtain ⟨_, _, rfl | ⟨rfl, _⟩ | ⟨rfl, _⟩⟩ := Float.beq_iff_ne_nan_and_eq.mp hz <;> rfl
  rcases h with rfl | ⟨hx, hy⟩
  · rfl
  · rw [hshown x hx, hshown y hy]

end SameNumber

/-- Nothing that formulas compute rests on the sign of a zero. -/
theorem arithmetical_sameNumber : Arithmetical SameNumber where
  refl := SameNumber.refl
  finite := SameNumber.finite
  neg := SameNumber.neg
  operation op := SameNumber.operation op
  reduction := SameNumber.reduction

end LessonGrid
