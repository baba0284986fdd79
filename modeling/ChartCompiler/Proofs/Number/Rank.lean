import ChartCompiler.Number.Quantity
import Mathlib

/-!
# Comparison by rank

Quantities are compared as their ranks are, and an undefined quantity, which is not even equal to
itself, has no rank (`Ranked`).  The larger of two quantities then has the larger rank
(`Ranked.rank_greatest`), so which of several quantities is taken for the largest depends on their
order only as far as they share a rank.

A double is ranked by its sign, its exponent and its mantissa (`ranked_lineRank`).  The two zeros
share a rank, and there is only one undefined double.
-/

set_option autoImplicit false

namespace ChartCompiler

namespace Quantity

section Ranked

variable {α ρ : Type} [Quantity α] [LinearOrder ρ]

/-- Quantities are compared as their ranks are, and at most one of them has no rank. -/
structure Ranked (rank : α → WithBot ρ) : Prop where
  lt_iff : ∀ left right, left < right ↔ rank left ≠ ⊥ ∧ rank left < rank right
  le_iff : ∀ left right, left ≤ right ↔ rank left ≠ ⊥ ∧ rank left ≤ rank right
  eq_of_bot : ∀ left right, rank left = ⊥ → rank right = ⊥ → left = right

/-- Two quantities are the same, or at least no comparison tells them apart. -/
def Agree (left right : α) : Prop :=
  left = right ∨ (left ≤ right ∧ right ≤ left)

variable {rank : α → WithBot ρ}

/-- The larger of two quantities has the larger rank; an undefined one loses. -/
theorem Ranked.rank_greatest (ranked : Ranked rank) (left right : α) :
    rank (greatest left right) = max (rank left) (rank right) := by
  rw [greatest]
  rcases eq_or_ne (rank right) ⊥ with undefined | defined
  · have unequal : ¬ right ≤ right := fun equal =>
      ((ranked.le_iff right right).mp equal).1 undefined
    rw [if_pos (.inr unequal), undefined, max_bot_right]
  · have equal : right ≤ right := (ranked.le_iff right right).mpr ⟨defined, le_rfl⟩
    have less : (right < left ∨ ¬ right ≤ right) ↔ rank right < rank left := by
      rw [ranked.lt_iff]
      simp only [defined, equal, not_true_eq_false, or_false, ne_eq, not_false_eq_true, true_and]
    rw [max_def_lt, apply_ite rank]
    by_cases above : rank right < rank left
    · rw [if_pos (less.mpr above), if_neg above.not_gt]
    · rw [if_neg (mt less.mp above)]
      rcases (not_lt.mp above).lt_or_eq with below | same
      · rw [if_pos below]
      · rw [if_neg same.not_lt, same]

/-- Quantities that share a rank agree. -/
theorem Ranked.agree (ranked : Ranked rank) {left right : α} (same : rank left = rank right) :
    Agree left right := by
  rcases eq_or_ne (rank left) ⊥ with undefined | defined
  · exact .inl (ranked.eq_of_bot left right undefined (same ▸ undefined))
  · have defined' : rank right ≠ ⊥ := same ▸ defined
    exact .inr ⟨(ranked.le_iff _ _).mpr ⟨defined, same.le⟩,
      (ranked.le_iff _ _).mpr ⟨defined', same.ge⟩⟩

end Ranked

end Quantity

/-! ## Doubles -/

section Doubles

open Float.Model.UnpackedFloat

/-- Doubles are ordered by sign, then by exponent and then by mantissa. -/
abbrev Line : Type := ℤ ×ₗ ℤ ×ₗ ℤ

/-- A place on the line of the doubles. -/
def placeOnLine (sign exponent mantissa : ℤ) : Line :=
  toLex (sign, toLex (exponent, mantissa))

theorem compare_placeOnLine (sign sign' exponent exponent' mantissa mantissa' : ℤ) :
    compare (placeOnLine sign exponent mantissa) (placeOnLine sign' exponent' mantissa') =
      (compare sign sign').then
        ((compare exponent exponent').then (compare mantissa mantissa')) :=
  rfl

/-- The place of a double that is taken apart; an undefined one has none. -/
def unpackedPlace : Float.Model.UnpackedFloat → Option Line
  | .notANumber => none
  | .infinity .negative => some (placeOnLine (-2) 0 0)
  | .finite .negative mantissa exponent _ => some (placeOnLine (-1) (-exponent) (-mantissa))
  | .zero _ => some (placeOnLine 0 0 0)
  | .finite .positive mantissa exponent _ => some (placeOnLine 1 exponent mantissa)
  | .infinity .positive => some (placeOnLine 2 0 0)

theorem compare_neg_neg (left right : ℤ) :
    compare (-left) (-right) = (compare left right).swap := by
  rw [Int.compare_swap, ← cmp_eq_compare, ← cmp_eq_compare]
  exact StrictAnti.cmp_map_eq (fun _ _ => neg_lt_neg) left right

theorem compare_natCast (left right : ℕ) : compare (left : ℤ) right = compare left right := by
  rw [← cmp_eq_compare, ← cmp_eq_compare]
  exact Nat.strictMono_cast.cmp_map_eq left right

/-- Doubles are compared as their places are. -/
theorem compare_eq_map₂ (left right : Float.Model.UnpackedFloat) :
    left.compare right = Option.map₂ compare (unpackedPlace left) (unpackedPlace right) := by
  -- Only for finite doubles of one sign does the comparison go beyond the sign.
  rcases left with (_ | _) | _ | (_ | _) | ⟨_ | _, mantissa, exponent, _⟩ <;>
    rcases right with (_ | _) | _ | (_ | _) | ⟨_ | _, mantissa', exponent', _⟩ <;> try rfl
  case finite.negative.finite.negative =>
    show some ((compare exponent exponent').then (compare mantissa mantissa')).swap =
      some (compare (placeOnLine _ _ _) (placeOnLine _ _ _))
    rw [compare_placeOnLine, compare_neg_neg exponent, compare_neg_neg mantissa, compare_natCast,
      Ordering.swap_then]
    rfl
  case finite.positive.finite.positive =>
    show some ((compare exponent exponent').then (compare mantissa mantissa')) =
      some (compare (placeOnLine _ _ _) (placeOnLine _ _ _))
    rw [compare_placeOnLine, compare_natCast]
    rfl

/-- The rank of a double is its place on the line. -/
def lineRank (value : Float) : WithBot Line :=
  (unpackedPlace value.toModel.unpack).elim ⊥ WithBot.some

/-- The parts of a double tell it apart. -/
theorem eq_of_unpacked {left right : Float} (same : left.toModel.unpack = right.toModel.unpack) :
    left = right := by
  have bits := (unpack_inj_of_valid left.toModel.valid right.toModel.valid).mp same
  exact Float.toBits_inj.mp (UInt64.toBitVec_inj.mp bits)

theorem lt_iff_compare (left right : Float) :
    left < right ↔ left.toModel.unpack.compare right.toModel.unpack = some .lt := by
  show decide (left.toModel < right.toModel) = true ↔ _
  rw [decide_eq_true_iff]
  exact beq_iff_eq

theorem le_iff_compare (left right : Float) :
    left ≤ right ↔
      (left.toModel.unpack.compare right.toModel.unpack).any (·.isLE) = true := by
  show decide (left.toModel ≤ right.toModel) = true ↔ _
  rw [decide_eq_true_iff]
  rfl

/-- **Doubles are compared as their places on the line are.** -/
theorem ranked_lineRank : Quantity.Ranked lineRank where
  lt_iff left right := by
    refine (lt_iff_compare left right).trans ?_
    rw [compare_eq_map₂, lineRank, lineRank]
    cases unpackedPlace left.toModel.unpack with
    | none => exact iff_of_false nofun fun less => less.1 rfl
    | some first =>
        cases unpackedPlace right.toModel.unpack with
        | none => exact iff_of_false nofun fun less => WithBot.not_lt_bot _ less.2
        | some second =>
            rw [Option.map₂_some_some, Option.some.injEq, compare_lt_iff_lt, Option.elim_some,
              Option.elim_some, WithBot.coe_lt_coe]
            exact ⟨fun less => ⟨WithBot.coe_ne_bot, less⟩, And.right⟩
  le_iff left right := by
    refine (le_iff_compare left right).trans ?_
    rw [compare_eq_map₂, lineRank, lineRank]
    cases unpackedPlace left.toModel.unpack with
    | none => exact iff_of_false nofun fun less => less.1 rfl
    | some first =>
        cases unpackedPlace right.toModel.unpack with
        | none => exact iff_of_false nofun fun less => WithBot.not_coe_le_bot _ less.2
        | some second =>
            have compared : (compare first second).isLE = true ↔ first ≤ second :=
              Ordering.isLE_iff_ne_gt.trans compare_le_iff_le
            rw [Option.map₂_some_some, Option.any_some, compared, Option.elim_some,
              Option.elim_some, WithBot.coe_le_coe]
            exact ⟨fun less => ⟨WithBot.coe_ne_bot, less⟩, And.right⟩
  eq_of_bot left right undefined undefined' := by
    have unread {number : Float.Model.UnpackedFloat}
        (absent : (unpackedPlace number).elim ⊥ WithBot.some = (⊥ : WithBot Line)) :
        number = .notANumber := by
      cases number with
      | notANumber => rfl
      | infinity sign => cases sign <;> cases absent
      | zero sign => cases absent
      | finite sign mantissa exponent positive => cases sign <;> cases absent
    exact eq_of_unpacked ((unread undefined).trans (unread undefined').symm)

end Doubles

end ChartCompiler
