import Moons.Pl.Arith
import Mathlib.Data.BitVec

/-!
# What `powI` computes

`powI`'s loop `for i = 2; i <= m; i++ { result *= n }` runs on an `int64`
counter. For `0 <= m < 2^63 - 1` it ends after `m - 1` rounds with `n^m` in
64-bit arithmetic, the value `doBin` takes for `**` on two ints. At
`m = 2^63 - 1` no counter exceeds `m`: `i++` wraps to `-2^63` and the loop
never ends.
-/

set_option autoImplicit false

namespace Moons.Pl

theorem toInt_le_max (x : BitVec 64) : x.toInt ≤ 9223372036854775807 := by
  rw [BitVec.toInt_eq_toNat_cond]; have := x.isLt; split <;> omega

theorem toInt_add_one {i : BitVec 64} (nonneg : 0 ≤ i.toInt) (belowMax : i.toInt < 9223372036854775807) :
    (i + 1).toInt = i.toInt + 1 := by
  have := i.isLt
  have oneNat : (1 : BitVec 64).toNat = 1 := rfl
  simp only [BitVec.toInt_eq_toNat_cond, BitVec.toNat_add, oneNat] at nonneg belowMax ⊢
  split <;> split <;> omega

theorem toInt_of_nonneg {m : BitVec 64} (nonneg : 0 ≤ m.toInt) : m.toInt = m.toNat := by
  rw [BitVec.toInt_eq_toNat_cond] at nonneg ⊢; split <;> omega

theorem toNat_pos_of_ne_zero {m : BitVec 64} (nonzero : m ≠ 0) : 0 < m.toNat :=
  Nat.pos_of_ne_zero fun h' => nonzero (BitVec.eq_of_toNat_eq h')

theorem powILoop_exit {n m i r : BitVec 64} (past : m.toInt < i.toInt) : ∀ fuel, powILoop n m fuel i r = some r
  | 0 | _ + 1 => by simp [powILoop, BitVec.sle, Int.not_le.mpr past]

theorem powILoop_ends {n m : BitVec 64} (belowMax : m.toInt < 9223372036854775807) :
    ∀ (k : Nat) (i r : BitVec 64) (fuel : Nat), 0 ≤ i.toInt → i.toInt + k = m.toInt + 1 → k ≤ fuel →
      powILoop n m fuel i r = some (r * n ^ k)
  | 0, i, r, fuel, _, rounds, _ => by rw [powILoop_exit (by omega), pow_zero, mul_one]
  | k + 1, i, r, fuel + 1, nonneg, rounds, enough => by
    have continues : i.sle m = true := by simp [BitVec.sle]; omega
    rw [powILoop, if_pos continues, powILoop_ends belowMax k (i + 1) (r * n) fuel (by rw [toInt_add_one nonneg (by omega)]; omega)
      (by rw [toInt_add_one nonneg (by omega)]; omega) (by omega), pow_succ', mul_assoc]

theorem powILoop_max {n m : BitVec 64} (atMax : m.toInt = 9223372036854775807) :
    ∀ fuel i r, powILoop n m fuel i r = none
  | 0, i, r => by simp [powILoop, BitVec.sle, atMax, toInt_le_max]
  | fuel + 1, i, r => by simp only [powILoop, BitVec.sle, atMax, toInt_le_max, decide_True, if_true, powILoop_max atMax fuel]

section

variable {W : Type} (rt : Runtime W)

/-- `powI(n, m)` for `0 ≤ m`. Below `2^63 - 1` its loop ends within `m - 1`
rounds with `n^m` in 64-bit arithmetic, which is what `doBin` gives `n ** m`.
At `m = 2^63 - 1` the counter passes `i <= m` every round, wrapping from
`2^63 - 1` to `-2^63`: the loop never ends, and neither does `doBin`. -/
theorem powI_of_nonneg (w : W) (n m : BitVec 64) (nonneg : 0 ≤ m.toInt) :
    (m.toInt < 9223372036854775807 →
      (∀ fuel, m.toNat - 1 ≤ fuel → powIFuel fuel n m = some (n ^ m.toNat)) ∧
        doBin rt w (.int n) (.int m) .pow = some (.ok (.ok (.int (n ^ m.toNat))))) ∧
    (m.toInt = 9223372036854775807 →
      (∀ fuel, powIFuel fuel n m = none) ∧ doBin rt w (.int n) (.int m) .pow = none) := by
  have nat := toInt_of_nonneg nonneg
  have ends : m.toInt < 9223372036854775807 → ∀ fuel, m.toNat - 1 ≤ fuel → powIFuel fuel n m = some (n ^ m.toNat) := by
    intro below fuel enough
    unfold powIFuel
    split
    · subst m; rfl
    · have pos := toNat_pos_of_ne_zero ‹_›
      have two : (2 : BitVec 64).toInt = 2 := by decide
      rw [powILoop_ends below (m.toNat - 1) 2 n fuel (by rw [two]; omega) (by rw [two, nat]; omega) enough,
        ← pow_succ', Nat.sub_add_cancel pos]
  have hangs : m.toInt = 9223372036854775807 → ∀ fuel, powIFuel fuel n m = none := by
    intro max fuel
    have nonzero : m ≠ 0 := by rintro rfl; exact absurd max (by decide)
    rw [powIFuel, if_neg nonzero, powILoop_max max]
  refine ⟨fun below => ⟨ends below, ?_⟩, fun max => ⟨hangs max, ?_⟩⟩
  · rw [doBin, powI, ends below m.toNat (Nat.sub_le _ _)]
    rfl
  · rw [doBin, powI, hangs max]
    rfl

end

theorem pow_to_int_max_hangs :
    0 ≤ (9223372036854775807 : BitVec 64).toInt ∧ (∀ fuel, powIFuel fuel 2 9223372036854775807 = none) ∧
      doBin default () (.int 2) (.int 9223372036854775807) .pow = none :=
  ⟨by decide, (powI_of_nonneg default () 2 9223372036854775807 (by decide)).2 (by decide)⟩

example : powIFuel 3 3 4 = some 81 := by decide

end Moons.Pl
