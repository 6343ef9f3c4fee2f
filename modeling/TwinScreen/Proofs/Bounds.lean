import Mathlib.Data.List.Basic
import TwinScreen.Bounds

/-!
# Computations with bounded numbers

A computation with a result is opened into the computations it is made of; where sizes are added
and multiplied on the way, their exact values come out and are in range. A sum of coordinates comes
out just where it is one (`Offset.Fits`).
-/
namespace TwinScreen

variable {α β ε : Type}

theorem except_ok_bind (a : α) (next : α → Except ε β) : (Except.ok a >>= next) = next a := rfl

theorem except_ok_eq_ok {a b : α} : (Except.ok a : Except ε α) = .ok b ↔ b = a := by
  simp [eq_comm]

/-- Two computations in a row succeed if the first one does and the second one does with its
result. -/
theorem except_bind_eq_ok (x : Except ε α) (next : α → Except ε β) (b : β) :
    (x >>= next) = .ok b ↔ ∃ a, x = .ok a ∧ next a = .ok b := by
  cases x <;> simp [bind, Except.bind]

theorem except_unit_bind_eq_ok {x y : Except ε Unit} :
    (do x; y) = .ok () ↔ x = .ok () ∧ y = .ok () := by
  rw [except_bind_eq_ok]
  exact ⟨fun ⟨_, hx, hy⟩ => ⟨hx, hy⟩, fun ⟨hx, hy⟩ => ⟨(), hx, hy⟩⟩

theorem except_bind_pure (x : Except ε α) (f : α → β) :
    (x >>= fun a => pure (f a)) = x.map f := by
  cases x <;> rfl

theorem except_map_eq_ok {x : Except ε α} {f : α → β} {b : β} :
    x.map f = .ok b ↔ ∃ a, x = .ok a ∧ b = f a := by
  cases x <;> simp [Except.map, eq_comm]

/-- A computation behind a check has a result only where the check lets it pass. -/
theorem except_ite_eq_ok (c : Prop) [Decidable c] (e : Fault) (x : Except Fault α) (a : α) :
    (if c then x else throw e) = .ok a ↔ c ∧ x = .ok a := by
  split <;> rename_i h <;> simp [h, throw, throwThe, MonadExceptOf.throw]

namespace Size

theorem fit_bind (n : Nat) (next : Nat → Except Fault α) :
    (fit n >>= next) = if n < bound then next n else .error .overflow := by
  unfold fit
  split <;> rfl

theorem add_eq_ok (a b n : Nat) : add a b = .ok n ↔ a + b < bound ∧ a + b = n := fit_eq_ok_iff

theorem mul_eq_ok (a b n : Nat) : mul a b = .ok n ↔ a * b < bound ∧ a * b = n := fit_eq_ok_iff

theorem add_of_not_lt {a b : Nat} (h : ¬ a + b < bound) : add a b = .error .overflow := if_neg h

theorem mul_of_not_lt {a b : Nat} (h : ¬ a * b < bound) : mul a b = .error .overflow := if_neg h

end Size

namespace Offset

/-- An integer is a coordinate. -/
def Fits (z : Int) : Prop := -0x80000000 ≤ z ∧ z < 0x80000000

theorem fit_of_fits {z : Int} (h : Fits z) : fit z = .ok z := if_pos h

theorem add_of_fits {a b : Int} (h : Fits (a + b)) : add a b = .ok (a + b) := fit_of_fits h

theorem sub_of_fits {a b : Int} (h : Fits (a - b)) : sub a b = .ok (a - b) := fit_of_fits h

theorem fit_isOk_iff {z : Int} : (∃ w, fit z = .ok w) ↔ Fits z := by
  simp [fit_eq_ok_iff, Fits]

/-- A computation that starts with a coordinate goes on only where there is one. -/
theorem fit_bind_isOk_iff {z : Int} {next : Int → Except Fault α} :
    (∃ a, (fit z >>= next) = .ok a) ↔ Fits z ∧ ∃ a, next z = .ok a := by
  constructor
  · rintro ⟨a, h⟩
    obtain ⟨w, hw, hnext⟩ := (except_bind_eq_ok _ _ _).mp h
    obtain ⟨hfits, rfl⟩ := fit_eq_ok_iff.mp hw
    exact ⟨hfits, a, hnext⟩
  · rintro ⟨hfits, a, hnext⟩
    exact ⟨a, by rwa [fit_of_fits hfits, except_ok_bind]⟩

/-- A dimension keeps its value as a coordinate, or loses `2 ^ 32`. -/
theorem ofSize_cases {n : Nat} (h : n < Extent.bound) :
    (n < 0x80000000 ∧ ofSize n = n) ∨
      (0x80000000 ≤ n ∧ n < 0x100000000 ∧ ofSize n = n - 0x100000000) := by
  unfold Extent.bound at h
  unfold ofSize
  rw [Int.bmod_def]
  split <;> omega

end Offset

end TwinScreen
