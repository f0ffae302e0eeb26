import Mathlib.Tactic.Common

/-! Words taken apart into halves, down to their bytes from the lowest, and put together. -/
namespace Halves

theorem join (w : ℕ) (v : BitVec (w + w)) :
    (v.setWidth w).setWidth (w + w) ||| ((v >>> w).setWidth w).setWidth (w + w) <<< w = v := by
  ext i inside
  rw [BitVec.getElem_or, BitVec.getElem_shiftLeft, BitVec.getElem_setWidth,
    BitVec.getElem_setWidth, BitVec.getLsbD_setWidth, BitVec.getLsbD_setWidth,
    BitVec.getLsbD_ushiftRight]
  by_cases low : i < w
  · simp [low, BitVec.getLsbD_eq_getElem inside]
  · have upper : i - w < w := by
      omega
    have same : w + (i - w) = i := by
      omega
    simp [low, upper, same, BitVec.getLsbD_eq_getElem inside]

def bytes16 (v : UInt16) : List UInt8 := [v.toUInt8, (v >>> 8).toUInt8]

def bytes32 (v : UInt32) : List UInt8 := bytes16 v.toUInt16 ++ bytes16 (v >>> 16).toUInt16

theorem join16 (v : UInt16) : v.toUInt8.toUInt16 ||| (v >>> 8).toUInt8.toUInt16 <<< 8 = v :=
  UInt16.eq_of_toBitVec_eq (join 8 v.toBitVec)

theorem join32 (v : UInt32) : v.toUInt16.toUInt32 ||| (v >>> 16).toUInt16.toUInt32 <<< 16 = v :=
  UInt32.eq_of_toBitVec_eq (join 16 v.toBitVec)

end Halves
