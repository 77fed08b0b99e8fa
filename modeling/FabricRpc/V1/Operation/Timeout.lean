import FabricRpc.V1.Operation

namespace FabricRpc.V1

-- The whole milliseconds of a time in nanoseconds.
def floorMs (elapsed : ℕ) : ℕ := elapsed / 1000000

-- The two stages of the server: routing takes e1, and the body takes e2.
def budget (timeoutMilliseconds : UInt32) (e1 e2 : ℕ) : UInt32 :=
  newTimeout (newTimeout timeoutMilliseconds e1) e2

-- The step in machine words. The clock and `count()` are long longs, the comparison
-- takes the DWORD to a long long, and the cast takes the low half of the count.
def newTimeoutWord (timeoutMilliseconds : UInt32) (elapsed : Int64) : UInt32 :=
  let ms := elapsed / 1000000
  if timeoutMilliseconds.toUInt64.toInt64 > ms then timeoutMilliseconds - ms.toUInt64.toUInt32
  else 0

section Step

variable {timeoutMilliseconds : UInt32} {elapsed : ℕ}

-- What is subtracted is less than the timeout, so it fits and nothing wraps.
theorem sub_ofNat_toNat {ms : ℕ} (h : timeoutMilliseconds.toNat > ms) :
    (timeoutMilliseconds - UInt32.ofNat ms).toNat = timeoutMilliseconds.toNat - ms := by
  have hsize : ms < UInt32.size := lt_trans h timeoutMilliseconds.toNat_lt
  have hms : (UInt32.ofNat ms).toNat = ms := UInt32.toNat_ofNat_of_lt' hsize
  have hle : UInt32.ofNat ms ≤ timeoutMilliseconds := by
    rw [UInt32.le_iff_toNat_le, hms]
    omega
  rw [UInt32.toNat_sub_of_le _ _ hle, hms]

@[simp] theorem newTimeout_toNat (timeoutMilliseconds : UInt32) (elapsed : ℕ) :
    (newTimeout timeoutMilliseconds elapsed).toNat =
      timeoutMilliseconds.toNat - floorMs elapsed := by
  simp only [newTimeout, floorMs]
  split
  · rename_i h
    exact sub_ofNat_toNat h
  · rw [UInt32.toNat_zero]
    omega

-- The comparison of the words is that of the numbers.
theorem toInt_toUInt64 (timeoutMilliseconds : UInt32) :
    timeoutMilliseconds.toUInt64.toInt64.toInt = timeoutMilliseconds.toNat := by
  have hsize := timeoutMilliseconds.toNat_lt
  have hword : timeoutMilliseconds.toUInt64.toInt64.toBitVec.toNat =
      timeoutMilliseconds.toNat := by
    rw [UInt64.toBitVec_toInt64, UInt64.toNat_toBitVec, UInt32.toNat_toUInt64]
  rw [← Int64.toInt_toBitVec, BitVec.toInt_eq_toNat_of_lt (by omega), hword]

theorem newTimeoutWord_eq (timeoutMilliseconds : UInt32) {elapsed : Int64} (h : 0 ≤ elapsed) :
    newTimeoutWord timeoutMilliseconds elapsed =
      newTimeout timeoutMilliseconds elapsed.toNatClampNeg := by
  have helapsed : 0 ≤ elapsed.toInt := Int64.le_iff_toInt_le.mp h
  have hdiv : (elapsed / 1000000).toInt = elapsed.toInt / 1000000 := by
    rw [Int64.toInt_div_of_ne_right _ _ (by decide), Int.tdiv_eq_ediv_of_nonneg helapsed]
    rfl
  have hms : (elapsed / 1000000).toNatClampNeg = elapsed.toNatClampNeg / 1000000 := by
    rw [← Int64.toNat_toInt, ← Int64.toNat_toInt, hdiv]
    omega
  have hle : 0 ≤ elapsed / 1000000 := by
    rw [Int64.le_iff_toInt_le, hdiv]
    exact Int.ediv_nonneg helapsed (by decide)
  have hcast : (elapsed / 1000000).toUInt64.toUInt32 =
      UInt32.ofNat (elapsed.toNatClampNeg / 1000000) := by
    rw [← UInt32.toNat_inj, UInt64.toNat_toUInt32, UInt32.toNat_ofNat',
      Int64.toNat_toUInt64_of_le hle, hms]
  have hcompare : timeoutMilliseconds.toUInt64.toInt64 > elapsed / 1000000 ↔
      timeoutMilliseconds.toNat > elapsed.toNatClampNeg / 1000000 := by
    rw [gt_iff_lt, Int64.lt_iff_toInt_lt, toInt_toUInt64, hdiv, ← Int64.toNat_toInt]
    omega
  simp only [newTimeoutWord, newTimeout, hcast, hcompare]

end Step

section Budget

variable (timeoutMilliseconds : UInt32) (e1 e2 : ℕ)

theorem budget_toNat : (budget timeoutMilliseconds e1 e2).toNat =
    timeoutMilliseconds.toNat - floorMs e1 - floorMs e2 := by
  simp [budget]

theorem budget_eq_max : ((budget timeoutMilliseconds e1 e2).toNat : ℤ) =
    max 0 (timeoutMilliseconds.toNat - floorMs e1 - floorMs e2) := by
  rw [budget_toNat]
  omega

theorem budget_le : budget timeoutMilliseconds e1 e2 ≤ timeoutMilliseconds := by
  rw [UInt32.le_iff_toNat_le, budget_toNat]
  omega

theorem budget_mono {t t' : UInt32} (h : t ≤ t') : budget t e1 e2 ≤ budget t' e1 e2 := by
  rw [UInt32.le_iff_toNat_le] at *
  rw [budget_toNat, budget_toNat]
  omega

-- Rounding twice loses at most one more millisecond than rounding once.
theorem floorMs_add_le : floorMs (e1 + e2) ≤ floorMs e1 + floorMs e2 + 1 := by
  unfold floorMs
  omega

theorem budget_rounding : ((budget timeoutMilliseconds e1 e2).toNat : ℤ) ≤
    max 0 (timeoutMilliseconds.toNat - floorMs (e1 + e2)) + 1 := by
  have hround := floorMs_add_le e1 e2
  rw [budget_toNat]
  omega

end Budget

end FabricRpc.V1
