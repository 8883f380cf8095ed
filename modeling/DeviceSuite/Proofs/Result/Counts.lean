import DeviceSuite.Result
import Mathlib.Algebra.GroupWithZero.Nat
import Mathlib.Algebra.Order.BigOperators.Group.List
import Mathlib.Algebra.Order.Group.Nat

/-!
# Counting results

The counts of a device are those of its results, and the counts of a suite are the sums of those of
its devices, as long as they fit into a word.
-/

namespace DeviceSuite

namespace DeviceResult

/-- The number of results with a status. -/
def count (d : DeviceResult) (status : ScenarioStatus) : Nat :=
  d.scenarioResults.countP (·.status = status)

/-- The counts are those of the results. -/
structure Counted (d : DeviceResult) : Prop where
  total : d.stats.total.toNat = d.scenarioResults.length
  passed : d.stats.passed.toNat = d.count .passed
  failed : d.stats.failed.toNat = d.count .failed
  skipped : d.stats.skipped.toNat = d.count .skipped

end DeviceResult

namespace DeviceStats

/-- The counts after some more results. -/
def recordAll (s : DeviceStats) (results : List ScenarioResult) : DeviceStats :=
  results.foldl (fun s r => s.record r.status) s

/-- To record results is to add their number, and the number of each kind. -/
theorem recordAll_eq (s : DeviceStats) (results : List ScenarioResult) :
    s.recordAll results =
      ⟨s.total + .ofNat results.length,
        s.passed + .ofNat (results.countP (·.status = .passed)),
        s.failed + .ofNat (results.countP (·.status = .failed)),
        s.skipped + .ofNat (results.countP (·.status = .skipped))⟩ := by
  induction results generalizing s with
  | nil => simp [recordAll]
  | cons r rest ih =>
    have hrest := ih (s.record r.status)
    rw [recordAll] at hrest ⊢
    rw [List.foldl_cons, hrest]
    cases hr : r.status <;>
      simp [record, hr, UInt32.ofNat_add, UInt32.add_assoc, UInt32.add_comm 1]

end DeviceStats

namespace DeviceResult

/-- Counts that were kept with every result are those of the results. -/
theorem counted_of_recordAll {d : DeviceResult}
    (h : d.stats = DeviceStats.zero.recordAll d.scenarioResults)
    (hlen : d.scenarioResults.length < UInt32.size) : d.Counted := by
  have hcount : ∀ status : ScenarioStatus,
      (UInt32.ofNat (d.scenarioResults.countP (·.status = status))).toNat =
        d.scenarioResults.countP (·.status = status) := fun status =>
    UInt32.toNat_ofNat_of_lt' (Nat.lt_of_le_of_lt List.countP_le_length hlen)
  rw [DeviceStats.recordAll_eq] at h
  constructor
  case total => simpa [h, DeviceStats.zero] using UInt32.toNat_ofNat_of_lt' hlen
  case passed => simpa [h, DeviceStats.zero, count] using hcount .passed
  case failed => simpa [h, DeviceStats.zero, count] using hcount .failed
  case skipped => simpa [h, DeviceStats.zero, count] using hcount .skipped

end DeviceResult

namespace SuiteStats

/-- To sum the counts of devices is to sum each count. -/
theorem foldl_add (s : SuiteStats) (devices : List DeviceResult) :
    devices.foldl (fun s d => s.add d.stats) s =
      { s with
        totalExecutions := devices.foldl (fun a d => a + d.stats.total) s.totalExecutions
        passed := devices.foldl (fun a d => a + d.stats.passed) s.passed
        failed := devices.foldl (fun a d => a + d.stats.failed) s.failed
        skipped := devices.foldl (fun a d => a + d.stats.skipped) s.skipped } := by
  induction devices generalizing s with
  | nil => rfl
  | cons d rest ih => exact ih (s.add d.stats)

/-- A sum of words is the sum of their values, if it fits into a word. -/
theorem toNat_foldl (f : DeviceResult → UInt32) (devices : List DeviceResult) (a : UInt32)
    (h : a.toNat + (devices.map fun d => (f d).toNat).sum < UInt32.size) :
    (devices.foldl (fun a d => a + f d) a).toNat =
      a.toNat + (devices.map fun d => (f d).toNat).sum := by
  induction devices generalizing a with
  | nil => rfl
  | cons d rest ih =>
    simp only [List.map_cons, List.sum_cons] at h ⊢
    have hadd : (a + f d).toNat = a.toNat + (f d).toNat := by
      rw [UInt32.toNat_add]
      exact Nat.mod_eq_of_lt (by simp only [UInt32.size] at h; omega)
    rw [List.foldl_cons, ih _ (by omega), hadd, Nat.add_assoc]

/-- The counts of a suite are the sums of those of its devices. -/
structure Sums (s : SuiteStats) (devices : List DeviceResult) : Prop where
  totalExecutions : s.totalExecutions.toNat = (devices.map fun d => d.stats.total.toNat).sum
  passed : s.passed.toNat = (devices.map fun d => d.stats.passed.toNat).sum
  failed : s.failed.toNat = (devices.map fun d => d.stats.failed.toNat).sum
  skipped : s.skipped.toNat = (devices.map fun d => d.stats.skipped.toNat).sum

/-- The counts of a suite are taken as long as the results of all devices fit into a word. -/
theorem aggregate_sums (totalScenarios totalDevices : UInt32) {devices : List DeviceResult}
    {k : Nat} (hcounted : ∀ d ∈ devices, d.Counted ∧ d.scenarioResults.length ≤ k)
    (hlt : devices.length * k < UInt32.size) :
    (aggregate totalScenarios totalDevices devices).Sums devices := by
  have hsum : ∀ f : DeviceResult → UInt32,
      (∀ d ∈ devices, (f d).toNat ≤ d.scenarioResults.length) →
      (devices.foldl (fun a d => a + f d) 0).toNat = (devices.map fun d => (f d).toNat).sum := by
    intro f hf
    have hle : (devices.map fun d => (f d).toNat).sum ≤ devices.length * k := by
      rw [← Nat.nsmul_eq_mul, ← List.length_map fun d => (f d).toNat]
      apply List.sum_le_card_nsmul
      intro count hcount
      obtain ⟨d, hd, rfl⟩ := List.mem_map.1 hcount
      exact (hf d hd).trans (hcounted d hd).2
    simpa using toNat_foldl f devices 0 (by simpa using hle.trans_lt hlt)
  rw [aggregate, foldl_add]
  constructor
  case totalExecutions => exact hsum _ fun d hd => (hcounted d hd).1.total.le
  case passed => exact hsum _ fun d hd => (hcounted d hd).1.passed ▸ List.countP_le_length
  case failed => exact hsum _ fun d hd => (hcounted d hd).1.failed ▸ List.countP_le_length
  case skipped => exact hsum _ fun d hd => (hcounted d hd).1.skipped ▸ List.countP_le_length

end SuiteStats

end DeviceSuite
