import DeviceSuite.Proofs.Result.Accounts

/-!
# Counts as words

A word that is full begins anew when it counts on. Whatever was counted, the word shows it as long
as it fits, and what is left of it otherwise; so do the counts of the devices, and the sums of a
suite, which are taken from words that may have begun anew.
-/

namespace DeviceSuite

/-- What a word shows that has counted so many: their number, if it fits, and otherwise what is left
of it. -/
structure WordShows (value count : Nat) : Prop where
  rest : value = count % UInt32.size
  exact : value = count ↔ count < UInt32.size

/-- A word shows what is left of a count beyond all full words. -/
theorem wordShows_iff {value count : Nat} :
    WordShows value count ↔ value = count % UInt32.size := by
  refine ⟨WordShows.rest, fun h => ⟨h, ?_⟩⟩
  rw [h]
  exact ⟨fun heq => heq ▸ Nat.mod_lt _ (by decide), Nat.mod_eq_of_lt⟩

/-- A word that is made of a count shows it. -/
theorem wordShows_ofNat (count : Nat) : WordShows (UInt32.ofNat count).toNat count :=
  wordShows_iff.2 (UInt32.toNat_ofNat' ..)

/-- One more is counted. -/
theorem WordShows.succ {value count : Nat} (h : WordShows value count) :
    WordShows ((value + 1) % UInt32.size) (count + 1) :=
  wordShows_iff.2 (by rw [h.rest, Nat.mod_add_mod])

/-- The sum of words shows the sum of what they have counted, even if one of them began anew. -/
theorem WordShows.add {a b : UInt32} {m n : Nat} (ha : WordShows a.toNat m)
    (hb : WordShows b.toNat n) : WordShows (a + b).toNat (m + n) := by
  have hsum : (a + b).toNat = (a.toNat + b.toNat) % UInt32.size := UInt32.toNat_add ..
  exact wordShows_iff.2 (by rw [hsum, ha.rest, hb.rest, ← Nat.add_mod])

/-- A sum of words shows the sum of what they show. -/
theorem WordShows.foldl {α : Type} {f : α → UInt32} {count : α → Nat} {items : List α}
    (hf : ∀ x ∈ items, WordShows (f x).toNat (count x)) {a : UInt32} {m : Nat}
    (ha : WordShows a.toNat m) :
    WordShows (items.foldl (fun a x => a + f x) a).toNat (m + (items.map count).sum) := by
  induction items generalizing a m with
  | nil => exact ha
  | cons x rest ih =>
    rw [List.map_cons, List.sum_cons, ← Nat.add_assoc]
    exact ih (fun y hy => hf y (List.mem_cons_of_mem _ hy)) (ha.add (hf x List.mem_cons_self))

namespace DeviceResult

/-- The counts of a device show how many results it has. -/
structure CountsInWords (d : DeviceResult) : Prop where
  total : WordShows d.stats.total.toNat d.scenarioResults.length
  passed : WordShows d.stats.passed.toNat (d.count .passed)
  failed : WordShows d.stats.failed.toNat (d.count .failed)
  skipped : WordShows d.stats.skipped.toNat (d.count .skipped)

/-- Counts that were kept with every result show how many there are. -/
theorem countsInWords_of_recordAll {d : DeviceResult}
    (h : d.stats = DeviceStats.zero.recordAll d.scenarioResults) : d.CountsInWords := by
  have hword : ∀ k, WordShows ((0 : UInt32) + .ofNat k).toNat k := fun k => by
    simpa only [UInt32.zero_add] using wordShows_ofNat k
  rw [DeviceStats.recordAll_eq] at h
  exact ⟨h ▸ hword _, h ▸ hword _, h ▸ hword _, h ▸ hword _⟩

end DeviceResult

namespace SuiteStats

/-- The counts of a suite show how many results its devices have. -/
structure SumsInWords (s : SuiteStats) (devices : List DeviceResult) : Prop where
  totalExecutions : WordShows s.totalExecutions.toNat
    (devices.map fun d => d.scenarioResults.length).sum
  passed : WordShows s.passed.toNat (devices.map (·.count .passed)).sum
  failed : WordShows s.failed.toNat (devices.map (·.count .failed)).sum
  skipped : WordShows s.skipped.toNat (devices.map (·.count .skipped)).sum

/-- The sums of a run are shown in words when the counts of its devices are. -/
theorem aggregate_sumsInWords (totalScenarios totalDevices : UInt32) {devices : List DeviceResult}
    (h : ∀ d ∈ devices, d.CountsInWords) :
    (aggregate totalScenarios totalDevices devices).SumsInWords devices := by
  have hsum : ∀ {f : DeviceResult → UInt32} {count : DeviceResult → Nat},
      (∀ d ∈ devices, WordShows (f d).toNat (count d)) →
      WordShows (devices.foldl (fun a d => a + f d) 0).toNat (devices.map count).sum := by
    intro f count hf
    simpa using WordShows.foldl hf (wordShows_ofNat 0)
  rw [aggregate, foldl_add]
  constructor
  case totalExecutions => exact hsum fun d hd => (h d hd).total
  case passed => exact hsum fun d hd => (h d hd).passed
  case failed => exact hsum fun d hd => (h d hd).failed
  case skipped => exact hsum fun d hd => (h d hd).skipped

end SuiteStats

end DeviceSuite
