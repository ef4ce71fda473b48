import Galaxy42.Lib.CircularBuffer
import Galaxy42.Lib.Rounding
import Mathlib.Algebra.BigOperators.Group.List.Basic
import Mathlib.Algebra.Order.Ring.Int
import Mathlib.Data.List.Chain
import Mathlib.Tactic.FieldSimp
import Mathlib.Tactic.Positivity

/-!
# Statistics of a peering

`c_data_transmission_buffer`: how much was sent and read in each of the last time intervals. An update first
moves the window on to the interval of its time, which is counted from the construction of the object, and
then adds to the newest slot. What is sent and what is read are in windows of their own, each of which is
moved on only by its own updates.

The number of an interval is computed in `double`: the nanoseconds that have passed become milliseconds by
one division, and intervals by another one, with a rounding after each, and what comes out is cut off
(`units`). Rounding keeps the order of times (`units_le_units`), and for the first `2 ^ 51` nanoseconds it
does not put any time into another interval than the exact quotient (`units_eq_ediv`). The results are for
all times, in terms of the intervals that the code computes.

As long as the times do not decrease, the windows show the totals of each interval (`runUpdates_shows`). The
slots are `size_t`, so the totals are modulo `2 ^ 64`, and the loop that moves a window on counts in an `int`,
so it must not be by `2 ^ 31` intervals or more at once.

A window is a circular buffer that shows a function on the integers: the total of each interval, which is 0
where nothing was reported. Moving on by some intervals advances the window, and an update changes the newest
slot; the invariant (`Holds`) adds that nothing was reported behind the interval that the window has come to.
Updates of size 0 only move the window on, which is how the statistics are kept going without traffic.
-/

namespace Galaxy42

open Toolkit

namespace Httpdbg

/-! ### Windows -/

/-- What is kept of the data in one direction. Its two buffers are moved on together. -/
structure Window where
  /-- `m_data_sent_buffer` or `m_data_read_buffer` -/
  mDataBuffer : CircularBuffer UInt64
  /-- `m_packets_sent_buffer` or `m_packets_read_buffer` -/
  mPacketsBuffer : CircularBuffer UInt64
  /-- `m_last_sent` or `m_last_read`: the interval of the newest slot. -/
  mLast : ℤ

namespace Window

/-- The loop that moves the window on, with `n` iterations left from `i` on. It is undefined to increment an
`int` out of range. -/
def moveOn : ℕ → ℤ → Window → Option Window
  | 0, _, w => some w
  | n + 1, i, w =>
    let w := { w with
      mDataBuffer := w.mDataBuffer.pushBack 0
      mPacketsBuffer := w.mPacketsBuffer.pushBack 0 }
    if i + 1 < 2 ^ 31 then moveOn n (i + 1) w else none

/-- The body of `update_sent_buffer` and `update_read_buffer`, in the interval `units`. It is undefined to
take the back of an empty buffer. -/
def update (w : Window) (units : ℤ) (dataSize : UInt64) : Option Window := do
  let distance := units - w.mLast
  let w ← moveOn distance.toNat 0 { w with mLast := units }
  if dataSize = 0 then
    return w
  if w.mDataBuffer.items = [] ∨ w.mPacketsBuffer.items = [] then
    none
  else
    return { w with
      mDataBuffer := w.mDataBuffer.modifyBack (· + dataSize)
      mPacketsBuffer := w.mPacketsBuffer.modifyBack (· + 1) }

end Window

/-! ### The buffer -/

/-- The conversion to `double`, and the rounding of what is computed with it. -/
def double (x : ℚ) : ℚ := roundTo 53 x

/-- `chrono::duration<double, milli>(elapsed).count() / m_interval`, cut off to a `long`: the number of the
interval after so many nanoseconds. The `long` of nanoseconds and the `int` of milliseconds are converted
to `double`, and each of the two divisions is rounded. -/
def units (elapsed interval : ℤ) : ℤ :=
  truncate (double (double (double elapsed / 1000000) / double interval))

/-- `c_data_transmission_buffer`. Times are in nanoseconds, and the interval in milliseconds. -/
structure DataTransmissionBuffer where
  /-- What was sent. -/
  sent : Window
  /-- What was read. -/
  read : Window
  /-- `m_interval` -/
  mInterval : ℤ
  /-- `m_reference_time` -/
  mReferenceTime : ℤ

namespace DataTransmissionBuffer

/-- The constructor, at the time `now`. All slots are zero, and the newest one is that of the first interval. -/
def construct (bufferSize : ℕ) (intervalInMilisec now : ℤ) : DataTransmissionBuffer where
  sent := ⟨.replicate bufferSize 0, .replicate bufferSize 0, 0⟩
  read := ⟨.replicate bufferSize 0, .replicate bufferSize 0, 0⟩
  mInterval := intervalInMilisec
  mReferenceTime := now

/-- The number of the interval at the time `now`. It is counted from the construction on. -/
def unitsAt (b : DataTransmissionBuffer) (now : ℤ) : ℤ :=
  units (now - b.mReferenceTime) b.mInterval

/-- `update_sent_buffer` -/
def updateSentBuffer (b : DataTransmissionBuffer) (now : ℤ) (dataSize : UInt64) :
    Option DataTransmissionBuffer := do
  return { b with sent := ← b.sent.update (b.unitsAt now) dataSize }

/-- `update_read_buffer` -/
def updateReadBuffer (b : DataTransmissionBuffer) (now : ℤ) (dataSize : UInt64) :
    Option DataTransmissionBuffer := do
  return { b with read := ← b.read.update (b.unitsAt now) dataSize }

/-- A call of `update_sent_buffer` or `update_read_buffer`. -/
structure Update where
  /-- It is `update_sent_buffer`. -/
  isSent : Bool
  /-- The time of the call. -/
  now : ℤ
  /-- How much was sent or read. -/
  dataSize : UInt64

/-- One update. -/
def update (b : DataTransmissionBuffer) (u : Update) : Option DataTransmissionBuffer :=
  if u.isSent then b.updateSentBuffer u.now u.dataSize else b.updateReadBuffer u.now u.dataSize

/-- A sequence of updates. When one of them overflows there is no result. -/
def runUpdates : DataTransmissionBuffer → List Update → Option DataTransmissionBuffer
  | b, [] => some b
  | b, u :: updates => do runUpdates (← b.update u) updates

end DataTransmissionBuffer

/-! ### What was reported -/

/-- The interval of an update, and its size. -/
abbrev Report := ℤ × UInt64

/-- How many bytes were reported in an interval. The sum is exact, while a slot of the buffer wraps around. -/
def bytesIn (reports : List Report) (k : ℤ) : ℕ :=
  ((reports.filter fun r => r.1 = k).map fun r => r.2.toNat).sum

/-- How many packets that are not empty were reported in an interval. An update of size zero only moves the
window on. -/
def packetsIn (reports : List Report) (k : ℤ) : ℕ :=
  reports.countP fun r => r.1 = k ∧ r.2 ≠ 0

/-- The interval of the last report, or that of the construction. The newest slot is to stand for it. -/
def lastInterval (reports : List Report) : ℤ := (reports.getLast?.map Prod.fst).getD 0

/-- The reports in one direction. Each has the interval of its time. -/
def reportsOf (b : DataTransmissionBuffer) (isSent : Bool)
    (updates : List DataTransmissionBuffer.Update) : List Report :=
  (updates.filter fun u => u.isSent = isSent).map fun u => (b.unitsAt u.now, u.dataSize)

namespace Window

/-- The window has as many slots as at first, and from the newest to the oldest they hold the totals of the
last intervals. Slots that are older than the first report hold 0. -/
structure Shows (w : Window) (slots : ℕ) (reports : List Report) : Prop where
  last : w.mLast = lastInterval reports
  slots_data : w.mDataBuffer.items.length = slots
  slots_packets : w.mPacketsBuffer.items.length = slots
  data : ∀ j < slots,
    w.mDataBuffer.items[j]? = some (UInt64.ofNat (bytesIn reports (lastInterval reports - j)))
  packets : ∀ j < slots,
    w.mPacketsBuffer.items[j]? = some (UInt64.ofNat (packetsIn reports (lastInterval reports - j)))

/-- The same with the totals themselves. -/
structure ShowsTotals (w : Window) (slots : ℕ) (reports : List Report) : Prop where
  last : w.mLast = lastInterval reports
  slots_data : w.mDataBuffer.items.length = slots
  slots_packets : w.mPacketsBuffer.items.length = slots
  data : ∀ j < slots, w.mDataBuffer.items[j]?.map UInt64.toNat =
    some (bytesIn reports (lastInterval reports - j))
  packets : ∀ j < slots, w.mPacketsBuffer.items[j]?.map UInt64.toNat =
    some (packetsIn reports (lastInterval reports - j))

/-- An update of size 0 only moves the slots on, by as many intervals as have passed. Slots that are new hold
0, and the others have what was there. -/
structure OnlyAdvances (w : Window) (slots : ℕ) : Prop where
  advance : ∀ n : ℕ, n < 2 ^ 31 → ∃ w', w.update (w.mLast + n) 0 = some w' ∧ w'.mLast = w.mLast + n ∧
    ∀ j < slots,
      w'.mDataBuffer.items[j]? = (if j < n then some 0 else w.mDataBuffer.items[j - n]?) ∧
      w'.mPacketsBuffer.items[j]? = (if j < n then some 0 else w.mPacketsBuffer.items[j - n]?)

end Window

/-! ### The number of an interval -/

section Units

variable {elapsed elapsed' interval : ℤ}

private theorem double_nonneg {x : ℚ} (h : 0 ≤ x) : 0 ≤ double x := roundTo_nonneg h

private theorem double_le_double {x y : ℚ} (hx : 0 ≤ x) (h : x ≤ y) : double x ≤ double y :=
  roundTo_le_roundTo (by norm_num) hx h

/-- Integers of up to 53 bits are not rounded. -/
theorem double_intCast {n : ℤ} (hn : 0 ≤ n) (h : n < 2 ^ 53) : double n = n := by
  lift n to ℕ using hn
  have hlt : n < 2 ^ 53 := by exact_mod_cast h
  exact_mod_cast roundTo_natCast hlt

private theorem double_pos (h : 0 < interval) : 0 < double interval := by
  have hone : double ((1 : ℤ) : ℚ) = ((1 : ℤ) : ℚ) := double_intCast (by norm_num) (by norm_num)
  have hle : double ((1 : ℤ) : ℚ) ≤ double interval :=
    double_le_double (by norm_num) (Int.cast_le.mpr h)
  rw [hone] at hle
  exact lt_of_lt_of_le (by norm_num) hle

/-- The number of milliseconds that have passed, as it is computed. -/
private theorem milliseconds_nonneg (h : 0 ≤ elapsed) : 0 ≤ double (double elapsed / 1000000) :=
  double_nonneg (div_nonneg (double_nonneg (Int.cast_nonneg h)) (by norm_num))

private theorem quotient_nonneg (hinterval : 0 < interval) (h : 0 ≤ elapsed) :
    0 ≤ double (double (double elapsed / 1000000) / double interval) :=
  double_nonneg (div_nonneg (milliseconds_nonneg h) (double_pos hinterval).le)

/-- The object is constructed in the interval 0. -/
private theorem units_zero (interval : ℤ) : units 0 interval = 0 := by
  simp [units, double, truncate]

/-- Later times are in the same interval or in a later one. -/
theorem units_le_units (hinterval : 0 < interval) (h : 0 ≤ elapsed) (hle : elapsed ≤ elapsed') :
    units elapsed interval ≤ units elapsed' interval := by
  have hpos := double_pos hinterval
  rw [units, units, truncate_of_nonneg (quotient_nonneg hinterval h),
    truncate_of_nonneg (quotient_nonneg hinterval (h.trans hle))]
  refine Int.floor_le_floor (double_le_double (div_nonneg (milliseconds_nonneg h) hpos.le) ?_)
  refine div_le_div_of_nonneg_right (double_le_double ?_ ?_) hpos.le
  · exact div_nonneg (double_nonneg (Int.cast_nonneg h)) (by norm_num)
  · exact div_le_div_of_nonneg_right
      (double_le_double (Int.cast_nonneg h) (Int.cast_le.mpr hle)) (by norm_num)

/-- In the first `2 ^ 51` nanoseconds, 26 days, no time is rounded into another interval. -/
theorem units_eq_ediv (hinterval : 0 < interval) (hint : interval < 2 ^ 31) (h : 0 ≤ elapsed)
    (hlt : elapsed ≤ 2 ^ 51) : units elapsed interval = elapsed / (interval * 1000000) := by
  have helapsed : double elapsed = elapsed := double_intCast h (by omega)
  have hdivisor : double interval = interval := double_intCast hinterval.le (by omega)
  have hI : (0 : ℚ) < interval := Int.cast_pos.mpr hinterval
  have he : (0 : ℚ) ≤ elapsed := Int.cast_nonneg h
  have hfloor := quotient_nonneg hinterval h
  rw [helapsed, hdivisor] at hfloor
  rw [units, helapsed, hdivisor, truncate_of_nonneg hfloor, Int.floor_eq_iff]
  have hmul : 0 < interval * 1000000 := by omega
  have hk : 0 ≤ elapsed / (interval * 1000000) := Int.ediv_nonneg h hmul.le
  have hlower := Int.ediv_mul_le elapsed hmul.ne'
  have hupper := Int.lt_ediv_add_one_mul_self elapsed hmul
  generalize elapsed / (interval * 1000000) = k at hk hlower hupper
  have hkI : k * interval < 2 ^ 53 := by nlinarith
  have hk' : k < 2 ^ 53 := by nlinarith
  constructor
  · -- Rounding keeps the order, and does not change the bound.
    have hmilli : ((k * interval : ℤ) : ℚ) ≤ double (elapsed / 1000000) := by
      rw [← double_intCast (by positivity) hkI]
      refine double_le_double (by positivity) ?_
      rw [le_div_iff₀ (by norm_num)]
      exact_mod_cast (by linarith : k * interval * 1000000 ≤ elapsed)
    rw [← double_intCast hk hk']
    refine double_le_double (Int.cast_nonneg hk) ?_
    rw [le_div_iff₀ hI]
    exact_mod_cast hmilli
  · -- Both roundings together add less than a nanosecond.
    have hmilli : double ((elapsed : ℚ) / 1000000) ≤ elapsed / 1000000 * (1 + 1 / 2 ^ 53) :=
      roundTo_le_mul (by positivity)
    have hquotient : double (double ((elapsed : ℚ) / 1000000) / interval) ≤
        double ((elapsed : ℚ) / 1000000) / interval * (1 + 1 / 2 ^ 53) :=
      roundTo_le_mul (div_nonneg (double_nonneg (by positivity)) hI.le)
    have hnanosecond : (elapsed : ℚ) * (1 + 1 / 2 ^ 53) * (1 + 1 / 2 ^ 53) < elapsed + 1 := by
      have hle : (elapsed : ℚ) ≤ 2 ^ 51 := by exact_mod_cast hlt
      nlinarith
    have hnext : (elapsed : ℚ) + 1 ≤ (k + 1) * (interval * 1000000) := by
      exact_mod_cast hupper
    calc double (double ((elapsed : ℚ) / 1000000) / interval)
        ≤ double ((elapsed : ℚ) / 1000000) / interval * (1 + 1 / 2 ^ 53) := hquotient
      _ ≤ elapsed / 1000000 * (1 + 1 / 2 ^ 53) / interval * (1 + 1 / 2 ^ 53) := by
          have hdiv := div_le_div_of_nonneg_right hmilli hI.le
          exact mul_le_mul_of_nonneg_right hdiv (by norm_num)
      _ = elapsed * (1 + 1 / 2 ^ 53) * (1 + 1 / 2 ^ 53) / (interval * 1000000) := by
          field_simp
      _ < k + 1 := by
          rw [div_lt_iff₀ (by positivity)]
          exact hnanosecond.trans_le hnext

end Units

/-! ### One update -/

section Totals

variable {reports : List Report} {k k' : ℤ} {dataSize : UInt64}

private theorem bytesIn_snoc : bytesIn (reports ++ [(k, dataSize)]) k' =
    bytesIn reports k' + if k = k' then dataSize.toNat else 0 := by
  rw [bytesIn, List.filter_append, List.map_append, List.sum_append_nat, bytesIn]
  by_cases h : k = k'
  · simp [h]
  · simp [h]

private theorem packetsIn_snoc : packetsIn (reports ++ [(k, dataSize)]) k' =
    packetsIn reports k' + if k = k' ∧ dataSize ≠ 0 then 1 else 0 := by
  rw [packetsIn, List.countP_append, List.countP_singleton, packetsIn]
  simp only [decide_eq_true_eq]

private theorem bytesIn_eq_zero (h : ∀ r ∈ reports, r.1 < k) : bytesIn reports k = 0 := by
  have hnone : (reports.filter fun r => r.1 = k) = [] :=
    List.filter_eq_nil_iff.mpr fun r hr => by simpa using Int.ne_of_lt (h r hr)
  rw [bytesIn, hnone]
  rfl

private theorem packetsIn_eq_zero (h : ∀ r ∈ reports, r.1 < k) : packetsIn reports k = 0 := by
  refine List.countP_eq_zero.mpr fun r hr => ?_
  have hne := Int.ne_of_lt (h r hr)
  simp [hne]

private theorem lastInterval_snoc : lastInterval (reports ++ [(k, dataSize)]) = k := by
  rw [lastInterval, List.getLast?_concat]
  rfl

end Totals

namespace Window

variable {w : Window} {slots n : ℕ} {i k : ℤ} {reports news : List Report} {dataSize : UInt64}

private theorem moveOn_of_lt (h : i + n < 2 ^ 31) : moveOn n i w = some { w with
    mDataBuffer := w.mDataBuffer.pushCopies n 0
    mPacketsBuffer := w.mPacketsBuffer.pushCopies n 0 } := by
  induction n generalizing i w with
  | zero => rfl
  | succ n ih =>
    rw [moveOn, if_pos (by omega), ih (by omega)]
    rfl

/-- The counter of the loop overflows. -/
private theorem moveOn_of_le (hi : i < 2 ^ 31) (h : 2 ^ 31 ≤ i + n) : moveOn n i w = none := by
  induction n generalizing i w with
  | zero => omega
  | succ n ih =>
    rw [moveOn]
    split_ifs with hfits
    · exact ih hfits (by omega)
    · rfl

/-- The slots hold the totals of the last intervals, and there were no reports behind them. -/
structure Holds (w : Window) (slots : ℕ) (reports : List Report) : Prop where
  last : w.mLast = lastInterval reports
  capacity_data : w.mDataBuffer.capacity = slots
  capacity_packets : w.mPacketsBuffer.capacity = slots
  data : w.mDataBuffer.Shows (fun k => UInt64.ofNat (bytesIn reports k)) w.mLast
  packets : w.mPacketsBuffer.Shows (fun k => UInt64.ofNat (packetsIn reports k)) w.mLast
  le_last : ∀ r ∈ reports, r.1 ≤ w.mLast

private theorem Holds.shows (h : w.Holds slots reports) : w.Shows slots reports where
  last := h.last
  slots_data := h.data.full.trans h.capacity_data
  slots_packets := h.packets.full.trans h.capacity_packets
  data j hj := h.last ▸ h.data.getElem?_items j (h.capacity_data ▸ hj)
  packets j hj := h.last ▸ h.packets.getElem?_items j (h.capacity_packets ▸ hj)

private theorem holds_nil : Holds ⟨.replicate slots 0, .replicate slots 0, 0⟩ slots [] where
  last := rfl
  capacity_data := rfl
  capacity_packets := rfl
  data := .replicate fun _ _ => rfl
  packets := .replicate fun _ _ => rfl
  le_last _ hr := absurd hr List.not_mem_nil

/-- The window when it was moved on to an interval. -/
def advanced (w : Window) (k : ℤ) : Window where
  mDataBuffer := w.mDataBuffer.pushCopies (k - w.mLast).toNat 0
  mPacketsBuffer := w.mPacketsBuffer.pushCopies (k - w.mLast).toNat 0
  mLast := k

/-- The window when a packet was added to the newest slot. -/
def added (w : Window) (dataSize : UInt64) : Window := { w with
  mDataBuffer := w.mDataBuffer.modifyBack (· + dataSize)
  mPacketsBuffer := w.mPacketsBuffer.modifyBack (· + 1) }

private theorem moveOn_eq_advanced (hgap : k - w.mLast < 2 ^ 31) :
    moveOn (k - w.mLast).toNat 0 { w with mLast := k } = some (w.advanced k) :=
  moveOn_of_lt (by omega)

private theorem update_zero (hgap : k - w.mLast < 2 ^ 31) : w.update k 0 = some (w.advanced k) := by
  rw [update, moveOn_eq_advanced hgap]
  rfl

/-- After too many intervals an update is undefined. -/
private theorem update_of_le (hgap : 2 ^ 31 ≤ k - w.mLast) : w.update k dataSize = none := by
  rw [update, moveOn_of_le (by omega) (by omega)]
  rfl

private theorem Holds.items_ne_nil (h : w.Holds slots reports) (hslots : 0 < slots) :
    ¬ (w.mDataBuffer.items = [] ∨ w.mPacketsBuffer.items = []) := by
  have hdata : w.mDataBuffer.items.length = slots := h.shows.slots_data
  have hpackets : w.mPacketsBuffer.items.length = slots := h.shows.slots_packets
  rintro (hnil | hnil)
  · rw [hnil, List.length_nil] at hdata
    omega
  · rw [hnil, List.length_nil] at hpackets
    omega

private theorem update_of_ne_zero (hgap : k - w.mLast < 2 ^ 31) (hne : dataSize ≠ 0)
    (hitems : ¬ ((w.advanced k).mDataBuffer.items = [] ∨ (w.advanced k).mPacketsBuffer.items = [])) :
    w.update k dataSize = some ((w.advanced k).added dataSize) := by
  rw [update, moveOn_eq_advanced hgap]
  exact (if_neg hne).trans (if_neg hitems)

/-- A report of size 0 counts for nothing. -/
theorem bytesIn_snoc_zero : bytesIn (reports ++ [(k, 0)]) = bytesIn reports := by
  funext k'
  rw [bytesIn_snoc, UInt64.toNat_zero, ite_self, Nat.add_zero]

private theorem packetsIn_snoc_zero : packetsIn (reports ++ [(k, 0)]) = packetsIn reports := by
  funext k'
  rw [packetsIn_snoc, if_neg fun h => h.2 rfl, Nat.add_zero]

/-- In the intervals that are passed over nothing was reported. -/
private theorem Holds.advanced (h : w.Holds slots reports) (hle : w.mLast ≤ k) :
    (w.advanced k).Holds slots (reports ++ [(k, 0)]) := by
  have hnew : ∀ k' > w.mLast, ∀ r ∈ reports, r.1 < k' := fun k' hk' r hr =>
    Int.lt_of_le_of_lt (h.le_last r hr) hk'
  have hlast : w.mLast + (k - w.mLast).toNat = k := by omega
  refine ⟨lastInterval_snoc.symm, CircularBuffer.capacity_pushCopies.trans h.capacity_data,
    CircularBuffer.capacity_pushCopies.trans h.capacity_packets, ?_, ?_, ?_⟩
  · rw [bytesIn_snoc_zero]
    have hdata := h.data.advance (a := 0) (k - w.mLast).toNat fun k' hk' => by
      rw [bytesIn_eq_zero (hnew k' hk')]
      rfl
    rwa [hlast] at hdata
  · rw [packetsIn_snoc_zero]
    have hpackets := h.packets.advance (a := 0) (k - w.mLast).toNat fun k' hk' => by
      rw [packetsIn_eq_zero (hnew k' hk')]
      rfl
    rwa [hlast] at hpackets
  · intro r hr
    rcases List.mem_append.mp hr with hold | hnew
    · exact Int.le_trans (h.le_last r hold) hle
    · rw [List.mem_singleton.mp hnew]
      exact Int.le_refl k

/-- A packet that is not empty counts in the newest slot. -/
private theorem Holds.added (h : w.Holds slots (reports ++ [(k, 0)])) (hne : dataSize ≠ 0) :
    (w.added dataSize).Holds slots (reports ++ [(k, dataSize)]) := by
  have hk : w.mLast = k := h.last.trans lastInterval_snoc
  have hdata := h.data
  have hpackets := h.packets
  rw [bytesIn_snoc_zero] at hdata
  rw [packetsIn_snoc_zero] at hpackets
  refine ⟨hk.trans lastInterval_snoc.symm, h.capacity_data, h.capacity_packets, ?_, ?_, ?_⟩
  · refine hdata.modifyBack ?_ fun k' hk' => ?_
    · rw [bytesIn_snoc, if_pos hk.symm, UInt64.ofNat_add, UInt64.ofNat_toNat]
    · rw [bytesIn_snoc, if_neg (by omega), Nat.add_zero]
  · refine hpackets.modifyBack ?_ fun k' hk' => ?_
    · rw [packetsIn_snoc, if_pos ⟨hk.symm, hne⟩, UInt64.ofNat_add]
      rfl
    · rw [packetsIn_snoc, if_neg fun h => by omega, Nat.add_zero]
  · intro r hr
    rcases List.mem_append.mp hr with hold | hnew
    · exact h.le_last r (List.mem_append_left _ hold)
    · rw [List.mem_singleton.mp hnew]
      exact Int.le_of_eq hk.symm

/-- An update keeps the totals, when it is not in an earlier interval and the loop does not overflow. -/
private theorem Holds.update (h : w.Holds slots reports) (hslots : 0 < slots) (hle : w.mLast ≤ k)
    (hgap : k - w.mLast < 2 ^ 31) :
    ∃ w', w.update k dataSize = some w' ∧ w'.Holds slots (reports ++ [(k, dataSize)]) := by
  have hadvanced := h.advanced hle
  by_cases hne : dataSize = 0
  · rw [hne]
    exact ⟨_, update_zero hgap, hadvanced⟩
  · exact ⟨_, update_of_ne_zero hgap hne (hadvanced.items_ne_nil hslots), hadvanced.added hne⟩

private theorem Holds.onlyAdvances (h : w.Holds slots reports) : w.OnlyAdvances slots := by
  refine ⟨fun n hn => ⟨_, update_zero (by omega), rfl, fun j hj => ?_⟩⟩
  have hn' : (w.mLast + n - w.mLast).toNat = n := by omega
  rw [Window.advanced, hn']
  exact ⟨CircularBuffer.getElem?_pushCopies (h.capacity_data ▸ hj),
    CircularBuffer.getElem?_pushCopies (h.capacity_packets ▸ hj)⟩

/-- The updates of one window, one after the other. -/
def run : Window → List Report → Option Window
  | w, [] => some w
  | w, r :: news => do run (← w.update r.1 r.2) news

private theorem Holds.run (h : w.Holds slots reports) (hslots : 0 < slots)
    (hle : (w.mLast :: news.map Prod.fst).Pairwise (· ≤ ·))
    (hgaps : (w.mLast :: news.map Prod.fst).IsChain fun k k' => k' - k < 2 ^ 31) :
    ∃ w', w.run news = some w' ∧ w'.Holds slots (reports ++ news) := by
  induction news generalizing w reports with
  | nil => exact ⟨w, rfl, (List.append_nil reports).symm ▸ h⟩
  | cons r news ih =>
    rw [List.map_cons] at hle hgaps
    obtain ⟨w₁, hupdate, hholds⟩ : ∃ w₁, w.update r.1 r.2 = some w₁ ∧ w₁.Holds slots (reports ++ [r]) :=
      h.update hslots (List.rel_of_pairwise_cons hle List.mem_cons_self)
        (List.isChain_cons_cons.mp hgaps).1
    have hlast : w₁.mLast = r.1 := hholds.last.trans lastInterval_snoc
    obtain ⟨w', hrun, hholds'⟩ := ih hholds (hlast.symm ▸ hle.of_cons)
      (hlast.symm ▸ (List.isChain_cons_cons.mp hgaps).2)
    refine ⟨w', ?_, ?_⟩
    · rw [Window.run, hupdate]
      exact hrun
    · rw [List.append_cons]
      exact hholds'

end Window

/-! ### All updates -/

namespace DataTransmissionBuffer

variable {updates : List Update} {bufferSize : ℕ} {interval start : ℤ}

private theorem reportsOf_cons_of_eq {b : DataTransmissionBuffer} {u : Update} {isSent : Bool}
    (h : u.isSent = isSent) : reportsOf b isSent (u :: updates) =
      (b.unitsAt u.now, u.dataSize) :: reportsOf b isSent updates := by
  simp [reportsOf, h]

private theorem reportsOf_cons_of_ne {b : DataTransmissionBuffer} {u : Update} {isSent : Bool}
    (h : u.isSent ≠ isSent) : reportsOf b isSent (u :: updates) = reportsOf b isSent updates := by
  simp [reportsOf, h]

/-- Each window is changed by the updates in its own direction. So what is sent does not matter for the window
of what is read. -/
theorem runUpdates_of_run {b : DataTransmissionBuffer} {sent read : Window}
    (hsent : b.sent.run (reportsOf b true updates) = some sent)
    (hread : b.read.run (reportsOf b false updates) = some read) :
    runUpdates b updates = some { b with sent := sent, read := read } := by
  induction updates generalizing b with
  | nil =>
    cases hsent
    cases hread
    rfl
  | cons u updates ih =>
    cases hu : u.isSent with
    | true =>
      rw [reportsOf_cons_of_eq hu] at hsent
      rw [reportsOf_cons_of_ne (by rw [hu]; decide)] at hread
      obtain ⟨w₁, hupdate, hrun⟩ := Option.bind_eq_some_iff.mp hsent
      have hfirst : b.update u = some { b with sent := w₁ } := by
        rw [update, if_pos hu, updateSentBuffer, hupdate]
        rfl
      rw [runUpdates, hfirst]
      exact ih (b := { b with sent := w₁ }) hrun hread
    | false =>
      rw [reportsOf_cons_of_ne (by rw [hu]; decide)] at hsent
      rw [reportsOf_cons_of_eq hu] at hread
      obtain ⟨w₁, hupdate, hrun⟩ := Option.bind_eq_some_iff.mp hread
      have hfirst : b.update u = some { b with read := w₁ } := by
        rw [update, if_neg (by rw [hu]; decide), updateReadBuffer, hupdate]
        rfl
      rw [runUpdates, hfirst]
      exact ih (b := { b with read := w₁ }) hsent hrun

/-- The intervals of reports do not decrease either. -/
private theorem pairwise_reportsOf (hinterval : 0 < interval)
    (htimes : (start :: updates.map Update.now).Pairwise (· ≤ ·)) (isSent : Bool) :
    (0 :: (reportsOf (construct bufferSize interval start) isSent updates).map Prod.fst).Pairwise
      (· ≤ ·) := by
  obtain ⟨hstart, hnow⟩ := List.pairwise_cons.mp htimes
  rw [List.pairwise_map] at hnow
  have hafter : ∀ u ∈ updates, 0 ≤ u.now - start := fun u hu =>
    Int.sub_nonneg.mpr (hstart u.now (List.mem_map_of_mem hu))
  refine List.pairwise_cons.mpr ⟨fun k hk => ?_, ?_⟩
  · obtain ⟨r, hr, rfl⟩ := List.mem_map.mp hk
    obtain ⟨u, hu, rfl⟩ := List.mem_map.mp hr
    rw [← units_zero interval]
    exact units_le_units hinterval le_rfl (hafter u (List.mem_of_mem_filter hu))
  · rw [reportsOf, List.map_map, List.pairwise_map]
    refine (hnow.filter _).imp_of_mem fun {u u'} hu _ hle => ?_
    exact units_le_units hinterval (hafter u (List.mem_of_mem_filter hu)) (by omega)

/-- For all updates at times that do not decrease, with less than `2 ^ 31` intervals between two in the same
direction, the windows show the totals of the last intervals, modulo `2 ^ 64`. In the first 26 days an
interval is that of the exact quotient of the time that has passed and the length of an interval. -/
theorem runUpdates_shows (hsize : 0 < bufferSize) (hinterval : 0 < interval)
    (htimes : (start :: updates.map Update.now).Pairwise (· ≤ ·))
    (hgaps : ∀ isSent, (0 :: (reportsOf (construct bufferSize interval start) isSent updates).map
      Prod.fst).IsChain fun k k' => k' - k < 2 ^ 31) :
    (∃ b, runUpdates (construct bufferSize interval start) updates = some b ∧
      (b.sent.Shows bufferSize (reportsOf (construct bufferSize interval start) true updates) ∧
        b.sent.OnlyAdvances bufferSize) ∧
      (b.read.Shows bufferSize (reportsOf (construct bufferSize interval start) false updates) ∧
        b.read.OnlyAdvances bufferSize)) ∧
    ∀ u ∈ updates, interval < 2 ^ 31 → u.now - start ≤ 2 ^ 51 →
      (construct bufferSize interval start).unitsAt u.now = (u.now - start) / (interval * 1000000) := by
  have hrun (isSent : Bool) :=
    Window.holds_nil.run hsize (pairwise_reportsOf hinterval htimes isSent) (hgaps isSent)
  obtain ⟨sent, hsent, hsentHolds⟩ := hrun true
  obtain ⟨read, hread, hreadHolds⟩ := hrun false
  rw [List.nil_append] at hsentHolds hreadHolds
  refine ⟨⟨_, runUpdates_of_run hsent hread, ⟨hsentHolds.shows, hsentHolds.onlyAdvances⟩,
    hreadHolds.shows, hreadHolds.onlyAdvances⟩, fun u hu hint hlt => ?_⟩
  have hle : start ≤ u.now := (List.pairwise_cons.mp htimes).1 u.now (List.mem_map_of_mem hu)
  exact units_eq_ediv hinterval hint (Int.sub_nonneg.mpr hle) hlt

/-- 100 bytes are sent in the first second, and 20 and 3 in the second one, where 7 bytes are read. -/
def sentAndIdle : List Update :=
  [⟨true, 0, 100⟩, ⟨true, 1000000000, 20⟩, ⟨false, 1000000000, 7⟩, ⟨true, 1999999999, 3⟩,
    ⟨true, 5000000000, 0⟩]

/-- After three seconds without traffic, windows of two seconds show nothing of what was sent. -/
theorem runUpdates_sentAndIdle_shows :
    (∃ b, runUpdates (construct 2 1000 0) sentAndIdle = some b ∧
      (b.sent.Shows 2 (reportsOf (construct 2 1000 0) true sentAndIdle) ∧ b.sent.OnlyAdvances 2) ∧
      (b.read.Shows 2 (reportsOf (construct 2 1000 0) false sentAndIdle) ∧
        b.read.OnlyAdvances 2)) ∧
    ∀ u ∈ sentAndIdle, (1000 : ℤ) < 2 ^ 31 → u.now - 0 ≤ 2 ^ 51 →
      (construct 2 1000 0).unitsAt u.now = (u.now - 0) / (1000 * 1000000) :=
  runUpdates_shows (by decide) (by decide) (by decide) (by decide +kernel)

/-- `2 ^ 64` bytes are sent in one second. -/
def sentTooMuch : List Update := [⟨true, 0, 18446744073709551615⟩, ⟨true, 0, 1⟩]

/-- An update that comes after `2 ^ 31` seconds. -/
def sentTooLate : List Update := [⟨true, 2147483648000000000, 0⟩]

/-- The slot for `2 ^ 64` bytes holds 0, and after `2 ^ 31` seconds the loop overflows. -/
theorem not_showsTotals :
    (¬ ∃ b, runUpdates (construct 1 1000 0) sentTooMuch = some b ∧
      b.sent.ShowsTotals 1 (reportsOf (construct 1 1000 0) true sentTooMuch)) ∧
    ¬ ∃ b, runUpdates (construct 1 1000 0) sentTooLate = some b ∧
      b.sent.ShowsTotals 1 (reportsOf (construct 1 1000 0) true sentTooLate) := by
  refine ⟨?_, ?_⟩
  · rintro ⟨b, hrun, hshows⟩
    have hslot : (runUpdates (construct 1 1000 0) sentTooMuch).map
        (fun b => b.sent.mDataBuffer.items[0]?) = some (some 0) := by decide +kernel
    rw [hrun, Option.map_some, Option.some.injEq] at hslot
    have htotal := hshows.data 0 (by decide)
    rw [hslot] at htotal
    exact absurd htotal (by decide +kernel)
  · rintro ⟨b, hrun, -⟩
    have hlate : (construct 1 1000 0).sent.update
        (unitsAt (construct 1 1000 0) 2147483648000000000) 0 = none :=
      Window.update_of_le (by decide +kernel)
    have hnone : runUpdates (construct 1 1000 0) sentTooLate = none := by
      rw [sentTooLate, runUpdates, update, if_pos rfl, updateSentBuffer, hlate]
      rfl
    exact nomatch hnone.symm.trans hrun

end DataTransmissionBuffer

end Httpdbg

end Galaxy42
