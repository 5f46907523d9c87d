/-!
Chain positions are 64-bit words. Distances saturate instead of wrapping, and a stretch of
slots is listed by its two ends, so a stretch may end at the highest position.
-/
namespace RouterHistory

/-- A chain position. Positions only grow; some hold no block. -/
abbrev Slot := UInt64

namespace Slot

def top : Slot := 18446744073709551615

/-- Goes `distance` slots down, stopping at zero. -/
def down (slot distance : Slot) : Slot := if distance ≤ slot then slot - distance else 0

/-- Goes `distance` slots up, stopping at the highest position. -/
def up (slot distance : Slot) : Slot := if distance ≤ top - slot then slot + distance else top

/-- The slots from `first` through `last`, in order; none when `last` lies below `first`. -/
def through (first last : Slot) : List Slot :=
  (List.range' first.toNat (last.toNat + 1 - first.toNat)).map UInt64.ofNat

theorem toNat_top : top.toNat = 18446744073709551615 := rfl

theorem toNat_down (slot distance : Slot) :
    (down slot distance).toNat = slot.toNat - distance.toNat := by
  unfold down
  split
  next h => exact UInt64.toNat_sub_of_le _ _ h
  next h =>
    have : ¬ distance.toNat ≤ slot.toNat := fun hle => h (UInt64.le_iff_toNat_le.2 hle)
    have hz : (0 : UInt64).toNat = 0 := rfl
    omega

theorem toNat_up (slot distance : Slot) :
    (up slot distance).toNat = min (slot.toNat + distance.toNat) (UInt64.size - 1) := by
  have htop := toNat_top
  have hsize : UInt64.size = 18446744073709551616 := rfl
  have hs := slot.toNat_lt
  have hsub : (top - slot).toNat = top.toNat - slot.toNat :=
    UInt64.toNat_sub_of_le _ _ (UInt64.le_iff_toNat_le.2 (by omega))
  unfold up
  split
  next h =>
    have := UInt64.le_iff_toNat_le.1 h
    rw [UInt64.toNat_add, Nat.mod_eq_of_lt (by omega)]
    omega
  next h =>
    have : ¬ distance.toNat ≤ (top - slot).toNat := fun hle => h (UInt64.le_iff_toNat_le.2 hle)
    omega

theorem toNat_through (first last : Slot) : (through first last).map UInt64.toNat =
    List.range' first.toNat (last.toNat + 1 - first.toNat) := by
  have hbound := last.toNat_lt
  unfold through
  rw [List.map_map]
  refine (List.map_congr_left fun n hn => ?_).trans (List.map_id _)
  rw [List.mem_range'_1] at hn
  exact UInt64.toNat_ofNat_of_lt' (by simp only [UInt64.size]; omega)

theorem pairwise_through (first last : Slot) : (through first last).Pairwise (· < ·) := by
  have hrange : ((through first last).map UInt64.toNat).Pairwise (· < ·) := by
    rw [toNat_through]
    exact List.pairwise_lt_range'
  rw [List.pairwise_map] at hrange
  exact hrange.imp UInt64.lt_iff_toNat_lt.2

theorem mem_through {first last slot : Slot} :
    slot ∈ through first last ↔ first ≤ slot ∧ slot ≤ last := by
  simp only [through, List.mem_map, List.mem_range'_1, UInt64.le_iff_toNat_le]
  constructor
  · rintro ⟨n, ⟨hlo, hhi⟩, rfl⟩
    have := last.toNat_lt
    rw [UInt64.toNat_ofNat_of_lt' (by simp only [UInt64.size]; omega)]
    omega
  · intro h
    exact ⟨slot.toNat, by omega, UInt64.ofNat_toNat⟩

end Slot

end RouterHistory
