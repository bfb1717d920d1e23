import RetroMedia.Disk.Sectors

/-! Sets of sectors, kept as the bits of one number so that looking a sector up does not take longer
the more of them there are. Membership after an insertion is what it is for any set. -/
namespace RetroMedia.Disk

namespace Location

/-- The place of a sector among all that can be named, 256 to a track. -/
def number (location : Location) : Nat := location.track.toNat * 256 + location.sector.toNat

theorem number_inj {a b : Location} : a.number = b.number ↔ a = b := by
  constructor
  · intro same
    have := a.sector.toNat_lt
    have := b.sector.toNat_lt
    unfold number at same
    have tracks : a.track = b.track := UInt8.toNat_inj.mp (by omega)
    have sectors : a.sector = b.sector := UInt8.toNat_inj.mp (by omega)
    cases a
    cases b
    simp_all
  · intro same
    rw [same]

end Location

/-- A set of sectors. A sector belongs to it if the bit at its number is set. -/
structure LocationSet where
  bits : Nat := 0
  deriving DecidableEq, Repr

namespace LocationSet

instance : EmptyCollection LocationSet := ⟨{}⟩

instance : Membership Location LocationSet :=
  ⟨fun set location => set.bits.testBit location.number = true⟩

instance (location : Location) (set : LocationSet) : Decidable (location ∈ set) :=
  inferInstanceAs (Decidable (set.bits.testBit location.number = true))

def insert (set : LocationSet) (location : Location) : LocationSet :=
  ⟨set.bits ||| 1 <<< location.number⟩

theorem mem_def {set : LocationSet} {location : Location} :
    location ∈ set ↔ set.bits.testBit location.number = true := Iff.rfl

theorem not_mem_empty (location : Location) : location ∉ (∅ : LocationSet) := by
  rw [mem_def]
  exact ne_true_of_eq_false (Nat.zero_testBit _)

theorem mem_insert {set : LocationSet} {a b : Location} :
    a ∈ set.insert b ↔ a = b ∨ a ∈ set := by
  simp only [mem_def, insert, Nat.testBit_or, Nat.one_shiftLeft, Nat.testBit_two_pow,
    Bool.or_eq_true, decide_eq_true_eq, Location.number_inj]
  rw [or_comm, eq_comm]

end LocationSet
end RetroMedia.Disk
