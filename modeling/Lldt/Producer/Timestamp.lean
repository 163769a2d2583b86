import Lldt.Producer.Build

namespace Lldt.Harness

open Lldt.Msg
open Lldt.Msg.Compact

/-! The exchange timestamp of a Compact frame travels as a 32-bit difference to
the send timestamp. -/

theorem toNat_toUInt64 (value : Int64) : (value.toUInt64.toNat : Int) = value.toInt % 2 ^ 64 := by
  have signed : value.toInt = (value.toUInt64.toNat : Int).bmod (2 ^ 64) :=
    value.toBitVec.toInt_eq_toNat_bmod
  have bound := value.toUInt64.toNat_lt
  rw [signed, show (2 : Int) ^ 64 = ((2 ^ 64 : Nat) : Int) from rfl, Int.bmod_emod]
  exact (Int.emod_eq_of_lt (by omega) (by omega)).symm

theorem toInt_toInt64 {value : UInt64} (small : value.toNat < 2 ^ 63) :
    value.toInt64.toInt = value.toNat := by
  have signed : value.toInt64.toInt = (value.toNat : Int).bmod (2 ^ 64) :=
    value.toInt64.toBitVec.toInt_eq_toNat_bmod
  rw [signed]
  exact Int.bmod_eq_of_le (by omega) (by omega)

/-- Both branches of the decoder subtract the delta. -/
theorem toNat_exchangeTsNs (header : CompactHeader) :
    ((exchangeTsNs header).toNat : Int) =
      (header.sendTsNs.toNat - header.exchangeTsDeltaNs.toInt) % 2 ^ 64 := by
  have low := header.exchangeTsDeltaNs.le_toInt
  have high := header.exchangeTsDeltaNs.toInt_lt
  have sent := header.sendTsNs.toNat_lt
  unfold exchangeTsNs
  split
  · rename_i forward
    have magnitude := Int32.toNat_toUInt32_of_le forward
    rw [Int32.le_iff_toInt_le, Int32.toInt_zero] at forward
    have clamped : (header.exchangeTsDeltaNs.toNatClampNeg : Int) =
        header.exchangeTsDeltaNs.toInt := Int.toNat_of_nonneg forward
    rw [UInt64.toNat_sub, UInt32.toNat_toUInt64, magnitude]
    omega
  · rename_i backward
    rw [Int32.le_iff_toInt_le, Int32.toInt_zero, Int.not_le] at backward
    have negated : (-header.exchangeTsDeltaNs.toInt64).toInt =
        -header.exchangeTsDeltaNs.toInt := by
      rw [Int64.toInt_neg, Int32.toInt_toInt64]
      exact Int.bmod_eq_of_le (by omega) (by omega)
    have magnitude := toNat_toUInt64 (-header.exchangeTsDeltaNs.toInt64)
    rw [negated] at magnitude
    rw [UInt64.toNat_add, UInt32.toNat_toUInt64, UInt64.toNat_toUInt32]
    omega

/-- The delta is the 32-bit residue of the distance nearest to zero. -/
theorem toInt_exchangeTsDeltaNs (seq : UInt64) (type flags : UInt8) {clock : ClockReadings}
    (send : clock.sendTsNs.toNat < 2 ^ 63) (exchange : clock.exchangeTsNs.toNat < 2 ^ 63) :
    (fillHeader seq type flags clock).exchangeTsDeltaNs.toInt =
      ((clock.sendTsNs.toNat : Int) - clock.exchangeTsNs.toNat).bmod (2 ^ 32) := by
  simp only [fillHeader, Int64.toInt_toInt32, Int64.toInt_sub, toInt_toInt64 send,
    toInt_toInt64 exchange]
  exact congrArg (Int.bmod · (2 ^ 32)) (Int.bmod_eq_of_le (by omega) (by omega))

/-- Decoding the delta undoes encoding it modulo 2^32, and altogether where the
distance of the two timestamps has 32 signed bits. -/
theorem exchange_ts_decodes (seq : UInt64) (type flags : UInt8) (clock : ClockReadings)
    (send : clock.sendTsNs.toNat < 2 ^ 63) (exchange : clock.exchangeTsNs.toNat < 2 ^ 63) :
    let decoded := exchangeTsNs (fillHeader seq type flags clock)
    let distance : Int := clock.sendTsNs.toNat - clock.exchangeTsNs.toNat
    2 ^ 32 ∣ (decoded - clock.exchangeTsNs).toNat ∧
      (decoded = clock.exchangeTsNs ↔ -2 ^ 31 ≤ distance ∧ distance ≤ 2 ^ 31 - 1) := by
  intro decoded distance
  have delta := toInt_exchangeTsDeltaNs seq type flags send exchange
  have value := toNat_exchangeTsNs (fillHeader seq type flags clock)
  have sent : (fillHeader seq type flags clock).sendTsNs = clock.sendTsNs := rfl
  rw [delta, sent] at value
  have low := Int.le_bmod (x := distance) (m := 2 ^ 32) (by decide)
  have high := Int.bmod_lt (x := distance) (m := 2 ^ 32) (by decide)
  have congruent : (distance - distance.bmod (2 ^ 32)) % 2 ^ 32 = 0 := by
    have same := Int.bmod_emod (x := distance) (m := 2 ^ 32)
    omega
  have decodedNat : (decoded.toNat : Int) =
      (clock.sendTsNs.toNat - distance.bmod (2 ^ 32)) % 2 ^ 64 := value
  refine ⟨?_, ?_⟩
  · rw [UInt64.toNat_sub]
    omega
  · rw [← UInt64.toNat_inj]
    omega

theorem exchange_ts_decodes_least :
    exchangeTsNs (fillHeader 1 typeTrade 0 ⟨2147483655, 7⟩) = 2147483655 :=
  (exchange_ts_decodes 1 typeTrade 0 ⟨2147483655, 7⟩ (by decide) (by decide)).2.mpr (by decide)

end Lldt.Harness
