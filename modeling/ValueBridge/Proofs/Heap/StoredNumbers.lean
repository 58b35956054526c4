import Mathlib.Data.Int.ModEq
import ValueBridge.Proofs.Heap.BufferWrites

/-!
# Numbers stored as bytes

A number that is written to a byte of a buffer is stored as its integer part modulo 256, whatever
its sign and its exponent (`Heap.stored_numbers`). Whole numbers that differ by a multiple of 256
are stored alike, and a byte that is read and written again stays as it is.
-/

namespace ValueBridge

namespace Binary64

variable {x y : Binary64} {n m : ℤ}

theorem natAbs_integerPart (hx : x.isFinite = true) :
    x.integerPart.natAbs = x.quanta / quantaPerUnit := by
  rw [integerPart, if_pos hx]
  cases x.negative
  · exact Int.natAbs_natCast _
  · exact (Int.natAbs_neg _).trans (Int.natAbs_natCast _)

/-- A whole number is its own integer part. -/
theorem integerPart_of_value_eq (hx : x.isFinite = true) (hn : x.value = n) :
    x.integerPart = n := by
  refine (isIntegerPart_integerPart hx).unique ?_
  rw [hn]
  exact ⟨le_refl _, lt_add_one _, mul_self_nonneg _⟩

/-- Whole numbers that are congruent modulo 256 are stored alike. -/
theorem toByte_congr (hx : x.isFinite = true) (hy : y.isFinite = true) (hn : x.value = n)
    (hm : y.value = m) (h : n ≡ m [ZMOD 256]) : x.toByte = y.toByte := by
  have hxbyte := toNat_toByte hx
  have hybyte := toNat_toByte hy
  rw [integerPart_of_value_eq hx hn] at hxbyte
  rw [integerPart_of_value_eq hy hm, ← h] at hybyte
  rw [← UInt8.toNat_inj]
  exact_mod_cast hxbyte.trans hybyte.symm

end Binary64

namespace Heap

variable {h : Heap} {id : ObjectId} {bytes : Array UInt8} {key : String} {n : Nat}
  {hn : n < bytes.size}

theorem putObject_self (h : Heap) (id : ObjectId) : h.putObject id (h.object id) = h := by
  have hobjects : h.objects.setIfInBounds id.index (h.object id) = h.objects := by
    refine Array.ext_getElem? fun i => ?_
    rw [Array.getElem?_setIfInBounds]
    split
    · next hi =>
      subst hi
      split
      · next hlt =>
        rw [object, Array.getD_eq_getD_getElem?, Array.getElem?_eq_getElem hlt, Option.getD_some]
      · next hge => rw [Array.getElem?_eq_none (Nat.not_lt.1 hge)]
    · rfl
  rw [putObject, hobjects]

/-- A byte that is written as it stands changes nothing. -/
theorem ByteKey.set_self (hkey : h.ByteKey id key bytes n hn)
    (hbytes : (h.object id).bytes? = some bytes) :
    h.set (.object id) key (.number (.ofNat bytes[n].toNat)) = .ok (true, h) := by
  have hbyte : (Value.number (.ofNat bytes[n].toNat)).toByte = bytes[n] :=
    Binary64.toByte_ofNat bytes[n]
  have hcell : ({ h.object id with bytes? := some bytes } : ObjectCell) = h.object id := by
    rw [← hbytes]
  rw [hkey.set, hbyte, Array.set_getElem_self, hcell, putObject_self]

/-- A finite number is stored as its integer part modulo 256, the part of its scaled significand in
    whole units, with its sign; infinities and NaNs are stored as 0. Whole numbers that are
    congruent modulo 256 are stored alike. On a buffer, this is the byte that a write to an index
    puts there; and what is read at an index may be written there again without any change. -/
theorem stored_numbers (x : Binary64) :
    (x.isFinite = true → ∃ n : ℤ, Binary64.IsIntegerPart x.value n ∧
      n.natAbs = x.significand * 2 ^ x.scale / 2 ^ Binary64.quantumPlaces ∧
      (x.toByte.toNat : ℤ) = n % 256) ∧
    (x.isFinite = false → x.toByte = 0) ∧
    (∀ (y : Binary64) (n m : ℤ), x.isFinite = true → y.isFinite = true →
      x.value = n → y.value = m → n ≡ m [ZMOD 256] → x.toByte = y.toByte) ∧
    ∀ (h : Heap) id bytes key n, (h.object id).bytes? = some bytes → Text.IsInteger key n →
      n < Text.indexLimit → ∀ hn : n < bytes.size,
        h.set (.object id) key (.number x) =
          .ok (true, h.putObject id { h.object id with bytes? := some (bytes.set n x.toByte) }) ∧
        ∀ v, h.get (.object id) key = .ok v → h.set (.object id) key v = .ok (true, h) := by
  refine ⟨fun hx => ⟨x.integerPart, Binary64.isIntegerPart_integerPart hx, ?_,
    Binary64.toNat_toByte hx⟩, Binary64.toByte_of_not_isFinite,
    fun y n m hx hy => Binary64.toByte_congr hx hy,
    fun h id bytes key n hbytes hkey hlimit hn => ?_⟩
  · rw [Binary64.natAbs_integerPart hx, ← Binary64.quantaPerUnit_eq]
    rfl
  · have hbyte := byteKey hbytes hkey hlimit hn
    refine ⟨hbyte.set (.number x), fun v hv => ?_⟩
    rw [hbyte.get, Except.ok.injEq] at hv
    rw [← hv]
    exact hbyte.set_self hbytes

end Heap

end ValueBridge
