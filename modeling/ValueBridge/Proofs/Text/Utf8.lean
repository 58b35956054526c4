import Mathlib.Tactic.SplitIfs
import ValueBridge.Memory

/-!
# Texts read back

The bytes of a text are read as the text (`Utf8.decode_encode`). A decoder that is between
characters reads the bytes of a character and is between characters again
(`Utf8.Decoder.foldl_feed_encodeChar`): the first byte tells how many are owed, and admits
the second one, and each further one adds six bits to the code.
-/

namespace ValueBridge

namespace Utf8

namespace Decoder

variable {read : List Char} {code owed x : Nat} {low high : UInt8}

theorem toNat_ofNat_of_lt {n : Nat} (h : n < 256) : (UInt8.ofNat n).toNat = n := by
  rw [UInt8.toNat_ofNat', Nat.mod_eq_of_lt h]

/-- The last byte that is owed ends the character. -/
theorem feed_last (hx : x < 64) (hlow : low.toNat ≤ x + 128) (hhigh : x + 128 ≤ high.toNat) :
    feed ⟨read, some ⟨code, 1, low, high⟩⟩ (.ofNat (x + 128)) =
      ⟨Char.ofNat (code * 64 + x) :: read, none⟩ := by
  have hb : (UInt8.ofNat (x + 128)).toNat = x + 128 := toNat_ofNat_of_lt (by omega)
  have hcode : (x + 128) % 64 = x := by omega
  simp only [feed, UInt8.le_iff_toNat_le, hb, hlow, hhigh, and_self, if_true, Nat.le_refl, hcode]

/-- A byte that is owed, with others owed after it, adds to the code. -/
theorem feed_next (hx : x < 64) (hlow : low.toNat ≤ x + 128) (hhigh : x + 128 ≤ high.toNat) :
    feed ⟨read, some ⟨code, owed + 2, low, high⟩⟩ (.ofNat (x + 128)) =
      ⟨read, some ⟨code * 64 + x, owed + 1, tailLow, tailHigh⟩⟩ := by
  have hb : (UInt8.ofNat (x + 128)).toNat = x + 128 := toNat_ofNat_of_lt (by omega)
  have hcode : (x + 128) % 64 = x := by omega
  have howed : ¬owed + 2 ≤ 1 := by omega
  simp only [feed, UInt8.le_iff_toNat_le, hb, hlow, hhigh, and_self, if_true, howed, if_false,
    hcode]
  rfl

theorem feed_lead {b : UInt8} {p : Pending} (hb : 128 ≤ b.toNat) (hp : lead? b = some p) :
    feed ⟨read, none⟩ b = ⟨read, some p⟩ := by
  have hascii : ¬b < 0x80 := by
    rw [UInt8.lt_iff_toNat_lt]
    exact Nat.not_lt.2 hb
  simp only [feed, begin, hascii, if_false, hp]

/-- The first of two bytes. -/
theorem lead?_two (hlow : 2 ≤ x) (hx : x < 32) :
    lead? (.ofNat (x + 192)) = some ⟨x, 1, tailLow, tailHigh⟩ := by
  have hb : (UInt8.ofNat (x + 192)).toNat = x + 192 := toNat_ofNat_of_lt (by omega)
  have hcode : (x + 192) % 32 = x := by omega
  simp only [lead?, UInt8.lt_iff_toNat_lt, hb, hcode, UInt8.reduceToNat]
  rw [if_neg (by omega), if_pos (by omega)]

/-- The first of three bytes bounds the second one, so that the code needs as many bytes and is
    no surrogate. -/
theorem lead?_three (hx : x < 16) :
    ∃ low high, lead? (.ofNat (x + 224)) = some ⟨x, 2, low, high⟩ ∧
      ∀ y, y < 64 → (x = 0 → 32 ≤ y) → (x = 13 → y < 32) →
        low.toNat ≤ y + 128 ∧ y + 128 ≤ high.toNat := by
  have hb : (UInt8.ofNat (x + 224)).toNat = x + 224 := toNat_ofNat_of_lt (by omega)
  have hcode : (x + 224) % 16 = x := by omega
  simp only [lead?, UInt8.lt_iff_toNat_lt, ← UInt8.toNat_inj, hb, hcode, UInt8.reduceToNat]
  -- The other ranges of first bytes are excluded by the bounds of the code.
  split_ifs <;> first
    | omega
    | refine ⟨_, _, rfl, fun y hy hzero hsurrogate => ?_⟩
      simp only [tailLow, tailHigh, UInt8.reduceToNat]
      omega

/-- The first of four bytes bounds the second one, so that the code needs as many bytes and is
    that of a character. -/
theorem lead?_four (hx : x < 5) :
    ∃ low high, lead? (.ofNat (x + 240)) = some ⟨x, 3, low, high⟩ ∧
      ∀ y, y < 64 → (x = 0 → 16 ≤ y) → (x = 4 → y < 16) →
        low.toNat ≤ y + 128 ∧ y + 128 ≤ high.toNat := by
  have hb : (UInt8.ofNat (x + 240)).toNat = x + 240 := toNat_ofNat_of_lt (by omega)
  have hcode : (x + 240) % 8 = x := by omega
  simp only [lead?, UInt8.lt_iff_toNat_lt, ← UInt8.toNat_inj, hb, hcode, UInt8.reduceToNat]
  split_ifs <;> first
    | omega
    | refine ⟨_, _, rfl, fun y hy hzero hlast => ?_⟩
      simp only [tailLow, tailHigh, UInt8.reduceToNat]
      omega

/-! ## Characters -/

theorem feed_ascii (hx : x < 128) :
    feed ⟨read, none⟩ (.ofNat x) = ⟨Char.ofNat x :: read, none⟩ := by
  have hb : (UInt8.ofNat x).toNat = x := toNat_ofNat_of_lt (by omega)
  simp only [feed, begin, UInt8.lt_iff_toNat_lt, hb, UInt8.reduceToNat, hx, if_true]

theorem foldl_feed_two (hlow : 2 ≤ x) (hx : x < 32) {y : Nat} (hy : y < 64) :
    [UInt8.ofNat (x + 192), .ofNat (y + 128)].foldl feed ⟨read, none⟩ =
      ⟨Char.ofNat (x * 64 + y) :: read, none⟩ := by
  have hb : (UInt8.ofNat (x + 192)).toNat = x + 192 := toNat_ofNat_of_lt (by omega)
  simp only [List.foldl_cons, List.foldl_nil]
  rw [feed_lead (by omega) (lead?_two hlow hx), feed_last hy]
  · exact Nat.le_add_left _ _
  · exact Nat.add_le_add_right (Nat.le_of_lt_succ hy) 128

theorem foldl_feed_three {y z : Nat} (hx : x < 16) (hy : y < 64) (hz : z < 64)
    (hlow : x = 0 → 32 ≤ y) (hsurrogate : x = 13 → y < 32) :
    [UInt8.ofNat (x + 224), .ofNat (y + 128), .ofNat (z + 128)].foldl feed ⟨read, none⟩ =
      ⟨Char.ofNat ((x * 64 + y) * 64 + z) :: read, none⟩ := by
  have hb : (UInt8.ofNat (x + 224)).toNat = x + 224 := toNat_ofNat_of_lt (by omega)
  obtain ⟨low, high, hlead, hsecond⟩ := lead?_three hx
  obtain ⟨hlow, hhigh⟩ := hsecond y hy hlow hsurrogate
  simp only [List.foldl_cons, List.foldl_nil]
  rw [feed_lead (by omega) hlead, feed_next hy hlow hhigh, feed_last hz]
  · exact Nat.le_add_left _ _
  · exact Nat.add_le_add_right (Nat.le_of_lt_succ hz) 128

theorem foldl_feed_four {y z w : Nat} (hx : x < 5) (hy : y < 64) (hz : z < 64) (hw : w < 64)
    (hlow : x = 0 → 16 ≤ y) (hlast : x = 4 → y < 16) :
    [UInt8.ofNat (x + 240), .ofNat (y + 128), .ofNat (z + 128), .ofNat (w + 128)].foldl feed
        ⟨read, none⟩ =
      ⟨Char.ofNat (((x * 64 + y) * 64 + z) * 64 + w) :: read, none⟩ := by
  have hb : (UInt8.ofNat (x + 240)).toNat = x + 240 := toNat_ofNat_of_lt (by omega)
  obtain ⟨low, high, hlead, hsecond⟩ := lead?_four hx
  obtain ⟨hlow, hhigh⟩ := hsecond y hy hlow hlast
  simp only [List.foldl_cons, List.foldl_nil]
  rw [feed_lead (by omega) hlead, feed_next hy hlow hhigh, feed_next hz, feed_last hw]
  · exact Nat.le_add_left _ _
  · exact Nat.add_le_add_right (Nat.le_of_lt_succ hw) 128
  · exact Nat.le_add_left _ _
  · exact Nat.add_le_add_right (Nat.le_of_lt_succ hz) 128

/-- Between characters, the bytes of a character are read as the character. -/
theorem foldl_feed_encodeChar (read : List Char) (c : Char) :
    (String.utf8EncodeChar c).foldl feed ⟨read, none⟩ = ⟨c :: read, none⟩ := by
  have hvalid : c.val.toNat < 0xD800 ∨ 0xDFFF < c.val.toNat ∧ c.val.toNat < 0x110000 := c.valid
  have hc : Char.ofNat c.val.toNat = c := Char.ofNat_toNat c
  simp only [String.utf8EncodeChar]
  generalize c.val.toNat = n at hvalid hc ⊢
  split
  · simp only [List.foldl_cons, List.foldl_nil]
    rw [feed_ascii (by omega), hc]
  split
  · have hcode : n / 64 * 64 + n % 64 = n := by omega
    rw [Nat.mod_eq_of_lt (by omega : n / 64 < 32),
      foldl_feed_two (by omega) (by omega) (by omega), hcode, hc]
  split
  · have hcode : (n / 4096 * 64 + n / 64 % 64) * 64 + n % 64 = n := by omega
    rw [Nat.mod_eq_of_lt (by omega : n / 4096 < 16),
      foldl_feed_three (by omega) (by omega) (by omega) (by omega) (by omega), hcode, hc]
  · have hcode : ((n / 262144 * 64 + n / 4096 % 64) * 64 + n / 64 % 64) * 64 + n % 64 = n := by
      omega
    rw [Nat.mod_eq_of_lt (by omega : n / 262144 < 8),
      foldl_feed_four (by omega) (by omega) (by omega) (by omega) (by omega) (by omega), hcode, hc]

theorem foldl_feed_flatMap (read cs : List Char) :
    (cs.flatMap String.utf8EncodeChar).foldl feed ⟨read, none⟩ = ⟨cs.reverse ++ read, none⟩ := by
  induction cs generalizing read with
  | nil => rfl
  | cons c cs ih =>
    rw [List.flatMap_cons, List.foldl_append, foldl_feed_encodeChar, ih, List.reverse_cons,
      List.append_assoc, List.singleton_append]

end Decoder

/-- The bytes of a text are read as the text. -/
theorem decode_encode (s : String) : decode (encode s) = s := by
  have hread := Decoder.foldl_feed_flatMap [] s.toList
  rw [List.append_nil] at hread
  rw [decode, decodeChars, encode, Decoder.start, hread, Decoder.finish, List.reverse_reverse,
    String.ofList_toList]

end Utf8

/-- A text is read where its bytes are. -/
theorem Memory.readText_of_read? {m : Memory} {addr length : UInt32} {text : String}
    (h : m.read? addr length.toNat = .ok (some (Utf8.encode text))) :
    m.readText addr length = .ok text := by
  rw [readText, h, Except.map, Option.getD_some, Utf8.decode_encode]

end ValueBridge
