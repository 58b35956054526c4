import Mathlib.Tactic.SplitIfs
import ValueBridge.Text.Utf8

/-!
# The order of texts

Texts are ordered by the codes of their characters, which is the order of their UTF-8 bytes as
well (`Utf8.encode_lt_encode_iff`). Of two characters the one of the lesser code has fewer bytes,
and then a lesser first one, or as many, and then a lesser one where they first differ
(`Utf8.encodeChar_append_lt`). So whatever follows, the order of the bytes is settled where the
texts first differ.
-/

namespace ValueBridge.Utf8

/-! ## Bytes -/

section

variable {a b : Nat} {xs ys : List UInt8}

/-- A first byte settles the order unless it is the same. -/
theorem cons_lt_cons_of_le (ha : a < 256) (hb : b < 256) (hle : a ≤ b) (h : a = b → xs < ys) :
    UInt8.ofNat a :: xs < UInt8.ofNat b :: ys := by
  rw [List.cons_lt_cons_iff, UInt8.lt_iff_toNat_lt, ← UInt8.toNat_inj, UInt8.toNat_ofNat',
    UInt8.toNat_ofNat', Nat.mod_eq_of_lt ha, Nat.mod_eq_of_lt hb]
  exact (Nat.lt_or_eq_of_le hle).imp_right fun heq => ⟨heq, h heq⟩

theorem cons_lt_cons_of_lt (hb : b < 256) (hlt : a < b) :
    UInt8.ofNat a :: xs < UInt8.ofNat b :: ys :=
  cons_lt_cons_of_le (Nat.lt_trans hlt hb) hb (Nat.le_of_lt hlt) fun heq =>
    absurd heq (Nat.ne_of_lt hlt)

end

/-! ## Characters -/

theorem val_lt (c : Char) : c.val.toNat < 0x110000 := by
  have hvalid : c.val.toNat < 0xD800 ∨ 0xDFFF < c.val.toNat ∧ c.val.toNat < 0x110000 := c.valid
  omega

/-- The bytes of a lesser character are lesser, whatever follows. -/
theorem encodeChar_append_lt {c d : Char} (h : c < d) (xs ys : List UInt8) :
    String.utf8EncodeChar c ++ xs < String.utf8EncodeChar d ++ ys := by
  have hc := val_lt c
  have hd := val_lt d
  have hlt : c.val.toNat < d.val.toNat := h
  simp only [String.utf8EncodeChar]
  generalize c.val.toNat = n at hc hlt ⊢
  generalize d.val.toNat = m at hd hlt ⊢
  -- Characters of fewer bytes have a lesser first byte, and there are none the other way round.
  split_ifs <;> simp only [List.cons_append, List.nil_append] <;> first
    | omega
    | exact cons_lt_cons_of_lt (by omega) (by omega)
    | skip
  -- The rest have as many bytes, two, three or four.
  · refine cons_lt_cons_of_le (by omega) (by omega) (by omega) fun _ => ?_
    exact cons_lt_cons_of_lt (by omega) (by omega)
  · refine cons_lt_cons_of_le (by omega) (by omega) (by omega) fun _ => ?_
    refine cons_lt_cons_of_le (by omega) (by omega) (by omega) fun _ => ?_
    exact cons_lt_cons_of_lt (by omega) (by omega)
  · refine cons_lt_cons_of_le (by omega) (by omega) (by omega) fun _ => ?_
    refine cons_lt_cons_of_le (by omega) (by omega) (by omega) fun _ => ?_
    refine cons_lt_cons_of_le (by omega) (by omega) (by omega) fun _ => ?_
    exact cons_lt_cons_of_lt (by omega) (by omega)

/-! ## Texts -/

theorem flatMap_encodeChar_lt {cs ds : List Char} (h : cs < ds) :
    cs.flatMap String.utf8EncodeChar < ds.flatMap String.utf8EncodeChar := by
  induction cs generalizing ds with
  | nil =>
    cases ds with
    | nil => exact absurd h (List.not_lt_nil [])
    | cons d ds =>
      obtain ⟨b, bs, hd⟩ := List.exists_cons_of_ne_nil (String.utf8EncodeChar_ne_nil (c := d))
      rw [List.flatMap_nil, List.flatMap_cons, hd, List.cons_append]
      exact List.nil_lt_cons b _
  | cons c cs ih =>
    cases ds with
    | nil => exact absurd h (List.not_lt_nil _)
    | cons d ds =>
      rw [List.flatMap_cons, List.flatMap_cons]
      rcases List.cons_lt_cons_iff.1 h with hlt | ⟨rfl, hlt⟩
      · exact encodeChar_append_lt hlt _ _
      · exact List.append_left_lt (ih hlt)

/-- The bytes of texts are ordered as the texts are. -/
theorem encode_lt_encode_iff {s t : String} : encode s < encode t ↔ s < t := by
  constructor
  · intro h
    refine Decidable.byContradiction fun hnot => ?_
    rcases Std.le_iff_lt_or_eq.1 (String.not_lt.1 hnot) with hlt | rfl
    · exact List.lt_asymm h (flatMap_encodeChar_lt (String.lt_iff.1 hlt))
    · exact List.lt_irrefl _ h
  · intro h
    exact flatMap_encodeChar_lt (String.lt_iff.1 h)

/-- The codes of the characters of a text. -/
def codes (s : String) : List Nat :=
  s.toList.map Char.toNat

theorem map_toNat_lt_iff {cs ds : List Char} :
    cs.map Char.toNat < ds.map Char.toNat ↔ cs < ds := by
  induction cs generalizing ds with
  | nil => cases ds <;> simp
  | cons c cs ih =>
    cases ds with
    | nil => simp
    | cons d ds =>
      rw [List.map_cons, List.map_cons, List.cons_lt_cons_iff, List.cons_lt_cons_iff, ih,
        Char.toNat_inj]
      rfl

/-- Texts are ordered as their codes are. -/
theorem codes_lt_codes_iff {s t : String} : codes s < codes t ↔ s < t :=
  map_toNat_lt_iff.trans String.lt_iff.symm

end ValueBridge.Utf8
