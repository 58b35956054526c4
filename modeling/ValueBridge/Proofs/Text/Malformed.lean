import Mathlib.Data.List.Basic
import Mathlib.Data.List.Induction
import Mathlib.Data.Nat.Find
import Mathlib.Tactic.SplitIfs
import ValueBridge.Proofs.Text.Utf8

/-!
# Ill-formed bytes

How bytes are to be read does not depend on a decoder (`Utf8.Reads`): a character stands for its
bytes, and where no character stands, U+FFFD stands for a *maximal subpart* of an ill-formed
sequence. That is the longest part that begins some character, or a single byte if none does.

The decoder reads bytes in this way and in no other (`Utf8.reads_iff`). What it counts are parts:
a byte that it does not accept begins one more (`Decoder.length_finish_feed_of_not_accepts`), so
that none of the bytes of a character is refused after the first. Conversely a byte that it
accepts goes on with a character (`Utf8.opens_of_foldl`), as the bounds on the byte after the
first leave out no more than the tables of the encoding do.

* `Memory.readText_laws`: what is read of a memory, and what follows from it (`Memory.IsTextOf`).
-/

namespace ValueBridge

namespace Utf8

/-! ## How bytes are read -/

/-- The bytes are the first ones of some character, or all of them. -/
def Begins (part : List UInt8) : Prop :=
  ∃ c, part <+: String.utf8EncodeChar c

/-- No character stands where the part does, and the part is the longest one that begins a
    character, or a single byte. -/
structure MaximalSubpart (part rest : List UInt8) : Prop where
  ne_nil : part ≠ []
  illFormed : ∀ c, ¬String.utf8EncodeChar c <+: part ++ rest
  begins : Begins part ∨ part.length = 1
  longest : ∀ p, p <+: part ++ rest → Begins p → p.length ≤ part.length

/-- The bytes are to be read as the characters. -/
inductive Reads : List UInt8 → List Char → Prop
  | nil : Reads [] []
  | character (c : Char) {bytes : List UInt8} {cs : List Char} : Reads bytes cs →
      Reads (String.utf8EncodeChar c ++ bytes) (c :: cs)
  | malformed {part rest : List UInt8} {cs : List Char} : MaximalSubpart part rest →
      Reads rest cs → Reads (part ++ rest) (replacement :: cs)

theorem Begins.of_append {part tail : List UInt8} (h : Begins (part ++ tail)) : Begins part := by
  obtain ⟨c, hc⟩ := h
  exact ⟨c, (List.prefix_append part tail).trans hc⟩

/-- Bytes where no character stands have a maximal subpart. -/
theorem exists_maximalSubpart {bytes : List UInt8} (hne : bytes ≠ [])
    (hill : ∀ c, ¬String.utf8EncodeChar c <+: bytes) :
    ∃ part rest, bytes = part ++ rest ∧ MaximalSubpart part rest := by
  classical
  have hpos : 0 < bytes.length := List.length_pos_iff.2 hne
  let longest := Nat.findGreatest (fun n => Begins (bytes.take n)) bytes.length
  have hle : longest ≤ bytes.length := Nat.findGreatest_le _
  have hbegins : Begins (bytes.take longest) :=
    Nat.findGreatest_spec (P := fun n => Begins (bytes.take n)) (Nat.zero_le _)
      ⟨'a', List.take_zero ▸ List.nil_prefix⟩
  have hbound (p : List UInt8) (hp : p <+: bytes) (hpbegins : Begins p) : p.length ≤ longest := by
    refine Nat.le_findGreatest hp.length_le ?_
    rwa [← List.prefix_iff_eq_take.1 hp]
  have hlength : (bytes.take (max 1 longest)).length = max 1 longest := by
    rw [List.length_take]
    omega
  refine ⟨bytes.take (max 1 longest), bytes.drop (max 1 longest),
    (List.take_append_drop _ _).symm, ?_, ?_, ?_, ?_⟩
  · exact List.ne_nil_of_length_pos (by omega)
  · rwa [List.take_append_drop]
  · -- If not even one byte begins a character, it is a part of its own.
    by_cases h : 1 ≤ longest
    · rw [max_eq_right h]
      exact .inl hbegins
    · exact .inr (by omega)
  · rw [List.take_append_drop, hlength]
    exact fun p hp hpbegins => Nat.le_trans (hbound p hp hpbegins) (Nat.le_max_right _ _)

/-- All bytes can be read. -/
theorem exists_reads (bytes : List UInt8) : ∃ cs, Reads bytes cs := by
  induction hlength : bytes.length using Nat.strongRecOn generalizing bytes with | _ n ih
  by_cases hne : bytes = []
  · subst hne
    exact ⟨[], .nil⟩
  by_cases hchar : ∃ c, String.utf8EncodeChar c <+: bytes
  · obtain ⟨c, rest, rfl⟩ := hchar
    have hpos := List.length_pos_iff.2 (String.utf8EncodeChar_ne_nil (c := c))
    obtain ⟨cs, hcs⟩ := ih rest.length (by rw [← hlength, List.length_append]; omega) rest rfl
    exact ⟨c :: cs, .character c hcs⟩
  · obtain ⟨part, rest, rfl, hpart⟩ :=
      exists_maximalSubpart hne fun c hc => hchar ⟨c, hc⟩
    have hpos := List.length_pos_iff.2 hpart.ne_nil
    obtain ⟨cs, hcs⟩ := ih rest.length (by rw [← hlength, List.length_append]; omega) rest rfl
    exact ⟨replacement :: cs, .malformed hpart hcs⟩

/-! ## Parts -/

namespace Decoder

variable {d : Decoder} {read : List Char} {part bytes tail : List UInt8} {b : UInt8} {c : Char}

/-- The byte goes on with the sequence that is pending. -/
def Accepts (d : Decoder) (b : UInt8) : Prop :=
  ∃ p, d.pending = some p ∧ p.low ≤ b ∧ b ≤ p.high

/-- A byte that is not accepted ends what is pending, and begins anew. -/
theorem feed_of_not_accepts (h : ¬d.Accepts b) : feed d b = begin d.finish.reverse b := by
  obtain ⟨read, _ | p⟩ := d
  · rw [feed, finish, List.reverse_reverse]
  · have hrange : ¬(p.low ≤ b ∧ b ≤ p.high) := fun hb => h ⟨p, rfl, hb⟩
    simp only [feed, hrange, if_false, finish, List.reverse_reverse]

theorem length_finish_begin (read : List Char) (b : UInt8) :
    (begin read b).finish.length = read.length + 1 := by
  rw [begin]
  split
  · rw [finish, List.length_reverse, List.length_cons]
  · split <;> rw [finish, List.length_reverse, List.length_cons]

theorem length_finish_feed_of_accepts (h : d.Accepts b) :
    (feed d b).finish.length = d.finish.length := by
  obtain ⟨read, pending⟩ := d
  obtain ⟨p, rfl, hb⟩ := h
  simp only [feed, hb, and_self, if_true]
  split <;> simp only [finish, List.length_reverse, List.length_cons]

theorem length_finish_feed_of_not_accepts (h : ¬d.Accepts b) :
    (feed d b).finish.length = d.finish.length + 1 := by
  rw [feed_of_not_accepts h, length_finish_begin, List.length_reverse]

/-- Parts are never taken back. -/
theorem length_finish_le_foldl (d : Decoder) (bytes : List UInt8) :
    d.finish.length ≤ (bytes.foldl feed d).finish.length := by
  induction bytes generalizing d with
  | nil => exact Nat.le_refl _
  | cons b bytes ih =>
    have hfeed : d.finish.length ≤ (feed d b).finish.length := by
      by_cases h : d.Accepts b
      · exact Nat.le_of_eq (length_finish_feed_of_accepts h).symm
      · rw [length_finish_feed_of_not_accepts h]
        exact Nat.le_succ _
    exact Nat.le_trans hfeed (ih _)

/-- The first byte begins a part. -/
theorem length_finish_pos (h : part ≠ []) : 0 < (part.foldl feed start).finish.length := by
  obtain ⟨b, bytes, rfl⟩ := List.exists_cons_of_ne_nil h
  have hfirst : (feed start b).finish.length = 1 := length_finish_begin [] b
  exact Nat.lt_of_lt_of_le (by rw [hfirst]; exact Nat.one_pos) (length_finish_le_foldl _ bytes)

/-- A decoder that has begun one part, and accepts a byte, has read nothing yet. -/
theorem eq_of_accepts (h : d.Accepts b) (hlength : d.finish.length = 1) :
    ∃ p, d = ⟨[], some p⟩ ∧ p.low ≤ b ∧ b ≤ p.high := by
  obtain ⟨read, pending⟩ := d
  obtain ⟨p, rfl, hb⟩ := h
  rw [finish, List.length_reverse, List.length_cons] at hlength
  obtain rfl : read = [] := List.eq_nil_of_length_eq_zero (Nat.succ.inj hlength)
  exact ⟨p, rfl, hb⟩

/-- No byte of a character is refused after the first, as the character is one part. -/
theorem exists_pending_of_char (hne : part ≠ [])
    (hc : part ++ b :: tail = String.utf8EncodeChar c) :
    ∃ p, part.foldl feed start = ⟨[], some p⟩ ∧ p.low ≤ b ∧ b ≤ p.high := by
  have hwhole : ((part ++ b :: tail).foldl feed start).finish.length = 1 := by
    rw [hc, start, foldl_feed_encodeChar]
    rfl
  have hpart := length_finish_pos hne
  rw [List.foldl_append, List.foldl_cons] at hwhole
  generalize part.foldl feed start = d at hwhole hpart ⊢
  have htail := length_finish_le_foldl (feed d b) tail
  by_cases h : d.Accepts b
  · rw [length_finish_feed_of_accepts h] at htail
    exact eq_of_accepts h (by omega)
  · rw [length_finish_feed_of_not_accepts h] at htail
    omega

/-! ## What was read before -/

theorem feed_append (read before : List Char) (pending : Option Pending) (b : UInt8) :
    feed ⟨read ++ before, pending⟩ b =
      ⟨(feed ⟨read, pending⟩ b).read ++ before, (feed ⟨read, pending⟩ b).pending⟩ := by
  have hbegin (read : List Char) : begin (read ++ before) b =
      ⟨(begin read b).read ++ before, (begin read b).pending⟩ := by
    rw [begin, begin]
    split
    · rfl
    · split <;> rfl
  rcases pending with _ | p
  · exact hbegin read
  · simp only [feed]
    split
    · split <;> rfl
    · exact hbegin (replacement :: read)

theorem foldl_feed_append (read before : List Char) (pending : Option Pending)
    (bytes : List UInt8) : bytes.foldl feed ⟨read ++ before, pending⟩ =
      ⟨(bytes.foldl feed ⟨read, pending⟩).read ++ before,
        (bytes.foldl feed ⟨read, pending⟩).pending⟩ := by
  induction bytes generalizing read pending with
  | nil => rfl
  | cons b bytes ih => rw [List.foldl_cons, feed_append, ih, List.foldl_cons]

/-- What was read stands before what is read of the bytes. -/
theorem finish_foldl_feed (before : List Char) (bytes : List UInt8) :
    (bytes.foldl feed ⟨before, none⟩).finish = before.reverse ++ decodeChars bytes := by
  have h := foldl_feed_append [] before none bytes
  rw [List.nil_append] at h
  rw [h, decodeChars, start]
  generalize bytes.foldl feed ⟨[], none⟩ = d
  obtain ⟨read, _ | p⟩ := d <;> simp only [finish, List.reverse_append, List.reverse_cons,
    List.append_assoc]

end Decoder

open Decoder

variable {part rest bytes : List UInt8} {p : Pending} {b t u v : UInt8} {c : Char}
  {cs : List Char}

theorem decodeChars_encodeChar_append (c : Char) (bytes : List UInt8) :
    decodeChars (String.utf8EncodeChar c ++ bytes) = c :: decodeChars bytes := by
  rw [decodeChars, start, List.foldl_append, foldl_feed_encodeChar, finish_foldl_feed]
  rfl

/-! ## Bytes that go on with a character -/

/-- The byte is one of those that follow the first two. -/
def IsTail (b : UInt8) : Prop :=
  tailLow ≤ b ∧ b ≤ tailHigh

/-- The bytes are as many as are owed, and the first one is in its range. -/
def Pending.Takes (p : Pending) : List UInt8 → Prop
  | [] => False
  | b :: tail => (p.low ≤ b ∧ b ≤ p.high) ∧ tail.length = p.owed - 1 ∧ ∀ t ∈ tail, IsTail t

/-- Whatever is taken, the part goes on with it to a character. -/
def Opens (part : List UInt8) (p : Pending) : Prop :=
  ∀ tail, p.Takes tail → ∃ c, String.utf8EncodeChar c = part ++ tail

/-- A byte that is accepted can be the next one of a character. -/
theorem Opens.begins (h : Opens part p) (hb : p.low ≤ b ∧ b ≤ p.high) : Begins (part ++ [b]) := by
  have htail : p.Takes (b :: List.replicate (p.owed - 1) tailLow) := by
    refine ⟨hb, List.length_replicate, fun t ht => ?_⟩
    rw [(List.mem_replicate.1 ht).2]
    exact ⟨UInt8.le_refl _, by decide⟩
  obtain ⟨c, hc⟩ := h _ htail
  exact ⟨c, List.replicate (p.owed - 1) tailLow, by rw [hc, List.append_assoc]; rfl⟩

/-- After a byte that is accepted, the part goes on with the others that are owed. -/
theorem Opens.next (h : Opens part p) (hb : p.low ≤ b ∧ b ≤ p.high) (howed : ¬p.owed ≤ 1)
    (code : Nat) : Opens (part ++ [b]) ⟨code, p.owed - 1, tailLow, tailHigh⟩ := by
  rintro (_ | ⟨t, tail⟩) htail
  · exact htail.elim
  · obtain ⟨ht, hlength, htail⟩ := htail
    have htaken : p.Takes (b :: t :: tail) := by
      refine ⟨hb, ?_, List.forall_mem_cons.2 ⟨ht, htail⟩⟩
      rw [List.length_cons, hlength]
      dsimp only
      omega
    obtain ⟨c, hc⟩ := h _ htaken
    exact ⟨c, by rw [hc, List.append_assoc]; rfl⟩

/-- A code that is no surrogate is that of a character. -/
theorem exists_char_of_valid {n : Nat} (h : n < 0xD800 ∨ 0xDFFF < n ∧ n < 0x110000) :
    ∃ c : Char, c.val.toNat = n := by
  have hword : n < UInt32.size := by
    rw [UInt32.size]
    omega
  have hn : (UInt32.ofNat n).toNat = n := UInt32.toNat_ofNat_of_lt' hword
  exact ⟨⟨.ofNat n, by rw [UInt32.isValidChar, hn]; exact h⟩, hn⟩

theorem IsTail.bounds (h : IsTail t) : 0x80 ≤ t.toNat ∧ t.toNat < 0xC0 := by
  obtain ⟨hlow, hhigh⟩ := h
  rw [UInt8.le_iff_toNat_le] at hlow hhigh
  exact ⟨hlow, Nat.lt_succ_of_le hhigh⟩

section

variable {code : Nat} {low high : UInt8}

theorem opens_two (hb : 0xC2 ≤ b.toNat) (hb' : b.toNat < 0xE0) :
    Opens [b] ⟨code, 1, tailLow, tailHigh⟩ := by
  rintro (_ | ⟨t, tail⟩) htail
  · exact htail.elim
  · obtain ⟨hrange, hlength, _⟩ := htail
    obtain ⟨ht, ht'⟩ := IsTail.bounds hrange
    obtain rfl := List.eq_nil_of_length_eq_zero hlength
    obtain ⟨c, hc⟩ := exists_char_of_valid
      (n := (b.toNat - 0xC0) * 64 + (t.toNat - 0x80)) (by omega)
    refine ⟨c, ?_⟩
    simp only [String.utf8EncodeChar, hc]
    rw [if_neg (by omega), if_pos (by omega)]
    simp only [List.cons_append, List.nil_append, List.cons.injEq, ← UInt8.toNat_inj,
      UInt8.toNat_ofNat', and_true]
    omega

/-- The bounds on the second byte leave out the codes of fewer bytes, and the surrogates. -/
theorem opens_three (hb : 0xE0 ≤ b.toNat) (hb' : b.toNat < 0xF0) (hlow : 0x80 ≤ low.toNat)
    (hhigh : high.toNat < 0xC0) (hfew : b.toNat = 0xE0 → 0xA0 ≤ low.toNat)
    (hsurrogate : b.toNat = 0xED → high.toNat < 0xA0) : Opens [b] ⟨code, 2, low, high⟩ := by
  rintro (_ | ⟨t, tail⟩) htail
  · exact htail.elim
  · obtain ⟨⟨ht, ht'⟩, hlength, hrest⟩ := htail
    rw [UInt8.le_iff_toNat_le] at ht ht'
    obtain ⟨u, rfl⟩ := List.length_eq_one_iff.1 hlength
    obtain ⟨hu, hu'⟩ := (hrest u List.mem_cons_self).bounds
    dsimp only at ht ht'
    obtain ⟨c, hc⟩ := exists_char_of_valid
      (n := ((b.toNat - 0xE0) * 64 + (t.toNat - 0x80)) * 64 + (u.toNat - 0x80)) (by omega)
    refine ⟨c, ?_⟩
    simp only [String.utf8EncodeChar, hc]
    rw [if_neg (by omega), if_neg (by omega), if_pos (by omega)]
    simp only [List.cons_append, List.nil_append, List.cons.injEq, ← UInt8.toNat_inj,
      UInt8.toNat_ofNat', and_true]
    omega

/-- The bounds on the second byte leave out the codes of fewer bytes, and those past the last
    character. -/
theorem opens_four (hb : 0xF0 ≤ b.toNat) (hb' : b.toNat < 0xF5) (hlow : 0x80 ≤ low.toNat)
    (hhigh : high.toNat < 0xC0) (hfew : b.toNat = 0xF0 → 0x90 ≤ low.toNat)
    (hlast : b.toNat = 0xF4 → high.toNat < 0x90) : Opens [b] ⟨code, 3, low, high⟩ := by
  rintro (_ | ⟨t, tail⟩) htail
  · exact htail.elim
  · obtain ⟨⟨ht, ht'⟩, hlength, hrest⟩ := htail
    rw [UInt8.le_iff_toNat_le] at ht ht'
    obtain ⟨u, v, rfl⟩ := List.length_eq_two.1 hlength
    obtain ⟨hu, hu'⟩ := (hrest u List.mem_cons_self).bounds
    obtain ⟨hv, hv'⟩ := (hrest v (List.mem_cons_of_mem _ List.mem_cons_self)).bounds
    dsimp only at ht ht'
    obtain ⟨c, hc⟩ := exists_char_of_valid (n := (((b.toNat - 0xF0) * 64 + (t.toNat - 0x80)) * 64 +
      (u.toNat - 0x80)) * 64 + (v.toNat - 0x80)) (by omega)
    refine ⟨c, ?_⟩
    simp only [String.utf8EncodeChar, hc]
    rw [if_neg (by omega), if_neg (by omega), if_neg (by omega)]
    simp only [List.cons_append, List.nil_append, List.cons.injEq, ← UInt8.toNat_inj,
      UInt8.toNat_ofNat', and_true]
    omega

end

/-- A sequence that a byte begins goes on to characters, and there are some. -/
theorem opens_lead (hp : lead? b = some p) : Opens [b] p ∧ p.low ≤ p.high := by
  simp only [lead?, UInt8.lt_iff_toNat_lt, ← UInt8.toNat_inj, UInt8.reduceToNat] at hp
  split_ifs at hp <;> cases hp <;> refine ⟨?_, by dsimp only; decide⟩
  · exact opens_two (by omega) (by omega)
  · exact opens_three (by omega) (by omega) (by decide) (by decide) (fun _ => by decide) (by omega)
  · exact opens_three (by omega) (by omega) (by decide) (by decide) (by omega) (fun _ => by decide)
  · exact opens_three (by omega) (by omega) (by decide) (by decide) (by omega) (by omega)
  · exact opens_four (by omega) (by omega) (by decide) (by decide) (fun _ => by decide) (by omega)
  · exact opens_four (by omega) (by omega) (by decide) (by decide) (by omega) (by omega)
  · exact opens_four (by omega) (by omega) (by decide) (by decide) (by omega) (fun _ => by decide)

/-- A sequence that is pending goes on to characters. -/
theorem opens_of_foldl (h : part.foldl feed start = ⟨[], some p⟩) : Opens part p := by
  induction part using List.reverseRecOn generalizing p with
  | nil => cases h
  | append_singleton part b ih =>
    rw [List.foldl_append, List.foldl_cons, List.foldl_nil] at h
    by_cases hacc : (part.foldl feed start).Accepts b
    · -- The byte before it left the same part pending.
      have hlength := length_finish_feed_of_accepts hacc
      rw [h] at hlength
      obtain ⟨q, hq, hb⟩ := eq_of_accepts hacc hlength.symm
      rw [hq] at h
      simp only [feed, hb, and_self, if_true] at h
      split at h
      · cases h
      · next howed =>
        cases h
        exact (ih hq).next hb howed _
    · -- The byte began the part, so that none was there before it.
      have hlength := length_finish_feed_of_not_accepts hacc
      rw [h] at hlength
      have hnone : (part.foldl feed start).finish.length = 0 := (Nat.succ.inj hlength).symm
      obtain rfl : part = [] := by
        by_contra hne
        exact Nat.ne_of_gt (length_finish_pos hne) hnone
      simp only [List.foldl_nil, feed, start, begin] at h
      split at h
      · cases h
      · split at h
        · next hlead =>
          cases h
          exact (opens_lead hlead).1
        · cases h

/-! ## Maximal subparts -/

theorem toNat_char_of_ascii (hb : b < 0x80) : (Char.ofNat b.toNat).val.toNat = b.toNat := by
  have hb : b.toNat < 0x80 := hb
  obtain ⟨c, hc⟩ := exists_char_of_valid (n := b.toNat) (by omega)
  have hofNat : Char.ofNat c.val.toNat = c := Char.ofNat_toNat c
  rw [← hc, hofNat]

/-- An ASCII byte is a character. -/
theorem utf8EncodeChar_of_ascii (hb : b < 0x80) :
    String.utf8EncodeChar (Char.ofNat b.toNat) = [b] := by
  simp only [String.utf8EncodeChar, toNat_char_of_ascii hb]
  have hle : b.toNat ≤ 127 := Nat.le_of_lt_succ hb
  rw [if_pos hle, UInt8.ofNat_toNat]

/-- A maximal subpart is pending at its end, or is a byte that begins nothing. -/
theorem MaximalSubpart.foldl_feed (h : MaximalSubpart part rest) :
    (∃ p, part.foldl feed start = ⟨[], some p⟩) ∨
      part.foldl feed start = ⟨[replacement], none⟩ := by
  by_cases hbegins : Begins part
  · -- As it is not all of a character, there is a byte to come that would be accepted.
    obtain ⟨c, tail, hc⟩ := hbegins
    cases tail with
    | nil =>
      rw [List.append_nil] at hc
      exact absurd (hc ▸ List.prefix_append part rest) (h.illFormed c)
    | cons b tail =>
      obtain ⟨p, hp, _⟩ := exists_pending_of_char h.ne_nil hc
      exact .inl ⟨p, hp⟩
  · obtain ⟨b, rfl⟩ := List.length_eq_one_iff.1 (h.begins.resolve_left hbegins)
    have hascii : ¬b < 0x80 := fun hb =>
      hbegins ⟨Char.ofNat b.toNat, [], by rw [utf8EncodeChar_of_ascii hb]; rfl⟩
    right
    simp only [List.foldl_cons, List.foldl_nil, feed, start, begin, hascii, if_false]
    cases hlead : lead? b with
    | none => rfl
    | some p =>
      obtain ⟨hopens, hle⟩ := opens_lead hlead
      exact absurd (hopens.begins ⟨UInt8.le_refl _, hle⟩).of_append hbegins

/-- One U+FFFD is read for a maximal subpart. -/
theorem MaximalSubpart.decodeChars_append (h : MaximalSubpart part rest) :
    decodeChars (part ++ rest) = replacement :: decodeChars rest := by
  have hafter := finish_foldl_feed [replacement] rest
  rw [decodeChars, List.foldl_append]
  rcases h.foldl_feed with ⟨p, hp⟩ | hp <;> rw [hp]
  · cases rest with
    | nil => rfl
    | cons b rest =>
      -- A byte that is accepted would make the part longer.
      have hreject : ¬Accepts ⟨[], some p⟩ b := by
        rintro ⟨_, ⟨⟩, hb⟩
        have hprefix : part ++ [b] <+: part ++ b :: rest :=
          (List.prefix_append_right_inj part).2 ⟨rest, rfl⟩
        have hle := h.longest _ hprefix ((opens_of_foldl hp).begins hb)
        rw [List.length_append] at hle
        exact Nat.not_succ_le_self _ hle
      rw [List.foldl_cons, feed_of_not_accepts hreject]
      exact hafter
  · exact hafter

/-! ## The decoder reads -/

theorem decodeChars_of_reads (h : Reads bytes cs) : decodeChars bytes = cs := by
  induction h with
  | nil => rfl
  | character c _ ih => rw [decodeChars_encodeChar_append, ih]
  | malformed hpart _ ih => rw [hpart.decodeChars_append, ih]

/-- There is one way to read bytes, and it is the decoder's. -/
theorem reads_iff : Reads bytes cs ↔ cs = decodeChars bytes := by
  refine ⟨fun h => (decodeChars_of_reads h).symm, ?_⟩
  rintro rfl
  obtain ⟨cs, hcs⟩ := exists_reads bytes
  rwa [decodeChars_of_reads hcs]

/-- The first two bytes of three are one part, and a byte that begins nothing is another. -/
example : decodeChars [0x61, 0xE2, 0x82, 0x62, 0xFF] = ['a', replacement, 'b', replacement] := by
  decide

/-! ## ASCII bytes -/

/-- The character is one of those that are encoded as one byte. -/
def isAscii (c : Char) : Bool :=
  c.val.toNat < 0x80

/-- An ASCII byte is no part of the encoding of any other character than its own. -/
theorem eq_ofNat_of_mem (hmem : b ∈ String.utf8EncodeChar c) (hb : b < 0x80) :
    c = Char.ofNat b.toNat := by
  have hb : b.toNat < 0x80 := hb
  have hvalid : c.val.toNat < 0xD800 ∨ 0xDFFF < c.val.toNat ∧ c.val.toNat < 0x110000 := c.valid
  have hc : Char.ofNat c.val.toNat = c := Char.ofNat_toNat c
  rw [← hc]
  refine congrArg Char.ofNat ?_
  simp only [String.utf8EncodeChar] at hmem
  generalize c.val.toNat = n at hmem hvalid
  -- All bytes of the longer encodings have their highest bit set.
  split_ifs at hmem <;>
    simp only [List.mem_cons, List.not_mem_nil, or_false, ← UInt8.toNat_inj,
      UInt8.toNat_ofNat'] at hmem <;> omega

theorem filter_utf8EncodeChar (c : Char) :
    ((String.utf8EncodeChar c).filter (· < 0x80)).map (fun b => Char.ofNat b.toNat) =
      if isAscii c then [c] else [] := by
  by_cases h : c.val.toNat < 0x80
  · have hb : (UInt8.ofNat c.val.toNat).toNat = c.val.toNat := toNat_ofNat_of_lt (by omega)
    have hascii : UInt8.ofNat c.val.toNat < 0x80 := by
      rw [UInt8.lt_iff_toNat_lt, hb]
      exact h
    have hc : Char.ofNat (UInt8.ofNat c.val.toNat).toNat = c := by
      rw [hb]
      exact Char.ofNat_toNat c
    have hencode := utf8EncodeChar_of_ascii hascii
    rw [hc] at hencode
    have hasciiChar : isAscii c = true := decide_eq_true h
    rw [if_pos hasciiChar, hencode, List.filter_cons, if_pos (decide_eq_true hascii),
      List.filter_nil, List.map_cons, hc, List.map_nil]
  · have hnone : (String.utf8EncodeChar c).filter (· < 0x80) = [] := by
      refine List.filter_eq_nil_iff.2 fun b hmem hb => h ?_
      have hb : b < 0x80 := of_decide_eq_true hb
      rw [eq_ofNat_of_mem hmem hb, toNat_char_of_ascii hb]
      exact hb
    have hother : ¬isAscii c = true := fun hc => h (of_decide_eq_true hc)
    rw [hnone, if_neg hother, List.map_nil]

theorem MaximalSubpart.not_ascii (h : MaximalSubpart part rest) (hb : b ∈ part) : ¬b < 0x80 := by
  intro hascii
  have hpart : part = [b] := by
    rcases h.begins with ⟨c, hc⟩ | hlength
    · obtain rfl := eq_ofNat_of_mem (hc.subset hb) hascii
      rw [utf8EncodeChar_of_ascii hascii] at hc
      exact hc.eq_of_length_le (List.length_pos_iff.2 h.ne_nil)
    · obtain ⟨a, rfl⟩ := List.length_eq_one_iff.1 hlength
      rw [List.mem_singleton.1 hb]
  refine h.illFormed (Char.ofNat b.toNat) ?_
  rw [utf8EncodeChar_of_ascii hascii, hpart]
  exact List.prefix_append [b] rest

/-- The ASCII bytes are read as themselves, in order. -/
theorem Reads.filter_isAscii (h : Reads bytes cs) :
    cs.filter isAscii = (bytes.filter (· < 0x80)).map fun b => Char.ofNat b.toNat := by
  induction h with
  | nil => rfl
  | @character c bytes cs _ ih =>
    rw [List.filter_append, List.map_append, ← ih, filter_utf8EncodeChar, List.filter_cons]
    split <;> rfl
  | @malformed part rest cs hpart _ ih =>
    have hnone : part.filter (· < 0x80) = [] :=
      List.filter_eq_nil_iff.2 fun b hb => by simpa using hpart.not_ascii hb
    rw [List.filter_append, hnone, List.nil_append, ← ih]
    exact List.filter_cons_of_neg (by decide)

/-! ## Texts -/

theorem toList_decode (bytes : List UInt8) : (decode bytes).toList = decodeChars bytes :=
  String.toList_ofList

/-- A text stands before what is read after it. -/
theorem decode_encode_append (s : String) (bytes : List UInt8) :
    decode (encode s ++ bytes) = s ++ decode bytes := by
  rw [← String.toList_inj, String.toList_append, toList_decode, toList_decode, encode, decodeChars,
    start, List.foldl_append, foldl_feed_flatMap, finish_foldl_feed, List.append_nil,
    List.reverse_reverse]

/-- A strict decoder takes the bytes of texts, and no others. -/
theorem fromUTF8?_eq_some_iff {s : String} :
    String.fromUTF8? bytes.toByteArray = some s ↔ bytes = encode s := by
  have hencode : (encode s).toByteArray = s.toByteArray := String.utf8Encode_toList
  rw [← List.toByteArray_inj, hencode, String.fromUTF8?]
  constructor
  · intro h
    split at h
    · cases h
      rfl
    · cases h
  · intro h
    have hvalid : bytes.toByteArray.IsValidUTF8 := h ▸ s.isValidUTF8
    rw [dif_pos hvalid, Option.some_inj, ← String.toByteArray_inj]
    exact h

/-- Where the strict decoder takes the bytes, it agrees with the one that never fails. -/
theorem fromUTF8?_getD_decode (bytes : List UInt8) :
    (String.fromUTF8? bytes.toByteArray).getD (decode bytes) = decode bytes := by
  cases h : String.fromUTF8? bytes.toByteArray with
  | none => rfl
  | some s =>
    rw [fromUTF8?_eq_some_iff.1 h, decode_encode]
    rfl

end Utf8

/-! ## Texts in memory -/

namespace Memory

open Utf8

/-- The text is what the bytes are read as. Each character stands for its bytes, and U+FFFD for
    each maximal subpart of an ill-formed sequence, and there is no other way to read them. A strict
    decoder agrees where it takes the bytes, which are then those of a text. A text stands before
    what is read after its bytes, and every ASCII byte stands for itself and in order. The text is
    read again from its encoding, wherever that is written. -/
structure IsTextOf (text : String) (data : List UInt8) : Prop where
  reads_iff : ∀ cs, Reads data cs ↔ cs = text.toList
  strict_iff : ∀ s, String.fromUTF8? data.toByteArray = some s ↔ data = encode s
  strict_agrees : (String.fromUTF8? data.toByteArray).getD text = text
  of_encode : ∀ s, data = encode s → text = s
  append : ∀ s, decode (encode s ++ data) = s ++ text
  ascii : text.toList.filter isAscii = (data.filter (· < 0x80)).map fun b => Char.ofNat b.toNat
  decode_encode : decode (encode text) = text
  reread : ∀ (m : Memory) (addr length : UInt32),
    m.read? addr length.toNat = .ok (some (encode text)) → m.readText addr length = .ok text

theorem isTextOf_decode (data : List UInt8) : IsTextOf (decode data) data where
  reads_iff cs := by rw [Utf8.reads_iff, toList_decode]
  strict_iff _ := fromUTF8?_eq_some_iff
  strict_agrees := fromUTF8?_getD_decode data
  of_encode s hs := by rw [hs, Utf8.decode_encode]
  append s := decode_encode_append s data
  ascii := (Utf8.reads_iff.2 (toList_decode data)).filter_isAscii
  decode_encode := Utf8.decode_encode _
  reread _ _ _ := readText_of_read?

/-- A text is read of bytes that are all in memory, and is what these are read as. -/
theorem readText_laws (bytes : Array UInt8) (addr length : UInt32) :
    let m : Memory := .bound bytes
    let data := (bytes.extract addr.toNat (addr.toNat + length.toNat)).toList
    m.readText addr length =
        (if addr.toNat + length.toNat ≤ bytes.size then .ok (decode data)
          else .error (.outOfBounds addr length.toNat bytes.size)) ∧
      IsTextOf (decode data) data := by
  intro m data
  refine ⟨?_, isTextOf_decode data⟩
  rw [readText, read?]
  split <;> rfl

end Memory

end ValueBridge
