import ValueBridge.Json.Token
import ValueBridge.Proofs.Text.Order

/-!
# How JSON strings are spelled

Which texts stand between the quotation marks of a JSON string, and for what code points
(`Json.IsBody`). The scanner takes the codes up to the closing quotation mark
(`Json.scanString_append`, `Json.isUnits_of_scanString`) and puts the halves of surrogate pairs
together afterwards, which comes to the same as to read pairs where they stand
(`Json.IsUnits.isBody`, `Json.IsBody.exists_isUnits`). The code points are those of a text, and of
no other, unless half of a pair stands among them alone (`Json.text?_eq_some_iff`); and as a text is
written, so it is read (`Json.isBody_escaped`).
-/

namespace ValueBridge.Json

variable {cs rest body : List Char} {units points : List Nat} {code : Nat} {s : String}

/-! ## Strings and their codes -/

/-- The text begins with an escape of four digits that is the second half of a surrogate pair. -/
def StartsLow (cs : List Char) : Prop :=
  ∃ a b c d rest low, cs = '\\' :: 'u' :: a :: b :: c :: d :: rest ∧
    hexCode? a b c d = some low ∧ isLowSurrogate low = true

/-- The text between quotation marks stands for the code points. Every character stands for itself
    but quotation marks, backslashes and control characters. These are written by escapes, as any
    character can be: by a letter, or by the four digits of its code. A code point that takes more
    than four digits is written by a surrogate pair, and only where there is no second half after a
    first one do the halves stand for themselves. -/
inductive IsBody : List Char → List Nat → Prop
  | nil : IsBody [] []
  | plain {c : Char} {cs : List Char} {points : List Nat} (hcontrol : 0x20 ≤ c.toNat)
      (hquote : c ≠ '"') (hbackslash : c ≠ '\\') (hcs : IsBody cs points) :
    IsBody (c :: cs) (c.toNat :: points)
  | letter {e c : Char} {cs : List Char} {points : List Nat} (he : escape? e = some c)
      (hcs : IsBody cs points) : IsBody ('\\' :: e :: cs) (c.toNat :: points)
  | digits {a b c d : Char} {cs : List Char} {points : List Nat} {code : Nat}
      (hcode : hexCode? a b c d = some code)
      (halone : ¬(isHighSurrogate code = true ∧ StartsLow cs)) (hcs : IsBody cs points) :
    IsBody ('\\' :: 'u' :: a :: b :: c :: d :: cs) (code :: points)
  | pair {a b c d a' b' c' d' : Char} {cs : List Char} {points : List Nat} {high low : Nat}
      (hhigh : hexCode? a b c d = some high) (hishigh : isHighSurrogate high = true)
      (hlow : hexCode? a' b' c' d' = some low) (hislow : isLowSurrogate low = true)
      (hcs : IsBody cs points) :
    IsBody ('\\' :: 'u' :: a :: b :: c :: d :: '\\' :: 'u' :: a' :: b' :: c' :: d' :: cs)
      ((0x10000 + (high - 0xD800) * 0x400 + (low - 0xDC00)) :: points)

/-- The text between quotation marks stands for the codes, with the halves of surrogate pairs not
    yet put together. -/
inductive IsUnits : List Char → List Nat → Prop
  | nil : IsUnits [] []
  | plain {c : Char} {cs : List Char} {units : List Nat} (hcontrol : 0x20 ≤ c.toNat)
      (hquote : c ≠ '"') (hbackslash : c ≠ '\\') (hcs : IsUnits cs units) :
    IsUnits (c :: cs) (c.toNat :: units)
  | letter {e c : Char} {cs : List Char} {units : List Nat} (he : escape? e = some c)
      (hcs : IsUnits cs units) : IsUnits ('\\' :: e :: cs) (c.toNat :: units)
  | digits {a b c d : Char} {cs : List Char} {units : List Nat} {code : Nat}
      (hcode : hexCode? a b c d = some code) (hcs : IsUnits cs units) :
    IsUnits ('\\' :: 'u' :: a :: b :: c :: d :: cs) (code :: units)

/-- No character has the code of a surrogate. -/
theorem not_isSurrogate_toNat (c : Char) :
    isHighSurrogate c.toNat = false ∧ isLowSurrogate c.toNat = false := by
  have hvalid : c.toNat < 0xD800 ∨ 0xDFFF < c.toNat ∧ c.toNat < 0x110000 := c.valid
  simp only [isHighSurrogate, isLowSurrogate, Bool.and_eq_false_iff, decide_eq_false_iff_not]
  omega

/-- Only an escape of four digits stands for half of a surrogate pair. -/
theorem IsUnits.startsLow (h : IsUnits cs (code :: units)) (hlow : isLowSurrogate code = true) :
    ∃ a b c d cs', cs = '\\' :: 'u' :: a :: b :: c :: d :: cs' ∧
      hexCode? a b c d = some code ∧ IsUnits cs' units := by
  cases h with
  | @plain c => exact absurd hlow (Bool.eq_false_iff.1 (not_isSurrogate_toNat c).2)
  | @letter e c => exact absurd hlow (Bool.eq_false_iff.1 (not_isSurrogate_toNat c).2)
  | digits hcode hcs => exact ⟨_, _, _, _, _, rfl, hcode, hcs⟩

theorem IsUnits.exists_of_startsLow (h : IsUnits cs units) (hcs : StartsLow cs) :
    ∃ low units', units = low :: units' ∧ isLowSurrogate low = true := by
  obtain ⟨a, b, c, d, rest, low, rfl, hcode, hlow⟩ := hcs
  cases h with
  | plain _ _ hbackslash => exact absurd rfl hbackslash
  | letter he => cases he
  | digits hcode' hcs =>
    obtain rfl : _ = low := Option.some_inj.1 (hcode'.symm.trans hcode)
    exact ⟨_, _, rfl, hlow⟩

/-- A code that is not the first half of a pair stands for itself. -/
theorem joinSurrogates_cons (hnot : ¬(isHighSurrogate code = true ∧
    ∃ low units', units = low :: units' ∧ isLowSurrogate low = true)) :
    joinSurrogates (code :: units) = code :: joinSurrogates units := by
  cases units with
  | nil => rfl
  | cons low units =>
    rw [joinSurrogates, if_neg]
    rintro ⟨hhigh, hlow⟩
    exact hnot ⟨hhigh, low, units, rfl, hlow⟩

theorem IsUnits.isBody (h : IsUnits cs units) : IsBody cs (joinSurrogates units) := by
  -- A pair is two codes, but one code point: the induction is on the number of codes.
  induction hlength : units.length using Nat.strongRecOn generalizing cs units with | _ length ih
  cases h with
  | nil => exact .nil
  | @plain c cs units hcontrol hquote hbackslash hcs =>
    rw [joinSurrogates_cons fun hhigh =>
      absurd hhigh.1 (Bool.eq_false_iff.1 (not_isSurrogate_toNat c).1)]
    exact .plain hcontrol hquote hbackslash (ih _ (hlength ▸ Nat.lt_succ_self _) hcs rfl)
  | @letter e c cs units he hcs =>
    rw [joinSurrogates_cons fun hhigh =>
      absurd hhigh.1 (Bool.eq_false_iff.1 (not_isSurrogate_toNat c).1)]
    exact .letter he (ih _ (hlength ▸ Nat.lt_succ_self _) hcs rfl)
  | @digits a b c d cs units code hcode hcs =>
    by_cases hpair : isHighSurrogate code = true ∧
        ∃ low units', units = low :: units' ∧ isLowSurrogate low = true
    · obtain ⟨hhigh, low, units', rfl, hlow⟩ := hpair
      -- No character stands for a second half itself, so that another escape follows.
      obtain ⟨a', b', c', d', cs', rfl, hcode', hcs'⟩ := hcs.startsLow hlow
      rw [joinSurrogates, if_pos ⟨hhigh, hlow⟩]
      refine .pair hcode hhigh hcode' hlow (ih units'.length ?_ hcs' rfl)
      rw [← hlength, List.length_cons, List.length_cons]
      omega
    · rw [joinSurrogates_cons hpair]
      refine .digits hcode (fun hstarts => hpair ⟨hstarts.1, ?_⟩)
        (ih _ (hlength ▸ Nat.lt_succ_self _) hcs rfl)
      exact hcs.exists_of_startsLow hstarts.2

theorem IsBody.exists_isUnits (h : IsBody cs points) :
    ∃ units, IsUnits cs units ∧ joinSurrogates units = points := by
  induction h with
  | nil => exact ⟨[], .nil, rfl⟩
  | @plain c _ _ hcontrol hquote hbackslash _ ih =>
    obtain ⟨units, hunits, rfl⟩ := ih
    exact ⟨_, .plain hcontrol hquote hbackslash hunits, joinSurrogates_cons fun hhigh =>
      absurd hhigh.1 (Bool.eq_false_iff.1 (not_isSurrogate_toNat c).1)⟩
  | @letter e c _ _ he _ ih =>
    obtain ⟨units, hunits, rfl⟩ := ih
    exact ⟨_, .letter he hunits, joinSurrogates_cons fun hhigh =>
      absurd hhigh.1 (Bool.eq_false_iff.1 (not_isSurrogate_toNat c).1)⟩
  | digits hcode halone _ ih =>
    obtain ⟨units, hunits, rfl⟩ := ih
    refine ⟨_, .digits hcode hunits, joinSurrogates_cons ?_⟩
    rintro ⟨hhigh, low, units', rfl, hlow⟩
    obtain ⟨a, b, c, d, rest, rfl, hcode', -⟩ := hunits.startsLow hlow
    exact halone ⟨hhigh, a, b, c, d, rest, low, rfl, hcode', hlow⟩
  | pair hhigh hishigh hlow hislow _ ih =>
    obtain ⟨units, hunits, rfl⟩ := ih
    refine ⟨_, .digits hhigh (.digits hlow hunits), ?_⟩
    rw [joinSurrogates, if_pos ⟨hishigh, hislow⟩]

/-- The scanner takes codes up to the closing quotation mark. -/
theorem scanString_append (h : IsUnits body units) (read : List Nat) (rest : List Char) :
    scanString read (body ++ '"' :: rest) = some (read.reverse ++ units, rest) := by
  induction h generalizing read with
  | nil => rw [List.nil_append, scanString, List.append_nil]
  | @plain c cs units hcontrol hquote hbackslash _ ih =>
    have hescape : (c.toNat < 0x20 || c = '\\') = false := by
      simp only [Bool.or_eq_false_iff, decide_eq_false_iff_not]
      exact ⟨Nat.not_lt.2 hcontrol, hbackslash⟩
    rw [List.cons_append, scanString.eq_def]
    -- The character is none of those that the scanner looks for.
    split
    · contradiction
    · next heq => exact absurd (List.cons.inj heq).1 hquote
    · next heq => exact absurd (List.cons.inj heq).1 hbackslash
    · next heq => exact absurd (List.cons.inj heq).1 hbackslash
    · next c' rest' _ _ _ heq =>
      obtain ⟨rfl, rfl⟩ := List.cons.inj heq
      rw [hescape, if_neg Bool.false_ne_true, ih, List.reverse_cons, List.append_assoc,
        List.singleton_append]
  | @letter e c cs units he _ ih =>
    rw [List.cons_append, List.cons_append, scanString, he]
    · dsimp only
      rw [ih, List.reverse_cons, List.append_assoc, List.singleton_append]
    · rintro a b c d rest rfl _
      cases he
  | @digits a b c d cs units code hcode _ ih =>
    simp only [List.cons_append]
    rw [scanString, hcode]
    dsimp only
    rw [ih, List.reverse_cons, List.append_assoc, List.singleton_append]

/-- The scanner takes nothing but codes up to a closing quotation mark. -/
theorem isUnits_of_scanString {read : List Nat} (h : scanString read cs = some (points, rest)) :
    ∃ body units, IsUnits body units ∧ cs = body ++ '"' :: rest ∧
      points = read.reverse ++ units := by
  -- Without an end there is no string, and an escape or a control character may be refused; all
  -- other cases go on with the rest.
  induction read, cs using scanString.induct generalizing points rest with
  | case1 => cases h
  | case2 read rest' =>
    rw [scanString] at h
    cases h
    exact ⟨[], [], .nil, rfl, (List.append_nil _).symm⟩
  | case3 read a b c d rest' code hcode ih =>
    rw [scanString, hcode] at h
    obtain ⟨body, units, hunits, rfl, rfl⟩ := ih h
    refine ⟨_, _, .digits hcode hunits, rfl, ?_⟩
    rw [List.reverse_cons, List.append_assoc, List.singleton_append]
  | case4 read a b c d rest' hcode =>
    rw [scanString, hcode] at h
    cases h
  | case5 read e rest' hnot c he ih =>
    rw [scanString, he] at h
    · obtain ⟨body, units, hunits, rfl, rfl⟩ := ih h
      refine ⟨_, _, .letter he hunits, rfl, ?_⟩
      rw [List.reverse_cons, List.append_assoc, List.singleton_append]
    · exact hnot
  | case6 read e rest' hnot he =>
    rw [scanString, he] at h
    · cases h
    · exact hnot
  | case7 read c rest' hquote hhex hletter hescape =>
    rw [scanString, if_pos hescape] at h
    · cases h
    all_goals assumption
  | case8 read c rest' hquote hhex hletter hescape ih =>
    rw [scanString, if_neg hescape] at h
    · obtain ⟨body, units, hunits, rfl, rfl⟩ := ih h
      simp only [Bool.or_eq_true, decide_eq_true_eq, not_or] at hescape
      refine ⟨_, _, .plain (Nat.not_lt.1 hescape.1) hquote hescape.2 hunits, rfl, ?_⟩
      rw [List.reverse_cons, List.append_assoc, List.singleton_append]
    all_goals assumption

/-! ## Texts of strings -/

theorem hexDigit?_lt {c : Char} {n : Nat} (h : hexDigit? c = some n) : n < 16 := by
  rw [hexDigit?] at h
  split_ifs at h with hdigit hlower hupper <;> cases h
  · have hhigh : c.toNat ≤ 57 := (Char.isDigit_iff_toNat.1 hdigit).2
    simp only [Char.reduceToNat]
    omega
  · have hhigh : c.toNat ≤ 102 := UInt32.le_iff_toNat_le.1 hlower.2
    simp only [Char.reduceToNat]
    omega
  · have hhigh : c.toNat ≤ 70 := UInt32.le_iff_toNat_le.1 hupper.2
    simp only [Char.reduceToNat]
    omega

theorem hexCode?_lt {a b c d : Char} (h : hexCode? a b c d = some code) : code < 0x10000 := by
  simp only [hexCode?, Option.bind_eq_bind, Option.bind_eq_some_iff] at h
  obtain ⟨a', ha, b', hb, c', hc, d', hd, heq⟩ := h
  cases heq
  have ha := hexDigit?_lt ha
  have hb := hexDigit?_lt hb
  have hc := hexDigit?_lt hc
  have hd := hexDigit?_lt hd
  omega

/-- There are no code points beyond those of Unicode in a string. -/
theorem IsBody.lt (h : IsBody body points) : ∀ point ∈ points, point < 0x110000 := by
  induction h with
  | nil => nofun
  | @plain c _ _ _ _ _ _ ih => exact List.forall_mem_cons.2 ⟨Utf8.val_lt c, ih⟩
  | @letter _ c _ _ _ _ ih => exact List.forall_mem_cons.2 ⟨Utf8.val_lt c, ih⟩
  | digits hcode _ _ ih =>
    have hlt := hexCode?_lt hcode
    exact List.forall_mem_cons.2 ⟨by omega, ih⟩
  | pair _ hhigh _ hlow _ ih =>
    simp only [isHighSurrogate, isLowSurrogate, Bool.and_eq_true, decide_eq_true_eq] at hhigh hlow
    exact List.forall_mem_cons.2 ⟨by omega, ih⟩

theorem char?_toNat (c : Char) : char? c.toNat = some c := by
  obtain ⟨hhigh, hlow⟩ := not_isSurrogate_toNat c
  rw [char?, hhigh, hlow, Bool.or_self, if_neg Bool.false_ne_true, Char.ofNat_toNat]

theorem toNat_of_char? {c : Char} (hlt : code < 0x110000) (h : char? code = some c) :
    c.toNat = code := by
  rw [char?] at h
  split at h
  · cases h
  · next hnot =>
    cases h
    simp only [isHighSurrogate, isLowSurrogate, Bool.or_eq_true, Bool.and_eq_true,
      decide_eq_true_eq] at hnot
    have hvalid : code.isValidChar := by
      rw [Nat.isValidChar]
      omega
    rw [Char.ofNat, dif_pos hvalid]
    rfl

theorem mapM_char?_eq_some_iff {cs : List Char} (hlt : ∀ point ∈ points, point < 0x110000) :
    points.mapM char? = some cs ↔ points = cs.map Char.toNat := by
  constructor
  · intro h
    induction points generalizing cs with
    | nil =>
      cases h
      rfl
    | cons point points ih =>
      obtain ⟨hpoint, hlt⟩ := List.forall_mem_cons.1 hlt
      simp only [List.mapM_cons, Option.bind_eq_bind, Option.bind_eq_some_iff] at h
      obtain ⟨c, hc, cs, hcs, heq⟩ := h
      cases heq
      rw [List.map_cons, toNat_of_char? hpoint hc, ← ih hlt hcs]
  · rintro rfl
    induction cs with
    | nil => rfl
    | cons c cs ih =>
      rw [List.map_cons, List.mapM_cons, char?_toNat, ih (List.forall_mem_cons.1 hlt).2]
      rfl

/-- The code points are those of the text, if they are of any. -/
theorem text?_eq_some_iff (hlt : ∀ point ∈ points, point < 0x110000) :
    text? points = some s ↔ points = Utf8.codes s := by
  rw [text?, Option.map_eq_some_iff, Utf8.codes]
  constructor
  · rintro ⟨cs, hcs, rfl⟩
    rw [String.toList_ofList]
    exact (mapM_char?_eq_some_iff hlt).1 hcs
  · intro h
    exact ⟨s.toList, (mapM_char?_eq_some_iff hlt).2 h, String.ofList_toList⟩

/-! ## Strings of texts -/

/-- Four digits are enough for the code of a control character. -/
theorem hexPadded_control : ∀ n < 0x20, ∃ a b c d, Text.hexPadded 4 n = [a, b, c, d] ∧
    hexCode? a b c d = some n := by
  have hdigits : ∀ n < 0x20, Text.hexPadded 4 n =
      ['0', '0', Nat.digitChar (n / 16), Nat.digitChar (n % 16)] ∧
        hexCode? '0' '0' (Nat.digitChar (n / 16)) (Nat.digitChar (n % 16)) = some n := by
    decide
  exact fun n hn => ⟨_, _, _, _, hdigits n hn⟩

theorem isBody_escaped_append (h : IsBody cs points) (c : Char) :
    IsBody (escaped c ++ cs) (c.toNat :: points) := by
  rw [escaped]
  split
  · next hc =>
    refine .letter ?_ h
    rcases hc with rfl | rfl <;> rfl
  · next hc =>
    obtain ⟨hquote, hbackslash⟩ := not_or.1 hc
    split_ifs with hb hf hn hr ht hcontrol
    · exact .letter (hb ▸ rfl) h
    · exact .letter (hf ▸ rfl) h
    · exact .letter (hn ▸ rfl) h
    · exact .letter (hr ▸ rfl) h
    · exact .letter (ht ▸ rfl) h
    · obtain ⟨d₁, d₂, d₃, d₄, hdigits, hcode⟩ := hexPadded_control c.toNat hcontrol
      rw [hdigits]
      refine .digits hcode (fun hpair => ?_) h
      exact absurd hpair.1 (Bool.eq_false_iff.1 (not_isSurrogate_toNat c).1)
    · exact .plain (Nat.not_lt.1 hcontrol) hquote hbackslash h

/-- What is written stands for the text. -/
theorem isBody_escaped (s : String) : IsBody (s.toList.flatMap escaped) (Utf8.codes s) := by
  rw [Utf8.codes]
  induction s.toList with
  | nil => exact .nil
  | cons c cs ih =>
    rw [List.flatMap_cons, List.map_cons]
    exact isBody_escaped_append ih c

end ValueBridge.Json
