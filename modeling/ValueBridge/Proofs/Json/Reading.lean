import ValueBridge.Json.Document
import ValueBridge.Proofs.Json.Spelling

/-!
# Which texts are JSON documents

A text consists of tokens if they stand in it one after the other, with nothing but blanks before,
between and after them (`Json.Lexes`), and it is a document if these are the tokens of the document
(`Json.Document.read?_eq_some_iff`). In the tokens of a document no number stands next to another
(`Json.Document.separated_tokens`), so that every number ends where the scanner takes it to end.
-/

namespace ValueBridge.Json

variable {cs : List Char} {bound : Nat} {t : Token} {ts rest : List Token}

/-! ## Tokens of a text -/

/-- The text consists of the tokens, with blanks before, between and after them. -/
inductive Lexes : List Token → List Char → Prop
  | nil : Lexes [] []
  | blank {c : Char} {ts : List Token} {cs : List Char} (hc : isBlank c = true)
      (hcs : Lexes ts cs) : Lexes ts (c :: cs)
  | token {t : Token} {text : List Char} {ts : List Token} {cs : List Char} (ht : Spells t text)
      (hcs : Lexes ts cs) : Lexes (t :: ts) (text ++ cs)

/-- The first of the tokens is no number. -/
def StartsNoNumber (ts : List Token) : Prop :=
  ∀ t ∈ ts.head?, ¬t.IsNumber

/-- No number stands next to another. -/
def Separated (ts : List Token) : Prop :=
  ts.IsChain fun t t' => t.IsNumber → ¬t'.IsNumber

theorem separated_cons : Separated (t :: ts) ↔ (t.IsNumber → StartsNoNumber ts) ∧ Separated ts := by
  rw [Separated, List.isChain_cons, StartsNoNumber, Separated]
  grind

theorem Separated.cons (hts : Separated ts) (ht : ¬t.IsNumber) : Separated (t :: ts) :=
  separated_cons.2 ⟨fun h => absurd h ht, hts⟩

theorem Separated.named (hts : Separated ts) (name : List Nat) :
    Separated (.string name :: .colon :: ts) :=
  .cons (.cons hts nofun) nofun

theorem startsNoNumber_cons (ht : ¬t.IsNumber) : StartsNoNumber (t :: ts) := by
  rintro _ ⟨⟩
  exact ht

/-- After a number nothing but a number can go on with it. -/
theorem Lexes.endsNumber (h : Lexes ts cs) (hts : StartsNoNumber ts) : EndsNumber cs := by
  cases h with
  | nil => rintro c ⟨⟩
  | blank hc =>
    rintro c ⟨⟩
    simp only [isBlank, Bool.or_eq_true, decide_eq_true_eq] at hc
    rcases hc with ((rfl | rfl) | rfl) | rfl <;> decide
  | token ht =>
    obtain ⟨c, cs', rfl, -, hends⟩ := ht.exists_cons
    rintro c' ⟨⟩
    exact hends (hts _ rfl)

/-- The scanner takes the tokens of a text where no number stands next to another. -/
theorem tokensWithin_of_lexes (h : Lexes ts cs) (hts : Separated ts) (hbound : cs.length ≤ bound) :
    tokensWithin bound cs = some ts := by
  induction h generalizing bound with
  | nil => rw [tokensWithin]
  | @blank c ts cs hc _ ih =>
    obtain ⟨bound, rfl⟩ := Nat.exists_eq_add_of_lt hbound
    rw [tokensWithin, if_pos hc]
    exact ih hts (by omega)
  | @token t text ts cs ht hcs ih =>
    obtain ⟨hnext, hts⟩ := separated_cons.1 hts
    have hscan := scanToken_append ht fun hnumber => hcs.endsNumber (hnext hnumber)
    -- A token has a first character, which is no blank: the bound is enough for what follows it.
    obtain ⟨c, text, rfl, hc, -⟩ := ht.exists_cons
    rw [List.cons_append] at hbound hscan ⊢
    rw [List.length_cons, List.length_append] at hbound
    obtain ⟨bound, rfl⟩ := Nat.exists_eq_add_of_lt hbound
    rw [tokensWithin, hc, if_neg Bool.false_ne_true, hscan]
    simp only [Option.bind_eq_bind, Option.bind_some]
    rw [ih hts (by omega)]
    rfl

/-- The scanner takes nothing but tokens and blanks. -/
theorem lexes_of_tokensWithin (h : tokensWithin bound cs = some ts) : Lexes ts cs := by
  induction bound generalizing cs ts with
  | zero =>
    cases cs with
    | nil =>
      cases h
      exact .nil
    | cons => cases h
  | succ bound ih =>
    cases cs with
    | nil =>
      cases h
      exact .nil
    | cons c cs =>
      rw [tokensWithin] at h
      split at h
      · next hc => exact .blank hc (ih h)
      · simp only [Option.bind_eq_bind, Option.bind_eq_some_iff] at h
        obtain ⟨⟨t, rest⟩, hscan, ts, hrest, heq⟩ := h
        cases heq
        obtain ⟨text, ht, htext⟩ := spells_of_scanToken hscan
        rw [htext]
        exact .token ht (ih hrest)

/-- A text where no number stands next to another consists of the tokens that the scanner takes. -/
theorem tokens?_eq_some_iff (hts : Separated ts) : tokens? cs = some ts ↔ Lexes ts cs :=
  ⟨lexes_of_tokensWithin, fun h => tokensWithin_of_lexes h hts (Nat.le_refl _)⟩

/-- There are no code points beyond those of Unicode in a string of a text. -/
theorem Lexes.lt {points : List Nat} (h : Lexes ts cs) (hpoints : .string points ∈ ts) :
    ∀ point ∈ points, point < 0x110000 := by
  induction h with
  | nil => cases hpoints
  | blank _ _ ih => exact ih hpoints
  | token ht _ ih =>
    rcases List.mem_cons.1 hpoints with rfl | hpoints
    · cases ht with | string hbody => exact hbody.lt
    · exact ih hpoints

namespace Document

variable {d : Document} {ds : List Document} {name : List Nat}
  {members : List (List Nat × Document)}

/-- A property holds of every document if it passes from items and members to what has them. -/
@[elab_as_elim]
theorem induct {P : Document → Prop} (null : P .null) (bool : ∀ b, P (.bool b))
    (number : ∀ n, P (.number n)) (string : ∀ codes, P (.string codes))
    (array : ∀ items, (∀ d ∈ items, P d) → P (.array items))
    (object : ∀ members, (∀ e ∈ members, P e.2) → P (.object members)) (d : Document) : P d :=
  match d with
  | .null => null
  | .bool b => bool b
  | .number n => number n
  | .string codes => string codes
  | .array items => array items fun d _ => induct null bool number string array object d
  | .object members => object members fun e _ => induct null bool number string array object e.2
termination_by sizeOf d
decreasing_by
  · have hitem := List.sizeOf_lt_of_mem ‹d ∈ items›
    rw [Document.array.sizeOf_spec]
    omega
  · have hmember := List.sizeOf_lt_of_mem ‹e ∈ members›
    have hvalue : sizeOf e.2 < sizeOf e := by
      rw [Prod.mk.sizeOf_spec e.1 e.2]
      omega
    rw [Document.object.sizeOf_spec]
    omega

/-! ## Tokens of a document -/

theorem itemTokens_cons (hne : ds ≠ []) :
    itemTokens (d :: ds) = d.tokens ++ .comma :: itemTokens ds :=
  itemTokens.eq_3 d ds hne

theorem memberTokens_cons (hne : members ≠ []) : memberTokens ((name, d) :: members) =
    .string name :: .colon :: d.tokens ++ .comma :: memberTokens members :=
  memberTokens.eq_3 name d members hne

/-- A document does not begin with the end of another. -/
theorem exists_tokens_eq_cons (d : Document) : ∃ t ts, d.tokens = t :: ts ∧ t ≠ .closeArray := by
  cases d <;> exact ⟨_, _, by rw [tokens], Token.noConfusion⟩

theorem exists_itemTokens_eq_cons (d : Document) (ds : List Document) :
    ∃ t ts, itemTokens (d :: ds) = t :: ts ∧ t ≠ .closeArray := by
  obtain ⟨t, ts, htokens, hne⟩ := d.exists_tokens_eq_cons
  cases ds with
  | nil => exact ⟨t, _, by rw [itemTokens, htokens, List.cons_append], hne⟩
  | cons d' ds =>
    exact ⟨t, _, by rw [itemTokens_cons (List.cons_ne_nil d' ds), htokens, List.cons_append], hne⟩

theorem exists_memberTokens_eq_cons (e : List Nat × Document)
    (members : List (List Nat × Document)) :
    ∃ ts, memberTokens (e :: members) = .string e.1 :: ts := by
  cases members with
  | nil => exact ⟨_, by rw [memberTokens, List.cons_append]⟩
  | cons e' members =>
    exact ⟨_, by rw [memberTokens_cons (List.cons_ne_nil e' members), List.cons_append]⟩

theorem mem_itemTokens (hd : d ∈ ds) (ht : t ∈ d.tokens) : t ∈ itemTokens ds := by
  induction ds with
  | nil => cases hd
  | cons d' ds ih =>
    by_cases hne : ds = []
    · subst hne
      rw [itemTokens, List.mem_append]
      exact .inl (List.mem_singleton.1 hd ▸ ht)
    · rw [itemTokens_cons hne, List.mem_append, List.mem_cons]
      rcases List.mem_cons.1 hd with rfl | hd
      · exact .inl ht
      · exact .inr (.inr (ih hd))

theorem mem_memberTokens {e : List Nat × Document} (he : e ∈ members)
    (ht : t = .string e.1 ∨ t ∈ e.2.tokens) : t ∈ memberTokens members := by
  induction members with
  | nil => cases he
  | cons e' members ih =>
    obtain ⟨name, d⟩ := e'
    by_cases hne : members = []
    · subst hne
      rw [List.mem_singleton] at he
      subst he
      simp only [memberTokens, List.mem_append, List.mem_cons]
      grind
    · simp only [memberTokens_cons hne, List.mem_append, List.mem_cons]
      rcases List.mem_cons.1 he with rfl | he
      · grind
      · exact .inr (.inr (ih he))

/-! ## Strings and numbers of documents -/

/-- The strings of the document have no code points but those of Unicode. -/
def InRange (d : Document) : Prop :=
  ∀ points, .string points ∈ d.tokens → ∀ point ∈ points, point < 0x110000

theorem text?_eq_some_iff {s : String} (hd : d.InRange) :
    d.text? = some s ↔ d = .string (Utf8.codes s) := by
  cases d with
  | string points =>
    have hlt := hd points List.mem_cons_self
    rw [Document.text?, Json.text?_eq_some_iff hlt, Document.string.injEq]
  | _ => exact ⟨nofun, nofun⟩

/-- The documents of naturals are numbers of plain digits. -/
theorem natural?_eq_some_iff {n : Nat} : d.natural? = some n ↔
    ∃ digits, d = .number ⟨false, digits, [], none⟩ ∧ Nat.ofDigitChars 10 digits 0 = n := by
  constructor
  · intro h
    cases d with
    | number form =>
      obtain ⟨negative, whole, fraction, exponent?⟩ := form
      rw [Document.natural?, Json.NumberForm.natural?, Option.ite_none_right_eq_some] at h
      obtain ⟨⟨hnegative, hfraction, hexponent⟩, hvalue⟩ := h
      rw [Bool.not_eq_true'] at hnegative
      dsimp only at hnegative hfraction hexponent
      subst hnegative hfraction hexponent
      exact ⟨whole, rfl, Option.some_inj.1 hvalue⟩
    | _ => cases h
  · rintro ⟨digits, rfl, rfl⟩
    rfl

/-! ## Numbers apart -/

/-- No number stands next to another in the tokens of the document, nor where they end, if what
    follows them does not start with a number. -/
def KeepsApart (d : Document) : Prop :=
  ∀ ⦃ts : List Token⦄, Separated ts → StartsNoNumber ts → Separated (d.tokens ++ ts)

theorem separated_itemTokens (hds : ∀ d ∈ ds, d.KeepsApart) (hts : Separated ts) :
    Separated (itemTokens ds ++ ts) := by
  induction ds with
  | nil =>
    rw [itemTokens, List.singleton_append]
    exact hts.cons nofun
  | cons d ds ih =>
    have hd : d.KeepsApart := hds d List.mem_cons_self
    by_cases hne : ds = []
    · subst hne
      rw [itemTokens, List.append_assoc, List.singleton_append]
      exact hd (hts.cons nofun) (startsNoNumber_cons nofun)
    · rw [itemTokens_cons hne, List.append_assoc, List.cons_append]
      have hrest := ih fun d hd => hds d (List.mem_cons_of_mem _ hd)
      exact hd (hrest.cons nofun) (startsNoNumber_cons nofun)

theorem separated_memberTokens (hmembers : ∀ e ∈ members, e.2.KeepsApart) (hts : Separated ts) :
    Separated (memberTokens members ++ ts) := by
  induction members with
  | nil =>
    rw [memberTokens, List.singleton_append]
    exact hts.cons nofun
  | cons e members ih =>
    obtain ⟨name, d⟩ := e
    have hd : d.KeepsApart := hmembers (name, d) List.mem_cons_self
    by_cases hne : members = []
    · subst hne
      simp only [memberTokens, List.cons_append, List.append_assoc, List.nil_append]
      refine (hd (.cons hts ?_) (startsNoNumber_cons ?_)).named name <;> exact nofun
    · simp only [memberTokens_cons hne, List.cons_append, List.append_assoc]
      have hrest := ih fun e he => hmembers e (List.mem_cons_of_mem _ he)
      refine (hd (.cons hrest ?_) (startsNoNumber_cons ?_)).named name <;> exact nofun

theorem keepsApart (d : Document) : d.KeepsApart := by
  induction d using Document.induct with
  | array items ih =>
    intro ts hts _
    rw [tokens, List.cons_append]
    exact (separated_itemTokens ih hts).cons nofun
  | object members ih =>
    intro ts hts _
    rw [tokens, List.cons_append]
    exact (separated_memberTokens ih hts).cons nofun
  | _ =>
    intro ts hts hstart
    rw [tokens, List.singleton_append]
    exact separated_cons.2 ⟨fun _ => hstart, hts⟩

/-- No number stands next to another in a document. -/
theorem separated_tokens (d : Document) : Separated d.tokens := by
  rw [← List.append_nil d.tokens]
  exact d.keepsApart .nil nofun

/-! ## The document of tokens -/

/-- What is read under the bound has the tokens that were taken. -/
structure Sound (bound : Nat) : Prop where
  document : ∀ {ts rest d}, parse bound ts = some (d, rest) → ts = d.tokens ++ rest
  items : ∀ {ts rest ds}, parseItems bound ts = some (ds, rest) →
    ds ≠ [] ∧ ts = itemTokens ds ++ rest
  members : ∀ {ts rest members}, parseMembers bound ts = some (members, rest) →
    members ≠ [] ∧ ts = memberTokens members ++ rest

theorem Sound.document_succ (h : Sound bound) {ts : List Token}
    (hparse : parse (bound + 1) ts = some (d, rest)) : ts = d.tokens ++ rest := by
  rw [parse.eq_def] at hparse
  split at hparse
  · next bound' t ts' heq =>
    cases heq
    split at hparse
    case h_6 =>
      simp only [Option.map_eq_some_iff] at hparse
      obtain ⟨⟨items, rest⟩, hitems, heq⟩ := hparse
      cases heq
      rw [tokens, (h.items hitems).2, List.cons_append]
    case h_8 =>
      simp only [Option.map_eq_some_iff] at hparse
      obtain ⟨⟨members, rest⟩, hmembers, heq⟩ := hparse
      cases heq
      rw [tokens, (h.members hmembers).2, List.cons_append]
    all_goals cases hparse <;> rfl
  · cases hparse

theorem Sound.items_succ (h : Sound bound) {ts : List Token}
    (hparse : parseItems (bound + 1) ts = some (ds, rest)) :
    ds ≠ [] ∧ ts = itemTokens ds ++ rest := by
  rw [parseItems] at hparse
  split at hparse
  · next d rest' hd =>
    simp only [Option.map_eq_some_iff] at hparse
    obtain ⟨⟨ds, rest⟩, hds, heq⟩ := hparse
    cases heq
    obtain ⟨hne, rfl⟩ := h.items hds
    rw [itemTokens_cons hne, h.document hd, List.append_assoc, List.cons_append]
    exact ⟨List.cons_ne_nil _ _, rfl⟩
  · next d rest' hd =>
    cases hparse
    rw [itemTokens, h.document hd, List.append_assoc, List.singleton_append]
    exact ⟨List.cons_ne_nil _ _, rfl⟩
  · cases hparse

theorem Sound.members_succ (h : Sound bound) {ts : List Token}
    (hparse : parseMembers (bound + 1) ts = some (members, rest)) :
    members ≠ [] ∧ ts = memberTokens members ++ rest := by
  rw [parseMembers.eq_def] at hparse
  split at hparse
  · next bound' name ts' heq =>
    cases heq
    split at hparse
    · next d rest' hd =>
      simp only [Option.map_eq_some_iff] at hparse
      obtain ⟨⟨members, rest⟩, hmembers, heq⟩ := hparse
      cases heq
      obtain ⟨hne, rfl⟩ := h.members hmembers
      refine ⟨List.cons_ne_nil _ _, ?_⟩
      simp only [memberTokens_cons hne, h.document hd, List.append_assoc, List.cons_append]
    · next d rest' hd =>
      cases hparse
      refine ⟨List.cons_ne_nil _ _, ?_⟩
      simp only [memberTokens, h.document hd, List.append_assoc, List.cons_append, List.nil_append]
    · cases hparse
  · cases hparse

theorem sound (bound : Nat) : Sound bound := by
  induction bound with
  | zero => exact ⟨nofun, nofun, nofun⟩
  | succ bound ih => exact ⟨ih.document_succ, ih.items_succ, ih.members_succ⟩

/-- What is not longer than the bound admits is read. -/
structure Complete (bound : Nat) : Prop where
  document : ∀ {d : Document}, 2 * d.tokens.length ≤ bound → ∀ rest,
    parse bound (d.tokens ++ rest) = some (d, rest)
  items : ∀ {ds : List Document}, ds ≠ [] → 2 * (itemTokens ds).length ≤ bound + 1 → ∀ rest,
    parseItems bound (itemTokens ds ++ rest) = some (ds, rest)
  members : ∀ {members : List (List Nat × Document)}, members ≠ [] →
    2 * (memberTokens members).length ≤ bound + 1 → ∀ rest,
      parseMembers bound (memberTokens members ++ rest) = some (members, rest)

theorem Complete.document_succ (h : Complete bound) (hlength : 2 * d.tokens.length ≤ bound + 1)
    (rest : List Token) : parse (bound + 1) (d.tokens ++ rest) = some (d, rest) := by
  cases d with
  | array items =>
    rw [tokens, List.length_cons] at hlength
    rw [tokens, List.cons_append]
    cases items with
    | nil => rfl
    | cons d ds =>
      have hitems := h.items (List.cons_ne_nil d ds) (by omega) rest
      -- The first item does not begin with the end of the array, which would then be empty.
      obtain ⟨t, ts, hstart, hne⟩ := exists_itemTokens_eq_cons d ds
      rw [hstart, List.cons_append] at hitems ⊢
      rw [parse, hitems]
      · rfl
      · exact fun _ heq => hne (List.cons.inj heq).1
  | object members =>
    rw [tokens, List.length_cons] at hlength
    rw [tokens, List.cons_append]
    cases members with
    | nil => rfl
    | cons e members =>
      have hmembers := h.members (List.cons_ne_nil e members) (by omega) rest
      obtain ⟨ts, hstart⟩ := exists_memberTokens_eq_cons e members
      rw [hstart, List.cons_append] at hmembers ⊢
      rw [parse, hmembers]
      · rfl
      · exact fun _ heq => Token.noConfusion (List.cons.inj heq).1
  | _ => rfl

theorem Complete.items_succ (h : Complete bound) (hne : ds ≠ [])
    (hlength : 2 * (itemTokens ds).length ≤ bound + 2) (rest : List Token) :
    parseItems (bound + 1) (itemTokens ds ++ rest) = some (ds, rest) := by
  obtain ⟨d, ds, rfl⟩ := List.exists_cons_of_ne_nil hne
  by_cases hlast : ds = []
  · subst hlast
    rw [itemTokens, List.length_append, List.length_singleton] at hlength
    rw [itemTokens, List.append_assoc, List.singleton_append, parseItems,
      h.document (by omega)]
  · rw [itemTokens_cons hlast, List.length_append, List.length_cons] at hlength
    rw [itemTokens_cons hlast, List.append_assoc, List.cons_append, parseItems,
      h.document (by omega)]
    dsimp only
    rw [h.items hlast (by omega)]
    rfl

theorem Complete.members_succ (h : Complete bound) (hne : members ≠ [])
    (hlength : 2 * (memberTokens members).length ≤ bound + 2) (rest : List Token) :
    parseMembers (bound + 1) (memberTokens members ++ rest) = some (members, rest) := by
  obtain ⟨⟨name, d⟩, members, rfl⟩ := List.exists_cons_of_ne_nil hne
  by_cases hlast : members = []
  · subst hlast
    simp only [memberTokens, List.cons_append, List.length_cons, List.length_append,
      List.length_nil] at hlength
    simp only [memberTokens, List.cons_append, List.append_assoc, List.nil_append]
    rw [parseMembers, h.document (by omega)]
  · simp only [memberTokens_cons hlast, List.cons_append, List.length_cons,
      List.length_append] at hlength
    simp only [memberTokens_cons hlast, List.cons_append, List.append_assoc]
    rw [parseMembers, h.document (by omega)]
    dsimp only
    rw [h.members hlast (by omega)]
    rfl

theorem complete (bound : Nat) : Complete bound := by
  induction bound with
  | zero =>
    -- There is no document without a token.
    refine ⟨fun {d} hlength => ?_, fun {ds} hne hlength => ?_, fun {members} hne hlength => ?_⟩
    · obtain ⟨t, ts, htokens, -⟩ := d.exists_tokens_eq_cons
      rw [htokens, List.length_cons] at hlength
      omega
    · obtain ⟨d, ds, rfl⟩ := List.exists_cons_of_ne_nil hne
      obtain ⟨t, ts, htokens, -⟩ := exists_itemTokens_eq_cons d ds
      rw [htokens, List.length_cons] at hlength
      omega
    · obtain ⟨e, members, rfl⟩ := List.exists_cons_of_ne_nil hne
      obtain ⟨ts, htokens⟩ := exists_memberTokens_eq_cons e members
      rw [htokens, List.length_cons] at hlength
      omega
  | succ bound ih => exact ⟨ih.document_succ, ih.items_succ, ih.members_succ⟩

/-- The tokens of a document are that document's alone. -/
theorem ofTokens?_eq_some_iff : ofTokens? ts = some d ↔ ts = d.tokens := by
  constructor
  · intro h
    rw [ofTokens?] at h
    split at h
    · next d' hparse =>
      cases h
      rw [(sound _).document hparse, List.append_nil]
    · cases h
  · rintro rfl
    have hparse := (complete _).document (Nat.le_refl (2 * d.tokens.length)) []
    rw [List.append_nil] at hparse
    rw [ofTokens?, hparse]

/-! ## The document of a text -/

/-- The reader accepts a text as a document if and only if it consists of the document's tokens,
    with blanks before, between and after them. -/
theorem read?_eq_some_iff {text : String} : read? text = some d ↔ Lexes d.tokens text.toList := by
  rw [read?, Option.bind_eq_bind, Option.bind_eq_some_iff]
  constructor
  · rintro ⟨ts, hts, hd⟩
    rw [ofTokens?_eq_some_iff] at hd
    subst hd
    exact (tokens?_eq_some_iff d.separated_tokens).1 hts
  · intro h
    exact ⟨d.tokens, (tokens?_eq_some_iff d.separated_tokens).2 h, ofTokens?_eq_some_iff.2 rfl⟩

end Document

end ValueBridge.Json
