import Mathlib.Data.List.Perm.Basic
import ValueBridge.Config
import ValueBridge.Proofs.Json.Reading
import ValueBridge.Proofs.Text.Index

/-!
# Which texts are configurations

A document describes a configuration (`Config.Describes`) as an object of its settings by name,
each at most once, or as an array of them in order; a setting that is left out has its default. The
reader accepts the texts of such documents and no others (`Config.read?_eq_some_iff`). As members
are told apart by their names alone, their order does not matter; and as a configuration is written,
so it is read (`Config.reading_laws`).

Members are read one after the other. What one member adds to the settings (`Config.Given.Takes`) is
all that a step of the reader does (`Config.ofMembers?_cons`), and by induction on the members, what
they say together is all that a run of it does (`Config.ofMembers?_eq_some_iff`).
-/

namespace ValueBridge.Config

open Json (Document)

variable {c : Config} {d : Document} {n : Nat} {s : String} {g given given' : Given}
  {e : List Nat × Document} {members members' : List (List Nat × Document)}

/-! ## What a document describes -/

/-- The document is the number of retries: plain digits, and a word. -/
def IsRetries (d : Document) (n : Nat) : Prop :=
  (∃ digits, d = .number ⟨false, digits, [], none⟩ ∧ Nat.ofDigitChars 10 digits 0 = n) ∧
    n < 2 ^ 32

/-- The member is the name of one of the settings with its value. -/
inductive IsSetting (c : Config) : List Nat × Document → Prop
  | importModule : IsSetting c (Utf8.codes "namespace", .string (Utf8.codes c.importModule))
  | decodeRetries {d : Document} (hd : IsRetries d c.decodeRetries) :
    IsSetting c (Utf8.codes "decode_retries", d)

/-- The document describes the configuration. -/
inductive Describes : Document → Config → Prop
  | object {members : List (List Nat × Document)} {c : Config}
      (hnames : (members.map Prod.fst).Nodup) (hmembers : ∀ e ∈ members, IsSetting c e)
      (hmodule : Utf8.codes "namespace" ∉ members.map Prod.fst → c.importModule = "zig-js")
      (hretries : Utf8.codes "decode_retries" ∉ members.map Prod.fst → c.decodeRetries = 3) :
    Describes (.object members) c
  | empty : Describes (.array []) ⟨"zig-js", 3⟩
  | module {s : String} : Describes (.array [.string (Utf8.codes s)]) ⟨s, 3⟩
  | both {s : String} {d : Document} {n : Nat} (hd : IsRetries d n) :
    Describes (.array [.string (Utf8.codes s), d]) ⟨s, n⟩

/-- In what order the members stand does not matter. -/
theorem Describes.perm (h : Describes (.object members) c) (hperm : members.Perm members') :
    Describes (.object members') c := by
  have hnames : (members.map Prod.fst).Perm (members'.map Prod.fst) := hperm.map Prod.fst
  cases h with
  | object hnodup hmembers hmodule hretries =>
    refine .object (hnames.nodup_iff.1 hnodup) (fun e he => hmembers e (hperm.mem_iff.2 he))
      (fun hnot => hmodule ?_) fun hnot => hretries ?_
    · rwa [hnames.mem_iff]
    · rwa [hnames.mem_iff]

/-! ## Members -/

theorem retries?_eq_some_iff : retries? d = some n ↔ IsRetries d n := by
  rw [retries?, Option.filter_eq_some_iff, Document.natural?_eq_some_iff, IsRetries,
    decide_eq_true_eq]
  rfl

namespace Given

/-- The settings with the one that the member gives, which was not given before. -/
inductive Takes : Given → List Nat × Document → Given → Prop
  | importModule {given : Given} {s : String} (hnone : given.importModule? = none) :
    Takes given (Utf8.codes "namespace", .string (Utf8.codes s))
      { given with importModule? := some s }
  | decodeRetries {given : Given} {d : Document} {n : Nat} (hnone : given.decodeRetries? = none)
      (hd : IsRetries d n) :
    Takes given (Utf8.codes "decode_retries", d) { given with decodeRetries? := some n }

/-- The member gives one of the settings. -/
inductive Gives (g : Given) : List Nat × Document → Prop
  | importModule {s : String} (hs : g.importModule? = some s) :
    Gives g (Utf8.codes "namespace", .string (Utf8.codes s))
  | decodeRetries {d : Document} {n : Nat} (hn : g.decodeRetries? = some n) (hd : IsRetries d n) :
    Gives g (Utf8.codes "decode_retries", d)

/-- The setting of the name is not given, if there is one. -/
def Lacks (given : Given) (name : List Nat) : Prop :=
  (name = Utf8.codes "namespace" → given.importModule? = none) ∧
    (name = Utf8.codes "decode_retries" → given.decodeRetries? = none)

/-- What members say together: none gives what another gives or what was given before, and what none
    gives stays as it was. -/
structure Reads (given : Given) (members : List (List Nat × Document)) (g : Given) : Prop where
  nodup : (members.map Prod.fst).Nodup
  gives : ∀ e ∈ members, g.Gives e
  lacks : ∀ e ∈ members, given.Lacks e.1
  importModule : Utf8.codes "namespace" ∉ members.map Prod.fst →
    g.importModule? = given.importModule?
  decodeRetries : Utf8.codes "decode_retries" ∉ members.map Prod.fst →
    g.decodeRetries? = given.decodeRetries?

theorem reads_nil : given.Reads [] g ↔ g = given := by
  constructor
  · intro h
    obtain ⟨importModule?, decodeRetries?⟩ := g
    rw [Given.mk.injEq]
    exact ⟨h.importModule List.not_mem_nil, h.decodeRetries List.not_mem_nil⟩
  · rintro rfl
    exact ⟨.nil, nofun, nofun, fun _ => rfl, fun _ => rfl⟩

/-- The two names are different. -/
theorem codes_namespace_ne : Utf8.codes "namespace" ≠ Utf8.codes "decode_retries" := by
  decide

/-- What was given before is named by no member. -/
theorem Reads.namespace_not_mem (h : given.Reads members g)
    (hgiven : given.importModule? = some s) : Utf8.codes "namespace" ∉ members.map Prod.fst := by
  intro hmem
  obtain ⟨e, he, hname⟩ := List.mem_map.1 hmem
  rw [(h.lacks e he).1 hname] at hgiven
  cases hgiven

theorem Reads.retries_not_mem (h : given.Reads members g)
    (hgiven : given.decodeRetries? = some n) :
    Utf8.codes "decode_retries" ∉ members.map Prod.fst := by
  intro hmem
  obtain ⟨e, he, hname⟩ := List.mem_map.1 hmem
  rw [(h.lacks e he).2 hname] at hgiven
  cases hgiven

theorem Takes.reads (hfirst : given.Takes e given') (h : given'.Reads members g) :
    given.Reads (e :: members) g := by
  cases hfirst with
  | @importModule s hnone =>
    have hnot : Utf8.codes "namespace" ∉ members.map Prod.fst := h.namespace_not_mem rfl
    exact {
      nodup := List.nodup_cons.2 ⟨hnot, h.nodup⟩
      gives := List.forall_mem_cons.2 ⟨.importModule (h.importModule hnot), h.gives⟩
      lacks := List.forall_mem_cons.2
        ⟨⟨fun _ => hnone, fun heq => absurd heq codes_namespace_ne⟩,
          fun e' he' => ⟨fun _ => hnone, (h.lacks e' he').2⟩⟩
      importModule := fun hnot' => absurd List.mem_cons_self hnot'
      decodeRetries := fun hnot' => h.decodeRetries (List.not_mem_of_not_mem_cons hnot') }
  | @decodeRetries d n hnone hd =>
    have hnot : Utf8.codes "decode_retries" ∉ members.map Prod.fst := h.retries_not_mem rfl
    exact {
      nodup := List.nodup_cons.2 ⟨hnot, h.nodup⟩
      gives := List.forall_mem_cons.2 ⟨.decodeRetries (h.decodeRetries hnot) hd, h.gives⟩
      lacks := List.forall_mem_cons.2
        ⟨⟨fun heq => absurd heq.symm codes_namespace_ne, fun _ => hnone⟩,
          fun e' he' => ⟨(h.lacks e' he').1, fun _ => hnone⟩⟩
      importModule := fun hnot' => h.importModule (List.not_mem_of_not_mem_cons hnot')
      decodeRetries := fun hnot' => absurd List.mem_cons_self hnot' }

theorem Reads.exists_takes (h : given.Reads (e :: members) g) :
    ∃ given', given.Takes e given' ∧ given'.Reads members g := by
  obtain ⟨hnot, hnodup⟩ := List.nodup_cons.1 h.nodup
  obtain ⟨hgives, hrest⟩ := List.forall_mem_cons.1 h.gives
  obtain ⟨hlacks, hlacks'⟩ := List.forall_mem_cons.1 h.lacks
  -- No later member has the name of the first, so that to take it withholds nothing from them.
  have hne (e') (he' : e' ∈ members) : e'.1 ≠ e.1 := fun heq =>
    hnot (List.mem_map.2 ⟨e', he', heq⟩)
  cases hgives with
  | @importModule s hs =>
    exact ⟨_, .importModule (hlacks.1 rfl), {
      nodup := hnodup
      gives := hrest
      lacks := fun e' he' => ⟨fun heq => absurd heq (hne e' he'), (hlacks' e' he').2⟩
      importModule := fun _ => hs
      decodeRetries := fun hnot' => h.decodeRetries
        (List.not_mem_cons_of_ne_of_not_mem codes_namespace_ne.symm hnot') }⟩
  | @decodeRetries d n hn hd =>
    exact ⟨_, .decodeRetries (hlacks.2 rfl) hd, {
      nodup := hnodup
      gives := hrest
      lacks := fun e' he' => ⟨(hlacks' e' he').1, fun heq => absurd heq (hne e' he')⟩
      importModule := fun hnot' => h.importModule
        (List.not_mem_cons_of_ne_of_not_mem codes_namespace_ne hnot')
      decodeRetries := fun _ => hn }⟩

/-- What members say together is what the first says and then the others. -/
theorem reads_cons : given.Reads (e :: members) g ↔
    ∃ given', given.Takes e given' ∧ given'.Reads members g :=
  ⟨Reads.exists_takes, fun ⟨_, hfirst, h⟩ => hfirst.reads h⟩

end Given

/-- A step of the reader takes what the first of the members gives. -/
theorem ofMembers?_cons (hname : ∀ point ∈ e.1, point < 0x110000) (hd : e.2.InRange) :
    ofMembers? given (e :: members) = some g ↔
      ∃ given', given.Takes e given' ∧ ofMembers? given' members = some g := by
  obtain ⟨name, d⟩ := e
  simp only [ofMembers?, Json.text?_eq_some_iff hname, moduleMember, retriesMember]
  -- The reader asks for the names in order, each only if its setting is not given.
  split_ifs with hmodule hretries
  · rw [Option.bind_eq_some_iff]
    simp only [Document.text?_eq_some_iff hd]
    constructor
    · rintro ⟨s, rfl, h⟩
      obtain ⟨rfl, hnone⟩ := hmodule
      exact ⟨_, .importModule hnone, h⟩
    · rintro ⟨given', htakes, h⟩
      cases htakes with
      | importModule => exact ⟨_, rfl, h⟩
      | decodeRetries => exact absurd hmodule.1.symm Given.codes_namespace_ne
  · rw [Option.bind_eq_some_iff]
    simp only [retries?_eq_some_iff]
    constructor
    · rintro ⟨n, hn, h⟩
      obtain ⟨rfl, hnone⟩ := hretries
      exact ⟨_, .decodeRetries hnone hn, h⟩
    · rintro ⟨given', htakes, h⟩
      cases htakes with
      | importModule => exact absurd hretries.1 Given.codes_namespace_ne
      | decodeRetries _ hn => exact ⟨_, hn, h⟩
  · refine iff_of_false nofun ?_
    rintro ⟨given', htakes, -⟩
    cases htakes with
    | importModule hnone => exact hmodule ⟨rfl, hnone⟩
    | decodeRetries hnone => exact hretries ⟨rfl, hnone⟩

/-- A run of the reader takes what the members say together. -/
theorem ofMembers?_eq_some_iff (hmembers : ∀ e ∈ members,
    (∀ point ∈ e.1, point < 0x110000) ∧ e.2.InRange) :
    ofMembers? given members = some g ↔ given.Reads members g := by
  induction members generalizing given with
  | nil => rw [ofMembers?, Option.some_inj, Given.reads_nil, eq_comm]
  | cons e members ih =>
    obtain ⟨⟨hname, hd⟩, hmembers⟩ := List.forall_mem_cons.1 hmembers
    rw [ofMembers?_cons hname hd, Given.reads_cons]
    simp only [ih hmembers]

/-! ## Documents -/

/-- The settings of the configuration that have these names. -/
def givenBy (c : Config) (names : List (List Nat)) : Given :=
  ⟨if Utf8.codes "namespace" ∈ names then some c.importModule else none,
    if Utf8.codes "decode_retries" ∈ names then some c.decodeRetries else none⟩

theorem config_givenBy {names : List (List Nat)}
    (hmodule : Utf8.codes "namespace" ∉ names → c.importModule = "zig-js")
    (hretries : Utf8.codes "decode_retries" ∉ names → c.decodeRetries = 3) :
    (c.givenBy names).config = c := by
  have hfirst : (c.givenBy names).importModule?.getD defaultModule = c.importModule := by
    rw [givenBy]
    split
    · rfl
    · next hnot => exact (hmodule hnot).symm
  have hsecond : (c.givenBy names).decodeRetries?.getD defaultRetries = c.decodeRetries := by
    rw [givenBy]
    dsimp only
    split
    · rfl
    · next hnot => exact (hretries hnot).symm
  rw [Given.config, hfirst, hsecond]

/-- An object describes a configuration if its members say so together. -/
theorem describes_object_iff : Describes (.object members) c ↔
    ∃ g : Given, Given.nothing.Reads members g ∧ g.config = c := by
  constructor
  · intro h
    cases h with
    | object hnodup hmembers hmodule hretries =>
      have hgives (e) (he : e ∈ members) : (c.givenBy (members.map Prod.fst)).Gives e := by
        have hname : e.1 ∈ members.map Prod.fst := List.mem_map_of_mem he
        cases hmembers e he with
        | importModule => exact .importModule (if_pos hname)
        | decodeRetries hd => exact .decodeRetries (if_pos hname) hd
      exact ⟨c.givenBy (members.map Prod.fst), {
        nodup := hnodup
        gives := hgives
        lacks := fun _ _ => ⟨fun _ => rfl, fun _ => rfl⟩
        importModule := fun hnot => if_neg hnot
        decodeRetries := fun hnot => if_neg hnot }, config_givenBy hmodule hretries⟩
  · rintro ⟨g, h, rfl⟩
    refine .object h.nodup (fun e he => ?_) (fun hnot => ?_) fun hnot => ?_
    · cases h.gives e he with
      | @importModule s hs =>
        obtain rfl : g.config.importModule = s := by rw [Given.config, hs, Option.getD_some]
        exact .importModule
      | @decodeRetries d n hn hd =>
        obtain rfl : g.config.decodeRetries = n := by rw [Given.config, hn, Option.getD_some]
        exact .decodeRetries hd
    · rw [Given.config, h.importModule hnot]
      rfl
    · rw [Given.config, h.decodeRetries hnot]
      rfl

theorem ofDocument?_eq_some_iff (hd : d.InRange) : ofDocument? d = some c ↔ Describes d c := by
  cases d with
  | object members =>
    have hmembers (e) (he : e ∈ members) : (∀ point ∈ e.1, point < 0x110000) ∧ e.2.InRange :=
      ⟨hd _ (List.mem_cons_of_mem _ (Document.mem_memberTokens he (.inl rfl))),
        fun points hpoints =>
          hd _ (List.mem_cons_of_mem _ (Document.mem_memberTokens he (.inr hpoints)))⟩
    rw [ofDocument?, Option.map_eq_some_iff, describes_object_iff]
    simp only [ofMembers?_eq_some_iff hmembers]
  | array items =>
    have hitems (d) (hmem : d ∈ items) : d.InRange := fun points hpoints =>
      hd _ (List.mem_cons_of_mem _ (Document.mem_itemTokens hmem hpoints))
    rcases items with _ | ⟨m, _ | ⟨n, _ | ⟨d, items⟩⟩⟩
    · rw [ofDocument?, Option.some_inj]
      constructor
      · rintro rfl
        exact .empty
      · rintro ⟨⟩
        rfl
    · simp only [ofDocument?, Option.map_eq_some_iff,
        Document.text?_eq_some_iff (hitems m (by simp))]
      constructor
      · rintro ⟨s, rfl, rfl⟩
        exact .module
      · rintro ⟨⟩
        exact ⟨_, rfl, rfl⟩
    · simp only [ofDocument?, Option.bind_eq_some_iff, Option.map_eq_some_iff,
        Document.text?_eq_some_iff (hitems m (by simp)), retries?_eq_some_iff]
      constructor
      · rintro ⟨s, rfl, n, hn, rfl⟩
        exact .both hn
      · rintro ⟨⟩
        exact ⟨_, rfl, _, ‹_›, rfl⟩
    · exact iff_of_false nofun nofun
  | _ => exact iff_of_false nofun nofun

/-- A text is a configuration if it consists of the tokens of a document that describes it. -/
theorem read?_eq_some_iff {text : String} : read? text = some c ↔
    ∃ d : Document, Json.Lexes d.tokens text.toList ∧ Describes d c := by
  rw [read?, Option.bind_eq_bind, Option.bind_eq_some_iff]
  refine exists_congr fun d => ?_
  rw [Document.read?_eq_some_iff]
  refine and_congr_right fun hlexes => ?_
  exact ofDocument?_eq_some_iff fun points hpoints => hlexes.lt hpoints

/-! ## Writing -/

/-- The object that is written for a configuration. -/
def document (c : Config) : Document :=
  .object [(Utf8.codes "namespace", .string (Utf8.codes c.importModule)),
    (Utf8.codes "decode_retries", .number ⟨false, Nat.toDigits 10 c.decodeRetries, [], none⟩)]

theorem describes_document (hc : c.decodeRetries < 2 ^ 32) : Describes c.document c := by
  have hretries : IsRetries (.number ⟨false, Nat.toDigits 10 c.decodeRetries, [], none⟩)
      c.decodeRetries :=
    ⟨⟨_, rfl, Nat.ofDigitChars_ten_toDigits⟩, hc⟩
  refine .object ?_ ?_ (fun hnot => ?_) fun hnot => ?_
  · exact List.nodup_cons.2 ⟨fun hmem => Given.codes_namespace_ne (List.mem_singleton.1 hmem),
      List.nodup_singleton _⟩
  · exact List.forall_mem_cons.2
      ⟨.importModule, List.forall_mem_singleton.2 (.decodeRetries hretries)⟩
  · exact absurd List.mem_cons_self hnot
  · exact absurd (List.mem_cons_of_mem _ List.mem_cons_self) hnot

theorem lexes_write (c : Config) : Json.Lexes c.document.tokens c.write.toList := by
  have hquoted (s : String) : Json.Spells (.string (Utf8.codes s)) (Json.quoted s) :=
    .string (Json.isBody_escaped s)
  have hretries : Json.Lexes
      [.number ⟨false, Nat.toDigits 10 c.decodeRetries, [], none⟩, .closeObject]
      (Nat.toDigits 10 c.decodeRetries ++ ['\x7d']) :=
    .token (.number (Json.isNumber_toDigits _)) (.token .closeObject .nil)
  have hlexes := Json.Lexes.token .openObject (.token (hquoted "namespace") (.token .colon
    (.token (hquoted c.importModule) (.token .comma (.token (hquoted "decode_retries")
      (.token .colon hretries))))))
  simp only [write, String.toList_ofList, List.append_assoc, List.cons_append]
  exact hlexes

/-! ## Texts -/

theorem read?_of_lexes {text : String} (h : Json.Lexes d.tokens text.toList) :
    read? text = ofDocument? d := by
  rw [read?, Document.read?_eq_some_iff.2 h]
  rfl

/-- A text is a configuration if it consists of the tokens of a document that describes it, and it
    is no other. The order of members does not matter, and whatever configuration is written is
    read. -/
theorem reading_laws :
    (∀ (text : String) (c : Config), read? text = some c ↔
      ∃ d : Document, Json.Lexes d.tokens text.toList ∧ Describes d c) ∧
    (∀ (members members' : List (List Nat × Document)) (text text' : String),
      members.Perm members' → Json.Lexes (Document.object members).tokens text.toList →
        Json.Lexes (Document.object members').tokens text'.toList → read? text = read? text') ∧
    ∀ c : Config, c.decodeRetries < 2 ^ 32 → read? c.write = some c := by
  refine ⟨fun _ _ => read?_eq_some_iff, fun members members' text text' hperm htext htext' => ?_,
    fun c hc => read?_eq_some_iff.2 ⟨c.document, lexes_write c, describes_document hc⟩⟩
  refine Option.ext fun c => ?_
  rw [read?_of_lexes htext, read?_of_lexes htext',
    ofDocument?_eq_some_iff fun points hpoints => htext.lt hpoints,
    ofDocument?_eq_some_iff fun points hpoints => htext'.lt hpoints]
  exact ⟨fun h => h.perm hperm, fun h => h.perm hperm.symm⟩

end ValueBridge.Config
