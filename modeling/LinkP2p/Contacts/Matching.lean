import LinkP2p.Contacts.Book

/-!
# Matching a token against resolving it

`resolve` looks a token up and yields an id. `match_peer_token` starts from the id
and compares the token with what is printed and stored of it. They part where the token
or a stored text is not as it is printed: a capital letter, white space around it, another
spelling of the id, a second nickname.
-/

namespace LinkP2p.Contacts

open LinkP2p.Identity (Text SecretKey isWhitespace trim trim_of_solid trim_trim hexByte hexChar
  hexOfKey keyOfHex keyOfHex_hexOfKey)
open LinkP2p.Tun (EndpointId)

variable {iroh : Iroh} {book : ContactBook} {token : Text} {peer : EndpointId}

/-- What is known of the texts of ids: hex digits in lower case, which read back. -/
structure IdTexts (iroh : Iroh) : Prop where
  shown : ∀ id, iroh.parse (iroh.display id) = some id
  length : ∀ id, (iroh.display id).length = 64
  digits : ∀ id, ∀ c ∈ iroh.display id, c ∈ "0123456789abcdef".toList

/-- The token is the printed id of the peer in some case, or a code of it. -/
def Spells (iroh : Iroh) (token : Text) (peer : EndpointId) : Prop :=
  eqIgnoreAsciiCase token (iroh.display peer) = true ∨ parseEndpointToken iroh token = .ok peer

/-- The token is neither an id nor a code. -/
def Plain (iroh : Iroh) (token : Text) : Prop :=
  ∃ e, parseEndpointToken iroh token = .error e ∧ e ≠ .splitInsideChar

/-- The text has a capital letter. -/
def Capital (text : Text) : Prop := text.map Char.toLower ≠ text

/-- The contact has the printed id of the peer, in some case. -/
def Stores (iroh : Iroh) (c : Contact) (peer : EndpointId) : Prop :=
  eqIgnoreAsciiCase c.id (iroh.display peer) = true

/-- The stored id has a capital letter, or some stored address is none. -/
def Damaged (c : Contact) : Prop := Capital c.id ∨ ∃ a ∈ c.addrs, parseSocketAddr a = none

/-- The id of the contact parses to the peer, and all its addresses parse. -/
def Resolves (iroh : Iroh) (c : Contact) (peer : EndpointId) : Prop :=
  iroh.parse c.id = some peer ∧ ∀ a ∈ c.addrs, (parseSocketAddr a).isSome = true

/-- The entry is the first that stores the peer. -/
def First (iroh : Iroh) (book : ContactBook) (peer : EndpointId) (entry : Text × Contact) : Prop :=
  ∃ before after, book.contacts = before ++ entry :: after ∧
    (∀ other ∈ before, ¬ Stores iroh other.2 peer) ∧ Stores iroh entry.2 peer

/-- The first contact that stores the peer has the token as its nickname, in some case. -/
def FirstNamed (iroh : Iroh) (book : ContactBook) (token : Text) (peer : EndpointId) : Prop :=
  ∃ entry, First iroh book peer entry ∧ eqIgnoreAsciiCase entry.1 token = true

/-! ## What is to hold and what it takes -/

/-- The token matches exactly the peer that it resolves to. -/
def TokenAgrees (iroh : Iroh) (book : ContactBook) (token : Text) (peer : EndpointId) : Prop :=
  matchPeerToken iroh book token peer = .ok true ↔ resolvePeerToken iroh book token = .ok peer

/-- The peer is known exactly when some contact resolves to it. -/
def KnownAgrees (iroh : Iroh) (book : ContactBook) (peer : EndpointId) : Prop :=
  isKnownContact iroh book peer = true ↔ ∃ entry ∈ book.contacts,
    (contactToResolved iroh (some entry.1) entry.2).map ResolvedPeer.id = .ok peer

/-- A token that no contact has as its nickname once it is trimmed. -/
structure Unnamed (iroh : Iroh) (book : ContactBook) (token : Text) (peer : EndpointId) :
    Prop where
  /-- The id of the peer in capitals is read as the peer. -/
  capital : Capital token → eqIgnoreAsciiCase token (iroh.display peer) = true →
    parseEndpointToken iroh token = .ok peer
  /-- White space around the token is not that of the nickname of the peer. -/
  spaced : trim token ≠ token → Plain iroh token → ¬ FirstNamed iroh book token peer

/-- A token that, trimmed, is the nickname of the entry. -/
structure Named (iroh : Iroh) (book : ContactBook) (token : Text) (peer : EndpointId)
    (entry : Text × Contact) : Prop where
  /-- As an id or code of the peer it is a nickname of the peer. -/
  own : Spells iroh token peer → Stores iroh entry.2 peer → Damaged entry.2 →
    Resolves iroh entry.2 peer
  stranger : Spells iroh token peer → ¬ Stores iroh entry.2 peer → Resolves iroh entry.2 peer
  /-- As an id or code of another one, or one that is cut in half, it is not. -/
  other : ¬ Spells iroh token peer → ¬ Plain iroh token → ¬ Resolves iroh entry.2 peer
  /-- Where it does not stand first or is not trimmed, the first is named alike. -/
  later : ¬ Spells iroh token peer → Plain iroh token → Resolves iroh entry.2 peer →
    ¬ First iroh book peer entry ∨ trim token ≠ token → FirstNamed iroh book token peer
  /-- Where the first is another one or damaged, this one resolves all the same. -/
  first : ¬ Spells iroh token peer → Plain iroh token → FirstNamed iroh book token peer →
    ¬ First iroh book peer entry ∨ Damaged entry.2 → Resolves iroh entry.2 peer

/-- Whichever contact the trimmed token names. -/
structure Unambiguous (iroh : Iroh) (book : ContactBook) (token : Text) (peer : EndpointId) :
    Prop where
  unnamed : book.find (trim token) = none → Unnamed iroh book token peer
  named : ∀ entry, book.find (trim token) = some entry → Named iroh book token peer entry

/-- The contacts that do not have the id of the peer as it is printed. -/
structure Printed (iroh : Iroh) (book : ContactBook) (peer : EndpointId) : Prop where
  /-- One with a capital letter or a bad address is not alone. -/
  damaged : ∀ entry ∈ book.contacts, Stores iroh entry.2 peer → Damaged entry.2 →
    ∃ other ∈ book.contacts, Resolves iroh other.2 peer
  /-- Neither is one that spells the id in another way. -/
  respelled : ∀ entry ∈ book.contacts, Resolves iroh entry.2 peer → ¬ Stores iroh entry.2 peer →
    ∃ other ∈ book.contacts, Stores iroh other.2 peer

/-! ## What is as it is printed -/

theorem digit_plain : ∀ c ∈ "0123456789abcdef".toList, c.toLower = c ∧ isWhitespace c = false := by
  have plain : "0123456789abcdef".toList.all (fun c => c.toLower == c && !isWhitespace c) = true :=
    rfl
  intro c member
  simpa using List.all_eq_true.mp plain c member

namespace IdTexts

variable {c : Contact}

theorem lower (texts : IdTexts iroh) (id : EndpointId) :
    (iroh.display id).map Char.toLower = iroh.display id := by
  have same : ∀ c ∈ iroh.display id, c.toLower = c :=
    fun c member => (digit_plain c (texts.digits id c member)).1
  exact (List.map_congr_left same).trans (List.map_id _)

theorem solid (texts : IdTexts iroh) (id : EndpointId) :
    ∀ c ∈ iroh.display id, isWhitespace c = false :=
  fun c member => (digit_plain c (texts.digits id c member)).2

theorem nonempty (texts : IdTexts iroh) (id : EndpointId) : iroh.display id ≠ [] := by
  intro blank
  have full := texts.length id
  rw [blank] at full
  cases full

theorem noComma (texts : IdTexts iroh) (id : EndpointId) : ',' ∉ iroh.display id := fun member =>
  absurd (texts.digits id ',' member) (by decide)

/-- Without a capital letter it is the printed id itself. -/
theorem printed (texts : IdTexts iroh) {text : Text} (plain : ¬ Capital text)
    (same : eqIgnoreAsciiCase text (iroh.display peer) = true) : text = iroh.display peer :=
  calc text = text.map Char.toLower := (not_not.mp plain).symm
    _ = (iroh.display peer).map Char.toLower := beq_iff_eq.mp same
    _ = iroh.display peer := texts.lower peer

theorem reads (texts : IdTexts iroh) (plain : ¬ Capital token)
    (same : eqIgnoreAsciiCase token (iroh.display peer) = true) :
    parseEndpointToken iroh token = .ok peer := by
  rw [texts.printed plain same, parseEndpointToken, trim_of_solid (texts.solid peer), texts.shown]

/-- A contact that is not damaged resolves to the id that it stores. -/
theorem resolves (texts : IdTexts iroh) (stores : Stores iroh c peer) (sound : ¬ Damaged c) :
    Resolves iroh c peer := by
  obtain ⟨plain, addrs⟩ := not_or.mp sound
  refine ⟨?_, fun a member => Option.isSome_iff_ne_none.mpr fun failed => addrs ⟨a, member, failed⟩⟩
  rw [texts.printed plain stores]
  exact texts.shown peer

end IdTexts

/-! ## What the functions compute -/

theorem stored_iff {c : Contact} :
    (c.id == iroh.display peer || eqIgnoreAsciiCase c.id (iroh.display peer)) = true ↔
      Stores iroh c peer := by
  rw [Bool.or_eq_true, beq_iff_eq, Stores]
  refine ⟨fun either => either.elim (fun same => ?_) id, .inr⟩
  rw [same, eqIgnoreAsciiCase, beq_iff_eq]

theorem isKnownContact_iff :
    isKnownContact iroh book peer = true ↔ ∃ entry ∈ book.contacts, Stores iroh entry.2 peer := by
  rw [isKnownContact, nameForId, Option.isSome_map, List.find?_isSome]
  simp only [stored_iff]

theorem nameForId_any_iff :
    ((nameForId iroh book peer).any fun name => eqIgnoreAsciiCase name token) = true ↔
      FirstNamed iroh book token peer := by
  rw [nameForId, Option.any_map, Option.any_eq_true]
  constructor
  · rintro ⟨entry, found, named⟩
    obtain ⟨stores, before, after, split, unstored⟩ := List.find?_eq_some_iff_append.mp found
    refine ⟨entry, ⟨before, after, split, fun other member stores' => ?_, stored_iff.mp stores⟩,
      named⟩
    have failed := unstored other member
    rw [stored_iff.mpr stores'] at failed
    cases failed
  · rintro ⟨entry, ⟨before, after, split, unstored, stores⟩, named⟩
    refine ⟨entry, List.find?_eq_some_iff_append.mpr
      ⟨stored_iff.mpr stores, before, after, split, fun other member => ?_⟩, named⟩
    rw [Bool.not_eq_true']
    exact Bool.eq_false_iff.mpr fun stored => unstored other member (stored_iff.mp stored)

theorem matchPeerToken_iff :
    matchPeerToken iroh book token peer = .ok true ↔
      Spells iroh token peer ∨ (Plain iroh token ∧ FirstNamed iroh book token peer) := by
  unfold matchPeerToken Spells Plain
  cases same : eqIgnoreAsciiCase token (iroh.display peer) with
  | true => simp
  | false =>
      cases parsed : parseEndpointToken iroh token with
      | ok id => simp
      | error e =>
          cases e with
          | splitInsideChar => simp
          | _ => simp [nameForId_any_iff]

/-- The text of an error apart, the token itself is not looked at again. -/
theorem parseChecked_ok_iff {other body : Text} {check : Char} {id : EndpointId} :
    parseChecked iroh token body check = .ok id ↔ parseChecked iroh other body check = .ok id := by
  unfold parseChecked
  split
  · rfl
  · split
    · rfl
    · split
      · simp only [reduceCtorEq]
      · rfl

theorem parseLegacy_ok_iff {other code : Text} {id : EndpointId} :
    parseLegacy iroh token code = .ok id ↔ parseLegacy iroh other code = .ok id := by
  unfold parseLegacy
  split
  · simp only [reduceCtorEq]
  · split
    · simp only [reduceCtorEq]
    · rfl

theorem parseEndpointToken_trim {id : EndpointId} :
    parseEndpointToken iroh (trim token) = .ok id ↔ parseEndpointToken iroh token = .ok id := by
  unfold parseEndpointToken
  rw [trim_trim]
  split
  · rfl
  · dsimp only
    split
    · exact parseChecked_ok_iff
    · split
      · exact parseLegacy_ok_iff
      · simp only [reduceCtorEq]

theorem parseAddrs_ok_iff {addrs : List Text} :
    (∃ parsed, parseAddrs addrs = .ok parsed) ↔ ∀ a ∈ addrs, (parseSocketAddr a).isSome = true := by
  induction addrs with
  | nil => simp [parseAddrs]
  | cons a rest ih =>
      rw [List.forall_mem_cons, ← ih, parseAddrs]
      cases parseSocketAddr a with
      | none => simp
      | some addr =>
          cases parseAddrs rest with
          | error e => simp [Except.map]
          | ok parsed => simp [Except.map]

theorem contactToResolved_iff {name : Option Text} {c : Contact} :
    (contactToResolved iroh name c).map ResolvedPeer.id = .ok peer ↔ Resolves iroh c peer := by
  unfold contactToResolved Resolves
  rw [← parseAddrs_ok_iff]
  cases iroh.parse c.id with
  | none => simp [Except.map]
  | some id =>
      cases parseAddrs c.addrs with
      | error e => simp [Except.map]
      | ok addrs => simp [Except.map]

theorem resolvePeerToken_iff :
    resolvePeerToken iroh book token = .ok peer ↔
      match book.find (trim token) with
      | none => parseEndpointToken iroh token = .ok peer
      | some (_, c) => Resolves iroh c peer := by
  unfold resolvePeerToken resolve
  cases book.find (trim token) with
  | none =>
      dsimp only
      rw [← parseEndpointToken_trim]
      cases parseEndpointToken iroh (trim token) <;> simp [Except.map]
  | some entry => exact contactToResolved_iff

/-! ## Exactly when the two agree -/

theorem plain_not_ok (plain : Plain iroh token) : parseEndpointToken iroh token ≠ .ok peer := by
  obtain ⟨e, failed, -⟩ := plain
  rw [failed]
  exact fun same => by cases same

/-- The contact found is named like the key in some case. -/
theorem find_alike {key : Text} {entry : Text × Contact} (found : book.find key = some entry) :
    eqIgnoreAsciiCase entry.1 key = true := by
  rcases Option.or_eq_some_iff.mp found with exact_ | ⟨-, alike⟩
  · have same := List.find?_some exact_
    rw [beq_iff_eq.mp same, eqIgnoreAsciiCase, beq_self_eq_true]
  · have same := List.find?_some alike
    exact same

theorem find_none {key : Text} (unknown : book.find key = none) :
    ∀ entry ∈ book.contacts, eqIgnoreAsciiCase entry.1 key ≠ true :=
  List.find?_eq_none.mp (Option.or_eq_none_iff.mp unknown).2

theorem First.member {entry : Text × Contact} (first : First iroh book peer entry) :
    entry ∈ book.contacts := by
  obtain ⟨before, after, split, -⟩ := first
  rw [split]
  exact List.mem_append_right before List.mem_cons_self

theorem First.stores {entry : Text × Contact} (first : First iroh book peer entry) :
    Stores iroh entry.2 peer := by
  obtain ⟨_, _, _, _, stores⟩ := first
  exact stores

/-- Without a contact of this name, a token in print is read alike. -/
theorem unnamed_iff (texts : IdTexts iroh) (unknown : book.find (trim token) = none) :
    (Spells iroh token peer ∨ Plain iroh token ∧ FirstNamed iroh book token peer ↔
      parseEndpointToken iroh token = .ok peer) ↔ Unnamed iroh book token peer := by
  constructor
  · intro agree
    exact ⟨fun _ same => agree.mp (.inl (.inl same)),
      fun _ plain named => plain_not_ok plain (agree.mp (.inr ⟨plain, named⟩))⟩
  · rintro ⟨capital, spaced⟩
    refine ⟨fun matched => ?_, fun parsed => .inl (.inr parsed)⟩
    rcases matched with (same | parsed) | ⟨plain, named⟩
    · by_cases high : Capital token
      · exact capital high same
      · exact texts.reads high same
    · exact parsed
    · by_cases trimmed : trim token = token
      · obtain ⟨entry, first, alike⟩ := named
        exact absurd (trimmed.symm ▸ alike) (find_none unknown entry first.member)
      · exact absurd named (spaced trimmed plain)

/-- The contact of this name stands for the peer exactly when the token does. -/
theorem named_iff (texts : IdTexts iroh) {entry : Text × Contact}
    (found : book.find (trim token) = some entry) :
    (Spells iroh token peer ∨ Plain iroh token ∧ FirstNamed iroh book token peer ↔
      Resolves iroh entry.2 peer) ↔ Named iroh book token peer entry := by
  constructor
  · intro agree
    refine ⟨fun spells _ _ => agree.mp (.inl spells), fun spells _ => agree.mp (.inl spells),
      fun unspelled solid resolves => ?_, fun unspelled _ resolves _ => ?_,
      fun _ plain named _ => agree.mp (.inr ⟨plain, named⟩)⟩
    · exact (agree.mpr resolves).elim unspelled fun both => solid both.1
    · exact ((agree.mpr resolves).resolve_left unspelled).2
  · rintro ⟨own, stranger, other, later, first⟩
    constructor
    · intro matched
      by_cases spells : Spells iroh token peer
      · by_cases stores : Stores iroh entry.2 peer
        · by_cases damaged : Damaged entry.2
          · exact own spells stores damaged
          · exact texts.resolves stores damaged
        · exact stranger spells stores
      · obtain ⟨plain, named⟩ := matched.resolve_left spells
        by_cases sound : First iroh book peer entry ∧ ¬ Damaged entry.2
        · exact texts.resolves sound.1.stores sound.2
        · refine first spells plain named ((not_and_or.mp sound).imp_right not_not.mp)
    · intro resolves
      by_cases spells : Spells iroh token peer
      · exact .inl spells
      · by_cases plain : Plain iroh token
        · refine .inr ⟨plain, ?_⟩
          by_cases here : First iroh book peer entry ∧ trim token = token
          · obtain ⟨stands, trimmed⟩ := here
            have alike := find_alike found
            rw [trimmed] at alike
            exact ⟨entry, stands, alike⟩
          · exact later spells plain resolves (not_and_or.mp here)
        · exact absurd resolves (other spells plain)

theorem tokenAgrees_iff (texts : IdTexts iroh) :
    TokenAgrees iroh book token peer ↔ Unambiguous iroh book token peer := by
  rw [TokenAgrees, matchPeerToken_iff, resolvePeerToken_iff]
  cases found : book.find (trim token) with
  | none =>
      refine (unnamed_iff texts found).trans ⟨fun unnamed => ⟨fun _ => unnamed, ?_⟩,
        fun clear => clear.unnamed found⟩
      intro entry found'
      cases found.symm.trans found'
  | some entry =>
      refine (named_iff texts found).trans
        ⟨fun named => ⟨?_, ?_⟩, fun clear => clear.named entry found⟩
      · intro unknown
        cases found.symm.trans unknown
      · intro entry' found'
        cases found.symm.trans found'
        exact named

theorem knownAgrees_iff (texts : IdTexts iroh) :
    KnownAgrees iroh book peer ↔ Printed iroh book peer := by
  rw [KnownAgrees, isKnownContact_iff]
  simp only [contactToResolved_iff]
  constructor
  · intro agree
    exact ⟨fun entry member stores _ => agree.mp ⟨entry, member, stores⟩,
      fun entry member resolves _ => agree.mpr ⟨entry, member, resolves⟩⟩
  · rintro ⟨damaged, respelled⟩
    constructor
    · rintro ⟨entry, member, stores⟩
      by_cases bad : Damaged entry.2
      · exact damaged entry member stores bad
      · exact ⟨entry, member, texts.resolves stores bad⟩
    · rintro ⟨entry, member, resolves⟩
      by_cases stores : Stores iroh entry.2 peer
      · exact ⟨entry, member, stores⟩
      · exact respelled entry member resolves stores

/-- Ids are printed as the hex digits of their bytes. -/
def hexIds : Iroh where
  parse text := (keyOfHex text).toOption
  display := hexOfKey
  fromBytes bytes := some (SecretKey.fromBytes bytes)

/-- Ids that are printed as hex digits read back. -/
theorem hexIds_shown (id : EndpointId) : hexIds.parse (hexIds.display id) = some id := by
  change (keyOfHex (hexOfKey id)).toOption = some id
  rw [keyOfHex_hexOfKey]
  rfl

theorem length_hexBytes (bytes : List UInt8) :
    (bytes.flatMap hexByte).length = 2 * bytes.length := by
  induction bytes with
  | nil => rfl
  | cons b rest ih =>
      rw [List.flatMap_cons, List.length_append, ih, List.length_cons]
      change 2 + 2 * rest.length = 2 * (rest.length + 1)
      omega

theorem hexIds_texts : IdTexts hexIds := by
  have digit : ∀ digit < 16, hexChar digit ∈ "0123456789abcdef".toList := by decide
  refine ⟨hexIds_shown, fun id => ?_, fun id c member => ?_⟩
  · have bytes : (SecretKey.bytes id).length = 32 := Lib.Bytes.length_toBytes _ _
    exact (length_hexBytes (SecretKey.bytes id)).trans (congrArg (2 * ·) bytes)
  · obtain ⟨b, -, inside⟩ := List.mem_flatMap.mp member
    have bound := b.toNat_lt
    rcases List.mem_pair.mp inside with rfl | rfl
    · exact digit _ (by omega)
    · exact digit _ (by omega)

/-- A book with two nicknames of one id. -/
def twoNames (id : EndpointId) : ContactBook where
  contacts := [("al".toList, ⟨hexOfKey id, [], []⟩), ("bob".toList, ⟨hexOfKey id, [], []⟩)]
  sorted := by
    simp only [List.map_cons, List.map_nil]
    decide

/-- The id that both nicknames have. -/
def sharedId : EndpointId := 0x0100000000000000000000000000000000000000000000000000000000000000

end LinkP2p.Contacts
