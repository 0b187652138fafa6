import LinkP2p.Contacts.Matching
import LinkP2p.Lib.KeyedUpdates
import LinkP2p.Lib.SortedMap
import Mathlib.Data.Char
import Mathlib.Data.List.Lex

/-!
# The contact commands

`contact add` and `contact remove` change the book that `call` and the daemons
read. A nickname stands for the id that it was last saved with, until it is
removed; a command that fails leaves the book as it was.
-/

namespace LinkP2p.Contacts

open LinkP2p.Identity (Text isWhitespace trim trim_trim trim_sublist keyOfHex hexOfKey
  hexChar hexByte keyOfHex_hexOfKey)
open LinkP2p.Lib LinkP2p.Lib.KeyedUpdates
open LinkP2p.Tun (EndpointId)

inductive ContactCommand where
  | add (name id : Text)
  | remove (name : Text)

inductive CommandError where
  | token (e : BookError)
  /-- no contact named '{name}' -/
  | noContact (name : Text)

namespace ContactBook

def empty : ContactBook := ⟨[], List.Pairwise.nil⟩

/-- `BTreeMap::insert` -/
def insert (book : ContactBook) (name : Text) (c : Contact) : ContactBook :=
  ⟨SortedMap.insert name c book.contacts, SortedMap.sorted_insert name c book.sorted⟩

/-- `BTreeMap::remove` -/
def remove (book : ContactBook) (name : Text) : ContactBook :=
  ⟨SortedMap.remove name book.contacts, SortedMap.sorted_remove name book.sorted⟩

def get (book : ContactBook) (name : Text) : Option Contact := SortedMap.get book.contacts name

end ContactBook

/-- What `run_contact` saves. -/
def runContact (iroh : Iroh) (book : ContactBook) :
    ContactCommand → Except CommandError ContactBook
  | .add name id =>
      match parseEndpointToken iroh id with
      | .error e => .error (.token e)
      | .ok eid => .ok (book.insert name ⟨iroh.display eid, [], []⟩)
  | .remove name =>
      if (book.get name).isNone then .error (.noContact name) else .ok (book.remove name)

/-- The book after a command; one that fails saves nothing. -/
def after (iroh : Iroh) (book : ContactBook) (command : ContactCommand) : ContactBook :=
  (runContact iroh book command).toOption.getD book

/-- The book after a run of commands. -/
def saved (iroh : Iroh) (commands : List ContactCommand) : ContactBook :=
  commands.foldl (after iroh) .empty

/-! ## What a name stands for -/

/-- The change that a command asks for. -/
def ContactCommand.update (iroh : Iroh) : ContactCommand → Option (Update Text EndpointId)
  | .add name id => (parseEndpointToken iroh id).toOption.map (.insert name)
  | .remove name => some (.remove name)

/-- The id that the name was last saved with, if it has not been removed since. -/
def latest (iroh : Iroh) (commands : List ContactCommand) (name : Text) : Option EndpointId :=
  settle (commands.filterMap (ContactCommand.update iroh)) name none

variable {iroh : Iroh} {book : ContactBook} {commands : List ContactCommand} {name : Text}

/-- The contact that is saved for an id. -/
def contactOf (iroh : Iroh) (id : EndpointId) : Contact := ⟨iroh.display id, [], []⟩

theorem get_insert (book : ContactBook) (key name : Text) (c : Contact) :
    (book.insert key c).get name = if key = name then some c else book.get name :=
  SortedMap.get_insert key name c book.contacts

theorem get_remove (book : ContactBook) (key name : Text) :
    (book.remove key).get name = if key = name then none else book.get name :=
  SortedMap.get_remove key name book.contacts

/-- A command does its change to the book, or there is nothing to change. -/
theorem get_after (command : ContactCommand) {now : Option EndpointId}
    (held : book.get name = now.map (contactOf iroh)) :
    (after iroh book command).get name =
      (settle (command.update iroh).toList name now).map (contactOf iroh) := by
  cases command with
  | add key id =>
      rw [after, runContact, ContactCommand.update]
      cases parseEndpointToken iroh id with
      | error e => exact held
      | ok eid =>
          change (book.insert key (contactOf iroh eid)).get name =
            (if key = name then some eid else now).map (contactOf iroh)
          rw [get_insert, held]
          split <;> rfl
  | remove key =>
      rw [after, runContact]
      change _ = (if key = name then none else now).map (contactOf iroh)
      cases absent : (book.get key).isNone with
      | true =>
          change book.get name = _
          split
          · rename_i same
            rw [← same]
            exact Option.isNone_iff_eq_none.mp absent
          · exact held
      | false =>
          change (book.remove key).get name = _
          rw [get_remove, held]
          split <;> rfl

theorem get_foldl (commands : List ContactCommand) {now : Option EndpointId}
    (held : book.get name = now.map (contactOf iroh)) :
    (commands.foldl (after iroh) book).get name =
      (settle (commands.filterMap (ContactCommand.update iroh)) name now).map (contactOf iroh) := by
  induction commands generalizing book now with
  | nil => exact held
  | cons command rest ih =>
      have step := ih (get_after command held)
      rw [List.foldl_cons, step, ← settle_append]
      cases changes : command.update iroh with
      | none => rw [List.filterMap_cons_none changes]; rfl
      | some update => rw [List.filterMap_cons_some changes]; rfl

/-- The book has exactly the names that stand for an id. -/
theorem get_saved (iroh : Iroh) (commands : List ContactCommand) (name : Text) :
    (saved iroh commands).get name = (latest iroh commands name).map (contactOf iroh) :=
  get_foldl commands rfl

theorem mem_saved {c : Contact} :
    (name, c) ∈ (saved iroh commands).contacts ↔
      ∃ id, latest iroh commands name = some id ∧ contactOf iroh id = c := by
  rw [← SortedMap.get_eq_some_iff (saved iroh commands).sorted, ← Option.map_eq_some_iff,
    ← get_saved]
  rfl

/-! ## Names with white space around them -/

theorem isWhitespace_of_graphic {c : Char} (low : 33 ≤ c.toNat) (high : c.toNat ≤ 126) :
    isWhitespace c = false := by
  simp only [isWhitespace]
  grind

theorem isWhitespace_toLower (c : Char) : isWhitespace c.toLower = isWhitespace c := by
  by_cases upper : c.val ≥ 'A'.val ∧ c.val ≤ 'Z'.val
  · have low : 65 ≤ c.toNat := upper.1
    have high : c.toNat ≤ 90 := upper.2
    have lower : c.toLower = ⟨c.val + ('a'.val - 'A'.val), _⟩ := dif_pos upper
    have code : (c.val + ('a'.val - 'A'.val)).toNat = c.toNat + 32 := by
      rw [UInt32.toNat_add]
      change (c.toNat + 32) % 2 ^ 32 = _
      omega
    rw [lower, isWhitespace_of_graphic (c := c) (by omega) (by omega), isWhitespace_of_graphic]
    · exact Nat.le_trans (by omega) (Nat.le_of_eq code.symm)
    · exact Nat.le_trans (Nat.le_of_eq code) (by omega)
  · have same : c.toLower = c := dif_neg upper
    rw [same]

theorem trim_map_toLower (text : Text) :
    trim (text.map Char.toLower) = (trim text).map Char.toLower := by
  have folded : isWhitespace ∘ Char.toLower = isWhitespace := funext isWhitespace_toLower
  rw [trim, trim, List.dropWhile_map, folded, List.rdropWhile, List.rdropWhile, ← List.map_reverse,
    List.dropWhile_map, folded, List.map_reverse]

/-- A name that equals a trimmed key in some case has nothing to trim. -/
theorem trim_of_eqIgnoreAsciiCase {key : Text} (same : eqIgnoreAsciiCase name key = true)
    (trimmed : trim key = key) : trim name = name := by
  have letters : name.map Char.toLower = key.map Char.toLower := beq_iff_eq.mp same
  have lower : (trim name).map Char.toLower = name.map Char.toLower := by
    rw [← trim_map_toLower, letters, trim_map_toLower, trimmed]
  refine (trim_sublist name).eq_of_length ?_
  rw [← List.length_map Char.toLower, lower, List.length_map]

/-! ## Resolving a name -/

/-- The exact name comes first. -/
theorem find_exact {id : EndpointId} (stands : latest iroh commands name = some id) :
    (saved iroh commands).find name = some (name, contactOf iroh id) := by
  have member : (name, contactOf iroh id) ∈ (saved iroh commands).contacts :=
    mem_saved.mpr ⟨id, stands, rfl⟩
  have found : ((saved iroh commands).contacts.find? fun entry => entry.1 == name) =
      some (name, contactOf iroh id) := by
    refine (SortedMap.find?_eq_some_iff (saved iroh commands).sorted).mpr ⟨member, ?_, ?_⟩
    · exact beq_self_eq_true name
    · intro other _ same
      exact le_of_eq (beq_iff_eq.mp same).symm
  rw [ContactBook.find, found]
  rfl

theorem find_exact_none (unknown : latest iroh commands name = none) :
    ((saved iroh commands).contacts.find? fun entry => entry.1 == name) = none := by
  rw [List.find?_eq_none]
  rintro ⟨other, c⟩ member same
  obtain ⟨id, stands, _⟩ := mem_saved.mp member
  have here : other = name := beq_iff_eq.mp same
  rw [here, unknown] at stands
  cases stands

/-- A contact that was saved for an id resolves to it. -/
theorem resolved_contactOf (shown : ∀ id, iroh.parse (iroh.display id) = some id)
    (found : Option Text) (id : EndpointId) :
    contactToResolved iroh found (contactOf iroh id) = .ok ⟨id, [], [], found⟩ := by
  rw [contactToResolved, contactOf, shown]
  rfl

/-- **A nickname stands for the id that it was last saved with.** After any run of
contact commands a target, trimmed, is looked up among the names that have been
saved and not removed: in its own spelling, else as the first that has it in another
case. A target that is no such name is read as an id or a code. -/
theorem resolve_latest (shown : ∀ id, iroh.parse (iroh.display id) = some id)
    (commands : List ContactCommand) (target : Text) :
    (∀ id, latest iroh commands (trim target) = some id →
      resolve iroh (saved iroh commands) target = .ok ⟨id, [], [], some (trim target)⟩) ∧
    (latest iroh commands (trim target) = none → ∀ name id, latest iroh commands name = some id →
      eqIgnoreAsciiCase name (trim target) = true →
      (∀ other, (latest iroh commands other).isSome = true →
        eqIgnoreAsciiCase other (trim target) = true → name ≤ other) →
      resolve iroh (saved iroh commands) target = .ok ⟨id, [], [], some name⟩) ∧
    ((∀ name, (latest iroh commands name).isSome = true →
      eqIgnoreAsciiCase name (trim target) = false) →
      resolve iroh (saved iroh commands) target =
        (parseEndpointToken iroh (trim target)).map fun id => ⟨id, [], [], none⟩) := by
  refine ⟨fun id stands => ?_, fun unknown name id stands alike least => ?_, fun strange => ?_⟩
  · rw [resolve, find_exact stands]
    exact resolved_contactOf shown _ id
  · have found : ((saved iroh commands).contacts.find? fun entry =>
        eqIgnoreAsciiCase entry.1 (trim target)) = some (name, contactOf iroh id) := by
      refine (SortedMap.find?_eq_some_iff (saved iroh commands).sorted).mpr
        ⟨mem_saved.mpr ⟨id, stands, rfl⟩, alike, ?_⟩
      rintro ⟨other, c⟩ member alike'
      obtain ⟨id', stands', _⟩ := mem_saved.mp member
      exact least other (by rw [stands']; rfl) alike'
    rw [resolve, ContactBook.find, find_exact_none unknown, found]
    exact resolved_contactOf shown _ id
  · have unknown : latest iroh commands (trim target) = none := by
      by_contra known
      have other := strange (trim target) (Option.isSome_iff_ne_none.mpr known)
      rw [eqIgnoreAsciiCase, beq_self_eq_true] at other
      cases other
    have none : ((saved iroh commands).contacts.find? fun entry =>
        eqIgnoreAsciiCase entry.1 (trim target)) = none := by
      rw [List.find?_eq_none]
      rintro ⟨other, c⟩ member alike
      obtain ⟨id, stands, _⟩ := mem_saved.mp member
      rw [strange other (by rw [stands]; rfl)] at alike
      cases alike
    rw [resolve, ContactBook.find, find_exact_none unknown, none]
    rfl

/-- The name was saved twice. -/
theorem resolve_latest_again :
    resolve hexIds (saved hexIds [.add "Bob".toList (hexOfKey 5), .add "Bob".toList (hexOfKey 7)])
      " Bob ".toList = .ok ⟨7, [], [], some "Bob".toList⟩ :=
  (resolve_latest hexIds_shown _ " Bob ".toList).1 7 (by decide +kernel)

/-! ## Names that can be called -/

/-- **A saved name can be called** exactly if it has no white space around it. Any other
name is kept, but no target is ever looked up under it. -/
theorem callable_iff (shown : ∀ id, iroh.parse (iroh.display id) = some id)
    (commands : List ContactCommand) {name : Text}
    (known : (latest iroh commands name).isSome = true) :
    (∃ target peer, resolve iroh (saved iroh commands) target = .ok peer ∧
      peer.name = some name) ↔ trim name = name := by
  obtain ⟨id, stands⟩ := Option.isSome_iff_exists.mp known
  constructor
  · rintro ⟨target, peer, resolved, called⟩
    rw [resolve] at resolved
    cases found : (saved iroh commands).find (trim target) with
    | none =>
        rw [found] at resolved
        cases parsed : parseEndpointToken iroh (trim target) with
        | error e =>
            rw [parsed] at resolved
            cases resolved
        | ok id =>
            rw [parsed] at resolved
            cases resolved
            cases called
    | some entry =>
        obtain ⟨key, c⟩ := entry
        rw [found] at resolved
        have here : key = name := by
          change contactToResolved iroh (some key) c = _ at resolved
          rw [contactToResolved] at resolved
          cases parsed : iroh.parse c.id with
          | none =>
              rw [parsed] at resolved
              cases resolved
          | some id =>
              rw [parsed] at resolved
              cases addrs : parseAddrs c.addrs with
              | error e =>
                  rw [addrs] at resolved
                  cases resolved
              | ok addrs' =>
                  rw [addrs] at resolved
                  cases resolved
                  exact Option.some.inj called
        rw [ContactBook.find, Option.or_eq_some_iff] at found
        subst here
        rcases found with exact | ⟨_, alike⟩
        · have same := List.find?_some exact
          have here : key = trim target := beq_iff_eq.mp same
          rw [here, trim_trim]
        · have same := List.find?_some alike
          exact trim_of_eqIgnoreAsciiCase same (trim_trim target)
  · intro trimmed
    refine ⟨name, ⟨id, [], [], some name⟩, ?_, rfl⟩
    rw [resolve, trimmed, find_exact stands]
    exact resolved_contactOf shown _ id

/-- Under a name with a space in front there is a contact, and no target finds it. -/
theorem callable_iff_spaced :
    ¬ ∃ target peer, resolve hexIds (saved hexIds [.add " bob".toList (hexOfKey 5)]) target =
      .ok peer ∧ peer.name = some " bob".toList := by
  have spaced : trim " bob".toList ≠ " bob".toList := by decide
  exact fun found => spaced ((callable_iff hexIds_shown [.add " bob".toList (hexOfKey 5)]
    (by decide +kernel)).mp found)

/-! ## The name of an id -/

/-- An id is printed in lower case, and no two in the same way. -/
theorem display_alike (shown : ∀ id, iroh.parse (iroh.display id) = some id)
    (lower : ∀ id, (iroh.display id).map Char.toLower = iroh.display id) {a b : EndpointId} :
    (iroh.display a == iroh.display b || eqIgnoreAsciiCase (iroh.display a) (iroh.display b)) =
      true ↔ a = b := by
  rw [eqIgnoreAsciiCase, lower, lower, Bool.or_self, beq_iff_eq]
  refine ⟨fun same => ?_, congrArg iroh.display⟩
  rw [← Option.some_inj, ← shown a, same, shown b]

/-- **The name shown for an id** is the first of the names that stand for it, so an id is
a known contact exactly while some name stands for it. -/
theorem nameForId_latest (shown : ∀ id, iroh.parse (iroh.display id) = some id)
    (lower : ∀ id, (iroh.display id).map Char.toLower = iroh.display id)
    (commands : List ContactCommand) (id : EndpointId) :
    (∀ name, nameForId iroh (saved iroh commands) id = some name ↔
      latest iroh commands name = some id ∧
        ∀ other, latest iroh commands other = some id → name ≤ other) ∧
    (isKnownContact iroh (saved iroh commands) id = true ↔
      ∃ name, latest iroh commands name = some id) := by
  constructor
  · intro name
    rw [nameForId, Option.map_eq_some_iff]
    constructor
    · rintro ⟨⟨key, c⟩, found, rfl⟩
      obtain ⟨member, stored, least⟩ :=
        (SortedMap.find?_eq_some_iff (saved iroh commands).sorted).mp found
      obtain ⟨id', stands, rfl⟩ := mem_saved.mp member
      have same : id' = id := (display_alike shown lower).mp stored
      refine ⟨same ▸ stands, fun other stands' => ?_⟩
      exact least (other, contactOf iroh id) (mem_saved.mpr ⟨id, stands', rfl⟩)
        ((display_alike shown lower).mpr rfl)
    · rintro ⟨stands, least⟩
      refine ⟨(name, contactOf iroh id), (SortedMap.find?_eq_some_iff
        (saved iroh commands).sorted).mpr ⟨mem_saved.mpr ⟨id, stands, rfl⟩,
          (display_alike shown lower).mpr rfl, ?_⟩, rfl⟩
      rintro ⟨other, c⟩ member stored
      obtain ⟨id', stands', rfl⟩ := mem_saved.mp member
      have same : id' = id := (display_alike shown lower).mp stored
      exact least other (same ▸ stands')
  · rw [isKnownContact_iff]
    constructor
    · rintro ⟨⟨key, c⟩, member, stores⟩
      obtain ⟨id', stands, rfl⟩ := mem_saved.mp member
      have same : id' = id := (display_alike shown lower).mp
        (Bool.or_eq_true_iff.mpr (.inr stores))
      exact ⟨key, same ▸ stands⟩
    · rintro ⟨name, stands⟩
      exact ⟨(name, contactOf iroh id), mem_saved.mpr ⟨id, stands, rfl⟩,
        beq_self_eq_true ((iroh.display id).map Char.toLower)⟩

/-- The id that a name has moved to is known. -/
theorem nameForId_latest_moved :
    isKnownContact hexIds (saved hexIds [.add "bob".toList (hexOfKey 5),
      .add "bob".toList (hexOfKey 7), .add "al".toList (hexOfKey 7)]) 7 = true :=
  (nameForId_latest hexIds_shown hexIds_texts.lower _ 7).2.mpr ⟨"bob".toList, by decide +kernel⟩

end LinkP2p.Contacts
