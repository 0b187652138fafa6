import LinkP2p.Contacts.Matching

/-!
# Tokens that panic

A short code is counted in characters and split in bytes. A last character of
several bytes is cut in half, which kills the task that reads the token.
-/

namespace LinkP2p.Contacts

open LinkP2p.Identity (Text trim trim_trim utf8Encode)
open LinkP2p.Tun (EndpointId)

/-! ## Splitting at a byte -/

/-- `str::len` -/
def byteLength (text : Text) : Nat := (utf8Encode text).length

/-- `str::split_at`, which panics inside a character and beyond the end. -/
def splitAt : Text → Nat → Option (Text × Text)
  | text, 0 => some ([], text)
  | [], _ + 1 => none
  | c :: rest, n + 1 =>
      if c.utf8Size ≤ n + 1 then
        (splitAt rest (n + 1 - c.utf8Size)).map fun (front, back) => (c :: front, back)
      else none

theorem byteLength_cons (c : Char) (rest : Text) :
    byteLength (c :: rest) = c.utf8Size + byteLength rest := by
  rw [byteLength, utf8Encode, List.flatMap_cons, List.length_append, String.length_utf8EncodeChar]
  rfl

theorem splitAt_append (body rest : Text) (n : Nat) :
    splitAt (body ++ rest) (byteLength body + n) =
      (splitAt rest n).map fun (front, back) => (body ++ front, back) := by
  induction body with
  | nil =>
      have start : byteLength [] + n = n := Nat.zero_add n
      rw [start]
      exact Option.map_id'.symm
  | cons c body ih =>
      obtain ⟨size, one⟩ : ∃ size, c.utf8Size = size + 1 :=
        Nat.exists_eq_add_one.mpr (Char.utf8Size_pos c)
      have offset : byteLength (c :: body) + n = size + (byteLength body + n) + 1 := by
        rw [byteLength_cons, one]
        omega
      have past : size + (byteLength body + n) + 1 - c.utf8Size = byteLength body + n := by omega
      rw [offset, List.cons_append, splitAt, if_pos (by omega), past, ih, Option.map_map]
      rfl

theorem byteLength_append (body rest : Text) :
    byteLength (body ++ rest) = byteLength body + byteLength rest := by
  rw [byteLength, utf8Encode, List.flatMap_append, List.length_append]
  rfl

theorem utf8Size_eq_one_iff {c : Char} : c.utf8Size = 1 ↔ c.toNat < 128 := by
  rw [Char.utf8Size_eq_one_iff, UInt32.le_iff_toNat_le]
  exact Nat.lt_succ_iff.symm

/-- One byte before the end, a text of ASCII there is split before its last character. -/
theorem splitAt_last_ascii {c : Char} (ascii : c.toNat < 128) (body : Text) :
    splitAt (body ++ [c]) (byteLength (body ++ [c]) - 1) = some (body, [c]) := by
  have size : c.utf8Size = 1 := utf8Size_eq_one_iff.mpr ascii
  have offset : byteLength (body ++ [c]) - 1 = byteLength body + 0 := by
    rw [byteLength_append, byteLength_cons, size]
    exact Nat.add_sub_cancel _ 1
  rw [offset, splitAt_append, splitAt, Option.map_some]
  exact congrArg (fun front => some (front, [c])) (List.append_nil body)

/-- A longer last character is cut. -/
theorem splitAt_last_wide {c : Char} (wide : 128 ≤ c.toNat) (body : Text) :
    splitAt (body ++ [c]) (byteLength (body ++ [c]) - 1) = none := by
  have long : c.utf8Size ≠ 1 := fun one => Nat.not_lt.mpr wide (utf8Size_eq_one_iff.mp one)
  have positive := Char.utf8Size_pos c
  obtain ⟨n, inside⟩ : ∃ n, c.utf8Size = n + 2 := ⟨c.utf8Size - 2, by omega⟩
  have offset : byteLength (body ++ [c]) - 1 = byteLength body + (n + 1) := by
    rw [byteLength_append, byteLength_cons, inside, show byteLength [] = 0 from rfl]
    omega
  rw [offset, splitAt_append, splitAt, if_neg (by omega), Option.map_none]

/-! ## The tokens -/

variable {iroh : Iroh} {book : ContactBook} {token : Text} {peer : EndpointId}

/-- The token is no id and has the length of a code, and its last character is not ASCII. -/
def Cut (iroh : Iroh) (token : Text) : Prop :=
  iroh.parse (trim token) = none ∧ (compact (trim token)).length = 53 ∧
    128 ≤ ((compact (trim token)).getLastD '0').toNat

/-- The split of the check symbol is reached, and there is no such split. -/
def SplitFails (iroh : Iroh) (token : Text) : Prop :=
  iroh.parse (trim token) = none ∧ (compact (trim token)).length = 53 ∧
    splitAt (compact (trim token)) (byteLength (compact (trim token)) - 1) = none

theorem splitFails_iff : SplitFails iroh token ↔ Cut iroh token := by
  refine and_congr_right fun _ => and_congr_right fun full => ?_
  obtain ⟨body, c, ends⟩ : ∃ body c, compact (trim token) = body ++ [c] := by
    refine ⟨_, _, (List.dropLast_append_getLast ?_).symm⟩
    intro empty
    rw [empty] at full
    cases full
  rw [ends, List.getLastD_concat]
  by_cases wide : 128 ≤ c.toNat
  · exact iff_of_true (splitAt_last_wide wide body) wide
  · have split := splitAt_last_ascii (Nat.not_le.mp wide) body
    rw [split]
    exact iff_of_false (fun failed => by cases failed) wide

theorem cut_trim : Cut iroh (trim token) ↔ Cut iroh token := by
  unfold Cut
  rw [trim_trim]

/-- The call ends in a panic. -/
def Panics {α : Type} (result : Except BookError α) : Prop := result = .error .splitInsideChar

theorem panics_error_iff {α : Type} {e : BookError} :
    Panics (.error e : Except BookError α) ↔ e = .splitInsideChar :=
  ⟨fun panics => Except.error.inj panics, fun same => congrArg _ same⟩

theorem panics_map {α β : Type} (f : α → β) {result : Except BookError α} :
    Panics (result.map f) ↔ Panics result := by
  unfold Panics
  cases result with
  | ok value => simp [Except.map]
  | error e => simp [Except.map]

theorem decodeBits_calm (text : Text) (buf : UInt32) (nbits : Nat) :
    ¬ Panics (decodeBits buf nbits text) := by
  induction text generalizing buf nbits with
  | nil => simp [decodeBits, Panics]
  | cons c rest ih =>
      rw [decodeBits]
      split
      · simp [Panics]
      · dsimp only
        split
        · rw [panics_map]
          exact ih _ _
        · exact ih _ _

theorem idOfBytes_calm (bytes : List UInt8) : ¬ Panics (idOfBytes iroh bytes) := by
  unfold idOfBytes Panics
  split <;> simp

theorem parseChecked_panics_iff {body : Text} {check : Char} :
    Panics (parseChecked iroh token body check) ↔ 128 ≤ check.toNat := by
  unfold parseChecked
  by_cases wide : 128 ≤ check.toNat
  · rw [if_pos wide]
    exact iff_of_true rfl wide
  · rw [if_neg wide]
    refine iff_of_false ?_ wide
    have calm := decodeBits_calm body 0 0
    unfold decodeCrockford
    cases decoded : decodeBits 0 0 body with
    | error e =>
        rw [decoded, panics_error_iff] at calm
        exact fun panics => calm (panics_error_iff.mp panics)
    | ok bytes =>
        dsimp only
        split
        · simp [Panics]
        · split
          · simp [Panics]
          · exact idOfBytes_calm bytes

theorem parseLegacy_calm {code : Text} : ¬ Panics (parseLegacy iroh token code) := by
  unfold parseLegacy
  split
  · simp [Panics]
  · split
    · simp [Panics]
    · exact idOfBytes_calm _

theorem parse_panics_iff : Panics (parseEndpointToken iroh token) ↔ Cut iroh token := by
  unfold parseEndpointToken Cut
  cases iroh.parse (trim token) with
  | some id => simp [Panics]
  | none =>
      dsimp only
      by_cases checked : (compact (trim token)).length = 53
      · rw [if_pos checked, parseChecked_panics_iff]
        simp only [checked, true_and]
      · rw [if_neg checked]
        refine iff_of_false ?_ fun cut => checked cut.2.1
        split
        · exact parseLegacy_calm
        · simp [Panics]

theorem parseAddrs_calm (addrs : List Text) : ¬ Panics (parseAddrs addrs) := by
  induction addrs with
  | nil => simp [parseAddrs, Panics]
  | cons a rest ih =>
      rw [parseAddrs]
      split
      · simp [Panics]
      · rw [panics_map]
        exact ih

theorem contactToResolved_calm {name : Option Text} {c : Contact} :
    ¬ Panics (contactToResolved iroh name c) := by
  unfold contactToResolved
  split
  · simp [Panics]
  · rw [panics_map]
    exact parseAddrs_calm c.addrs

/-- Only a token that names no contact is parsed. -/
theorem resolve_panics_iff :
    Panics (resolve iroh book token) ↔ book.find (trim token) = none ∧ Cut iroh token := by
  unfold resolve
  cases book.find (trim token) with
  | none =>
      dsimp only
      rw [panics_map, parse_panics_iff, cut_trim]
      exact (and_iff_right rfl).symm
  | some entry => exact iff_of_false contactToResolved_calm fun both => by cases both.1

/-- The printed id of the peer is recognised before the token is parsed. -/
theorem match_panics_iff :
    Panics (matchPeerToken iroh book token peer) ↔
      eqIgnoreAsciiCase token (iroh.display peer) = false ∧ Cut iroh token := by
  rw [← parse_panics_iff]
  unfold matchPeerToken
  cases eqIgnoreAsciiCase token (iroh.display peer) with
  | true => simp [Panics]
  | false =>
      cases parseEndpointToken iroh token with
      | ok id => simp [Panics]
      | error e =>
          cases e with
          | splitInsideChar => simp [Panics]
          | _ => simp [Panics]

/-! ## The requests of a phone loop -/

inductive CallCmd where
  | dial (target : Text)
  | accept (peer : Text)
  | reject (peer : Text)
  deriving DecidableEq, Repr

/-- `position`: where the token finds the first peer that it matches. -/
def position (iroh : Iroh) (book : ContactBook) (token : Text) :
    List EndpointId → Except BookError (Option Nat)
  | [] => .ok none
  | peer :: rest =>
      match matchPeerToken iroh book token peer with
      | .error e => .error e
      | .ok true => .ok (some 0)
      | .ok false => (position iroh book token rest).map fun index => index.map (· + 1)

/-- The request kills the loop while these peers ring. -/
def CallCmd.Kills (iroh : Iroh) (book : ContactBook) (ringing : List EndpointId) : CallCmd → Prop
  | .dial target => Panics (resolvePeerToken iroh book target)
  | .accept peer => Panics (position iroh book peer ringing)
  | .reject peer => Panics (position iroh book peer ringing)

/-- The token of the request is cut: for a dial no contact has its name, for an answer
somebody rings, and the first who does has another id. -/
def CallCmd.Cuts (iroh : Iroh) (book : ContactBook) (ringing : List EndpointId) : CallCmd → Prop
  | .dial target => book.find (trim target) = none ∧ Cut iroh target
  | .accept peer =>
      (∃ first ∈ ringing.head?, eqIgnoreAsciiCase peer (iroh.display first) = false) ∧
        Cut iroh peer
  | .reject peer =>
      (∃ first ∈ ringing.head?, eqIgnoreAsciiCase peer (iroh.display first) = false) ∧
        Cut iroh peer

theorem position_calm (whole : ¬ Cut iroh token) (ringing : List EndpointId) :
    ¬ Panics (position iroh book token ringing) := by
  induction ringing with
  | nil => simp [position, Panics]
  | cons peer rest ih =>
      have calm : ¬ Panics (matchPeerToken iroh book token peer) :=
        fun panics => whole (match_panics_iff.mp panics).2
      rw [position]
      split
      · rename_i failed
        rw [failed, panics_error_iff] at calm
        exact fun panics => calm (panics_error_iff.mp panics)
      · simp [Panics]
      · rw [panics_map]
        exact ih

/-- A cut token panics at the first peer unless it is the printed id of that one. -/
theorem position_panics_iff {ringing : List EndpointId} :
    Panics (position iroh book token ringing) ↔
      (∃ first ∈ ringing.head?, eqIgnoreAsciiCase token (iroh.display first) = false) ∧
        Cut iroh token := by
  by_cases cut : Cut iroh token
  · cases ringing with
    | nil => simp [position, Panics]
    | cons first rest =>
        simp only [List.head?_cons, Option.mem_def, Option.some.injEq, exists_eq_left', cut,
          and_true]
        rw [position]
        cases same : eqIgnoreAsciiCase token (iroh.display first) with
        | true =>
            have matched : matchPeerToken iroh book token first = .ok true := by
              rw [matchPeerToken, if_pos same]
            rw [matched]
            simp [Panics]
        | false =>
            have panics : matchPeerToken iroh book token first = .error .splitInsideChar :=
              match_panics_iff.mpr ⟨same, cut⟩
            rw [panics]
            simp [Panics]
  · exact iff_of_false (position_calm cut ringing) fun both => cut both.2

theorem kills_iff (ringing : List EndpointId) (cmd : CallCmd) :
    cmd.Kills iroh book ringing ↔ cmd.Cuts iroh book ringing := by
  cases cmd with
  | dial target => exact (panics_map ResolvedPeer.id).trans resolve_panics_iff
  | accept peer => exact position_panics_iff
  | reject peer => exact position_panics_iff

/-- **Tokens do not panic** exactly when they are not cut, or are recognised before they
are split. -/
theorem token_calm_iff (iroh : Iroh) (book : ContactBook) (token : Text) (peer : EndpointId)
    (ringing : List EndpointId) (cmd : CallCmd) :
    (¬ SplitFails iroh token ↔ ¬ Cut iroh token) ∧
      (¬ Panics (parseEndpointToken iroh token) ↔ ¬ Cut iroh token) ∧
      (¬ Panics (resolve iroh book token) ↔
        ¬ (book.find (trim token) = none ∧ Cut iroh token)) ∧
      (¬ Panics (matchPeerToken iroh book token peer) ↔
        ¬ (eqIgnoreAsciiCase token (iroh.display peer) = false ∧ Cut iroh token)) ∧
      (¬ cmd.Kills iroh book ringing ↔ ¬ cmd.Cuts iroh book ringing) :=
  ⟨not_congr splitFails_iff, not_congr parse_panics_iff, not_congr resolve_panics_iff,
    not_congr match_panics_iff, not_congr (kills_iff ringing cmd)⟩

/-- 52 digits and a letter with an accent. -/
def accented : Text := List.replicate 52 '0' ++ ['é']

/-- It panics as a token, and as that of a call it kills the loop of a daemon without
contacts. -/
theorem accented_call_kills :
    ¬ ((∀ (iroh : Iroh) (token : Text), ¬ Panics (parseEndpointToken iroh token)) ∨
      ∀ (iroh : Iroh) (book : ContactBook) (ringing : List EndpointId) (cmd : CallCmd),
        ¬ cmd.Kills iroh book ringing) := by
  have parsed : parseEndpointToken hexIds accented = .error .splitInsideChar := by decide +kernel
  have called : resolvePeerToken hexIds ⟨[], List.Pairwise.nil⟩ accented =
      .error .splitInsideChar := by decide +kernel
  rintro (tokens | requests)
  · exact tokens hexIds accented parsed
  · exact requests hexIds ⟨[], List.Pairwise.nil⟩ [] (.dial accented) called

end LinkP2p.Contacts
