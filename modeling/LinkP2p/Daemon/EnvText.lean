import LinkP2p.Contacts.Book

/-!
# Numbers and addresses as text

What the command writes into an environment variable with `to_string` is what the
worker gets back from it with `parse`.
-/

namespace LinkP2p.Daemon

open LinkP2p.Contacts
open LinkP2p.Identity (Text)
open LinkP2p.Tun (Ipv4Addr Ipv6Addr)

/-! ## Digits -/

/-- Each digit of a radix up to 16 is read as its value. -/
theorem toDigit_digitChar {radix : Nat} (small : radix ≤ 16) :
    ∀ d < radix, toDigit radix (Nat.digitChar d) = some d := by
  have all : ∀ radix ≤ 16, ∀ d < radix, toDigit radix (Nat.digitChar d) = some d := by decide
  exact all radix small

/-- The digits of a number, most significant first. -/
theorem toDigits_cases {radix : Nat} (base : 1 < radix) {goal : Nat → Prop}
    (digit : ∀ d < radix, goal d)
    (more : ∀ n d, 0 < n → d < radix → goal n → goal (radix * n + d)) (n : Nat) : goal n := by
  induction n using Nat.strong_induction_on with
  | h n ih =>
      by_cases small : n < radix
      · exact digit n small
      · have split := Nat.div_add_mod n radix
        have positive : 0 < n / radix := Nat.div_pos (Nat.not_lt.mp small) (by omega)
        have less : n / radix < n := Nat.div_lt_self (by omega) base
        rw [← split]
        exact more _ _ positive (Nat.mod_lt n (by omega)) (ih _ less)

theorem toDigits_step {radix n d : Nat} (base : 1 < radix) (positive : 0 < n) (small : d < radix) :
    Nat.toDigits radix (radix * n + d) = Nat.toDigits radix n ++ [Nat.digitChar d] := by
  rw [← Nat.toDigits_append_toDigits base positive small, Nat.toDigits_of_lt_base small]

/-- Only digits are written, and they are read as the number. -/
theorem toDigits_read {radix : Nat} (base : 1 < radix) (small : radix ≤ 16) (n : Nat) :
    (∀ c ∈ Nat.toDigits radix n, isDigit radix c = true) ∧
      (Nat.toDigits radix n).foldl
        (fun value c => value * radix + (toDigit radix c).getD 0) 0 = n := by
  induction n using toDigits_cases base with
  | digit d inside =>
      rw [Nat.toDigits_of_lt_base inside]
      have read := toDigit_digitChar small d inside
      refine ⟨?_, ?_⟩
      · intro c member
        rw [List.mem_singleton.mp member, isDigit, read]
        rfl
      · rw [List.foldl_cons, List.foldl_nil, read]
        simp
  | more n d positive inside ih =>
      rw [toDigits_step base positive inside]
      have read := toDigit_digitChar small d inside
      refine ⟨?_, ?_⟩
      · intro c member
        rcases List.mem_append.mp member with early | last
        · exact ih.1 c early
        · rw [List.mem_singleton.mp last, isDigit, read]
          rfl
      · rw [List.foldl_append, ih.2, List.foldl_cons, List.foldl_nil, read, Nat.mul_comm]
        rfl

/-- A number that is not zero does not begin with a zero. -/
theorem toDigits_head {radix : Nat} (base : 1 < radix) (small : radix ≤ 16) {n : Nat}
    (positive : 0 < n) : (Nat.toDigits radix n).head? ≠ some '0' := by
  have nonzero : ∀ d < 16, 0 < d → Nat.digitChar d ≠ '0' := by decide
  induction n using toDigits_cases base with
  | digit d inside =>
      rw [Nat.toDigits_of_lt_base inside]
      intro same
      exact nonzero d (by omega) positive (Option.some.inj same)
  | more n d before inside ih =>
      rw [toDigits_step base before inside, List.head?_append_of_ne_nil _ Nat.toDigits_ne_nil]
      exact ih before

/-- A text that does not go on with a digit. -/
def Ends (radix : Nat) (rest : Text) : Prop :=
  ∀ c, rest.head? = some c → isDigit radix c = false

theorem ends_nil (radix : Nat) : Ends radix [] := by
  intro c same
  cases same

theorem ends_cons {radix : Nat} {c : Char} (other : isDigit radix c = false) (rest : Text) :
    Ends radix (c :: rest) := by
  intro c' same
  cases same
  exact other

theorem takeWhile_of_ends {radix : Nat} {rest : Text} (ends : Ends radix rest) :
    rest.takeWhile (isDigit radix) = [] := by
  cases rest with
  | nil => rfl
  | cons c rest => rw [List.takeWhile_cons, ends c rfl, if_neg Bool.false_ne_true]

/-- A number is read back from its digits. -/
theorem readNumber_toDigits {radix bound n : Nat} {maxDigits : Option Nat} {rest : Text}
    (allowZeroPrefix : Bool) (base : 1 < radix) (small : radix ≤ 16) (below : n < bound)
    (fits : ∀ most, maxDigits = some most → 0 < most ∧ n < radix ^ most)
    (ends : Ends radix rest) :
    readNumber radix bound maxDigits allowZeroPrefix (Nat.toDigits radix n ++ rest) =
      some (n, rest) := by
  obtain ⟨digits, value⟩ := toDigits_read base small n
  have taken : (Nat.toDigits radix n ++ rest).takeWhile (isDigit radix) = Nat.toDigits radix n := by
    rw [List.takeWhile_append_of_pos digits, takeWhile_of_ends ends, List.append_nil]
  have short : (maxDigits.any (· < (Nat.toDigits radix n).length)) = false := by
    cases maxDigits with
    | none => rfl
    | some most =>
        obtain ⟨positive, fit⟩ := fits most rfl
        have bounded := (Nat.length_toDigits_le_iff base positive).mpr fit
        simpa using bounded
  have noPrefix : (!allowZeroPrefix && (Nat.toDigits radix n).head? = some '0' &&
      1 < (Nat.toDigits radix n).length) = false := by
    rcases Nat.eq_zero_or_pos n with rfl | positive
    · simp [Nat.toDigits_of_lt_base (Nat.lt_of_succ_lt base)]
    · simp [toDigits_head base small positive]
  simp only [readNumber, taken, value, short, noPrefix, Nat.toDigits_ne_nil, Nat.not_le.mpr below,
    decide_false, Bool.or_false, Bool.false_eq_true, if_false, List.drop_left]

theorem readNumber_of_ends {radix bound : Nat} {maxDigits : Option Nat} {zero : Bool} {rest : Text}
    (ends : Ends radix rest) : readNumber radix bound maxDigits zero rest = none := by
  simp only [readNumber, takeWhile_of_ends ends, decide_true, Bool.true_or, if_true]

/-! ## Numbers of sixteen bits -/

/-- `u16::from_str` -/
def parseU16 (text : Text) : Option (BitVec 16) :=
  let digits := if text.head? = some '+' then text.tail else text
  match readNumber 10 65536 none true digits with
  | some (n, []) => some (.ofNat 16 n)
  | _ => none

/-- `u16::to_string` -/
def displayU16 (n : BitVec 16) : Text := Nat.toDigits 10 n.toNat

theorem parseU16_displayU16 (n : BitVec 16) : parseU16 (displayU16 n) = some n := by
  have unsigned : (displayU16 n).head? ≠ some '+' := by
    intro same
    have digit := (toDigits_read (by decide) (by decide) n.toNat).1 '+' (List.mem_of_mem_head? same)
    revert digit
    decide
  have read : readNumber 10 65536 none true (displayU16 n) = some (n.toNat, []) := by
    have whole : readNumber 10 65536 none true (Nat.toDigits 10 n.toNat ++ []) =
        some (n.toNat, []) :=
      readNumber_toDigits true (by decide) (by decide) n.isLt (fun _ none => by cases none)
        (ends_nil 10)
    rwa [List.append_nil] at whole
  simp only [parseU16, if_neg unsigned, read, BitVec.ofNat_toNat, BitVec.setWidth_eq]

/-! ## IPv4 addresses -/

/-- `Ipv4Addr::fmt` -/
def displayIpv4 (ip : Nat) : Text :=
  Nat.toDigits 10 (ip / 16777216 % 256) ++ '.' :: (Nat.toDigits 10 (ip / 65536 % 256) ++
    '.' :: (Nat.toDigits 10 (ip / 256 % 256) ++ '.' :: Nat.toDigits 10 (ip % 256)))

/-- `Ipv4Addr::from_str`: a longer text has characters that are not read. -/
def parseIpv4Addr (text : Text) : Option Ipv4Addr :=
  if 15 < text.length then none
  else
    match readIpv4Addr text with
    | some (ip, []) => some (.ofNat 32 ip)
    | _ => none

theorem readSeparator_next {α : Type} {sep : Char} {index : Nat} (later : index ≠ 0)
    (inner : Text → Option (α × Text)) (rest : Text) :
    readSeparator sep index inner (sep :: rest) = inner rest := by
  rw [readSeparator, if_neg later, readGivenChar, if_pos rfl]
  rfl

theorem octet_fits {n : Nat} (small : n < 256) :
    ∀ most, some 3 = some most → 0 < most ∧ n < 10 ^ most := by
  rintro _ ⟨⟩
  omega

theorem readOctet {n : Nat} {rest : Text} (small : n < 256) (ends : Ends 10 rest) :
    readNumber 10 256 (some 3) false (Nat.toDigits 10 n ++ rest) = some (n, rest) :=
  readNumber_toDigits false (by decide) (by decide) small (octet_fits small) ends

theorem readIpv4Addr_display {ip : Nat} (small : ip < 2 ^ 32) (rest : Text) (ends : Ends 10 rest) :
    readIpv4Addr (displayIpv4 ip ++ rest) = some (ip, rest) := by
  have dot : ∀ rest, Ends 10 ('.' :: rest) := ends_cons (by decide)
  have whole : ((ip / 16777216 % 256 * 256 + ip / 65536 % 256) * 256 + ip / 256 % 256) * 256 +
      ip % 256 = ip := by omega
  have bound (n : Nat) : n % 256 < 256 := Nat.mod_lt n (by decide)
  simp only [readIpv4Addr, displayIpv4, List.range, List.range.loop, List.foldlM_cons,
    List.foldlM_nil, List.append_assoc, List.cons_append]
  rw [readSeparator, if_pos rfl, readOctet (bound _) (dot _)]
  simp only [Option.map_some, Option.bind_eq_bind, Option.bind_some]
  rw [readSeparator_next (by decide), readOctet (bound _) (dot _)]
  simp only [Option.map_some, Option.bind_some]
  rw [readSeparator_next (by decide), readOctet (bound _) (dot _)]
  simp only [Option.map_some, Option.bind_some]
  rw [readSeparator_next (by decide), readOctet (bound _) ends]
  simp only [Option.map_some, Option.bind_some, Nat.zero_mul, Nat.zero_add, whole]
  rfl

theorem length_octet {n : Nat} (small : n < 256) : (Nat.toDigits 10 n).length ≤ 3 :=
  (Nat.length_toDigits_le_iff (by decide) (by decide)).mpr (by omega)

theorem length_displayIpv4 (ip : Nat) : (displayIpv4 ip).length ≤ 15 := by
  have bound (n : Nat) : (Nat.toDigits 10 (n % 256)).length ≤ 3 :=
    length_octet (Nat.mod_lt n (by decide))
  have first := bound (ip / 16777216)
  have second := bound (ip / 65536)
  have third := bound (ip / 256)
  have fourth := bound ip
  simp only [displayIpv4, List.length_append, List.length_cons]
  omega

theorem parseIpv4Addr_display (ip : Ipv4Addr) : parseIpv4Addr (displayIpv4 ip.toNat) = some ip := by
  have read := readIpv4Addr_display ip.isLt [] (ends_nil 10)
  rw [List.append_nil] at read
  rw [parseIpv4Addr, if_neg (Nat.not_lt.mpr (length_displayIpv4 _)), read]
  simp only [BitVec.ofNat_toNat, BitVec.setWidth_eq]

/-! ## IPv6 addresses -/

/-- `Ipv6Addr::segments`, the last ones. -/
def segments : Nat → Nat → List Nat
  | 0, _ => []
  | count + 1, ip => segments count (ip / 65536) ++ [ip % 65536]

structure Span where
  start : Nat
  len : Nat

/-- The loop of `Ipv6Addr::fmt` that finds the first longest run of zeros. -/
def longestZeros : Nat → Span → Span → List Nat → Span
  | _, _, longest, [] => longest
  | i, current, longest, segment :: rest =>
      if segment = 0 then
        let current : Span :=
          ⟨if current.len = 0 then i else current.start, current.len + 1⟩
        longestZeros (i + 1) current (if longest.len < current.len then current else longest) rest
      else longestZeros (i + 1) ⟨0, 0⟩ longest rest

def displayTail (chunk : List Nat) : Text :=
  chunk.flatMap fun segment => ':' :: Nat.toDigits 16 segment

/-- `fmt_subslice` -/
def displaySubslice : List Nat → Text
  | [] => []
  | first :: tail => Nat.toDigits 16 first ++ displayTail tail

/-- `Ipv6Addr::fmt`; an IPv4-mapped address ends in the IPv4 form. -/
def displayIpv6 (ip : Nat) : Text :=
  if ip / 2 ^ 32 = 0xffff then "::ffff:".toList ++ displayIpv4 (ip % 2 ^ 32)
  else
    let segments := segments 8 ip
    let zeroes := longestZeros 0 ⟨0, 0⟩ ⟨0, 0⟩ segments
    if 1 < zeroes.len then
      displaySubslice (segments.take zeroes.start) ++
        ':' :: ':' :: displaySubslice (segments.drop (zeroes.start + zeroes.len))
    else displaySubslice segments

/-- `Ipv6Addr::from_str` -/
def parseIpv6Addr (text : Text) : Option Ipv6Addr :=
  match readIpv6Addr text with
  | some (groups, []) =>
      some (.ofNat 128 (groups.foldl (fun value group => value * 65536 + group) 0))
  | _ => none

example : displayIpv6 0xfd24ac18000000000000000000000001 = "fd24:ac18::1".toList := by
  decide +kernel

theorem length_segments (count ip : Nat) : (segments count ip).length = count := by
  induction count generalizing ip with
  | zero => rfl
  | succ count ih => rw [segments, List.length_append, ih, List.length_singleton]

theorem segments_small (count ip : Nat) : ∀ segment ∈ segments count ip, segment < 65536 := by
  induction count generalizing ip with
  | zero =>
      intro segment member
      cases member
  | succ count ih =>
      intro segment member
      rcases List.mem_append.mp member with early | last
      · exact ih _ segment early
      · rw [List.mem_singleton.mp last]
        exact Nat.mod_lt _ (by decide)

/-- The segments of an address are its digits in base 65536. -/
theorem foldl_segments (count ip : Nat) :
    (segments count ip).foldl (fun value group => value * 65536 + group) 0 =
      ip % 65536 ^ count := by
  induction count generalizing ip with
  | zero => rw [Nat.pow_zero, Nat.mod_one, segments, List.foldl_nil]
  | succ count ih =>
      rw [segments, List.foldl_append, ih, List.foldl_cons, List.foldl_nil, Nat.pow_succ',
        Nat.mod_mul]
      omega

/-! ### The run of zeros -/

/-- Every segment of the span is zero. -/
def Span.Zeros (segments : List Nat) (span : Span) : Prop :=
  ∀ i, span.start ≤ i → i < span.start + span.len → segments[i]? = some 0

theorem zeros_empty (segments : List Nat) : Span.Zeros segments ⟨0, 0⟩ := by
  intro i _ below
  cases below

theorem longestZeros_zeros {segments : List Nat} (i : Nat) {current longest : Span}
    (rest : List Nat) (here : segments.drop i = rest) (zeros : current.Zeros segments)
    (ends : current.len ≠ 0 → current.start + current.len = i)
    (best : longest.Zeros segments) :
    (longestZeros i current longest rest).Zeros segments := by
  induction rest generalizing i current longest with
  | nil => exact best
  | cons segment rest ih =>
      have next : segments.drop (i + 1) = rest := by
        rw [← List.drop_drop, here]
        rfl
      have first : segments[i]? = some segment := by
        rw [← List.head?_drop, here]
        rfl
      rw [longestZeros]
      by_cases zero : segment = 0
      · rw [if_pos zero]
        subst zero
        -- the run begins here, or goes on
        have grown : Span.Zeros segments
            ⟨if current.len = 0 then i else current.start, current.len + 1⟩ := by
          intro j after below
          by_cases fresh : current.len = 0
          · simp only [fresh, if_true] at after below
            rw [show j = i by omega]
            exact first
          · simp only [fresh, if_false] at after below
            have reach := ends fresh
            by_cases last : j = i
            · rw [last]
              exact first
            · exact zeros j after (by omega)
        refine ih (i + 1) next grown ?_ ?_
        · intro _
          by_cases fresh : current.len = 0
          · simp only [fresh, if_true]
          · have reach := ends fresh
            simp only [fresh, if_false]
            omega
        · dsimp only
          split
          · exact grown
          · exact best
      · rw [if_neg zero]
        exact ih (i + 1) next (zeros_empty segments) (fun some => absurd rfl some) best

/-- The list is what stands around the zeros with as many zeros between. -/
theorem split_zeros {segments : List Nat} {span : Span} (zeros : span.Zeros segments)
    (positive : 0 < span.len) :
    span.start + span.len ≤ segments.length ∧
      segments.take span.start ++ List.replicate span.len 0 ++
        segments.drop (span.start + span.len) = segments := by
  have inside : span.start + span.len ≤ segments.length := by
    have last := zeros (span.start + span.len - 1) (by omega) (by omega)
    have below := (List.getElem?_eq_some_iff.mp last).1
    omega
  refine ⟨inside, ?_⟩
  have middle : (segments.drop span.start).take span.len = List.replicate span.len 0 := by
    refine List.eq_replicate_iff.mpr ⟨?_, ?_⟩
    · rw [List.length_take, List.length_drop]
      omega
    · intro b member
      obtain ⟨j, below, rfl⟩ := List.mem_iff_getElem.mp member
      rw [List.length_take] at below
      have zero := zeros (span.start + j) (by omega) (by omega)
      rw [List.getElem_take, List.getElem_drop]
      exact (List.getElem?_eq_some_iff.mp zero).2
  rw [← middle, List.append_assoc, ← List.drop_drop, List.take_append_drop, List.take_append_drop]

/-! ### Reading the groups -/

theorem readNumber_rest {radix bound : Nat} {maxDigits : Option Nat} {zero : Bool}
    {text rest : Text} {value : Nat}
    (read : readNumber radix bound maxDigits zero text = some (value, rest)) :
    ∀ c ∈ rest, c ∈ text := by
  simp only [readNumber] at read
  split at read
  · cases read
  · cases read
    exact fun _ member => List.mem_of_mem_drop member

/-- An address begins with a digit. -/
theorem readIpv4Addr_of_ends {text : Text} (ends : Ends 10 text) : readIpv4Addr text = none := by
  simp only [readIpv4Addr, List.range, List.range.loop, List.foldlM_cons]
  rw [readSeparator, if_pos rfl, readNumber_of_ends ends]
  rfl

/-- Without a dot there is no IPv4 address. -/
theorem readIpv4Addr_of_noDot {text : Text} (noDot : '.' ∉ text) : readIpv4Addr text = none := by
  simp only [readIpv4Addr, List.range, List.range.loop, List.foldlM_cons]
  rw [readSeparator, if_pos rfl]
  cases read : readNumber 10 256 (some 3) false text with
  | none => rfl
  | some state =>
      obtain ⟨octet, rest⟩ := state
      have given : readGivenChar '.' rest = none := by
        cases rest with
        | nil => rfl
        | cons c rest =>
            rw [readGivenChar, if_neg]
            intro dot
            exact noDot (readNumber_rest read '.' (dot ▸ List.mem_cons_self))
      simp only [Option.map_some, Option.bind_eq_bind, Option.bind_some]
      rw [readSeparator, if_neg (by decide), given]
      rfl

/-- No further group follows. -/
def NoGroup (rest : Text) : Prop :=
  Ends 16 rest ∧ ∀ after, rest = ':' :: after → Ends 16 after

theorem stops_nil : NoGroup [] :=
  ⟨ends_nil 16, fun _ same => by cases same⟩

theorem stops_colons (rest : Text) : NoGroup (':' :: ':' :: rest) := by
  refine ⟨ends_cons (by decide) _, ?_⟩
  rintro _ ⟨⟩
  exact ends_cons (by decide) _

theorem group_fits {n : Nat} (small : n < 65536) :
    ∀ most, some 4 = some most → 0 < most ∧ n < 16 ^ most := by
  rintro _ ⟨⟩
  omega

theorem readGroup {n : Nat} {rest : Text} (small : n < 65536) (ends : Ends 16 rest) :
    readNumber 16 65536 (some 4) true (Nat.toDigits 16 n ++ rest) = some (n, rest) :=
  readNumber_toDigits true (by decide) (by decide) small (group_fits small) ends

theorem colon_ends (chunk : List Nat) {rest : Text} (ends : Ends 16 rest) :
    Ends 16 (displayTail chunk ++ rest) := by
  cases chunk with
  | nil => exact ends
  | cons segment chunk => exact ends_cons (by decide) _

theorem noDot_digits (segment : Nat) : '.' ∉ Nat.toDigits 16 segment := by
  intro member
  have digit := (toDigits_read (by decide) (by decide) segment).1 '.' member
  revert digit
  decide

theorem noDot_tail (chunk : List Nat) : '.' ∉ displayTail chunk := by
  intro member
  obtain ⟨segment, -, inside⟩ := List.mem_flatMap.mp member
  rcases List.mem_cons.mp inside with colon | digit
  · revert colon
    decide
  · exact noDot_digits segment digit

theorem noDot_append {fst snd : Text} (left : '.' ∉ fst) (right : '.' ∉ snd) :
    '.' ∉ fst ++ snd := by
  intro member
  rcases List.mem_append.mp member with inside | inside
  · exact left inside
  · exact right inside

/-- No IPv4 part can be read where there is no dot. -/
theorem embedded_none {limit index : Nat} {text : Text} (noDot : '.' ∉ text) :
    (if index + 1 < limit then readSeparator ':' index readIpv4Addr text else none) = none := by
  split
  · rw [readSeparator]
    split
    · exact readIpv4Addr_of_noDot noDot
    · cases text with
      | nil => rfl
      | cons c text =>
          rw [readGivenChar]
          split
          · exact readIpv4Addr_of_noDot (fun member => noDot (List.mem_cons_of_mem _ member))
          · rfl
  · rfl

theorem readSeparator_stops (index : Nat) {rest : Text} (stops : NoGroup rest) :
    readSeparator ':' index (readNumber 16 65536 (some 4) true) rest = none := by
  rw [readSeparator]
  split
  · exact readNumber_of_ends stops.1
  · cases rest with
    | nil => rfl
    | cons c rest =>
        rw [readGivenChar]
        split
        · next colon => exact readNumber_of_ends (stops.2 rest (by rw [colon]))
        · rfl

theorem readGroups_stops {limit left : Nat} {rest : Text} (noDot : '.' ∉ rest)
    (stops : NoGroup rest) : readGroups limit left rest = ([], false, rest) := by
  cases left with
  | zero => rfl
  | succ left =>
      simp only [readGroups, embedded_none noDot, readSeparator_stops _ stops]

/-- The groups after the first one. -/
theorem readGroups_tail {limit left : Nat} (later : left < limit) {chunk : List Nat} {rest : Text}
    (small : ∀ segment ∈ chunk, segment < 65536) (fits : chunk.length ≤ left)
    (noDot : '.' ∉ rest) (stops : NoGroup rest) :
    readGroups limit left (displayTail chunk ++ rest) = (chunk, false, rest) := by
  induction chunk generalizing left with
  | nil => exact readGroups_stops noDot stops
  | cons segment chunk ih =>
      obtain ⟨left, rfl⟩ := Nat.exists_eq_succ_of_ne_zero (Nat.pos_iff_ne_zero.mp
        (Nat.lt_of_lt_of_le (Nat.succ_pos _) fits))
      have text : displayTail (segment :: chunk) ++ rest =
          ':' :: (Nat.toDigits 16 segment ++ (displayTail chunk ++ rest)) := by
        rw [displayTail, List.flatMap_cons, List.cons_append, List.cons_append, List.append_assoc]
        rfl
      have whole := noDot_append (noDot_tail (segment :: chunk)) noDot
      rw [readGroups, embedded_none whole, text, readSeparator_next (by omega),
        readGroup (small segment List.mem_cons_self) (colon_ends chunk stops.1)]
      have others := ih (Nat.lt_of_succ_lt later)
        (fun other member => small other (List.mem_cons_of_mem _ member))
        (Nat.le_of_succ_le_succ fits)
      simp only [others]

/-- All groups that `fmt_subslice` writes. -/
theorem readGroups_display {limit : Nat} {chunk : List Nat} {rest : Text}
    (small : ∀ segment ∈ chunk, segment < 65536) (fits : chunk.length ≤ limit)
    (noDot : '.' ∉ rest) (stops : NoGroup rest) :
    readGroups limit limit (displaySubslice chunk ++ rest) = (chunk, false, rest) := by
  cases chunk with
  | nil => exact readGroups_stops noDot stops
  | cons segment chunk =>
      obtain ⟨left, rfl⟩ := Nat.exists_eq_succ_of_ne_zero (Nat.pos_iff_ne_zero.mp
        (Nat.lt_of_lt_of_le (Nat.succ_pos _) fits))
      have whole := noDot_append (noDot_append (noDot_digits segment) (noDot_tail chunk)) noDot
      rw [displaySubslice, readGroups, embedded_none whole, readSeparator, if_pos (by omega),
        List.append_assoc, readGroup (small segment List.mem_cons_self) (colon_ends chunk stops.1)]
      have others := readGroups_tail (Nat.lt_succ_self left)
        (fun other member => small other (List.mem_cons_of_mem _ member))
        (Nat.le_of_succ_le_succ fits) noDot stops
      simp only [others]

theorem noDot_subslice (chunk : List Nat) : '.' ∉ displaySubslice chunk := by
  cases chunk with
  | nil => exact List.not_mem_nil
  | cons segment chunk => exact noDot_append (noDot_digits segment) (noDot_tail chunk)

/-- An address written without a double colon. -/
theorem readIpv6Addr_whole {groups : List Nat} (small : ∀ segment ∈ groups, segment < 65536)
    (eight : groups.length = 8) : readIpv6Addr (displaySubslice groups) = some (groups, []) := by
  have read := readGroups_display small (Nat.le_of_eq eight) List.not_mem_nil stops_nil
  rw [List.append_nil] at read
  simp only [readIpv6Addr, read, eight, if_true]

/-- An address written with a double colon. -/
theorem readIpv6Addr_split {before after : List Nat} (small : ∀ segment ∈ before, segment < 65536)
    (small' : ∀ segment ∈ after, segment < 65536) (short : before.length + after.length < 8) :
    readIpv6Addr (displaySubslice before ++ ':' :: ':' :: displaySubslice after) =
      some (before ++ List.replicate (8 - before.length - after.length) 0 ++ after, []) := by
  have colons : '.' ∉ [':', ':'] := by decide
  have noDot : '.' ∉ ':' :: ':' :: displaySubslice after :=
    noDot_append colons (noDot_subslice after)
  have head := readGroups_display small (by omega : before.length ≤ 8) noDot (stops_colons _)
  have tail := readGroups_display small' (by omega : after.length ≤ 8 - (before.length + 1))
    List.not_mem_nil stops_nil
  rw [List.append_nil] at tail
  have short' : before.length ≠ 8 := by omega
  simp only [readIpv6Addr, head, if_neg short', Bool.false_eq_true, if_false, readGivenChar,
    if_true, Option.bind_some, Option.map_some, tail]

/-- An address that ends in the IPv4 form. -/
theorem readIpv6Addr_mapped {ip : Nat} (small : ip < 2 ^ 32) :
    readIpv6Addr ("::ffff:".toList ++ displayIpv4 ip) =
      some (List.replicate 5 0 ++ [65535, ip / 65536, ip % 65536], []) := by
  have v4 := readIpv4Addr_display small [] (ends_nil 10)
  rw [List.append_nil] at v4
  have text : "::ffff:".toList ++ displayIpv4 ip =
      ':' :: ':' :: (Nat.toDigits 16 65535 ++ ':' :: displayIpv4 ip) := by
    rfl
  have head (rest : Text) :
      readGroups 8 8 (':' :: ':' :: rest) = ([], false, ':' :: ':' :: rest) := by
    have noV4 : readIpv4Addr (':' :: ':' :: rest) = none :=
      readIpv4Addr_of_ends (ends_cons (by decide) _)
    have noGroup := readSeparator_stops 0 (stops_colons rest)
    rw [readGroups]
    simp only [readSeparator, Nat.sub_self, if_true, noV4, ite_self] at noGroup ⊢
    rw [noGroup]
  have last : readGroups 7 6 (':' :: displayIpv4 ip) = ([ip / 65536, ip % 65536], true, []) := by
    rw [readGroups, if_pos (by decide), readSeparator_next (by decide), v4]
  have tail : readGroups 7 7 (Nat.toDigits 16 65535 ++ ':' :: displayIpv4 ip) =
      ([65535, ip / 65536, ip % 65536], true, []) := by
    have noV4 : readIpv4Addr (Nat.toDigits 16 65535 ++ ':' :: displayIpv4 ip) = none :=
      readIpv4Addr_of_ends (ends_cons (by decide) _)
    have group := readGroup (by decide : 65535 < 65536)
      (ends_cons (by decide) (displayIpv4 ip) : Ends 16 (':' :: displayIpv4 ip))
    rw [readGroups]
    simp only [readSeparator, Nat.sub_self, if_true, noV4, ite_self, group, last]
  rw [text]
  simp only [readIpv6Addr, head, readGivenChar, if_true, Option.bind_some, List.length_nil,
    Nat.reduceSub, Nat.reduceAdd, Nat.reduceEqDiff, if_false, Bool.false_eq_true, Option.map_some,
    tail]
  rfl

/-- The groups that are read are the segments that were written. -/
theorem readIpv6Addr_display {ip : Nat} (small : ip < 2 ^ 128) :
    ∃ groups, readIpv6Addr (displayIpv6 ip) = some (groups, []) ∧
      groups.foldl (fun value group => value * 65536 + group) 0 = ip := by
  have bounded := segments_small 8 ip
  have eight := length_segments 8 ip
  have value : (segments 8 ip).foldl (fun value group => value * 65536 + group) 0 = ip := by
    rw [foldl_segments]
    exact Nat.mod_eq_of_lt small
  rw [displayIpv6]
  by_cases mapped : ip / 2 ^ 32 = 0xffff
  · rw [if_pos mapped]
    refine ⟨_, readIpv6Addr_mapped (Nat.mod_lt ip (by decide)), ?_⟩
    simp only [List.replicate, List.cons_append, List.nil_append, List.foldl_cons, List.foldl_nil]
    omega
  · rw [if_neg mapped]
    dsimp only
    by_cases run : 1 < (longestZeros 0 ⟨0, 0⟩ ⟨0, 0⟩ (segments 8 ip)).len
    · rw [if_pos run]
      have zeros : (longestZeros 0 ⟨0, 0⟩ ⟨0, 0⟩ (segments 8 ip)).Zeros (segments 8 ip) :=
        longestZeros_zeros 0 (segments 8 ip) List.drop_zero (zeros_empty _)
          (fun some => absurd rfl some) (zeros_empty _)
      obtain ⟨inside, whole⟩ := split_zeros zeros (by omega)
      generalize longestZeros 0 ⟨0, 0⟩ ⟨0, 0⟩ (segments 8 ip) = span at run inside whole ⊢
      have before : ((segments 8 ip).take span.start).length = span.start :=
        List.length_take_of_le (by omega)
      have after : ((segments 8 ip).drop (span.start + span.len)).length =
          8 - (span.start + span.len) := by
        rw [List.length_drop, eight]
      have read := readIpv6Addr_split
        (fun segment member => bounded segment (List.mem_of_mem_take member))
        (fun segment member => bounded segment (List.mem_of_mem_drop member))
        (by omega : ((segments 8 ip).take span.start).length +
          ((segments 8 ip).drop (span.start + span.len)).length < 8)
      have gap : 8 - ((segments 8 ip).take span.start).length -
          ((segments 8 ip).drop (span.start + span.len)).length = span.len := by
        omega
      rw [gap, whole] at read
      exact ⟨_, read, value⟩
    · rw [if_neg run]
      exact ⟨_, readIpv6Addr_whole bounded eight, value⟩

theorem parseIpv6Addr_display (ip : Ipv6Addr) : parseIpv6Addr (displayIpv6 ip.toNat) = some ip := by
  obtain ⟨groups, read, value⟩ := readIpv6Addr_display ip.isLt
  simp only [parseIpv6Addr, read, value, BitVec.ofNat_toNat, BitVec.setWidth_eq]

end LinkP2p.Daemon
