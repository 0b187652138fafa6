import LinkP2p.Contacts.TokenPanic
import LinkP2p.Identity.Strict

/-!
# Translated messages

A message is a template with numbered placeholders. It is scanned once, with offsets in
bytes; what is put in for a placeholder is not looked at again.
-/

namespace LinkP2p.I18n

open LinkP2p.Contacts (byteLength byteLength_append byteLength_cons isDigit readNumber splitAt
  splitAt_append toDigit utf8Size_eq_one_iff)
open LinkP2p.Identity (Text encode_ascii forall_ascii forall_byte utf8Encode utf8Encode_cons)

/-! ## Strings -/

/-- `&text[..n]`, which panics inside a character and beyond the end. -/
def sliceTo (text : Text) (n : Nat) : Option Text := (splitAt text n).map Prod.fst

/-- `&text[n..]` -/
def sliceFrom (text : Text) (n : Nat) : Option Text := (splitAt text n).map Prod.snd

/-- `str::find`: the offset of the character in bytes -/
def find (c : Char) : Text → Option Nat
  | [] => none
  | d :: rest => if d = c then some 0 else (find c rest).map (d.utf8Size + ·)

/-- `u8::is_ascii_digit` -/
def isAsciiDigit (b : UInt8) : Bool := 48 ≤ b && b ≤ 57

/-- `bytes().take_while(u8::is_ascii_digit).count()` -/
def digitsEnd (text : Text) : Nat := ((utf8Encode text).takeWhile isAsciiDigit).length

/-- `parse::<usize>` -/
def parseUsize (text : Text) : Option Nat :=
  let digits := if text.head? = some '+' then text.tail else text
  match readNumber 10 (2 ^ 64) none true digits with
  | some (n, []) => some n
  | _ => none

/-- A slice of strings: its length is a `usize`. -/
structure Args where
  list : List Text
  len : list.length < 2 ^ 64

theorem splitAt_parts {text front back : Text} {n : Nat}
    (split : splitAt text n = some (front, back)) :
    text = front ++ back ∧ byteLength front = n := by
  induction text generalizing n front with
  | nil =>
      cases n with
      | zero =>
          cases split
          exact ⟨rfl, rfl⟩
      | succ n => cases split
  | cons c rest ih =>
      cases n with
      | zero =>
          cases split
          exact ⟨rfl, rfl⟩
      | succ n =>
          rw [splitAt] at split
          obtain ⟨fits, split⟩ := Option.ite_none_right_eq_some.mp split
          obtain ⟨⟨front', back'⟩, inner, same⟩ := Option.map_eq_some_iff.mp split
          cases same
          obtain ⟨rfl, offset⟩ := ih inner
          refine ⟨rfl, ?_⟩
          rw [byteLength_cons, offset]
          omega

theorem sliceTo_append (front back : Text) :
    sliceTo (front ++ back) (byteLength front) = some front := by
  have split := splitAt_append front back 0
  rw [Nat.add_zero, splitAt, Option.map_some] at split
  rw [sliceTo, split]
  exact congrArg some (List.append_nil front)

theorem sliceFrom_append (front back : Text) :
    sliceFrom (front ++ back) (byteLength front) = some back := by
  have split := splitAt_append front back 0
  rw [Nat.add_zero, splitAt, Option.map_some] at split
  rw [sliceFrom, split]
  rfl

/-- A slice that leaves something out is shorter. -/
theorem length_sliceFrom_lt {text back : Text} {n : Nat} (positive : 0 < n)
    (slice : sliceFrom text n = some back) : back.length < text.length := by
  obtain ⟨⟨front, back'⟩, split, rfl⟩ := Option.map_eq_some_iff.mp slice
  obtain ⟨rfl, offset⟩ := splitAt_parts split
  cases front with
  | nil => exact absurd offset (Nat.ne_of_lt positive)
  | cons c front =>
      rw [List.length_append, List.length_cons]
      exact Nat.lt_add_of_pos_left (Nat.succ_pos _)

/-! ## The scanner -/

/-- What is written for a token: its argument, or else the token. -/
def tokenText (args : Args) (after : Text) (digits : Nat) : Option Text := do
  let index ← sliceTo after digits
  match (parseUsize index).bind fun i => args.list[i]? with
  | some arg => some arg
  | none => (sliceTo after (digits + 1)).map ('{' :: ·)

/-- One round of the loop of `tr_fmt_impl`, at a brace: what is written, and the rest; `none`
is a panic. -/
def scanBrace (args : Args) (rest : Text) (start : Nat) : Option (Text × Text) := do
  let before ← sliceTo rest start
  let after ← sliceFrom rest (start + 1)
  let digits := digitsEnd after
  if digits = 0 ∨ (utf8Encode after)[digits]? ≠ some 0x7d then
    some (before ++ ['{'], after)
  else
    let text ← tokenText args after digits
    let rest ← sliceFrom after (digits + 1)
    some (before ++ text, rest)

theorem length_scanBrace_lt {args : Args} {rest text later : Text} {start : Nat}
    (scanned : scanBrace args rest start = some (text, later)) : later.length < rest.length := by
  obtain ⟨before, -, scanned⟩ := Option.bind_eq_some_iff.mp scanned
  obtain ⟨after, slice, scanned⟩ := Option.bind_eq_some_iff.mp scanned
  have shorter := length_sliceFrom_lt (Nat.succ_pos start) slice
  dsimp only at scanned
  split at scanned
  · cases scanned
    exact shorter
  · obtain ⟨token, -, scanned⟩ := Option.bind_eq_some_iff.mp scanned
    obtain ⟨tail, slice', scanned⟩ := Option.bind_eq_some_iff.mp scanned
    cases scanned
    exact Nat.lt_trans (length_sliceFrom_lt (Nat.succ_pos _) slice') shorter

/-- The loop of `tr_fmt_impl` -/
def trFmtLoop (args : Args) (out rest : Text) : Option Text :=
  match find '{' rest with
  | none => some (out ++ rest)
  | some start =>
      match _ : scanBrace args rest start with
      | none => none
      | some (text, later) => trFmtLoop args (out ++ text) later
termination_by rest.length
decreasing_by exact length_scanBrace_lt ‹_›

def trFmtImpl (template : Text) (args : Args) : Option Text := trFmtLoop args [] template

/-! ## Templates -/

inductive Piece where
  | text (c : Char)
  | placeholder (digits : Text)
  deriving DecidableEq, Repr

/-- The placeholder that a brace begins, and the template after it. -/
def placeholder? (rest : Text) : Option (Text × Text) :=
  match rest.takeWhile (isDigit 10), rest.dropWhile (isDigit 10) with
  | d :: digits, '}' :: after => some (d :: digits, after)
  | _, _ => none

theorem placeholder?_eq_some {rest digits after : Text}
    (found : placeholder? rest = some (digits, after)) :
    rest = digits ++ '}' :: after ∧ digits ≠ [] ∧ (∀ c ∈ digits, isDigit 10 c = true) := by
  rw [placeholder?] at found
  split at found
  · rename_i d ds after' taken dropped
    cases found
    refine ⟨?_, List.cons_ne_nil _ _, ?_⟩
    · rw [← taken, ← dropped, List.takeWhile_append_dropWhile]
    · rw [← taken]
      exact fun c member => List.mem_takeWhile_imp member
  · cases found

/-- The template is split once, from the left. -/
def pieces : Text → List Piece
  | [] => []
  | c :: rest =>
      if c = '{' then
        match _ : placeholder? rest with
        | some (digits, after) => .placeholder digits :: pieces after
        | none => .text c :: pieces rest
      else .text c :: pieces rest
termination_by template => template.length
decreasing_by
  · obtain ⟨split, -, -⟩ := placeholder?_eq_some ‹_›
    rw [split, List.length_cons, List.length_append, List.length_cons]
    omega
  · exact Nat.lt_succ_self _
  · exact Nat.lt_succ_self _

/-- The part of the template that a piece was. -/
def Piece.source : Piece → Text
  | .text c => [c]
  | .placeholder digits => '{' :: (digits ++ ['}'])

/-- Nothing of the template is lost. -/
theorem pieces_source (template : Text) : (pieces template).flatMap Piece.source = template := by
  induction template using pieces.induct with
  | case1 => rw [pieces, List.flatMap_nil]
  | case2 rest digits after found ih =>
      rw [pieces, if_pos rfl, found]
      dsimp only
      rw [List.flatMap_cons, ih, Piece.source, (placeholder?_eq_some found).1]
      simp only [List.cons_append, List.append_assoc, List.nil_append]
  | case3 rest found ih =>
      rw [pieces, if_pos rfl, found]
      dsimp only
      rw [List.flatMap_cons, ih]
      rfl
  | case4 c rest other ih =>
      rw [pieces, if_neg other, List.flatMap_cons, ih]
      rfl

def number (digits : Text) : Nat :=
  digits.foldl (fun value c => value * 10 + (toDigit 10 c).getD 0) 0

/-- A placeholder without an argument stays as it is. -/
def fill (args : List Text) : Piece → Text
  | .text c => [c]
  | .placeholder digits => args.getD (number digits) (Piece.placeholder digits).source

/-- What a message is to be. -/
def reference (template : Text) (args : List Text) : Text := (pieces template).flatMap (fill args)

/-! ## The scanner reads the pieces -/

theorem find_absent {c : Char} {text : Text} (absent : c ∉ text) : find c text = none := by
  induction text with
  | nil => rfl
  | cons d rest ih =>
      rw [List.mem_cons, not_or] at absent
      rw [find, if_neg (Ne.symm absent.1), ih absent.2]
      rfl

theorem find_append {c : Char} {before : Text} (absent : c ∉ before) (after : Text) :
    find c (before ++ c :: after) = some (byteLength before) := by
  induction before with
  | nil => exact if_pos rfl
  | cons d before ih =>
      rw [List.mem_cons, not_or] at absent
      rw [List.cons_append, find, if_neg (Ne.symm absent.1), ih absent.2, byteLength_cons]
      rfl

theorem pieces_plain {before : Text} (plain : '{' ∉ before) (rest : Text) :
    pieces (before ++ rest) = before.map .text ++ pieces rest := by
  induction before with
  | nil => rfl
  | cons c before ih =>
      rw [List.mem_cons, not_or] at plain
      obtain ⟨other, later⟩ := plain
      rw [List.cons_append, pieces, if_neg (Ne.symm other), ih later]
      rfl

theorem fill_plain (args : List Text) (before : Text) :
    (before.map Piece.text).flatMap (fill args) = before := by
  induction before with
  | nil => rfl
  | cons c before ih =>
      rw [List.map_cons, List.flatMap_cons, ih]
      rfl

/-- A wider character has no ASCII bytes. -/
theorem wide_bytes {c : Char} (more : c.utf8Size ≠ 1) :
    ∃ lead others, String.utf8EncodeChar c = lead :: others ∧ 128 ≤ lead.toNat := by
  have two : ∀ x : UInt8, 128 ≤ (x &&& 0x1f ||| 0xc0).toNat := forall_byte (by decide +kernel)
  have three : ∀ x : UInt8, 128 ≤ (x &&& 0x0f ||| 0xe0).toNat := forall_byte (by decide +kernel)
  have four : ∀ x : UInt8, 128 ≤ (x &&& 0x07 ||| 0xf0).toNat := forall_byte (by decide +kernel)
  have positive := c.utf8Size_pos
  have most := c.utf8Size_le_four
  obtain size | size | size : c.utf8Size = 2 ∨ c.utf8Size = 3 ∨ c.utf8Size = 4 := by omega
  · exact ⟨_, _, String.utf8EncodeChar_eq_cons_cons size, two _⟩
  · exact ⟨_, _, String.utf8EncodeChar_eq_cons_cons_cons size, three _⟩
  · exact ⟨_, _, String.utf8EncodeChar_eq_cons_cons_cons_cons size, four _⟩

theorem isAsciiDigit_iff {b : UInt8} : isAsciiDigit b = true ↔ 48 ≤ b.toNat ∧ b.toNat ≤ 57 := by
  rw [isAsciiDigit, Bool.and_eq_true, decide_eq_true_iff, decide_eq_true_iff,
    UInt8.le_iff_toNat_le, UInt8.le_iff_toNat_le]
  rfl

/-- The digits are as many bytes as characters. -/
theorem digits_spec (after : Text) :
    digitsEnd after = (after.takeWhile (isDigit 10)).length ∧
      byteLength (after.takeWhile (isDigit 10)) = (after.takeWhile (isDigit 10)).length ∧
        (utf8Encode after)[digitsEnd after]? =
          (utf8Encode (after.dropWhile (isDigit 10))).head? := by
  induction after with
  | nil => exact ⟨rfl, rfl, rfl⟩
  | cons c rest ih =>
      obtain ⟨count, length, next⟩ := ih
      by_cases one : c.utf8Size = 1
      · have byte : isAsciiDigit (.ofNat c.toNat) = isDigit 10 c :=
          forall_ascii (P := fun c => isAsciiDigit (.ofNat c.toNat) = isDigit 10 c)
            (by decide +kernel) one
        rw [digitsEnd, encode_ascii one, List.takeWhile_cons, List.takeWhile_cons,
          List.dropWhile_cons, byte]
        by_cases digit : isDigit 10 c = true
        · rw [if_pos digit, if_pos digit, if_pos digit, List.length_cons, List.length_cons,
            byteLength_cons, one, length]
          refine ⟨congrArg (· + 1) count, Nat.add_comm _ _, ?_⟩
          exact next
        · rw [if_neg digit, if_neg digit, if_neg digit, encode_ascii one]
          exact ⟨rfl, rfl, rfl⟩
      · obtain ⟨lead, others, encoded, high⟩ := wide_bytes one
        have noByte : ¬ isAsciiDigit lead = true := by
          rw [isAsciiDigit_iff]
          omega
        have noDigit : ¬ isDigit 10 c = true := by
          have wide : 128 ≤ c.toNat :=
            Nat.not_lt.mp fun small => one (utf8Size_eq_one_iff.mpr small)
          have none_ : toDigit 10 c = none := by
            simp only [toDigit, show ¬ (48 ≤ c.toNat ∧ c.toNat ≤ 57) by omega,
              show ¬ (97 ≤ c.toNat ∧ c.toNat ≤ 122) by omega,
              show ¬ (65 ≤ c.toNat ∧ c.toNat ≤ 90) by omega, if_false, Nat.lt_irrefl]
          rw [isDigit, none_]
          exact Bool.false_ne_true
        rw [digitsEnd, utf8Encode_cons, encoded, List.cons_append, List.takeWhile_cons,
          List.takeWhile_cons, List.dropWhile_cons, if_neg noByte, if_neg noDigit, if_neg noDigit,
          utf8Encode_cons, encoded]
        exact ⟨rfl, rfl, rfl⟩

/-- The next byte is a brace when the next character is one. -/
theorem brace_iff (rest : Text) : (utf8Encode rest).head? = some 0x7d ↔ rest.head? = some '}' := by
  cases rest with
  | nil => exact iff_of_false nofun nofun
  | cons c rest =>
      by_cases one : c.utf8Size = 1
      · have byte : UInt8.ofNat c.toNat = 0x7d ↔ c = '}' :=
          forall_ascii (P := fun c => UInt8.ofNat c.toNat = 0x7d ↔ c = '}') (by decide +kernel) one
        rw [encode_ascii one, List.head?_cons, List.head?_cons, Option.some_inj, Option.some_inj]
        exact byte
      · obtain ⟨lead, others, encoded, high⟩ := wide_bytes one
        rw [utf8Encode_cons, encoded, List.cons_append, List.head?_cons, List.head?_cons,
          Option.some_inj, Option.some_inj]
        refine iff_of_false ?_ ?_
        · rintro rfl
          exact absurd high (by decide)
        · rintro rfl
          exact one rfl

theorem parseUsize_digits {digits : Text} (some_ : digits ≠ [])
    (all : ∀ c ∈ digits, isDigit 10 c = true) :
    parseUsize digits = if number digits < 2 ^ 64 then some (number digits) else none := by
  have unsigned : digits.head? ≠ some '+' := by
    intro signed
    have digit := all '+' (List.mem_of_mem_head? signed)
    cases digit
  have taken : digits.takeWhile (isDigit 10) = digits := List.takeWhile_eq_self_iff.mpr all
  have value : digits.foldl (fun value c => value * 10 + (toDigit 10 c).getD 0) 0 =
      number digits := rfl
  simp only [parseUsize, if_neg unsigned, readNumber, taken, value, some_, Option.any_none,
    Bool.not_true, Bool.false_and, decide_false, Bool.false_or, decide_eq_true_eq,
    List.drop_length]
  by_cases small : number digits < 2 ^ 64
  · rw [if_pos small, if_neg (Nat.not_le.mpr small)]
  · rw [if_neg small, if_pos (Nat.not_lt.mp small)]

theorem tokenText_eq (args : Args) {digits : Text} (some_ : digits ≠ [])
    (all : ∀ c ∈ digits, isDigit 10 c = true) (width : byteLength digits = digits.length)
    (rest : Text) :
    tokenText args (digits ++ '}' :: rest) digits.length =
      some (fill args.list (.placeholder digits)) := by
  have index : sliceTo (digits ++ '}' :: rest) digits.length = some digits := by
    rw [← width]
    exact sliceTo_append digits _
  have token : sliceTo (digits ++ '}' :: rest) (digits.length + 1) = some (digits ++ ['}']) := by
    have whole := sliceTo_append (digits ++ ['}']) rest
    rwa [List.append_assoc, byteLength_append, width] at whole
  have found : ((parseUsize digits).bind fun i => args.list[i]?) = args.list[number digits]? := by
    rw [parseUsize_digits some_ all]
    by_cases small : number digits < 2 ^ 64
    · rw [if_pos small, Option.bind_some]
    · rw [if_neg small, Option.bind_none, eq_comm, List.getElem?_eq_none_iff]
      exact Nat.le_trans (Nat.le_of_lt args.len) (Nat.not_lt.mp small)
  rw [tokenText, index, Option.bind_eq_bind, Option.bind_some, found, token, fill,
    List.getD_eq_getElem?_getD]
  cases args.list[number digits]? with
  | none => rfl
  | some arg => rfl

theorem placeholder?_none {after : Text} (absent : placeholder? after = none) :
    after.takeWhile (isDigit 10) = [] ∨ (after.dropWhile (isDigit 10)).head? ≠ some '}' := by
  rw [placeholder?] at absent
  split at absent
  · cases absent
  · rename_i other
    by_contra both
    rw [not_or, not_not] at both
    obtain ⟨d, digits, taken⟩ := List.exists_cons_of_ne_nil both.1
    obtain ⟨tail, dropped⟩ := List.head?_eq_some_iff.mp both.2
    exact other d digits tail taken dropped

/-- At a brace the scanner reads a placeholder if there is one, and passes the brace on if not. -/
theorem scanBrace_eq (args : Args) (before after : Text) :
    scanBrace args (before ++ '{' :: after) (byteLength before) =
      match placeholder? after with
      | some (digits, rest) => some (before ++ fill args.list (.placeholder digits), rest)
      | none => some (before ++ ['{'], after) := by
  have first : sliceTo (before ++ '{' :: after) (byteLength before) = some before :=
    sliceTo_append before _
  have second : sliceFrom (before ++ '{' :: after) (byteLength before + 1) = some after := by
    have past := sliceFrom_append (before ++ ['{']) after
    rwa [List.append_assoc, byteLength_append] at past
  obtain ⟨count, length, next⟩ := digits_spec after
  rw [scanBrace, first, second]
  simp only [Option.bind_eq_bind, Option.bind_some]
  cases found : placeholder? after with
  | none =>
      refine if_pos ?_
      rw [next, count, List.length_eq_zero_iff, ne_eq, brace_iff]
      exact placeholder?_none found
  | some parts =>
      obtain ⟨digits, rest⟩ := parts
      obtain ⟨rfl, some_, all⟩ := placeholder?_eq_some found
      have taken : (digits ++ '}' :: rest).takeWhile (isDigit 10) = digits := by
        rw [List.takeWhile_append_of_pos all]
        exact List.append_nil digits
      have dropped : (digits ++ '}' :: rest).dropWhile (isDigit 10) = '}' :: rest := by
        rw [List.dropWhile_append_of_pos all]
        rfl
      rw [taken] at count length
      rw [dropped, brace_iff _ |>.mpr rfl] at next
      have tail : sliceFrom (digits ++ '}' :: rest) (digits.length + 1) = some rest := by
        have past := sliceFrom_append (digits ++ ['}']) rest
        rwa [List.append_assoc, byteLength_append, length] at past
      rw [next, count, if_neg, tokenText_eq args some_ all length, tail]
      · rfl
      · rw [not_or, ne_eq, not_not]
        exact ⟨fun none_ => some_ (List.length_eq_zero_iff.mp none_), rfl⟩

theorem trFmtLoop_brace (args : Args) (out : Text) {before : Text} (plain : '{' ∉ before)
    (after : Text) :
    trFmtLoop args out (before ++ '{' :: after) =
      (scanBrace args (before ++ '{' :: after) (byteLength before)).bind fun (text, later) =>
        trFmtLoop args (out ++ text) later := by
  rw [trFmtLoop, find_append plain]
  dsimp only
  split
  · rename_i scanned
    rw [scanned]
    rfl
  · rename_i text later scanned
    rw [scanned]
    rfl

theorem trFmtLoop_eq (args : Args) (out rest : Text) :
    trFmtLoop args out rest = some (out ++ (pieces rest).flatMap (fill args.list)) := by
  induction size : rest.length using Nat.strong_induction_on generalizing out rest with
  | h size ih =>
      by_cases brace : '{' ∈ rest
      · obtain ⟨before, after, rfl, plain⟩ := List.eq_append_cons_of_mem brace
        rw [List.length_append, List.length_cons] at size
        rw [trFmtLoop_brace args out plain, scanBrace_eq, pieces_plain plain, pieces, if_pos rfl,
          List.flatMap_append, fill_plain]
        cases next : placeholder? after with
        | none =>
            rw [Option.bind_some]
            dsimp only
            rw [ih _ (by omega) _ after rfl]
            simp only [List.flatMap_cons, fill, List.append_assoc, List.cons_append,
              List.nil_append]
        | some parts =>
            obtain ⟨digits, later⟩ := parts
            obtain ⟨split, -, -⟩ := placeholder?_eq_some next
            rw [split, List.length_append, List.length_cons] at size
            rw [Option.bind_some]
            dsimp only
            rw [ih _ (by omega) _ later rfl, List.flatMap_cons]
            simp only [List.append_assoc]
      · have whole := pieces_plain brace []
        rw [List.append_nil, pieces, List.append_nil] at whole
        rw [trFmtLoop, find_absent brace, whole, fill_plain]

/-- **A message is its template**, split once into placeholders and text, with the arguments
in the place of the placeholders that have one. -/
theorem tr_fmt_one_pass (template : Text) (args : Args) :
    trFmtImpl template args = some (reference template args.list) := by
  rw [trFmtImpl, trFmtLoop_eq, List.nil_append, reference]

end LinkP2p.I18n
