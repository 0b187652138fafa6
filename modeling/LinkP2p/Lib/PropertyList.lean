import LinkP2p.Lib.CommandLine
import Mathlib.Data.List.Chain
import Mathlib.Data.List.Infix

/-!
# Property lists

The strings of an array in an XML property list: character data, references, `CDATA`
sections and the tags between them. Comments inside of a string are refused, as property
list readers do. A document with a character outside of XML 1.0 is refused as a whole,
and its line ends are made one before it is read.
-/

namespace LinkP2p.Lib.PropertyList

open LinkP2p.Lib.CommandLine (digitValue isBlank)

/-! ## Documents -/

/-- `Char` -/
def isXmlChar (c : Char) : Bool :=
  c = '\t' || c = '\n' || c = '\r' || (32 ≤ c.toNat && c.toNat ≤ 65533) || 65536 ≤ c.toNat

/-- A carriage return, with the line feed behind it if there is one, is made a line feed. -/
def lineEnds : List Char → List Char
  | '\r' :: '\n' :: rest => '\n' :: lineEnds rest
  | '\r' :: rest => '\n' :: lineEnds rest
  | c :: rest => c :: lineEnds rest
  | [] => []

/-- The text that is parsed. -/
def document (text : List Char) : Option (List Char) :=
  if text.all isXmlChar then some (lineEnds text) else none

theorem length_lineEnds_le (text : List Char) : (lineEnds text).length ≤ text.length := by
  induction text using lineEnds.induct with
  | case1 rest ih =>
      rw [lineEnds]
      simp only [List.length_cons]
      omega
  | case2 rest other ih =>
      rw [lineEnds]
      · exact Nat.succ_le_succ ih
      · exact other
  | case3 c rest other other' ih =>
      rw [lineEnds]
      · exact Nat.succ_le_succ ih
      · exact other
      · exact other'
  | case4 => exact Nat.le_refl _

theorem return_lineEnds (text : List Char) : '\r' ∉ lineEnds text := by
  induction text using lineEnds.induct with
  | case1 rest ih =>
      rw [lineEnds, List.mem_cons]
      exact not_or.mpr ⟨by decide, ih⟩
  | case2 rest other ih =>
      rw [lineEnds, List.mem_cons]
      · exact not_or.mpr ⟨by decide, ih⟩
      · exact other
  | case3 c rest other other' ih =>
      rw [lineEnds, List.mem_cons]
      · exact not_or.mpr ⟨fun same => other' same.symm, ih⟩
      · exact other
      · exact other'
  | case4 => exact List.not_mem_nil

theorem lineEnds_cons {c : Char} (other : c ≠ '\r') (rest : List Char) :
    lineEnds (c :: rest) = c :: lineEnds rest := by
  rw [lineEnds]
  · exact fun _ same _ => other same
  · exact other

theorem lineEnds_return {rest : List Char} (other : ∀ later, rest ≠ '\n' :: later) :
    lineEnds ('\r' :: rest) = '\n' :: lineEnds rest := by
  rw [lineEnds]
  exact other

/-- What has no carriage return stands as it is. -/
theorem lineEnds_append {front : List Char} (free : '\r' ∉ front) (rest : List Char) :
    lineEnds (front ++ rest) = front ++ lineEnds rest := by
  induction front with
  | nil => rfl
  | cons c front ih =>
      obtain ⟨other, later⟩ := not_or.mp (mt List.mem_cons.mpr free)
      rw [List.cons_append, lineEnds_cons (Ne.symm other), ih later, List.cons_append]

theorem lineEnds_eq_iff {text : List Char} : lineEnds text = text ↔ '\r' ∉ text := by
  constructor
  · intro same
    rw [← same]
    exact return_lineEnds text
  · intro free
    have whole := lineEnds_append free []
    rwa [List.append_nil, lineEnds, List.append_nil] at whole

/-- The line ends before a character that is no line feed are on their own. -/
theorem lineEnds_before {c : Char} (other : c ≠ '\n') (text rest : List Char) :
    lineEnds (text ++ c :: rest) = lineEnds text ++ lineEnds (c :: rest) := by
  induction text using lineEnds.induct with
  | case1 text ih =>
      rw [List.cons_append, List.cons_append, lineEnds, lineEnds, ih, List.cons_append]
  | case2 text none_ ih =>
      have next : ∀ later, text ++ c :: rest ≠ '\n' :: later := by
        intro later same
        cases text with
        | nil => exact other (List.cons.inj same).1
        | cons d text => exact none_ text (by rw [(List.cons.inj same).1])
      rw [List.cons_append, lineEnds_return next, lineEnds_return none_, ih, List.cons_append]
  | case3 d text none_ none' ih =>
      rw [List.cons_append, lineEnds_cons none', lineEnds_cons none', ih, List.cons_append]
  | case4 => rfl

/-! ## Character data -/

/-- A reference, too, is to a character of XML. -/
def charOf? (radix : Nat) (digits : List Char) : Option Char :=
  let n := digits.foldl (fun n c => n * radix + digitValue c) 0
  (if digits ≠ [] ∧ digits.all (digitValue · < radix) ∧ n.isValidChar then some (.ofNat n)
    else none).filter isXmlChar

def entityTable : List (List Char × Char) :=
  [("amp".toList, '&'), ("lt".toList, '<'), ("gt".toList, '>'), ("quot".toList, '"'),
    ("apos".toList, '\'')]

def entity : List Char → Option Char
  | '#' :: 'x' :: digits => charOf? 16 digits
  | '#' :: digits => charOf? 10 digits
  | name => entityTable.lookup name

def isNameChar (c : Char) : Bool := c.isAlphanum || c = '#'

/-- The character that the name behind an ampersand stands for. -/
def reference (text : List Char) : Option (Char × List Char) :=
  match text.dropWhile isNameChar with
  | ';' :: later => (entity (text.takeWhile isNameChar)).map fun c => (c, later)
  | _ => none

/-- A `CDATA` section, after its first character. -/
def section? (text : List Char) : Option (List Char × List Char) :=
  (text.dropPrefix? "![CDATA[".toList).bind (·.dropInfix? "]]>".toList)

def closing : List Char := "</string>".toList

theorem reference_split {text later : List Char} {c : Char}
    (found : reference text = some (c, later)) :
    text = text.takeWhile isNameChar ++ ';' :: later := by
  rw [reference] at found
  split at found
  · rename_i split
    obtain ⟨_, -, same⟩ := Option.map_eq_some_iff.mp found
    cases same
    rw [← split, List.takeWhile_append_dropWhile]
  · cases found

theorem section_split {text raw later : List Char} (found : section? text = some (raw, later)) :
    text = "![CDATA[".toList ++ (raw ++ "]]>".toList ++ later) := by
  obtain ⟨inner, opened, closed⟩ := Option.bind_eq_some_iff.mp found
  obtain ⟨p, rfl, same⟩ := List.dropPrefix?_eq_some_iff.mp opened
  obtain ⟨⟨p', rfl, same'⟩, -⟩ := List.dropInfix?_eq_some_iff.mp closed
  rw [eq_of_beq same, eq_of_beq same']

/-- The data of a string up to its closing tag, and the text after that. -/
def content : List Char → Option (List Char × List Char)
  | [] => none
  | c :: rest =>
      if c = '&' then
        match _ : reference rest with
        | some (d, later) => (content later).map fun (w, after) => (d :: w, after)
        | none => none
      else if c = '<' then
        match _ : section? rest with
        | some (raw, later) => (content later).map fun (w, after) => (raw ++ w, after)
        | none => ((c :: rest).dropPrefix? closing).map fun after => ([], after)
      else if "]]>".toList <+: c :: rest then none
      else (content rest).map fun (w, after) => (c :: w, after)
termination_by text => text.length
decreasing_by
  · have split := congrArg List.length (reference_split ‹_›)
    rw [List.length_append, List.length_cons] at split
    rw [List.length_cons]
    omega
  · have split := congrArg List.length (section_split ‹_›)
    simp only [List.length_append] at split
    rw [List.length_cons]
    omega
  · exact Nat.lt_succ_self _

/-- How the data of a string is read. -/
inductive Reads : List Char → List Char → List Char → Prop
  | close (after : List Char) : Reads (closing ++ after) [] after
  | reference {rest later w after : List Char} {c : Char}
      (found : reference rest = some (c, later)) (reads : Reads later w after) :
      Reads ('&' :: rest) (c :: w) after
  | cdata {rest raw later w after : List Char} (found : section? rest = some (raw, later))
      (reads : Reads later w after) : Reads ('<' :: rest) (raw ++ w) after
  | char {rest w after : List Char} {c : Char} (plain : c ≠ '&' ∧ c ≠ '<')
      (inside : ¬ "]]>".toList <+: c :: rest) (reads : Reads rest w after) :
      Reads (c :: rest) (c :: w) after

theorem content_reads {text w after : List Char} (found : content text = some (w, after)) :
    Reads text w after := by
  induction text using content.induct generalizing w with
  | case1 =>
      rw [content] at found
      cases found
  | case2 rest c later read ih =>
      rw [content, if_pos rfl, read] at found
      obtain ⟨⟨w', after'⟩, inner, same⟩ := Option.map_eq_some_iff.mp found
      cases same
      exact .reference read (ih inner)
  | case3 rest failed =>
      rw [content, if_pos rfl, failed] at found
      cases found
  | case4 rest raw later read other ih =>
      rw [content, if_neg other, if_pos rfl, read] at found
      obtain ⟨⟨w', after'⟩, inner, same⟩ := Option.map_eq_some_iff.mp found
      cases same
      exact .cdata read (ih inner)
  | case5 rest failed other =>
      rw [content, if_neg other, if_pos rfl, failed] at found
      obtain ⟨after', closed, same⟩ := Option.map_eq_some_iff.mp found
      cases same
      obtain ⟨p, split, same⟩ := List.dropPrefix?_eq_some_iff.mp closed
      rw [split, eq_of_beq same]
      exact .close after
  | case6 c rest solid open_ ends =>
      rw [content, if_neg solid, if_neg open_, if_pos ends] at found
      cases found
  | case7 c rest solid open_ inside ih =>
      rw [content, if_neg solid, if_neg open_, if_neg inside] at found
      obtain ⟨⟨w', after'⟩, inner, same⟩ := Option.map_eq_some_iff.mp found
      cases same
      exact .char ⟨solid, open_⟩ inside (ih inner)

/-- Text in which nothing is special. -/
structure Plain (w : List Char) : Prop where
  solid : '&' ∉ w
  untagged : '<' ∉ w
  inside : ¬ "]]>".toList <:+: w

instance (w : List Char) : Decidable (Plain w) :=
  decidable_of_iff ('&' ∉ w ∧ '<' ∉ w ∧ ¬ "]]>".toList <:+: w)
    ⟨fun ⟨solid, untagged, inside⟩ => ⟨solid, untagged, inside⟩,
      fun plain => ⟨plain.solid, plain.untagged, plain.inside⟩⟩

variable {text w after : List Char}

/-- Reading never makes the data longer, and data as long as its source stands there as it is. -/
theorem Reads.shrinks (reads : Reads text w after) :
    w.length + after.length + closing.length ≤ text.length ∧
      (w.length + after.length + closing.length = text.length →
        Plain w ∧ text = w ++ (closing ++ after)) := by
  induction reads with
  | close after =>
      rw [List.length_append, List.length_nil]
      exact ⟨by omega, fun _ => ⟨by decide, rfl⟩⟩
  | reference found _ ih =>
      have split := congrArg List.length (reference_split found)
      simp only [List.length_append, List.length_cons] at split ⊢
      exact ⟨by omega, fun same => absurd same (by omega)⟩
  | cdata found _ ih =>
      have split := congrArg List.length (section_split found)
      simp only [List.length_append, List.length_cons] at split ⊢
      exact ⟨by omega, fun same => absurd same (by omega)⟩
  | @char rest w after c plain inside _ ih =>
      obtain ⟨bound, tight⟩ := ih
      rw [List.length_cons, List.length_cons]
      refine ⟨by omega, fun same => ?_⟩
      obtain ⟨rest_plain, whole⟩ := tight (by omega)
      have free : ¬ "]]>".toList <:+: c :: w := by
        intro found
        rcases List.infix_cons_iff.mp found with here | later
        · refine inside ?_
          rw [whole, ← List.cons_append]
          exact here.trans (List.prefix_append _ _)
        · exact rest_plain.inside later
      refine ⟨⟨?_, ?_, free⟩, by rw [whole, List.cons_append]⟩
      · exact List.not_mem_cons_of_ne_of_not_mem plain.1.symm rest_plain.solid
      · exact List.not_mem_cons_of_ne_of_not_mem plain.2.symm rest_plain.untagged

/-! ## Data that stands as it is -/

theorem content_close (after : List Char) : content (closing ++ after) = some ([], after) := by
  have drops : (closing ++ after).dropPrefix? closing = some after :=
    List.dropPrefix?_append_of_beq _ (beq_self_eq_true _)
  have front : closing ++ after = '<' :: ("/string>".toList ++ after) := rfl
  have no_section : section? ("/string>".toList ++ after) = none := rfl
  rw [front] at drops ⊢
  rw [content, if_neg (by decide), if_pos rfl, no_section]
  dsimp only
  rw [drops]
  rfl

theorem content_char {c : Char} (solid : c ≠ '&') (open_ : c ≠ '<') {rest : List Char}
    (inside : ¬ "]]>".toList <+: c :: rest) :
    content (c :: rest) = (content rest).map fun (w, after) => (c :: w, after) := by
  rw [content, if_neg solid, if_neg open_, if_neg inside]

theorem content_reference {rest later : List Char} {c : Char}
    (found : reference rest = some (c, later)) :
    content ('&' :: rest) = (content later).map fun (w, after) => (c :: w, after) := by
  rw [content, if_pos rfl, found]

/-- What ends a section does not reach into the tag behind the data. -/
theorem section_end_of_prefix {front back : List Char}
    (begins : "]]>".toList <+: front ++ '<' :: back) : "]]>".toList <+: front := by
  have tag : front ++ ['<'] <+: front ++ '<' :: back := ⟨back, by rw [List.append_assoc]; rfl⟩
  rcases List.prefix_or_prefix_of_prefix begins tag with shorter | longer
  · rcases List.prefix_concat_iff.mp shorter with same | inside
    · have last : '<' ∈ "]]>".toList := by
        rw [same]
        exact List.mem_append_right front List.mem_cons_self
      exact absurd last (by decide)
    · exact inside
  · have last := longer.subset (List.mem_append_right front List.mem_cons_self)
    exact absurd last (by decide)

theorem content_plain (w after : List Char) (plain : Plain w) :
    content (w ++ (closing ++ after)) = some (w, after) := by
  induction w with
  | nil => exact content_close after
  | cons c w ih =>
      obtain ⟨solid, later⟩ := not_or.mp (mt List.mem_cons.mpr plain.solid)
      obtain ⟨open_, later'⟩ := not_or.mp (mt List.mem_cons.mpr plain.untagged)
      have rest : Plain w :=
        ⟨later, later', fun found => plain.inside (List.infix_cons found)⟩
      have inside : ¬ "]]>".toList <+: c :: (w ++ (closing ++ after)) := by
        intro begins
        have front : "]]>".toList <+: c :: w := section_end_of_prefix begins
        exact plain.inside front.isInfix
      rw [List.cons_append, content_char (Ne.symm solid) (Ne.symm open_) inside, ih rest]
      rfl

/-- Nothing in the text ends a `CDATA` section that was opened before it. -/
def Quiet (text : List Char) : Prop := text.IsChain fun a b => b = '>' → a ≠ ']'

instance (text : List Char) : Decidable (Quiet text) :=
  inferInstanceAs (Decidable (List.IsChain _ _))

theorem quiet_append {front back : List Char} (first : Quiet front) (second : Quiet back)
    (bare : back.head? ≠ some '>') : Quiet (front ++ back) := by
  refine List.isChain_append.mpr ⟨first, second, fun a _ b begins => ?_⟩
  rintro rfl
  exact absurd begins bare

theorem quiet_of_notMem {text : List Char} (free : '>' ∉ text) : Quiet text := by
  refine (List.pairwise_of_forall_mem_list fun a _ b member => ?_).isChain
  rintro rfl
  exact absurd member free

/-- A section that is opened before a quiet text that begins a tag is closed before it. -/
theorem section_inside {front raw back later : List Char} (quiet : Quiet ('<' :: back))
    (found : section? (front ++ '<' :: back) = some (raw, later)) :
    ∃ front', later = front' ++ '<' :: back := by
  have split : front ++ '<' :: back = "![CDATA[".toList ++ (raw ++ "]]>".toList) ++ later := by
    rw [section_split found]
    simp only [List.append_assoc]
  rcases List.append_eq_append_iff.mp split with ⟨crossing, whole, rest⟩ | ⟨front', whole, rest⟩
  · have ends : "]>".toList <:+ front ++ crossing :=
      ⟨"![CDATA[".toList ++ (raw ++ "]".toList), by
        rw [← whole]
        simp only [List.append_assoc]
        rfl⟩
    cases crossing with
    | nil => exact ⟨[], rest.symm⟩
    | cons c crossing =>
        obtain ⟨rfl, -⟩ := List.cons.inj rest
        exfalso
        rcases List.suffix_or_suffix_of_suffix ends (List.suffix_append _ _) with shorter | longer
        · rw [rest] at quiet
          have calm := (List.isChain_append.mp quiet).1.suffix shorter
          exact (List.isChain_cons_cons.mp calm).1 rfl rfl
        · have tag : '<' ∈ "]>".toList := longer.subset List.mem_cons_self
          exact absurd tag (by decide)
  · exact ⟨front', rest⟩

theorem reference_inside {front back later : List Char} {c : Char}
    (found : reference (front ++ '<' :: back) = some (c, later)) :
    ∃ front', later = front' ++ '<' :: back := by
  rw [reference, List.dropWhile_append] at found
  split at found
  · rename_i split
    obtain ⟨_, -, same⟩ := Option.map_eq_some_iff.mp found
    cases same
    split_ifs at split with none_
    · cases split
    · cases front' : front.dropWhile isNameChar with
      | nil => exact absurd (by rw [front']; rfl) none_
      | cons d rest =>
          rw [front'] at split
          cases split
          exact ⟨rest, rfl⟩
  · cases found

/-- Data that begins before a closing tag ends there or earlier. -/
theorem Reads.reaches {front back : List Char} (reads : Reads text w after)
    (split : text = front ++ (closing ++ back)) (quiet : Quiet (closing ++ back)) :
    back.length ≤ after.length := by
  induction reads generalizing front with
  | close after =>
      have total := congrArg List.length split
      simp only [List.length_append] at total
      omega
  | reference found _ ih =>
      cases front with
      | nil => cases split
      | cons c front =>
          obtain ⟨-, rfl⟩ := List.cons.inj split
          obtain ⟨front', same⟩ := reference_inside found
          exact ih same
  | cdata found _ ih =>
      cases front with
      | nil =>
          obtain ⟨-, rfl⟩ := List.cons.inj split
          cases found
      | cons c front =>
          obtain ⟨-, rfl⟩ := List.cons.inj split
          obtain ⟨front', same⟩ := section_inside quiet found
          exact ih same
  | char plain _ _ ih =>
      cases front with
      | nil =>
          obtain ⟨rfl, -⟩ := List.cons.inj split
          exact absurd rfl plain.2
      | cons c front =>
          obtain ⟨-, rfl⟩ := List.cons.inj split
          exact ih rfl

/-- Data that does not get shorter has nothing special in it and is read as it stands. -/
theorem content_tight {front back after w : List Char} (quiet : Quiet (closing ++ back))
    (found : content (front ++ (closing ++ back)) = some (w, after))
    (long : front.length ≤ w.length) : Plain w ∧ front = w := by
  have reads := content_reads found
  have reaches := reads.reaches rfl quiet
  obtain ⟨bound, tight⟩ := reads.shrinks
  simp only [List.length_append] at bound tight
  obtain ⟨plain, whole⟩ := tight (by omega)
  exact ⟨plain, (List.append_inj whole (by omega)).1⟩

theorem content_rest (found : content text = some (w, after)) : after.length < text.length := by
  have bound := (content_reads found).shrinks.1
  have some_ : closing.length = 9 := rfl
  omega

/-! ## Arrays -/

/-- The strings up to the end of the array. -/
def strings (text : List Char) : Option (List (List Char)) :=
  match _ : (text.dropWhile isBlank).dropPrefix? "<string>".toList with
  | some inner =>
      match _ : content inner with
      | some (w, after) => (strings after).map (w :: ·)
      | none => none
  | none => if "</array>".toList <+: text.dropWhile isBlank then some [] else none
termination_by text.length
decreasing_by
  have shorter := content_rest ‹_›
  obtain ⟨p, split, -⟩ := List.dropPrefix?_eq_some_iff.mp ‹_›
  have total := congrArg List.length split
  rw [List.length_append] at total
  have suffix := (List.dropWhile_suffix isBlank (l := text)).length_le
  omega

/-- The strings of the array under the key. -/
def array (key text : List Char) : Option (List (List Char)) :=
  match text.dropInfix? ("<key>".toList ++ key ++ "</key>".toList) with
  | some (_, later) =>
      ((later.dropWhile isBlank).dropPrefix? "<array>".toList).bind strings
  | none => none

theorem dropWhile_blanks {blanks : List Char} (blank : ∀ c ∈ blanks, isBlank c = true) {c : Char}
    (solid : isBlank c = false) (rest : List Char) :
    (blanks ++ c :: rest).dropWhile isBlank = c :: rest := by
  rw [List.dropWhile_append_of_pos blank, List.dropWhile_cons, if_neg (Bool.eq_false_iff.mp solid)]

theorem strings_string {blanks : List Char} (blank : ∀ c ∈ blanks, isBlank c = true)
    (body : List Char) :
    strings (blanks ++ ("<string>".toList ++ body)) =
      (content body).bind fun (w, after) => (strings after).map (w :: ·) := by
  have inner : ((blanks ++ ("<string>".toList ++ body)).dropWhile isBlank).dropPrefix?
      "<string>".toList = some body := by
    have solid := dropWhile_blanks blank (c := '<') rfl ("string>".toList ++ body)
    refine (congrArg (·.dropPrefix? "<string>".toList) solid).trans ?_
    exact List.dropPrefix?_append_of_beq body (beq_self_eq_true "<string>".toList)
  rw [strings, inner]
  dsimp only
  cases read : content body with
  | none => rfl
  | some found => rfl

theorem strings_end {blanks : List Char} (blank : ∀ c ∈ blanks, isBlank c = true)
    (more : List Char) : strings (blanks ++ ("</array>".toList ++ more)) = some [] := by
  have solid : (blanks ++ ("</array>".toList ++ more)).dropWhile isBlank =
      "</array>".toList ++ more := dropWhile_blanks blank (c := '<') rfl ("/array>".toList ++ more)
  have other : ("</array>".toList ++ more).dropPrefix? "<string>".toList = none := rfl
  rw [strings, solid, other]
  exact if_pos (List.prefix_append _ _)

/-- What follows the mark does not change where it stands first. -/
theorem dropInfix_first {front mark : List Char}
    (first : (front ++ mark).dropInfix? mark = some (front, [])) (back : List Char) :
    (front ++ mark ++ back).dropInfix? mark = some (front, back) := by
  obtain ⟨-, least⟩ := List.dropInfix?_eq_some_iff.mp first
  refine List.dropInfix?_eq_some_iff.mpr ⟨⟨mark, rfl, beq_self_eq_true mark⟩, ?_⟩
  intro earlier mark' later split same
  by_contra shorter
  have begins : earlier ++ mark' <+: front ++ mark := by
    refine List.prefix_of_prefix_length_le ⟨later, split.symm⟩ (List.prefix_append _ back) ?_
    rw [List.length_append, List.length_append, eq_of_beq same]
    omega
  obtain ⟨rest, whole⟩ := begins
  exact shorter (least earlier mark' rest whole.symm same)

/-- The array is read where the key stands first. -/
theorem array_first {key front blanks : List Char}
    (first : (front ++ ("<key>".toList ++ key ++ "</key>".toList)).dropInfix?
      ("<key>".toList ++ key ++ "</key>".toList) = some (front, []))
    (blank : ∀ c ∈ blanks, isBlank c = true) (text : List Char) :
    array key (front ++ ("<key>".toList ++ key ++ "</key>".toList) ++
      (blanks ++ ("<array>".toList ++ text))) = strings text := by
  have solid : (blanks ++ ("<array>".toList ++ text)).dropWhile isBlank =
      "<array>".toList ++ text :=
    dropWhile_blanks blank (c := '<') rfl ("array>".toList ++ text)
  rw [array, dropInfix_first first]
  dsimp only
  rw [solid, List.dropPrefix?_append_of_beq text (beq_self_eq_true "<array>".toList)]
  rfl

end LinkP2p.Lib.PropertyList
