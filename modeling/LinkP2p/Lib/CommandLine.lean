import Mathlib.Data.List.Basic

/-!
# Command lines of unit files

How a service manager splits the command line of a unit into words, after
`systemd.syntax(7)` and `systemd.service(5)`: blanks, quotes and escapes, then the prefixes
of the first word, specifiers and variables. What the documents leave open, and what the
machine decides, is a parameter.
-/

namespace LinkP2p.Lib.CommandLine

/-- The values of specifiers and variables, an unset variable being empty, and what is made
of a backslash that begins no documented escape. -/
structure Manager where
  specifier : Char → List Char
  env : List Char → List Char
  unknownEscape : Char → Option (List Char)

/-! ## Escapes -/

def escapeTable : List (Char × Char) :=
  [('a', '\x07'), ('b', '\x08'), ('f', '\x0c'), ('n', '\n'), ('r', '\r'), ('t', '\t'),
    ('v', '\x0b'), ('\\', '\\'), ('"', '"'), ('\'', '\''), ('s', ' ')]

def digitValue (c : Char) : Nat :=
  if '0' ≤ c ∧ c ≤ '9' then c.toNat - '0'.toNat
  else if 'a' ≤ c ∧ c ≤ 'f' then c.toNat - 'a'.toNat + 10
  else if 'A' ≤ c ∧ c ≤ 'F' then c.toNat - 'A'.toNat + 10
  else 16

/-- The character of the given number of digits. -/
def codePoint (radix count : Nat) (text : List Char) : Option (Char × List Char) :=
  let digits := text.take count
  let n := digits.foldl (fun n c => n * radix + digitValue c) 0
  if digits.length = count ∧ digits.all (digitValue · < radix) ∧ n ≠ 0 ∧ n.isValidChar then
    some (.ofNat n, text.drop count)
  else none

def numericEscape (c : Char) (rest : List Char) : Option (Char × List Char) :=
  if c = 'x' then codePoint 16 2 rest
  else if c = 'u' then codePoint 16 4 rest
  else if c = 'U' then codePoint 16 8 rest
  else codePoint 8 3 (c :: rest)

/-- What stands behind a backslash, and the text after it. -/
def escape (manager : Manager) : List Char → Option (List Char × List Char)
  | [] => none
  | c :: rest =>
      match escapeTable.lookup c with
      | some d => some ([d], rest)
      | none =>
          match numericEscape c rest with
          | some (d, later) => some ([d], later)
          | none => (manager.unknownEscape c).map fun out => (out, rest)

theorem codePoint_rest {radix count : Nat} {text later : List Char} {d : Char}
    (found : codePoint radix count text = some (d, later)) :
    later.length + count = text.length := by
  obtain ⟨⟨enough, -⟩, same⟩ := Option.ite_none_right_eq_some.mp found
  cases same
  rw [List.length_take] at enough
  rw [List.length_drop]
  omega

theorem numericEscape_rest {c d : Char} {rest later : List Char}
    (found : numericEscape c rest = some (d, later)) : later.length < rest.length := by
  rw [numericEscape] at found
  split_ifs at found
  all_goals
    have consumed := codePoint_rest found
    try rw [List.length_cons] at consumed
    omega

/-- An escape uses up its characters. -/
theorem escape_rest {manager : Manager} {text out later : List Char}
    (found : escape manager text = some (out, later)) : later.length < text.length := by
  cases text with
  | nil => cases found
  | cons c rest =>
      rw [escape] at found
      rw [List.length_cons]
      split at found
      · cases found
        exact Nat.lt_succ_self _
      · split at found
        · rename_i numeric
          cases found
          exact Nat.lt_succ_of_lt (numericEscape_rest numeric)
        · obtain ⟨_, -, same⟩ := Option.map_eq_some_iff.mp found
          cases same
          exact Nat.lt_succ_self _

/-! ## Words -/

def isBlank (c : Char) : Bool := c = ' ' || c = '\t' || c = '\n' || c = '\r'

def isQuote (c : Char) : Bool := c = '"' || c = '\''

/-- One word, from inside of a quote or from outside, and the text after it. -/
def word (manager : Manager) : Option Char → List Char → Option (List Char × List Char)
  | none, [] => some ([], [])
  | some _, [] => none
  | quote, c :: rest =>
      if c = '\\' then
        match _ : escape manager rest with
        | none => none
        | some (out, later) =>
            (word manager quote later).map fun (w, after) => (out ++ w, after)
      else if quote = some c then word manager none rest
      else if quote = none ∧ isBlank c then some ([], c :: rest)
      else if quote = none ∧ isQuote c then word manager (some c) rest
      else (word manager quote rest).map fun (w, after) => (c :: w, after)
termination_by _ text => text.length
decreasing_by
  · have shorter := escape_rest ‹_›
    rw [List.length_cons]
    omega
  all_goals exact Nat.lt_succ_self _

/-- A character that stands for itself outside of quotes. -/
def Ordinary (c : Char) : Prop := c ≠ '\\' ∧ isBlank c = false ∧ isQuote c = false

instance (c : Char) : Decidable (Ordinary c) := inferInstanceAs (Decidable (_ ∧ _ ∧ _))

/-- How a word is read. -/
inductive Scan (manager : Manager) : Option Char → List Char → List Char → List Char → Prop
  | stop : Scan manager none [] [] []
  | blank {c : Char} (rest : List Char) (blank : isBlank c = true) :
      Scan manager none (c :: rest) [] (c :: rest)
  | escape {quote : Option Char} {rest out later w after : List Char}
      (escaped : escape manager rest = some (out, later))
      (scan : Scan manager quote later w after) :
      Scan manager quote ('\\' :: rest) (out ++ w) after
  | close {c : Char} {rest w after : List Char} (scan : Scan manager none rest w after) :
      Scan manager (some c) (c :: rest) w after
  | quote {c : Char} {rest w after : List Char} (quote : isQuote c = true)
      (scan : Scan manager (some c) rest w after) : Scan manager none (c :: rest) w after
  | char {quote : Option Char} {c : Char} {rest w after : List Char}
      (ordinary : quote = none → Ordinary c) (scan : Scan manager quote rest w after) :
      Scan manager quote (c :: rest) (c :: w) after

theorem word_scan {manager : Manager} {quote : Option Char} {text w after : List Char}
    (found : word manager quote text = some (w, after)) : Scan manager quote text w after := by
  induction quote, text using word.induct manager generalizing w with
  | case1 =>
      rw [word] at found
      cases found
      exact .stop
  | case2 q =>
      rw [word] at found
      cases found
  | case3 quote rest failed =>
      rw [word, if_pos rfl, failed] at found
      cases found
  | case4 quote rest out later escaped ih =>
      rw [word, if_pos rfl, escaped] at found
      obtain ⟨⟨w', after'⟩, inner, same⟩ := Option.map_eq_some_iff.mp found
      cases same
      exact .escape escaped (ih inner)
  | case5 c rest solid ih =>
      rw [word, if_neg solid, if_pos rfl] at found
      exact .close (ih found)
  | case6 quote c rest solid inside blank =>
      rw [word, if_neg solid, if_neg inside, if_pos blank] at found
      obtain ⟨rfl, blank⟩ := blank
      cases found
      exact .blank rest blank
  | case7 quote c rest solid inside shown opens ih =>
      rw [word, if_neg solid, if_neg inside, if_neg shown, if_pos opens] at found
      obtain ⟨rfl, opens⟩ := opens
      exact .quote opens (ih found)
  | case8 quote c rest solid inside shown plain ih =>
      rw [word, if_neg solid, if_neg inside, if_neg shown, if_neg plain] at found
      obtain ⟨⟨w', after'⟩, inner, same⟩ := Option.map_eq_some_iff.mp found
      cases same
      refine .char (fun bare => ⟨solid, ?_, ?_⟩) (ih inner)
      · exact Bool.eq_false_iff.mpr fun blank => shown ⟨bare, blank⟩
      · exact Bool.eq_false_iff.mpr fun opens => plain ⟨bare, opens⟩

/-- The end of the line, or a blank. -/
def Ends (text : List Char) : Prop := ∀ c, text.head? = some c → isBlank c = true

variable {manager : Manager} {quote : Option Char} {text w after : List Char}

theorem Scan.ends (scan : Scan manager quote text w after) : Ends after := by
  induction scan with
  | stop => exact nofun
  | blank rest blank =>
      rintro _ ⟨⟩
      exact blank
  | escape _ _ ih => exact ih
  | close _ ih => exact ih
  | quote _ _ ih => exact ih
  | char _ _ ih => exact ih

theorem Scan.length_le (scan : Scan manager quote text w after) : after.length ≤ text.length := by
  induction scan with
  | stop => exact Nat.le_refl _
  | blank => exact Nat.le_refl _
  | escape escaped _ ih =>
      have shorter := escape_rest escaped
      rw [List.length_cons]
      omega
  | close _ ih => exact Nat.le_succ_of_le ih
  | quote _ _ ih => exact Nat.le_succ_of_le ih
  | char _ _ ih => exact Nat.le_succ_of_le ih

/-- A word that does not begin with a blank uses up its first character. -/
theorem word_rest {c : Char} {rest : List Char} (solid : isBlank c = false)
    (found : word manager none (c :: rest) = some (w, after)) : after.length ≤ rest.length := by
  cases word_scan found with
  | blank rest blank =>
      rw [solid] at blank
      cases blank
  | escape escaped scan => exact Nat.le_trans scan.length_le (Nat.le_of_lt (escape_rest escaped))
  | quote _ scan => exact scan.length_le
  | char _ scan => exact scan.length_le

/-- A semicolon alone is the end of the command. -/
def LoneSemicolon (text : List Char) : Prop := text.head? = some ';' ∧ Ends text.tail

instance (text : List Char) : Decidable (Ends text) :=
  match text with
  | [] => isTrue nofun
  | c :: _ =>
      decidable_of_iff (isBlank c = true)
        ⟨by rintro blank _ ⟨⟩; exact blank, fun ends => ends c rfl⟩

instance (text : List Char) : Decidable (LoneSemicolon text) := inferInstanceAs (Decidable (_ ∧ _))

/-- The words of the first command of a line. -/
def words (manager : Manager) : List Char → Option (List (List Char))
  | [] => some []
  | c :: rest =>
      if _ : isBlank c = true then words manager rest
      else if LoneSemicolon (c :: rest) then some []
      else if c = '\\' ∧ LoneSemicolon rest then (words manager rest.tail).map ([';'] :: ·)
      else
        match _ : word manager none (c :: rest) with
        | none => none
        | some (w, after) => (words manager after).map (w :: ·)
termination_by text => text.length
decreasing_by
  · exact Nat.lt_succ_self _
  · rw [List.length_tail, List.length_cons]
    omega
  · exact Nat.lt_succ_of_le (word_rest (Bool.eq_false_iff.mpr ‹_›) ‹_›)

/-! ## Words that stand for themselves -/

/-- Nothing in the word is special. -/
structure Plain (w : List Char) : Prop where
  nonempty : w ≠ []
  command : w ≠ [';']
  ordinary : ∀ c ∈ w, Ordinary c

instance (w : List Char) : Decidable (Plain w) :=
  decidable_of_iff (w ≠ [] ∧ w ≠ [';'] ∧ w.all (decide <| Ordinary ·))
    ⟨fun ⟨nonempty, command, ordinary⟩ =>
        ⟨nonempty, command, fun c member =>
          of_decide_eq_true (List.all_eq_true.mp ordinary c member)⟩,
      fun plain => ⟨plain.nonempty, plain.command,
        List.all_eq_true.mpr fun c member => decide_eq_true (plain.ordinary c member)⟩⟩

/-- The words with a blank between each two. -/
def unwords : List (List Char) → List Char
  | [] => []
  | w :: ws => w ++ ws.flatMap (' ' :: ·)

theorem mem_unwords {ws : List (List Char)} {c : Char} (member : c ∈ unwords ws) :
    c = ' ' ∨ ∃ w ∈ ws, c ∈ w := by
  cases ws with
  | nil => cases member
  | cons w ws =>
      rcases List.mem_append.mp member with first | later
      · exact .inr ⟨w, List.mem_cons_self, first⟩
      · obtain ⟨w', other, here⟩ := List.mem_flatMap.mp later
        rcases List.mem_cons.mp here with blank | inside
        · exact .inl blank
        · exact .inr ⟨w', List.mem_cons_of_mem w other, inside⟩

theorem mem_unwords_of_mem {ws : List (List Char)} {w : List Char} (member : w ∈ ws) {c : Char}
    (inside : c ∈ w) : c ∈ unwords ws := by
  cases member with
  | head => exact List.mem_append_left _ inside
  | tail first later =>
      exact List.mem_append_right _
        (List.mem_flatMap.mpr ⟨w, later, List.mem_cons_of_mem ' ' inside⟩)

theorem ends_flatMap (ws : List (List Char)) : Ends (ws.flatMap (' ' :: ·)) := by
  cases ws with
  | nil => exact nofun
  | cons w ws =>
      rintro _ ⟨⟩
      rfl

theorem word_ordinary (manager : Manager) {w after : List Char} (ordinary : ∀ c ∈ w, Ordinary c)
    (ends : Ends after) : word manager none (w ++ after) = some (w, after) := by
  induction w with
  | nil =>
      rw [List.nil_append]
      cases after with
      | nil => rw [word]
      | cons c rest =>
          have blank := ends c rfl
          have solid : c ≠ '\\' := by
            rintro rfl
            cases blank
          rw [word, if_neg solid, if_neg nofun, if_pos ⟨rfl, blank⟩]
  | cons c w ih =>
      obtain ⟨⟨solid, shown, bare⟩, later⟩ := List.forall_mem_cons.mp ordinary
      rw [List.cons_append, word, if_neg solid, if_neg nofun, if_neg, if_neg, ih later]
      · rfl
      · rw [bare]
        exact fun both => Bool.false_ne_true both.2
      · rw [shown]
        exact fun both => Bool.false_ne_true both.2

theorem words_blank (manager : Manager) {c : Char} (blank : isBlank c = true) (rest : List Char) :
    words manager (c :: rest) = words manager rest := by
  rw [words, dif_pos blank]

theorem words_plain (manager : Manager) {w after : List Char} (plain : Plain w)
    (ends : Ends after) :
    words manager (w ++ after) = (words manager after).map (w :: ·) := by
  have read := word_ordinary manager plain.ordinary ends
  obtain ⟨c, w, rfl⟩ := List.exists_cons_of_ne_nil plain.nonempty
  obtain ⟨⟨solid, shown, bare⟩, later⟩ := List.forall_mem_cons.mp plain.ordinary
  have command : ¬ LoneSemicolon (c :: (w ++ after)) := by
    rintro ⟨semicolon, alone⟩
    cases semicolon
    cases w with
    | nil => exact plain.command rfl
    | cons d w =>
        have blank := alone d rfl
        rw [(later d List.mem_cons_self).2.1] at blank
        cases blank
  rw [List.cons_append] at read
  rw [List.cons_append, words, dif_neg (by rw [shown]; exact Bool.false_ne_true), if_neg command,
    if_neg fun both => solid both.1, read]

/-- Plain words are taken apart again. -/
theorem words_unwords (manager : Manager) {ws : List (List Char)} (plain : ∀ w ∈ ws, Plain w) :
    words manager (unwords ws) = some ws := by
  cases ws with
  | nil => rw [unwords, words]
  | cons w ws =>
      obtain ⟨first, later⟩ := List.forall_mem_cons.mp plain
      rw [unwords, words_plain manager first (ends_flatMap ws)]
      induction ws generalizing w with
      | nil => rw [List.flatMap_nil, words]; rfl
      | cons w' ws ih =>
          obtain ⟨second, rest⟩ := List.forall_mem_cons.mp later
          rw [List.flatMap_cons, List.cons_append, words_blank manager rfl,
            words_plain manager second (ends_flatMap ws), ih w' later second rest]
          rfl

/-- Nothing is known, and no escape but the documented ones. -/
def strict : Manager := ⟨fun _ => [], fun _ => [], fun _ => none⟩

/-- The characters of the words and one for the end of each. -/
def weight : List (List Char) → Nat
  | [] => 0
  | w :: ws => w.length + 1 + weight ws

theorem weight_cons (w : List Char) (ws : List (List Char)) :
    weight (w :: ws) = w.length + 1 + weight ws := rfl

theorem weight_unwords (w : List Char) (ws : List (List Char)) :
    (unwords (w :: ws)).length + 1 = weight (w :: ws) := by
  have later : (ws.flatMap (' ' :: ·)).length = weight ws := by
    induction ws with
    | nil => rfl
    | cons w' ws ih => rw [List.flatMap_cons, List.length_append, ih, List.length_cons, weight_cons]
  rw [unwords, List.length_append, later, weight_cons]
  omega

theorem escape_strict {text out later : List Char}
    (found : escape strict text = some (out, later)) : out.length = 1 := by
  cases text with
  | nil => cases found
  | cons c rest =>
      rw [escape] at found
      split at found
      · cases found
        rfl
      · split at found
        · cases found
          rfl
        · cases found

/-- Reading a word never makes it longer, and a quote makes it shorter. -/
theorem Scan.shrinks (scan : Scan strict quote text w after) :
    w.length + after.length + quote.toList.length ≤ text.length := by
  induction scan with
  | stop => exact Nat.le_refl _
  | blank => simp
  | escape escaped _ ih =>
      have one := escape_strict escaped
      have shorter := escape_rest escaped
      rw [List.length_append, List.length_cons]
      omega
  | close _ ih =>
      simp only [Option.toList_none, Option.toList_some, List.length_nil, List.length_cons] at ih ⊢
      omega
  | quote _ _ ih =>
      simp only [Option.toList_none, Option.toList_some, List.length_nil, List.length_cons] at ih ⊢
      omega
  | char _ _ ih =>
      rw [List.length_cons, List.length_cons]
      omega

/-- A word as long as what it was read from is that text. -/
theorem Scan.tight (scan : Scan strict quote text w after) (bare : quote = none)
    (tight : w.length + after.length = text.length) :
    text = w ++ after ∧ ∀ c ∈ w, Ordinary c := by
  induction scan with
  | stop => exact ⟨rfl, nofun⟩
  | blank => exact ⟨rfl, nofun⟩
  | escape escaped scan _ =>
      have one := escape_strict escaped
      have shorter := escape_rest escaped
      have inner := scan.shrinks
      rw [List.length_append, List.length_cons] at tight
      omega
  | close => cases bare
  | quote _ scan _ =>
      have inner := scan.shrinks
      simp only [Option.toList_some, List.length_cons, List.length_nil] at inner tight
      omega
  | char ordinary _ ih =>
      rw [List.length_cons, List.length_cons] at tight
      obtain ⟨same, all⟩ := ih bare (by omega)
      exact ⟨congrArg _ same, List.forall_mem_cons.mpr ⟨ordinary bare, all⟩⟩

/-- The most that words from the text can weigh. -/
def room (text : List Char) : Nat := if Ends text then text.length else text.length + 1

theorem room_of_solid {c : Char} {rest : List Char} (solid : ¬ isBlank c = true) :
    room (c :: rest) = (c :: rest).length + 1 :=
  if_neg fun ends => solid (ends c rfl)

/-- Words never weigh more than their text, and those that weigh as much are plain. -/
theorem words_weight {text : List Char} {ws : List (List Char)}
    (found : words strict text = some ws) :
    weight ws ≤ room text ∧
      (weight ws = room text → ∀ w ∈ ws, Plain w) := by
  induction text using words.induct strict generalizing ws with
  | case1 =>
      rw [words] at found
      cases found
      exact ⟨Nat.zero_le _, fun _ => nofun⟩
  | case2 c rest blank ih =>
      rw [words_blank strict blank] at found
      obtain ⟨bound, tight⟩ := ih found
      have ends : Ends (c :: rest) := by
        rintro _ ⟨⟩
        exact blank
      have larger : room rest ≤ rest.length + 1 := by
        rw [room]
        split <;> omega
      rw [room, if_pos ends, List.length_cons]
      exact ⟨Nat.le_trans bound larger, fun same => tight (by omega)⟩
  | case3 c rest solid command =>
      rw [words, dif_neg solid, if_pos command] at found
      cases found
      exact ⟨Nat.zero_le _, fun _ => nofun⟩
  | case4 c rest solid command escaped ih =>
      rw [words, dif_neg solid, if_neg command, if_pos escaped] at found
      obtain ⟨ws', inner, rfl⟩ := Option.map_eq_some_iff.mp found
      obtain ⟨-, semicolon, alone⟩ := escaped
      obtain ⟨tail, rfl⟩ := List.head?_eq_some_iff.mp semicolon
      rw [List.tail_cons] at alone
      have bound : weight ws' ≤ room tail := (ih inner).1
      rw [room, if_pos alone] at bound
      rw [room_of_solid solid, weight_cons]
      simp only [List.length_cons, List.length_nil]
      exact ⟨by omega, fun same => absurd same (by omega)⟩
  | case5 c rest solid command other failed =>
      rw [words, dif_neg solid, if_neg command, if_neg other, failed] at found
      cases found
  | case6 c rest solid command other w after read ih =>
      rw [words, dif_neg solid, if_neg command, if_neg other, read] at found
      obtain ⟨ws', inner, rfl⟩ := Option.map_eq_some_iff.mp found
      obtain ⟨bound, tight⟩ := ih inner
      have scan := word_scan read
      have shrinks := scan.shrinks
      rw [Option.toList_none, List.length_nil, Nat.add_zero] at shrinks
      rw [room, if_pos scan.ends] at bound tight
      rw [room_of_solid solid, weight_cons]
      refine ⟨by omega, fun same => List.forall_mem_cons.mpr ⟨?_, tight (by omega)⟩⟩
      obtain ⟨split, ordinary⟩ := scan.tight rfl (by omega)
      refine ⟨?_, ?_, ordinary⟩
      · rintro rfl
        rw [List.nil_append] at split
        exact solid (scan.ends c (by rw [← split]; rfl))
      · rintro rfl
        rw [split] at command
        exact command ⟨rfl, scan.ends⟩

/-! ## Specifiers and variables -/

def specifiers (manager : Manager) : List Char → List Char
  | '%' :: '%' :: rest => '%' :: specifiers manager rest
  | '%' :: c :: rest => manager.specifier c ++ specifiers manager rest
  | c :: rest => c :: specifiers manager rest
  | [] => []

/-- Variables in braces, and two dollar signs for one. -/
def replaceEnv (manager : Manager) : List Char → List Char
  | '$' :: '$' :: rest => '$' :: replaceEnv manager rest
  | '$' :: '{' :: rest =>
      if '}' ∈ rest then
        manager.env (rest.takeWhile (· ≠ '}')) ++
          replaceEnv manager (rest.dropWhile (· ≠ '}')).tail
      else '$' :: '{' :: rest
  | c :: rest => c :: replaceEnv manager rest
  | [] => []
termination_by text => text.length
decreasing_by
  · simp only [List.length_cons]
    omega
  · have shorter := (List.dropWhile_suffix (· ≠ '}') (l := rest)).length_le
    rw [List.length_tail, List.length_cons, List.length_cons]
    omega
  · exact Nat.lt_succ_self _

/-- The name, if the word is a dollar sign and a name. -/
def loneVariable : List Char → Option (List Char)
  | '$' :: rest => if rest.head? = some '$' ∨ rest.head? = some '{' then none else some rest
  | _ => none

/-- The value of a variable that is a word of its own is split at blanks. -/
def splitBlanks (text : List Char) : List (List Char) :=
  (text.splitOnP isBlank).filter (· ≠ [])

def expand (manager : Manager) (w : List Char) : List (List Char) :=
  match loneVariable w with
  | some name => splitBlanks (manager.env name)
  | none => [replaceEnv manager w]

/-! ## The command -/

/-- `-`, `@`, `:`, `+`, `!` and `|` before the path -/
def isPrefix (c : Char) : Bool := c ∈ ['-', '@', ':', '+', '!', '|']

/-- The control characters, which the path must not have. -/
def isControl (c : Char) : Bool := c.toNat < 32 || c.toNat = 127

/-- The arguments with which the command is executed, the first of them its name. -/
def argv (manager : Manager) (line : List Char) : Option (List (List Char)) :=
  match words manager line with
  | some (first :: rest) =>
      let prefixes := first.takeWhile isPrefix
      let path := first.dropWhile isPrefix
      let args := (path :: rest).map (specifiers manager)
      let args := if ':' ∈ prefixes then args else args.flatMap (expand manager)
      if path = [] ∨ (specifiers manager path).any isControl = true then none
      else some (if '@' ∈ prefixes then args.tail else args)
  | _ => none

/-! ## Words that are passed on as they are -/

/-- A percent sign is the last character. -/
def specifierFree : List Char → Bool
  | '%' :: _ :: _ => false
  | _ :: rest => specifierFree rest
  | [] => true

/-- No two dollar signs, and no braces behind one. -/
def bracesFree : List Char → Bool
  | '$' :: '$' :: _ => false
  | '$' :: '{' :: rest => '}' ∉ rest
  | _ :: rest => bracesFree rest
  | [] => true

structure Inert (w : List Char) : Prop where
  plain : Plain w
  specifiers : specifierFree w = true
  dollars : loneVariable w = none ∧ bracesFree w = true

instance (w : List Char) : Decidable (Inert w) :=
  decidable_of_iff (Plain w ∧ specifierFree w = true ∧ loneVariable w = none ∧ bracesFree w = true)
    ⟨fun ⟨plain, specifiers, dollars⟩ => ⟨plain, specifiers, dollars⟩,
      fun inert => ⟨inert.plain, inert.specifiers, inert.dollars⟩⟩

theorem specifiers_free (manager : Manager) {w : List Char} (free : specifierFree w = true) :
    specifiers manager w = w := by
  induction w using specifierFree.induct with
  | case1 => cases free
  | case2 c rest other ih =>
      rw [specifierFree] at free
      · rw [specifiers, ih free]
        · rintro rest' rfl rfl
          exact other _ _ rfl rfl
        · exact other
      · exact other
  | case3 => rfl

theorem specifiers_strict (w : List Char) :
    (specifiers strict w).length ≤ w.length ∧
      ((specifiers strict w).length = w.length → specifierFree w = true) := by
  induction w using specifiers.induct with
  | case1 rest ih =>
      rw [specifiers]
      simp only [List.length_cons]
      exact ⟨by omega, fun same => absurd same (by omega)⟩
  | case2 c rest other ih =>
      rw [specifiers]
      · simp only [strict, List.nil_append, List.length_cons] at ih ⊢
        exact ⟨by omega, fun same => absurd same (by omega)⟩
      · exact other
  | case3 c rest other other' ih =>
      rw [specifiers, specifierFree]
      · simp only [List.length_cons]
        exact ⟨by omega, fun same => ih.2 (by omega)⟩
      · exact other'
      · exact other
      · exact other'
  | case4 => exact ⟨Nat.le_refl _, fun _ => rfl⟩

theorem replaceEnv_free (manager : Manager) {w : List Char} (free : bracesFree w = true) :
    replaceEnv manager w = w := by
  induction w using bracesFree.induct with
  | case1 => cases free
  | case2 rest =>
      rw [bracesFree] at free
      rw [replaceEnv, if_neg (of_decide_eq_true free)]
  | case3 c rest other other' ih =>
      rw [bracesFree] at free
      · rw [replaceEnv, ih free]
        · exact other
        · exact other'
      · exact other
      · exact other'
  | case4 => rw [replaceEnv]

theorem replaceEnv_strict (w : List Char) :
    (replaceEnv strict w).length ≤ w.length ∧
      ((replaceEnv strict w).length = w.length → bracesFree w = true) := by
  induction w using replaceEnv.induct with
  | case1 rest ih =>
      rw [replaceEnv]
      simp only [List.length_cons]
      exact ⟨by omega, fun same => absurd same (by omega)⟩
  | case2 rest closed ih =>
      have shorter := (List.dropWhile_suffix (· ≠ '}') (l := rest)).length_le
      rw [replaceEnv, if_pos closed]
      rw [List.length_tail] at ih
      simp only [strict, List.nil_append, List.length_cons] at ih ⊢
      exact ⟨by omega, fun same => absurd same (by omega)⟩
  | case3 rest open_ =>
      rw [replaceEnv, if_neg open_, bracesFree]
      exact ⟨Nat.le_refl _, fun _ => decide_eq_true open_⟩
  | case4 c rest other other' ih =>
      rw [replaceEnv, bracesFree]
      · simp only [List.length_cons]
        exact ⟨by omega, fun same => ih.2 (by omega)⟩
      · exact other
      · exact other'
      · exact other
      · exact other'
  | case5 =>
      rw [replaceEnv]
      exact ⟨Nat.le_refl _, fun _ => rfl⟩

theorem expand_free (manager : Manager) {w : List Char} (alone : loneVariable w = none)
    (free : bracesFree w = true) : expand manager w = [w] := by
  rw [expand, alone]
  exact congrArg (fun w => [w]) (replaceEnv_free manager free)

theorem expand_strict (w : List Char) :
    weight (expand strict w) ≤ w.length + 1 ∧
      (weight (expand strict w) = w.length + 1 → loneVariable w = none ∧ bracesFree w = true) := by
  rw [expand]
  cases alone : loneVariable w with
  | some name =>
      have none_ : splitBlanks (strict.env name) = [] := rfl
      dsimp only
      rw [none_]
      exact ⟨Nat.zero_le _, fun same => by cases same⟩
  | none =>
      obtain ⟨bound, tight⟩ := replaceEnv_strict w
      dsimp only
      rw [weight_cons]
      exact ⟨Nat.succ_le_succ bound, fun same => ⟨rfl, tight (Nat.succ.inj same)⟩⟩

theorem weight_map (f : List Char → List Char) (short : ∀ w, (f w).length ≤ w.length)
    (ws : List (List Char)) :
    weight (ws.map f) ≤ weight ws ∧
      (weight (ws.map f) = weight ws → ∀ w ∈ ws, (f w).length = w.length) := by
  induction ws with
  | nil => exact ⟨Nat.le_refl _, fun _ => nofun⟩
  | cons w ws ih =>
      have first := short w
      rw [List.map_cons, weight_cons, weight_cons]
      refine ⟨by omega, fun same => List.forall_mem_cons.mpr ⟨by omega, ih.2 (by omega)⟩⟩

theorem weight_append (front back : List (List Char)) :
    weight (front ++ back) = weight front + weight back := by
  induction front with
  | nil => exact (Nat.zero_add _).symm
  | cons w front ih => rw [List.cons_append, weight_cons, weight_cons, ih, ← Nat.add_assoc]

theorem weight_flatMap (f : List Char → List (List Char))
    (short : ∀ w, weight (f w) ≤ w.length + 1) (ws : List (List Char)) :
    weight (ws.flatMap f) ≤ weight ws ∧
      (weight (ws.flatMap f) = weight ws → ∀ w ∈ ws, weight (f w) = w.length + 1) := by
  induction ws with
  | nil => exact ⟨Nat.le_refl _, fun _ => nofun⟩
  | cons w ws ih =>
      have first := short w
      rw [List.flatMap_cons, weight_append, weight_cons]
      refine ⟨by omega, fun same => List.forall_mem_cons.mpr ⟨by omega, ih.2 (by omega)⟩⟩

/-- The path has no prefix. -/
def Bare (path : List Char) : Prop := ∀ c, path.head? = some c → isPrefix c = false

instance (path : List Char) : Decidable (Bare path) :=
  match path with
  | [] => isTrue nofun
  | c :: _ =>
      decidable_of_iff (isPrefix c = false)
        ⟨by rintro other _ ⟨⟩; exact other, fun bare => bare c rfl⟩

theorem takeWhile_bare_iff {path : List Char} : path.takeWhile isPrefix = [] ↔ Bare path := by
  cases path with
  | nil => exact iff_of_true rfl nofun
  | cons c rest =>
      rw [List.takeWhile_cons]
      constructor
      · rintro none_ _ ⟨⟩
        by_contra prefixed
        rw [if_pos (by simpa using prefixed)] at none_
        cases none_
      · intro bare
        rw [bare c rfl, if_neg Bool.false_ne_true]

theorem specifiers_map_free (manager : Manager) {ws : List (List Char)}
    (free : ∀ w ∈ ws, specifierFree w = true) : ws.map (specifiers manager) = ws :=
  (List.map_congr_left fun w member => specifiers_free manager (free w member)).trans
    (List.map_id _)

/-- What the stages leave as it is. -/
theorem args_inert (manager : Manager) {ws : List (List Char)}
    (specifierFree : ∀ w ∈ ws, specifierFree w = true)
    (dollarFree : ∀ w ∈ ws, loneVariable w = none ∧ bracesFree w = true) :
    (ws.map (specifiers manager)).flatMap (expand manager) = ws := by
  rw [specifiers_map_free manager specifierFree]
  induction ws with
  | nil => rfl
  | cons w ws ih =>
      obtain ⟨⟨alone, free⟩, later⟩ := List.forall_mem_cons.mp dollarFree
      rw [List.flatMap_cons, expand_free manager alone free,
        ih (List.forall_mem_cons.mp specifierFree).2 later]
      rfl

theorem argv_bare {manager : Manager} {line first : List Char} {rest : List (List Char)}
    (split : words manager line = some (first :: rest)) (bare : Bare first) :
    argv manager line =
      if first = [] ∨ (specifiers manager first).any isControl = true then none
      else some (((first :: rest).map (specifiers manager)).flatMap (expand manager)) := by
  have none_ := takeWhile_bare_iff.mpr bare
  have path := List.takeWhile_append_dropWhile (p := isPrefix) (l := first)
  rw [none_, List.nil_append] at path
  rw [argv, split]
  dsimp only
  rw [none_, path, if_neg List.not_mem_nil, if_neg List.not_mem_nil]

/-- Inert words are the arguments of their line, whatever the manager. -/
theorem argv_unwords (manager : Manager) {first : List Char} {rest : List (List Char)}
    (inert : ∀ w ∈ first :: rest, Inert w) (bare : Bare first)
    (shown : first.any isControl = false) :
    argv manager (unwords (first :: rest)) = some (first :: rest) := by
  have split := words_unwords manager fun w member => (inert w member).plain
  obtain ⟨plain, free, -⟩ := inert first List.mem_cons_self
  have passes : ¬ (first = [] ∨ (specifiers manager first).any isControl = true) := by
    rw [specifiers_free manager free, shown]
    exact not_or.mpr ⟨plain.nonempty, Bool.false_ne_true⟩
  rw [argv_bare split bare, if_neg passes,
    args_inert manager (fun w member => (inert w member).specifiers)
      fun w member => (inert w member).dollars]

theorem room_le (text : List Char) : room text ≤ text.length + 1 := by
  rw [room]
  split <;> omega

theorem weight_tail (ws : List (List Char)) : weight ws.tail ≤ weight ws := by
  cases ws with
  | nil => exact Nat.le_refl _
  | cons w ws =>
      rw [weight_cons]
      exact Nat.le_add_left _ _

theorem weight_specifiers (ws : List (List Char)) :
    weight (ws.map (specifiers strict)) ≤ weight ws ∧
      (weight (ws.map (specifiers strict)) = weight ws → ∀ w ∈ ws, specifierFree w = true) := by
  obtain ⟨bound, tight⟩ := weight_map _ (fun w => (specifiers_strict w).1) ws
  exact ⟨bound, fun same w member => (specifiers_strict w).2 (tight same w member)⟩

theorem weight_expand (ws : List (List Char)) :
    weight (ws.flatMap (expand strict)) ≤ weight ws ∧
      (weight (ws.flatMap (expand strict)) = weight ws →
        ∀ w ∈ ws, loneVariable w = none ∧ bracesFree w = true) := by
  obtain ⟨bound, tight⟩ := weight_flatMap _ (fun w => (expand_strict w).1) ws
  exact ⟨bound, fun same w member => (expand_strict w).2 (tight same w member)⟩

/-- A prefix is lost. -/
theorem argv_prefixed {line first : List Char} {rest args : List (List Char)}
    (split : words strict line = some (first :: rest)) (prefixed : ¬ Bare first)
    (found : argv strict line = some args) : weight args < weight (first :: rest) := by
  have parts := List.takeWhile_append_dropWhile (p := isPrefix) (l := first)
  have some_ : first.takeWhile isPrefix ≠ [] := mt takeWhile_bare_iff.mp prefixed
  have shorter : (first.dropWhile isPrefix).length < first.length := by
    have total := congrArg List.length parts
    rw [List.length_append] at total
    have positive := List.length_pos_of_ne_nil some_
    omega
  rw [argv, split] at found
  dsimp only at found
  obtain ⟨-, same⟩ := Option.ite_none_left_eq_some.mp found
  have stage := (weight_specifiers (first.dropWhile isPrefix :: rest)).1
  have stage' := (weight_expand ((first.dropWhile isPrefix :: rest).map (specifiers strict))).1
  have lighter : weight (first.dropWhile isPrefix :: rest) < weight (first :: rest) := by
    rw [weight_cons, weight_cons]
    omega
  have tail (ws : List (List Char)) := weight_tail ws
  rw [← Option.some.inj same]
  split_ifs
  · exact Nat.lt_of_le_of_lt (Nat.le_trans (tail _) stage) lighter
  · exact Nat.lt_of_le_of_lt (Nat.le_trans (tail _) (Nat.le_trans stage' stage)) lighter
  · exact Nat.lt_of_le_of_lt stage lighter
  · exact Nat.lt_of_le_of_lt (Nat.le_trans stage' stage) lighter

/-- The arguments never weigh more than the line, and those that weigh as much are inert. -/
theorem argv_weight {line : List Char} {args : List (List Char)}
    (found : argv strict line = some args) :
    weight args ≤ line.length + 1 ∧
      (weight args = line.length + 1 → (∀ w ∈ args, Inert w) ∧ Bare (args.headD []) ∧
        (args.headD []).any isControl = false) := by
  cases split : words strict line with
  | none =>
      rw [argv, split] at found
      cases found
  | some ws =>
      obtain ⟨bound, tight⟩ := words_weight split
      have enough := room_le line
      cases ws with
      | nil =>
          rw [argv, split] at found
          cases found
      | cons first rest =>
          by_cases bare : Bare first
          · rw [argv_bare split bare] at found
            obtain ⟨passes, same⟩ := Option.ite_none_left_eq_some.mp found
            obtain ⟨stage, kept⟩ := weight_specifiers (first :: rest)
            obtain ⟨stage', kept'⟩ := weight_expand ((first :: rest).map (specifiers strict))
            rw [← Option.some.inj same]
            refine ⟨by omega, fun exact_ => ?_⟩
            have plain := tight (by omega)
            have free := kept (by omega)
            have unchanged := specifiers_map_free strict free
            rw [unchanged] at kept' exact_ stage' ⊢
            have dollars := kept' (by omega)
            have whole := args_inert strict free dollars
            rw [unchanged] at whole
            rw [specifiers_free strict (free first List.mem_cons_self)] at passes
            rw [whole]
            exact ⟨fun w member => ⟨plain w member, free w member, dollars w member⟩, bare,
              Bool.eq_false_iff.mpr (not_or.mp passes).2⟩
          · have lighter := argv_prefixed split bare found
            exact ⟨by omega, fun exact_ => absurd exact_ (by omega)⟩

end LinkP2p.Lib.CommandLine
