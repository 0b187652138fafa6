import LinkP2p.Lib.CommandLine
import Mathlib.Data.List.DropRight

/-!
# Unit files

The lines of a unit file, its sections and the values that are assigned to a key, after
`systemd.syntax(7)`.
-/

namespace LinkP2p.Lib.UnitFile

open LinkP2p.Lib.CommandLine (isBlank)

def isLineEnd (c : Char) : Bool := c = '\n' || c = '\r' || c = '\x00'

def oneLine (text : List Char) : Bool := text.all fun c => !isLineEnd c

def lines (text : List Char) : List (List Char) := text.splitOnP isLineEnd

def isComment (line : List Char) : Bool := line.head? = some '#' || line.head? = some ';'

/-- The line ends in a backslash that is not escaped, and the next one belongs to it. -/
def goesOn (line : List Char) : Bool :=
  line.foldl (fun escaped c => !escaped && c = '\\') false

/-- The name between the brackets. -/
def header? (line : List Char) : Option (List Char) :=
  match line with
  | '[' :: rest =>
      let name := rest.rdropWhile isBlank
      if name.getLast? = some ']' then some name.dropLast else none
  | _ => none

def assignment? (line : List Char) : Option (List Char × List Char) :=
  match line.dropWhile (· ≠ '=') with
  | _ :: value => some ((line.takeWhile (· ≠ '=')).rdropWhile isBlank, value)
  | [] => none

/-- The values that the lines assign to the key in the section. A value that goes on in the
next line is not the value of one line. -/
def values (name key : List Char) (here continued : Bool) :
    List (List Char) → List (Option (List Char))
  | [] => []
  | line :: rest =>
      let stripped := line.dropWhile isBlank
      if isComment stripped then values name key here continued rest
      else if continued then values name key here (goesOn line) rest
      else
        match header? stripped with
        | some other => values name key (other = name) (goesOn line) rest
        | none =>
            match assignment? stripped with
            | some (other, value) =>
                if here ∧ other = key then
                  (if goesOn line then none else some value) ::
                    values name key here (goesOn line) rest
                else values name key here (goesOn line) rest
            | none => values name key here (goesOn line) rest

/-- The value of the only line of the section that assigns to the key. -/
def value (name key text : List Char) : Option (List Char) :=
  match values name key false false (lines text) with
  | [some value] => some value
  | _ => none

theorem goesOn_plain {line : List Char} (plain : '\\' ∉ line) : goesOn line = false := by
  rw [goesOn]
  induction line with
  | nil => rfl
  | cons c rest ih =>
      rw [List.mem_cons, not_or] at plain
      have other : decide (c = '\\') = false := decide_eq_false (Ne.symm plain.1)
      rw [List.foldl_cons, other]
      exact ih plain.2

theorem oneLine_iff {text : List Char} : oneLine text = true ↔ ∀ c ∈ text, isLineEnd c = false := by
  rw [oneLine, List.all_eq_true]
  exact forall₂_congr fun c _ => iff_of_eq (Bool.not_eq_true' (isLineEnd c))

theorem lines_one {text : List Char} (inside : oneLine text = true) : lines text = [text] :=
  List.splitOnP_eq_singleton (oneLine_iff.mp inside)

theorem lines_append (front back : List Char) {c : Char} (ends : isLineEnd c = true) :
    lines (front ++ c :: back) = lines front ++ lines back :=
  List.splitOnP_append_cons front back ends

theorem lines_flatMap {front : List (List Char)} (inside : ∀ line ∈ front, oneLine line = true)
    (back : List Char) : lines (front.flatMap (· ++ ['\n']) ++ back) = front ++ lines back := by
  induction front with
  | nil => rfl
  | cons line front ih =>
      obtain ⟨first, later⟩ := List.forall_mem_cons.mp inside
      rw [List.flatMap_cons, List.append_assoc, List.append_assoc, List.singleton_append,
        lines_append line _ rfl, lines_one first, ih later]
      rfl

/-- The first line, and whether there are others. -/
theorem lines_eq (text : List Char) :
    ∃ others, lines text = text.takeWhile (fun c => !isLineEnd c) :: others ∧
      (text.takeWhile (fun c => !isLineEnd c) = text → others = []) := by
  have first : oneLine (text.takeWhile fun c => !isLineEnd c) = true :=
    List.all_eq_true.mpr fun c => List.mem_takeWhile_imp
  have split := List.takeWhile_append_dropWhile (p := fun c => !isLineEnd c) (l := text)
  cases later : text.dropWhile (fun c => !isLineEnd c) with
  | nil =>
      rw [later, List.append_nil] at split
      rw [split] at first ⊢
      exact ⟨[], lines_one first, fun _ => rfl⟩
  | cons c rest =>
      have ends : isLineEnd c = true := by
        have head := List.head_dropWhile_not (fun c => !isLineEnd c) (by rw [later]; exact nofun)
        simpa [later] using head
      refine ⟨lines rest, ?_, fun whole => ?_⟩
      · conv_lhs => rw [← split, later]
        rw [lines_append _ _ ends, lines_one first]
        rfl
      · rw [whole, later] at split
        exact absurd (List.append_right_eq_self.mp split) nofun

end LinkP2p.Lib.UnitFile
