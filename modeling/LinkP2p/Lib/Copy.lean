import LinkP2p.Lib.Transition

/-!
# Copying a stream

A copier reads chunks of any size into a buffer and writes from the front of
it, as much as the writer takes. It is through when the reader has ended and
the buffer is empty.
-/

namespace LinkP2p.Lib

open LinkP2p.Lib.Transition

/-- A copy under way: what is read and not yet written, and what is written. -/
structure Copy (β : Type) where
  buffer : List β
  written : List β
  /-- The reader has ended. -/
  ended : Bool
  deriving DecidableEq, Repr

namespace Copy

inductive Act (β : Type) where
  | read (chunk : List β)
  | eof
  /-- The writer takes so many bytes. -/
  | write (count : Nat)
  deriving DecidableEq, Repr

variable {β : Type}

def start : Copy β := ⟨[], [], false⟩

def step (copy : Copy β) : Act β → Option (Copy β)
  | .read chunk =>
      if copy.ended || chunk.isEmpty then none
      else some { copy with buffer := copy.buffer ++ chunk }
  | .eof => if copy.ended then none else some { copy with ended := true }
  | .write count =>
      if 0 < count ∧ count ≤ copy.buffer.length then
        some { copy with
          buffer := copy.buffer.drop count
          written := copy.written ++ copy.buffer.take count }
      else none

/-- Everything that the reader has given is written. -/
def through (copy : Copy β) : Bool := copy.ended && copy.buffer.isEmpty

/-- What an act takes from the reader. -/
def Act.taken : Act β → List β
  | .read chunk => chunk
  | .eof | .write _ => []

/-- The bytes that a copy has read, in their order. -/
def bytes (copy : Copy β) : List β := copy.written ++ copy.buffer

theorem through_iff {copy : Copy β} : copy.through ↔ copy.ended ∧ copy.buffer = [] := by
  rw [through, Bool.and_eq_true, List.isEmpty_iff]

theorem bytes_of_through {copy : Copy β} (through : copy.through) : copy.bytes = copy.written := by
  rw [bytes, (through_iff.mp through).2, List.append_nil]

/-- A step adds what it takes from the reader and loses nothing. -/
theorem bytes_step {copy next : Copy β} {act : Act β} (stepped : copy.step act = some next) :
    next.bytes = copy.bytes ++ act.taken := by
  cases act with
  | read chunk =>
      obtain ⟨_, same⟩ := Option.ite_none_left_eq_some.mp stepped
      cases same
      exact (List.append_assoc _ _ _).symm
  | eof =>
      obtain ⟨_, same⟩ := Option.ite_none_left_eq_some.mp stepped
      cases same
      exact (List.append_nil _).symm
  | write count =>
      obtain ⟨_, same⟩ := Option.ite_none_right_eq_some.mp stepped
      cases same
      rw [bytes, bytes, Act.taken, List.append_nil, List.append_assoc, List.take_append_drop]

end Copy

end LinkP2p.Lib
