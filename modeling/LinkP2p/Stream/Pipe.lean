import LinkP2p.Lib.Copy
import LinkP2p.Lib.SideBySide

/-!
# The byte pipe of a stream

One loop drives both directions between a local connection and a QUIC stream.
A direction that ends cleanly leaves the other one running. An error ends both,
and what is left of the stream is stopped or reset.
-/

namespace LinkP2p.Stream.Piping

open LinkP2p.Lib LinkP2p.Lib.Transition LinkP2p.Lib.SideBySide

-- An error of a copy or of `finish`.
variable {ε : Type}

/-! ## One direction -/

/-- The two futures of `pipe_halves`. -/
inductive Direction where
  | clientToRemote
  | remoteToClient (shutdownLocal : Bool)
  deriving DecidableEq, Repr

inductive Stage (ε : Type) where
  | copying
  /-- In `shutdown`, with what `copy` has returned. -/
  | closing (result : Except ε Nat)
  | returned (result : Except ε Nat)

structure Half (ε : Type) where
  copy : Copy UInt8
  stage : Stage ε
  /-- `finish` or `shutdown` has been called on the writer. -/
  closed : Bool

def Half.start : Half ε := ⟨.start, .copying, false⟩

/-- The result of the future, once it is ready. -/
def Half.result (half : Half ε) : Option (Except ε Nat) :=
  match half.stage with
  | .returned result => some result
  | _ => none

inductive HalfAct (ε : Type) where
  | copy (act : Copy.Act UInt8)
  /-- `copy` returns `Ok`, and so does a `finish` behind it. -/
  | copied
  /-- `copy` returns `Ok` and `finish` fails. -/
  | refused (error : ε)
  /-- `copy` fails to read, to write or to flush. -/
  | failed (error : ε)
  /-- `shutdown` returns, whatever it says. -/
  | shut

/-- What follows when `copy` has returned. -/
def Half.after (half : Half ε) (result : Except ε Nat) : Direction → Half ε
  | .clientToRemote => { half with stage := .returned result, closed := result.isOk }
  | .remoteToClient shutdownLocal =>
      { half with
        stage := if shutdownLocal then .closing result else .returned result
        closed := shutdownLocal }

def Half.step (direction : Direction) (half : Half ε) : HalfAct ε → Option (Half ε)
  | .copy act =>
      match half.stage with
      | .copying => (half.copy.step act).map fun copy => { half with copy }
      | _ => none
  | .copied =>
      match half.stage with
      | .copying =>
          if half.copy.through then some (half.after (.ok half.copy.written.length) direction)
          else none
      | _ => none
  | .refused error =>
      match half.stage, direction with
      | .copying, .clientToRemote =>
          if half.copy.through then
            some { half with stage := .returned (.error error), closed := true }
          else none
      | _, _ => none
  | .failed error =>
      match half.stage with
      | .copying => some (half.after (.error error) direction)
      | _ => none
  | .shut =>
      match half.stage with
      | .closing result => some { half with stage := .returned result }
      | _ => none

/-- `client_to_remote` -/
def clientToRemote : Half ε → HalfAct ε → Option (Half ε) := Half.step .clientToRemote

/-- `remote_to_client` -/
def remoteToClient (shutdownLocal : Bool) : Half ε → HalfAct ε → Option (Half ε) :=
  Half.step (.remoteToClient shutdownLocal)

/-! ## Both directions -/

structure PipeOutcome (ε : Type) where
  sent : Nat
  recvd : Nat
  result : Except ε Unit

/-- `a.as_ref().copied().unwrap_or(0)` -/
def countOf : Except ε Nat → Nat
  | .ok count => count
  | .error _ => 0

def mergePipeResults (a b : Except ε Nat) : PipeOutcome ε where
  sent := countOf a
  recvd := countOf b
  result :=
    match a, b with
    | .ok _, .ok _ => .ok ()
    | .error e, _ => .error e
    | _, .error e => .error e

/-- What is called on the stream behind the loop. -/
inductive Abort where
  /-- `recv.stop(STREAM_ABORT_CODE)` -/
  | stop
  /-- `send.reset(STREAM_ABORT_CODE)` -/
  | reset
  deriving DecidableEq, Repr

/-- The match behind the loop. -/
def afterLoop : Option (Except ε Nat) → Option (Except ε Nat) → Option Abort × PipeOutcome ε
  | some a, some b => (none, mergePipeResults a b)
  | some a, none => (some .stop, ⟨0, 0, a.map fun _ => ()⟩)
  | none, some b => (some .reset, ⟨0, 0, b.map fun _ => ()⟩)
  | none, none => (none, ⟨0, 0, .ok ()⟩)

structure Pipe (ε : Type) where
  client : Half ε
  remote : Half ε
  abort : Option Abort
  /-- What `pipe_halves` has returned. -/
  outcome : Option (PipeOutcome ε)

def Pipe.start : Pipe ε := ⟨.start, .start, none, none⟩

/-- The loop after a future was polled: it goes on while one of the two is not
ready and none has failed. -/
def Pipe.polled (pipe : Pipe ε) (result : Option (Except ε Nat)) : Pipe ε :=
  match result with
  | none => pipe
  | some r =>
      if !r.isOk || (pipe.client.result.isSome && pipe.remote.result.isSome) then
        { pipe with
          abort := (afterLoop pipe.client.result pipe.remote.result).1
          outcome := some (afterLoop pipe.client.result pipe.remote.result).2 }
      else pipe

/-- One step of `pipe_halves`. -/
def step (shutdownLocal : Bool) (pipe : Pipe ε) :
    HalfAct ε ⊕ HalfAct ε → Option (Pipe ε)
  | .inl act =>
      if pipe.outcome.isSome then none
      else (clientToRemote pipe.client act).map fun client =>
        { pipe with client }.polled client.result
  | .inr act =>
      if pipe.outcome.isSome then none
      else (remoteToClient shutdownLocal pipe.remote act).map fun remote =>
        { pipe with remote }.polled remote.result

/-! ## A direction by itself -/

/-- What an act takes from the reader of its direction. -/
def HalfAct.taken : HalfAct ε → List UInt8
  | .copy act => act.taken
  | _ => []

/-- The moves of a direction. -/
inductive HalfMove (direction : Direction) (half : Half ε) : HalfAct ε → Half ε → Prop where
  | copy (act : Copy.Act UInt8) (copy : Copy UInt8) (copying : half.stage = .copying)
      (stepped : half.copy.step act = some copy) :
      HalfMove direction half (.copy act) { half with copy }
  | copied (copying : half.stage = .copying) (through : half.copy.through = true) :
      HalfMove direction half .copied (half.after (.ok half.copy.written.length) direction)
  | refused (error : ε) (copying : half.stage = .copying) (through : half.copy.through = true)
      (client : direction = .clientToRemote) :
      HalfMove direction half (.refused error)
        { half with stage := .returned (.error error), closed := true }
  | failed (error : ε) (copying : half.stage = .copying) :
      HalfMove direction half (.failed error) (half.after (.error error) direction)
  | shut (result : Except ε Nat) (closing : half.stage = .closing result) :
      HalfMove direction half .shut { half with stage := .returned result }

variable {direction : Direction} {half next : Half ε} {act : HalfAct ε}

theorem halfStep_move (stepped : half.step direction act = some next) :
    HalfMove direction half act next := by
  cases act with
  | copy act =>
      simp only [Half.step] at stepped
      split at stepped
      · rename_i copying
        obtain ⟨copy, taken, rfl⟩ := Option.map_eq_some_iff.mp stepped
        exact .copy act copy copying taken
      · cases stepped
  | copied =>
      simp only [Half.step] at stepped
      split at stepped
      · rename_i copying
        obtain ⟨through, same⟩ := Option.ite_none_right_eq_some.mp stepped
        cases same
        exact .copied copying through
      · cases stepped
  | refused error =>
      simp only [Half.step] at stepped
      split at stepped
      · rename_i copying
        obtain ⟨through, same⟩ := Option.ite_none_right_eq_some.mp stepped
        cases same
        exact .refused error copying through rfl
      · cases stepped
  | failed error =>
      simp only [Half.step] at stepped
      split at stepped
      · rename_i copying
        cases stepped
        exact .failed error copying
      · cases stepped
  | shut =>
      simp only [Half.step] at stepped
      split at stepped
      · rename_i result closing
        cases stepped
        exact .shut result closing
      · cases stepped

/-- The writer has been given all that the reader gave. -/
def Half.Delivers (half : Half ε) (count : Nat) : Prop :=
  half.copy.through = true ∧ count = half.copy.written.length

/-- A result counts what was written, and comes when nothing is left to write. `finish` is
called where the copy has succeeded, `shutdown` wherever it has returned. -/
structure Half.Sound (direction : Direction) (half : Half ε) : Prop where
  delivers : ∀ count, half.stage = .closing (.ok count) ∨ half.stage = .returned (.ok count) →
    half.Delivers count
  copying : half.stage = .copying → half.closed = false
  complete : direction = .clientToRemote → half.closed = true → half.copy.through = true
  finishes : direction = .clientToRemote → ∀ result, half.stage ≠ .closing result ∧
    (half.stage = .returned result → result.isOk → half.closed = true)
  shuts : ∀ shutdownLocal, direction = .remoteToClient shutdownLocal → half.stage ≠ .copying →
    half.closed = shutdownLocal

theorem sound_start : (Half.start : Half ε).Sound direction where
  delivers := by
    rintro count (closing | returned)
    · cases closing
    · cases returned
  copying := fun _ => rfl
  complete := nofun
  finishes := fun _ _ => ⟨nofun, nofun⟩
  shuts := fun _ _ moved => absurd rfl moved

theorem sound_after {result : Except ε Nat}
    (delivers : ∀ count, result = .ok count → half.Delivers count) :
    (half.after result direction).Sound direction := by
  cases direction with
  | clientToRemote =>
      refine ⟨?_, nofun, fun _ finished => ?_, fun _ found => ⟨nofun, fun returned fine => ?_⟩,
        nofun⟩
      · rintro count (closing | returned)
        · cases closing
        · cases returned
          exact delivers count rfl
      · cases result with
        | ok count => exact (delivers count rfl).1
        | error error => cases finished
      · cases returned
        exact fine
  | remoteToClient shutdownLocal =>
      cases shutdownLocal with
      | false =>
          refine ⟨?_, nofun, nofun, nofun, fun _ same _ => by cases same; rfl⟩
          rintro count (closing | returned)
          · cases closing
          · cases returned
            exact delivers count rfl
      | true =>
          refine ⟨?_, nofun, nofun, nofun, fun _ same _ => by cases same; rfl⟩
          rintro count (closing | returned)
          · cases closing
            exact delivers count rfl
          · cases returned

theorem sound_step (sound : half.Sound direction) (stepped : half.step direction act = some next) :
    next.Sound direction := by
  cases halfStep_move stepped with
  | copy act copy copying taken =>
      refine ⟨?_, sound.copying, fun _ finished => ?_, sound.finishes, sound.shuts⟩
      · rintro count (closing | returned)
        · cases copying.symm.trans closing
        · cases copying.symm.trans returned
      · cases (sound.copying copying).symm.trans finished
  | copied copying through =>
      refine sound_after fun count same => ?_
      cases same
      exact ⟨through, rfl⟩
  | refused error copying through client =>
      subst client
      refine ⟨?_, nofun, fun _ _ => through, fun _ _ => ⟨nofun, fun _ _ => rfl⟩, nofun⟩
      rintro count (closing | returned)
      · cases closing
      · cases returned
  | failed error copying => exact sound_after nofun
  | shut result closing =>
      refine ⟨?_, nofun, sound.complete, fun client => ?_, fun shutdownLocal same _ => ?_⟩
      · rintro count (impossible | returned)
        · cases impossible
        · cases returned
          exact sound.delivers count (.inl closing)
      · exact absurd closing (sound.finishes client result).1
      · exact sound.shuts shutdownLocal same (by rw [closing]; exact nofun)

/-- A step reads what its act says, and no byte is lost between reader and writer. -/
theorem halfStep_bytes (stepped : half.step direction act = some next) :
    next.copy.bytes = half.copy.bytes ++ act.taken := by
  cases halfStep_move stepped with
  | copy act copy copying taken => exact Copy.bytes_step taken
  | copied => cases direction <;> exact (List.append_nil _).symm
  | refused => exact (List.append_nil _).symm
  | failed => cases direction <;> exact (List.append_nil _).symm
  | shut => exact (List.append_nil _).symm

theorem halfRun_bytes {acts : List (HalfAct ε)}
    (ran : run (Half.step direction) half acts = some next) :
    next.copy.bytes = half.copy.bytes ++ acts.flatMap HalfAct.taken := by
  induction acts generalizing half with
  | nil =>
      cases ran
      exact (List.append_nil _).symm
  | cons act rest ih =>
      obtain ⟨middle, stepped, later⟩ := Option.bind_eq_some_iff.mp ran
      rw [ih later, halfStep_bytes stepped, List.flatMap_cons, List.append_assoc]

/-- A future that has returned is not polled again. -/
theorem halfStep_none {result : Except ε Nat} (returned : half.result = some result)
    (act : HalfAct ε) : half.step direction act = none := by
  have stage : half.stage = .returned result := by
    unfold Half.result at returned
    split at returned
    · cases returned
      assumption
    · cases returned
  cases act <;> simp only [Half.step, stage]

theorem halfRun_returned {result : Except ε Nat} (returned : half.result = some result)
    {acts : List (HalfAct ε)} (ran : run (Half.step direction) half acts = some next) :
    acts = [] ∧ next = half := by
  cases acts with
  | nil =>
      cases ran
      exact ⟨rfl, rfl⟩
  | cons act rest =>
      rw [run_cons, halfStep_none returned] at ran
      cases ran

/-! ## Both directions -/

/-- How `pipe_halves` can end. At most one direction fails, and the other one has either
succeeded before or is cut off. -/
inductive Ending (pipe : Pipe ε) : PipeOutcome ε → Prop where
  | clean (n m : Nat) (client : pipe.client.result = some (.ok n))
      (remote : pipe.remote.result = some (.ok m)) (untouched : pipe.abort = none) :
      Ending pipe ⟨n, m, .ok ()⟩
  | clientCutsRemote (e : ε) (client : pipe.client.result = some (.error e))
      (remote : pipe.remote.result = none) (stopped : pipe.abort = some .stop) :
      Ending pipe ⟨0, 0, .error e⟩
  | remoteCutsClient (e : ε) (client : pipe.client.result = none)
      (remote : pipe.remote.result = some (.error e)) (reset : pipe.abort = some .reset) :
      Ending pipe ⟨0, 0, .error e⟩
  | clientLast (e : ε) (m : Nat) (client : pipe.client.result = some (.error e))
      (remote : pipe.remote.result = some (.ok m)) (untouched : pipe.abort = none) :
      Ending pipe ⟨0, m, .error e⟩
  | remoteLast (n : Nat) (e : ε) (client : pipe.client.result = some (.ok n))
      (remote : pipe.remote.result = some (.error e)) (untouched : pipe.abort = none) :
      Ending pipe ⟨n, 0, .error e⟩

/-- The loop goes on: no direction has failed, and not both are through. -/
structure Going (pipe : Pipe ε) : Prop where
  untouched : pipe.abort = none
  client : ∀ result, pipe.client.result = some result → result.isOk
  remote : ∀ result, pipe.remote.result = some result → result.isOk
  unfinished : pipe.client.result = none ∨ pipe.remote.result = none

structure Sound (shutdownLocal : Bool) (pipe : Pipe ε) : Prop where
  client : pipe.client.Sound .clientToRemote
  remote : pipe.remote.Sound (.remoteToClient shutdownLocal)
  going : pipe.outcome = none → Going pipe
  ending : ∀ outcome, pipe.outcome = some outcome → Ending pipe outcome

variable {shutdownLocal : Bool} {pipe pipe' : Pipe ε} {event : HalfAct ε ⊕ HalfAct ε}

@[simp]
theorem polled_client (result : Option (Except ε Nat)) :
    (pipe.polled result).client = pipe.client := by
  unfold Pipe.polled
  split
  · rfl
  · split <;> rfl

@[simp]
theorem polled_remote (result : Option (Except ε Nat)) :
    (pipe.polled result).remote = pipe.remote := by
  unfold Pipe.polled
  split
  · rfl
  · split <;> rfl

theorem sound_pipe_start : Sound shutdownLocal (Pipe.start : Pipe ε) where
  client := sound_start
  remote := sound_start
  going := fun _ => ⟨rfl, nofun, nofun, .inl rfl⟩
  ending := nofun

theorem polled_error {e : ε} :
    pipe.polled (some (.error e)) =
      { pipe with
        abort := (afterLoop pipe.client.result pipe.remote.result).1
        outcome := some (afterLoop pipe.client.result pipe.remote.result).2 } := rfl

theorem polled_ok_both (pipe : Pipe ε) {n : Nat} {a b : Except ε Nat}
    (client : pipe.client.result = some a) (remote : pipe.remote.result = some b) :
    pipe.polled (some (.ok n)) =
      { pipe with abort := none, outcome := some (mergePipeResults a b) } := by
  simp only [Pipe.polled, client, remote, Except.isOk, Except.toBool, Option.isSome_some,
    Bool.and_self, Bool.or_true, if_true, afterLoop]

theorem polled_ok_one (pipe : Pipe ε) {n : Nat}
    (one : pipe.client.result = none ∨ pipe.remote.result = none) :
    pipe.polled (some (.ok n)) = pipe := by
  rcases one with client | remote
  · simp only [Pipe.polled, client, Except.isOk, Except.toBool, Option.isSome_none, Bool.not_true,
      Bool.false_and, Bool.or_false, Bool.false_eq_true, if_false]
  · simp only [Pipe.polled, remote, Except.isOk, Except.toBool, Option.isSome_none, Bool.not_true,
      Bool.and_false, Bool.or_false, Bool.false_eq_true, if_false]

theorem isOk_iff {result : Except ε Nat} : result.isOk = true ↔ ∃ count, result = .ok count := by
  cases result with
  | ok count => exact ⟨fun _ => ⟨count, rfl⟩, fun _ => rfl⟩
  | error error => exact ⟨nofun, nofun⟩

/-- What is known of the pipe when one future is ready and the loop has not looked yet. -/
theorem polled_ends (pipe : Pipe ε) (running : pipe.outcome = none) (untouched : pipe.abort = none)
    {result : Except ε Nat}
    (ready : pipe.client.result = some result ∧
        (∀ other, pipe.remote.result = some other → other.isOk) ∨
      pipe.remote.result = some result ∧
        ∀ other, pipe.client.result = some other → other.isOk) :
    (∀ outcome, (pipe.polled (some result)).outcome = some outcome →
        Ending (pipe.polled (some result)) outcome) ∧
      ((pipe.polled (some result)).outcome = none → Going (pipe.polled (some result))) := by
  cases result with
  | error e =>
      rw [polled_error]
      refine ⟨?_, nofun⟩
      rintro outcome ⟨⟩
      rcases ready with ⟨client, fine⟩ | ⟨remote, fine⟩
      · cases other : pipe.remote.result with
        | none =>
            simp only [client, afterLoop]
            exact .clientCutsRemote e client other rfl
        | some b =>
            obtain ⟨m, rfl⟩ := isOk_iff.mp (fine b other)
            simp only [client, afterLoop]
            exact .clientLast e m client other rfl
      · cases other : pipe.client.result with
        | none =>
            simp only [remote, afterLoop]
            exact .remoteCutsClient e other remote rfl
        | some a =>
            obtain ⟨n, rfl⟩ := isOk_iff.mp (fine a other)
            simp only [remote, afterLoop]
            exact .remoteLast n e other remote rfl
  | ok count =>
      have fine : (∀ a, pipe.client.result = some a → a.isOk) ∧
          ∀ b, pipe.remote.result = some b → b.isOk := by
        rcases ready with ⟨client, fine⟩ | ⟨remote, fine⟩
        · exact ⟨fun a found => (by cases client.symm.trans found; rfl), fine⟩
        · exact ⟨fine, fun b found => (by cases remote.symm.trans found; rfl)⟩
      by_cases one : pipe.client.result = none ∨ pipe.remote.result = none
      · rw [polled_ok_one pipe one]
        exact ⟨fun outcome ended => (by cases running.symm.trans ended),
          fun _ => ⟨untouched, fine.1, fine.2, one⟩⟩
      · obtain ⟨client, remote⟩ := not_or.mp one
        obtain ⟨a, client⟩ := Option.ne_none_iff_exists'.mp client
        obtain ⟨b, remote⟩ := Option.ne_none_iff_exists'.mp remote
        rw [polled_ok_both pipe client remote]
        refine ⟨?_, nofun⟩
        rintro outcome ⟨⟩
        obtain ⟨n, rfl⟩ := isOk_iff.mp (fine.1 a client)
        obtain ⟨m, rfl⟩ := isOk_iff.mp (fine.2 b remote)
        exact .clean n m client remote rfl

/-- A step of the pipe is a step of one of its directions, looked at by the loop. -/
inductive Move (shutdownLocal : Bool) (pipe : Pipe ε) : HalfAct ε ⊕ HalfAct ε → Pipe ε → Prop where
  | client (act : HalfAct ε) (next : Half ε) (running : pipe.outcome = none)
      (stepped : clientToRemote pipe.client act = some next) :
      Move shutdownLocal pipe (.inl act) ({ pipe with client := next }.polled next.result)
  | remote (act : HalfAct ε) (next : Half ε) (running : pipe.outcome = none)
      (stepped : remoteToClient shutdownLocal pipe.remote act = some next) :
      Move shutdownLocal pipe (.inr act) ({ pipe with remote := next }.polled next.result)

theorem step_iff :
    step shutdownLocal pipe event = some pipe' ↔ Move shutdownLocal pipe event pipe' := by
  constructor
  · intro stepped
    cases event with
    | inl act =>
        obtain ⟨running, stepped⟩ := Option.ite_none_left_eq_some.mp stepped
        obtain ⟨next, moved, rfl⟩ := Option.map_eq_some_iff.mp stepped
        exact .client act next (Option.not_isSome_iff_eq_none.mp running) moved
    | inr act =>
        obtain ⟨running, stepped⟩ := Option.ite_none_left_eq_some.mp stepped
        obtain ⟨next, moved, rfl⟩ := Option.map_eq_some_iff.mp stepped
        exact .remote act next (Option.not_isSome_iff_eq_none.mp running) moved
  · rintro (⟨act, next, running, stepped⟩ | ⟨act, next, running, stepped⟩)
    · simp only [step, running, Option.isSome_none, Bool.false_eq_true, if_false, stepped,
        Option.map_some]
    · simp only [step, running, Option.isSome_none, Bool.false_eq_true, if_false, stepped,
        Option.map_some]

theorem sound_pipe_step (sound : Sound shutdownLocal pipe)
    (stepped : step shutdownLocal pipe event = some pipe') : Sound shutdownLocal pipe' := by
  cases step_iff.mp stepped with
  | client act next running moved =>
      have going := sound.going running
      have client := sound_step sound.client moved
      cases ready : next.result with
      | none =>
          refine ⟨client, sound.remote, fun _ => ?_, fun outcome ended => ?_⟩
          · exact ⟨going.untouched, fun r found => (by cases ready.symm.trans found),
              going.remote, .inl ready⟩
          · cases running.symm.trans ended
      | some result =>
          obtain ⟨ends, goes⟩ := polled_ends { pipe with client := next } running
            going.untouched (.inl ⟨ready, going.remote⟩)
          exact ⟨by rw [polled_client]; exact client, by rw [polled_remote]; exact sound.remote,
            goes, ends⟩
  | remote act next running moved =>
      have going := sound.going running
      have remote := sound_step sound.remote moved
      cases ready : next.result with
      | none =>
          refine ⟨sound.client, remote, fun _ => ?_, fun outcome ended => ?_⟩
          · exact ⟨going.untouched, going.client,
              fun r found => (by cases ready.symm.trans found), .inr ready⟩
          · cases running.symm.trans ended
      | some result =>
          obtain ⟨ends, goes⟩ := polled_ends { pipe with remote := next } running
            going.untouched (.inr ⟨ready, going.client⟩)
          exact ⟨by rw [polled_client]; exact sound.client, by rw [polled_remote]; exact remote,
            goes, ends⟩

theorem run_sound {events : List (HalfAct ε ⊕ HalfAct ε)}
    (ran : run (step shutdownLocal) .start events = some pipe) : Sound shutdownLocal pipe :=
  (allStates_of_invariant (fun _ _ _ held stepped => sound_pipe_step held stepped)
    sound_pipe_start events).final ran

/-- The pipe moves its directions as if they ran side by side. -/
theorem run_halves {events : List (HalfAct ε ⊕ HalfAct ε)}
    (ran : run (step shutdownLocal) pipe events = some pipe') :
    run (product clientToRemote (remoteToClient shutdownLocal)) (pipe.client, pipe.remote) events =
      some (pipe'.client, pipe'.remote) := by
  induction events generalizing pipe with
  | nil =>
      cases ran
      rfl
  | cons event rest ih =>
      obtain ⟨middle, stepped, later⟩ := Option.bind_eq_some_iff.mp ran
      have rested := ih later
      cases step_iff.mp stepped with
      | client act next running moved =>
          rw [polled_client, polled_remote] at rested
          rw [run_cons, product, moved]
          exact rested
      | remote act next running moved =>
          rw [polled_client, polled_remote] at rested
          rw [run_cons, product, moved]
          exact rested

/-! ## What a run delivers -/

/-- What the local side has sent; nothing more comes once its end is read. -/
def sentBytes (events : List (HalfAct ε ⊕ HalfAct ε)) : List UInt8 :=
  (lefts events).flatMap HalfAct.taken

/-- What the remote side has sent, likewise. -/
def recvdBytes (events : List (HalfAct ε ⊕ HalfAct ε)) : List UInt8 :=
  (rights events).flatMap HalfAct.taken

theorem run_bytes {events : List (HalfAct ε ⊕ HalfAct ε)}
    (ran : run (step shutdownLocal) .start events = some pipe) :
    pipe.client.copy.bytes = sentBytes events ∧ pipe.remote.copy.bytes = recvdBytes events := by
  obtain ⟨client, remote⟩ := run_product_iff.mp (run_halves ran)
  exact ⟨halfRun_bytes client, halfRun_bytes remote⟩

theorem Half.Sound.delivered (sound : half.Sound direction) {count : Nat}
    (returned : half.result = some (.ok count)) {given : List UInt8}
    (bytes : half.copy.bytes = given) :
    half.copy.ended = true ∧ half.copy.written = given ∧ count = given.length := by
  have stage : half.stage = .returned (.ok count) := by
    unfold Half.result at returned
    split at returned
    · cases returned
      assumption
    · cases returned
  obtain ⟨through, counted⟩ := sound.delivers count (.inr stage)
  have whole := (Copy.bytes_of_through through).symm.trans bytes
  exact ⟨(Copy.through_iff.mp through).1, whole, counted.trans (congrArg List.length whole)⟩

/-- **Delivery.** In every run of a pipe each side is given what the other side has sent, from
the front and in order. `finish` is called only when the local side has ended and the remote
side has been given all that it sent, and a pipe that returns `Ok` has read both sides to their
ends and delivered and counted everything. -/
theorem pipe_delivers {events : List (HalfAct ε ⊕ HalfAct ε)}
    (ran : run (step shutdownLocal) .start events = some pipe) :
    pipe.client.copy.written <+: sentBytes events ∧
      pipe.remote.copy.written <+: recvdBytes events ∧
      (pipe.client.closed = true →
        pipe.client.copy.ended = true ∧ pipe.client.copy.written = sentBytes events) ∧
      ∀ outcome, pipe.outcome = some outcome → outcome.result = .ok () →
        (pipe.client.copy.ended = true ∧ pipe.client.copy.written = sentBytes events ∧
          outcome.sent = (sentBytes events).length) ∧
        pipe.remote.copy.ended = true ∧ pipe.remote.copy.written = recvdBytes events ∧
          outcome.recvd = (recvdBytes events).length := by
  have sound := run_sound ran
  obtain ⟨sent, recvd⟩ := run_bytes ran
  refine ⟨⟨_, sent⟩, ⟨_, recvd⟩, fun finished => ?_, fun outcome ended fine => ?_⟩
  · have through := sound.client.complete rfl finished
    exact ⟨(Copy.through_iff.mp through).1, (Copy.bytes_of_through through).symm.trans sent⟩
  · cases sound.ending outcome ended with
    | clean n m client remote =>
        exact ⟨sound.client.delivered client sent, sound.remote.delivered remote recvd⟩
    | clientCutsRemote | remoteCutsClient | clientLast | remoteLast => cases fine

/-- Both sides send and end; the remote side ends first. -/
theorem pipe_delivers_halfClose :
    ∃ pipe : Pipe Unit,
      run (step true) .start
        [.inl (.copy (.read [1, 2])), .inr (.copy (.read [3])), .inr (.copy (.write 1)),
          .inr (.copy .eof), .inr .copied, .inr .shut, .inl (.copy (.write 2)),
          .inl (.copy .eof), .inl .copied] = some pipe ∧
        pipe.outcome = some ⟨2, 1, .ok ()⟩ ∧
        (pipe.client.copy.ended = true ∧ pipe.client.copy.written = [1, 2]) ∧
        pipe.remote.copy.ended = true ∧ pipe.remote.copy.written = [3] := by
  have ran := Eq.refl (run (step true) (Pipe.start : Pipe Unit)
    [.inl (.copy (.read [1, 2])), .inr (.copy (.read [3])), .inr (.copy (.write 1)),
      .inr (.copy .eof), .inr .copied, .inr .shut, .inl (.copy (.write 2)),
      .inl (.copy .eof), .inl .copied])
  obtain ⟨⟨ended, client, -⟩, ended', remote, -⟩ := (pipe_delivers ran).2.2.2 _ rfl rfl
  exact ⟨_, ran, rfl, ⟨ended, client⟩, ended', remote⟩

/-! ## Half-close -/

/-- The acts take the direction alone to its end, which counts so many bytes. -/
def Completes (direction : Direction) (acts : List (HalfAct ε)) (count : Nat) : Prop :=
  ∃ half, run (Half.step direction) .start acts = some half ∧ half.result = some (.ok count)

/-- Two directions that both complete by themselves complete in the pipe. -/
theorem run_ends_clean {events : List (HalfAct ε ⊕ HalfAct ε)} {client remote : Half ε}
    {n m : Nat} (running : pipe.outcome = none)
    (unfinished : pipe.client.result = none ∨ pipe.remote.result = none)
    (first : run clientToRemote pipe.client (lefts events) = some client)
    (second : run (remoteToClient shutdownLocal) pipe.remote (rights events) = some remote)
    (sent : client.result = some (.ok n)) (recvd : remote.result = some (.ok m)) :
    ∃ final, run (step shutdownLocal) pipe events = some final ∧
      final.outcome = some ⟨n, m, .ok ()⟩ := by
  induction events generalizing pipe with
  | nil =>
      cases first
      cases second
      rcases unfinished with missing | missing
      · cases missing.symm.trans sent
      · cases missing.symm.trans recvd
  | cons event rest ih =>
      cases event with
      | inl act =>
          obtain ⟨next, moved, first⟩ := Option.bind_eq_some_iff.mp first
          have stepped := step_iff.mpr (Move.client act next running moved :
            Move shutdownLocal pipe _ _)
          rw [run_cons, stepped, Option.bind_some]
          cases ready : next.result with
          | none => exact ih running (.inl ready) first second
          | some result =>
              -- a direction that is ready has no act left, so its result is the final one
              obtain ⟨spent, rfl⟩ := halfRun_returned ready first
              cases ready.symm.trans sent
              cases other : pipe.remote.result with
              | none =>
                  rw [polled_ok_one { pipe with client } (.inr other)]
                  exact ih running (.inr other) first second
              | some b =>
                  obtain ⟨spent', rfl⟩ := halfRun_returned other second
                  cases other.symm.trans recvd
                  obtain rfl : rest = [] := eq_nil spent spent'
                  exact ⟨_, rfl, by rw [polled_ok_both { pipe with client } ready other]; rfl⟩
      | inr act =>
          obtain ⟨next, moved, second⟩ := Option.bind_eq_some_iff.mp second
          have stepped := step_iff.mpr (Move.remote act next running moved :
            Move shutdownLocal pipe _ _)
          rw [run_cons, stepped, Option.bind_some]
          cases ready : next.result with
          | none => exact ih running (.inr ready) first second
          | some result =>
              obtain ⟨spent, rfl⟩ := halfRun_returned ready second
              cases ready.symm.trans recvd
              cases other : pipe.client.result with
              | none =>
                  rw [polled_ok_one { pipe with remote } (.inl other)]
                  exact ih running (.inl other) first second
              | some a =>
                  obtain ⟨spent', rfl⟩ := halfRun_returned other first
                  cases other.symm.trans sent
                  obtain rfl : rest = [] := eq_nil spent' spent
                  exact ⟨_, rfl, by rw [polled_ok_both { pipe with remote } other ready]; rfl⟩

/-- **Half-close.** A pipe returns `Ok` on an interleaving exactly when each direction completes
on its own events. So neither the order in which the directions end nor what the other one is
doing then changes what a direction delivers. -/
theorem ends_clean_iff (shutdownLocal : Bool) (events : List (HalfAct ε ⊕ HalfAct ε)) (n m : Nat) :
    (∃ pipe, run (step shutdownLocal) .start events = some pipe ∧
        pipe.outcome = some ⟨n, m, .ok ()⟩) ↔
      Completes .clientToRemote (lefts events) n ∧
        Completes (.remoteToClient shutdownLocal) (rights events) m := by
  constructor
  · rintro ⟨pipe, ran, ended⟩
    obtain ⟨first, second⟩ := run_product_iff.mp (run_halves ran)
    cases (run_sound ran).ending _ ended with
    | clean n m client remote => exact ⟨⟨_, first, client⟩, _, second, remote⟩
  · rintro ⟨⟨client, first, sent⟩, remote, second, recvd⟩
    exact run_ends_clean rfl (.inl rfl) first second sent recvd

/-! ## Errors -/

/-- **Errors.** At most one direction fails, and the pipe ends with its error. A direction that
is cut off by it is stopped or reset; one that had completed keeps its count and is left alone,
and a stream whose end is announced is never reset. -/
theorem pipe_ends {events : List (HalfAct ε ⊕ HalfAct ε)}
    (ran : run (step shutdownLocal) .start events = some pipe) :
    (∀ outcome, pipe.outcome = some outcome → Ending pipe outcome) ∧
      (pipe.outcome = none → Going pipe) ∧
      (pipe.abort = some .reset → pipe.client.closed = false) := by
  have sound := run_sound ran
  refine ⟨sound.ending, sound.going, fun reset => ?_⟩
  cases ended : pipe.outcome with
  | none => cases (sound.going ended).untouched.symm.trans reset
  | some outcome =>
      cases sound.ending outcome ended with
      | clean n m client remote untouched => cases untouched.symm.trans reset
      | clientCutsRemote e client remote stopped => cases stopped.symm.trans reset
      | clientLast e m client remote untouched => cases untouched.symm.trans reset
      | remoteLast n e client remote untouched => cases untouched.symm.trans reset
      | remoteCutsClient e client remote =>
          cases stage : pipe.client.stage with
          | copying => exact sound.client.copying stage
          | closing result => exact absurd stage (sound.client.finishes rfl result).1
          | returned result =>
              rw [Half.result, stage] at client
              cases client

/-- The local side fails after it was given a byte. -/
theorem pipe_ends_stopped :
    ∃ pipe : Pipe Unit,
      run (step true) .start [.inr (.copy (.read [3])), .inr (.copy (.write 1)),
          .inl (.failed ())] = some pipe ∧
        Ending pipe ⟨0, 0, .error ()⟩ ∧ pipe.abort = some .stop := by
  have ran := Eq.refl (run (step true) (Pipe.start : Pipe Unit)
    [.inr (.copy (.read [3])), .inr (.copy (.write 1)), .inl (.failed ())])
  exact ⟨_, ran, (pipe_ends ran).1 _ rfl, rfl⟩

end LinkP2p.Stream.Piping
