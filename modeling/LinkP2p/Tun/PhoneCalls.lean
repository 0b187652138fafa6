import LinkP2p.Tun.PhonePhase
import LinkP2p.Tun.RingList
import LinkP2p.Tun.TieBreak

/-!
# The calls of a phone

Each connection of a phone is with the loop, on the ring list or with one session. A
session claims the addresses of its peer for the map of active peers, and the loop
refuses and ignores the peers that are in this map.
-/

namespace LinkP2p.Tun.Phone

open LinkP2p.Lib LinkP2p.Lib.Transition

variable {config : PhoneConfig} {daemon next : Daemon}

/-- The entry of a session whose claim was told that it succeeded. -/
def CallStage.entry : CallStage → Option ActivePeer
  | .routing entry | .announcing entry | .running entry => some entry
  | _ => none

/-- The connections that the loop has taken up, with their peers. -/
def MainLoop.waiting : MainLoop → List (EndpointId × Connection)
  | .pushing peer conn => [(peer, conn)]
  | .publishing (.answer ring) | .spawning ring => [(ring.peer, ring.conn)]
  | _ => []

/-- The connections that no session has yet. -/
def Daemon.waiting (daemon : Daemon) : Multiset (EndpointId × Connection) :=
  (daemon.main.waiting ++ daemon.ringing.map fun ring => (ring.peer, ring.conn) : List _)

/-! ## What each step does to the connections -/

/-- The connections that a step can hand on: those that wait, and one that is established
with it. -/
inductive Offer (daemon next : Daemon) :
    DaemonEvent → Multiset (EndpointId × Connection) → Prop where
  | old {event : DaemonEvent} (conns : daemon.nextConn ≤ next.nextConn) :
      Offer daemon next event daemon.waiting
  | incoming {peer : EndpointId} {alpn : Alpn} (free : daemon.peers.containsKey peer = false)
      (conns : daemon.nextConn < next.nextConn) :
      Offer daemon next (.main (.handshaken peer alpn))
        ((peer, daemon.nextConn) ::ₘ daemon.waiting)
  | dialled {i : Nat} {task : Dial} (found : daemon.dials.get i = some task)
      (connecting : task.stage = .connecting) (conns : daemon.nextConn < next.nextConn) :
      Offer daemon next (.dial i .connected) ((task.peer, daemon.nextConn) ::ₘ daemon.waiting)

/-- A step gives a connection to a new session, is the step of a session, or does neither. -/
inductive Moved (config : PhoneConfig) (daemon next : Daemon) (event : DaemonEvent) : Prop where
  | rests {offer : Multiset (EndpointId × Connection)} (offers : Offer daemon next event offer)
      (waiting : next.waiting ≤ offer) (calls : next.calls = daemon.calls)
      (peers : next.peers = daemon.peers) (tasks : daemon.nextTask ≤ next.nextTask)
  | spawns {offer : Multiset (EndpointId × Connection)} {peer : EndpointId} {conn : Connection}
      {dialer : Bool} (offers : Offer daemon next event offer)
      (waiting : (peer, conn) ::ₘ next.waiting ≤ offer)
      (calls : next.calls = daemon.calls.put daemon.nextTask ⟨peer, conn, dialer, .exchanging⟩)
      (peers : next.peers = daemon.peers) (tasks : next.nextTask = daemon.nextTask + 1)
  | call {i : Nat} {own : CallEvent} {task : Call} {stage : Option CallStage} {effect : Effect}
      (is : event = .call i own) (found : daemon.calls.get i = some task)
      (moved : callStep config daemon i task.peer task.stage own = some (stage, effect))
      (waiting : next.waiting = daemon.waiting)
      (calls : next.calls = (daemon.setCall i task stage).calls)
      (peers : next.peers = (effect.apply daemon).peers)
      (conns : next.nextConn = daemon.nextConn) (tasks : next.nextTask = daemon.nextTask)

theorem perm_cons_eraseP {α : Type} {test : α → Bool} {list : List α} {a : α}
    (found : list.find? test = some a) : (a :: list.eraseP test).Perm list := by
  induction list with
  | nil => cases found
  | cons head rest ih =>
      rw [List.find?_cons] at found
      cases passes : test head with
      | true =>
          rw [passes] at found
          cases found
          rw [List.eraseP_cons_of_pos passes]
      | false =>
          rw [passes] at found
          rw [List.eraseP_cons_of_neg (by rw [passes]; exact Bool.false_ne_true)]
          exact (List.Perm.swap head a _).trans ((ih found).cons head)

/-- The moves of a session. -/
inductive CallMove (config : PhoneConfig) (daemon : Daemon) (i : Nat) (peer : EndpointId) :
    CallStage → CallEvent → Option CallStage → Effect → Prop where
  | fails {own : CallEvent} :
      CallMove config daemon i peer .exchanging own (some (.reconciling .peers)) .silent
  | claims {vips : OwnVips} {entry : ActivePeer} (usable : unusable config.own vips = false)
      (is : entry = ⟨peer, vips.v4, vips.v6, ⟨i⟩⟩) :
      CallMove config daemon i peer .exchanging (.exchanged vips)
        (some (if claimSucceeded daemon.peers entry then .routing entry else .reconciling .peers))
        (.storePeers (claimClosure entry daemon.peers))
  | routes {entry : ActivePeer} :
      CallMove config daemon i peer (.routing entry) (.routed true) (some (.announcing entry))
        .silent
  | announces {entry : ActivePeer} :
      CallMove config daemon i peer (.announcing entry) .next (some (.running entry))
        (.applyPhase .connected)
  | leaves {stage : CallStage} {own : CallEvent} {entry : ActivePeer}
      (told : stage.entry = some entry) :
      CallMove config daemon i peer stage own (some (.reconciling .peers))
        (.storePeers (removeClosure entry daemon.peers))
  | reconciles {at_ : Reconcile} :
      CallMove config daemon i peer (.reconciling at_) .next
        ((reconcileStep daemon at_).1.map .reconciling) (reconcileStep daemon at_).2

theorem callStep_move {i : Nat} {peer : EndpointId} {stage : CallStage}
    {after : Option CallStage} {own : CallEvent} {effect : Effect}
    (moved : callStep config daemon i peer stage own = some (after, effect)) :
    CallMove config daemon i peer stage own after effect := by
  cases stage with
  | exchanging =>
      cases own with
      | exchanged vips =>
          simp only [callStep] at moved
          split at moved
          · cases moved
            exact .fails
          · rename_i usable
            cases moved
            exact .claims (Bool.eq_false_of_not_eq_true usable) rfl
      | exchangeFailed => cases moved; exact .fails
      | _ => cases moved
  | routing entry =>
      cases own with
      | routed added =>
          cases added <;> cases moved
          · exact .leaves rfl
          · exact .routes
      | _ => cases moved
  | announcing entry => cases own <;> cases moved; exact .announces
  | running entry => cases own <;> cases moved; exact .leaves rfl
  | reconciling at_ => cases own <;> cases moved; exact .reconciles

/-- A session is told of its success by its claim and keeps the entry from then on. -/
theorem CallMove.told {i : Nat} {peer : EndpointId} {stage stage' : CallStage}
    {after : Option CallStage} {own : CallEvent} {effect : Effect} {entry : ActivePeer}
    (move : CallMove config daemon i peer stage own after effect) (left : after = some stage')
    (told : stage'.entry = some entry) : stage.entry = some entry ∨
      ∃ vips : OwnVips, own = .exchanged vips ∧ stage = .exchanging ∧
        entry = ⟨peer, vips.v4, vips.v6, ⟨i⟩⟩ ∧ claimSucceeded daemon.peers entry = true := by
  cases move with
  | fails | leaves => cases left; cases told
  | @claims vips claimed usable is =>
      cases left
      split at told
      · rename_i succeeded
        cases told
        exact .inr ⟨vips, rfl, rfl, is, succeeded⟩
      · cases told
  | routes | announces => cases left; exact .inl told
  | @reconciles at_ => cases at_ <;> cases left <;> cases told

/-- A session at its end stays there. -/
theorem CallMove.ended {i : Nat} {peer : EndpointId} {at_ : Reconcile} {stage' : CallStage}
    {after : Option CallStage} {own : CallEvent} {effect : Effect}
    (move : CallMove config daemon i peer (.reconciling at_) own after effect)
    (left : after = some stage') : ∃ later, stage' = .reconciling later := by
  cases move with
  | leaves told => cases told
  | reconciles =>
      obtain ⟨later, -, rfl⟩ := Option.map_eq_some_iff.mp left
      exact ⟨later, rfl⟩

/-- The step of a session leaves the other sessions and the numbers. -/
theorem callStep_apart {i : Nat} {peer : EndpointId} {stage : CallStage}
    {after : Option CallStage} {own : CallEvent} {effect : Effect}
    (moved : callStep config daemon i peer stage own = some (after, effect)) :
    (effect.apply daemon).calls = daemon.calls ∧ (effect.apply daemon).dials = daemon.dials ∧
      (effect.apply daemon).nextConn = daemon.nextConn ∧
      (effect.apply daemon).nextTask = daemon.nextTask := by
  cases callStep_move moved with
  | @reconciles at_ => cases at_ <;> exact ⟨rfl, rfl, rfl, rfl⟩
  | _ => exact ⟨rfl, rfl, rfl, rfl⟩

theorem apply_spawn_conn (daemon : Daemon) (peer : EndpointId) (dialer : Bool) :
    daemon.nextConn < ((Effect.spawn peer daemon.nextConn dialer).apply daemon).nextConn :=
  Nat.lt_of_lt_of_le (Nat.lt_succ_self _) (Nat.le_max_right _ _)

/-- The ring list and what the loop has taken up. -/
theorem waiting_eq {from_ : MainLoop} (here : daemon.main = from_) : daemon.waiting =
    (from_.waiting ++ daemon.ringing.map fun ring => (ring.peer, ring.conn) : List _) := by
  rw [Daemon.waiting, here]

/-- The loop goes on with the same connections and a shorter ring list. -/
theorem waiting_le {from_ : MainLoop} (here : daemon.main = from_)
    (same : next.main.waiting = from_.waiting)
    (rings : next.ringing.Sublist daemon.ringing) : next.waiting ≤ daemon.waiting := by
  rw [waiting_eq here, Daemon.waiting, same]
  exact ((List.Sublist.refl _).append (rings.map _)).subperm

/-- The loop takes the first ring that a token matches off the list. -/
theorem waiting_taken {token : String} {ring : Ringing} (here : daemon.main = .accepting token)
    (found : findRing config daemon token = some ring)
    (main : next.main = .publishing (.answer ring))
    (rings : next.ringing = dropRing config daemon token) : next.waiting = daemon.waiting := by
  rw [waiting_eq here, waiting_eq main, rings]
  have perm := (perm_cons_eraseP found).map fun ring : Ringing => (ring.peer, ring.conn)
  exact Multiset.coe_eq_coe.mpr perm

/-- The loop puts the connection that it holds on the list. -/
theorem waiting_pushed {ring : Ringing} (here : daemon.main = .pushing ring.peer ring.conn)
    (main : next.main = .ringPhase) (rings : next.ringing = daemon.ringing ++ [ring]) :
    next.waiting = daemon.waiting := by
  rw [waiting_eq here, waiting_eq main, rings, List.map_append]
  have perm := @List.perm_append_comm _
    (daemon.ringing.map fun ring => (ring.peer, ring.conn)) [(ring.peer, ring.conn)]
  exact Multiset.coe_eq_coe.mpr perm

theorem reconcileStep_apart (daemon : Daemon) (at_ : Reconcile) :
    ((reconcileStep daemon at_).2.apply daemon).calls = daemon.calls ∧
      ((reconcileStep daemon at_).2.apply daemon).peers = daemon.peers ∧
      ((reconcileStep daemon at_).2.apply daemon).ringing.Sublist daemon.ringing ∧
      ((reconcileStep daemon at_).2.apply daemon).nextConn = daemon.nextConn ∧
      ((reconcileStep daemon at_).2.apply daemon).nextTask = daemon.nextTask := by
  cases at_ <;> exact ⟨rfl, rfl, List.Sublist.refl _, rfl, rfl⟩

/-- The loop has nothing more to do with a peer that is in the map. -/
theorem handshaken_held {peer : EndpointId} (held : daemon.peers.containsKey peer = true) :
    handshaken config daemon peer = (.selecting, .arrive) := by
  rw [handshaken, if_pos held, ite_self]

theorem handshaken_free {peer : EndpointId} {after : MainLoop} {effect : Effect}
    (moved : mainStep config daemon .handshaking (.handshaken peer .tun) = some (after, effect))
    (taken_up : (after, effect) ≠ (.selecting, .arrive)) :
    daemon.peers.containsKey peer = false := by
  refine Bool.eq_false_of_not_eq_true fun held => taken_up ?_
  have decided : handshaken config daemon peer = (after, effect) := Option.some.inj moved
  rw [← decided, handshaken_held held]

theorem mainStep_moves {main after : MainLoop} {event : MainEvent} {effect : Effect}
    (here : daemon.main = main)
    (moved : mainStep config daemon main event = some (after, effect)) :
    Moved config daemon { effect.apply daemon with main := after } (.main event) := by
  cases mainStep_move moved with
  | incoming | failed | ringPhase | ignored ignores | dial dials | accept | reject | tick
  | ticked =>
      exact .rests (.old (Nat.le_refl _)) (waiting_le here rfl (List.Sublist.refl _)) rfl rfl
        (Nat.le_refl _)
  | dialPhase =>
      exact .rests (.old (Nat.le_refl _)) (waiting_le here rfl (List.Sublist.refl _)) rfl rfl
        (Nat.le_succ _)
  | refused =>
      exact .rests (.old (Nat.le_succ _)) (waiting_le here rfl (List.Sublist.refl _)) rfl rfl
        (Nat.le_refl _)
  | @known peer contact =>
      have free := handshaken_free moved nofun
      refine .spawns (.incoming free (apply_spawn_conn daemon peer false)) ?_ rfl rfl rfl
      exact Multiset.cons_le_cons _ (waiting_le here rfl (List.Sublist.refl _))
  | stranger unknown =>
      have free := handshaken_free moved nofun
      refine .rests (.incoming free (Nat.lt_succ_self _)) ?_ rfl rfl (Nat.le_refl _)
      rw [waiting_eq here]
      exact le_of_eq rfl
  | push =>
      exact .rests (.old (Nat.le_refl _)) (waiting_pushed here rfl rfl).le rfl rfl (Nat.le_refl _)
  | @publish published =>
      refine .rests (.old (Nat.le_refl _)) (waiting_le here ?_ (List.Sublist.refl _)) rfl rfl
        (Nat.le_refl _)
      cases published <;> rfl
  | spawn =>
      refine .spawns (.old (Nat.le_max_left _ _)) ?_ rfl rfl rfl
      rw [waiting_eq here]
      exact le_of_eq rfl
  | @reconcile at_ =>
      obtain ⟨calls, peers, rings, conns, tasks⟩ := reconcileStep_apart daemon at_
      refine .rests (.old conns.ge) (waiting_le here ?_ rings)
        calls peers tasks.ge
      cases at_ <;> rfl
  | missed asks absent =>
      refine .rests (.old (Nat.le_refl _)) (waiting_le here ?_ (List.Sublist.refl _)) rfl rfl
        (Nat.le_refl _)
      rcases asks with rfl | rfl <;> rfl
  | accepted found =>
      exact .rests (.old (Nat.le_refl _)) (waiting_taken here found rfl rfl).le rfl rfl
        (Nat.le_refl _)
  | rejected found =>
      exact .rests (.old (Nat.le_refl _)) (waiting_le here rfl List.eraseP_sublist) rfl rfl
        (Nat.le_refl _)
  | timedOut =>
      exact .rests (.old (Nat.le_refl _)) (waiting_le here rfl List.filter_sublist) rfl rfl
        (Nat.le_refl _)

theorem dial_moves {i : Nat} {task : Dial} {event : DialEvent} {stage : Option DialStage}
    {effect : Effect} (found : daemon.dials.get i = some task)
    (moved : dialStep daemon task.peer task.stage event = some (stage, effect)) :
    Moved config daemon ((effect.apply daemon).setDial i task stage) (.dial i event) := by
  obtain ⟨peer, place⟩ := task
  cases place with
  | connecting =>
      cases event with
      | connected =>
          cases moved
          refine .spawns (.dialled found rfl (apply_spawn_conn daemon peer true)) ?_ rfl rfl rfl
          exact le_of_eq rfl
      | failed =>
          cases moved
          exact .rests (.old (Nat.le_refl _)) (le_of_eq rfl) rfl rfl (Nat.le_refl _)
      | next => cases moved
  | reconciling at_ =>
      cases event <;> cases moved
      obtain ⟨calls, peers, rings, conns, tasks⟩ := reconcileStep_apart daemon at_
      refine .rests (.old conns.ge) (waiting_le rfl ?_ rings) calls peers tasks.ge
      exact congrArg MainLoop.waiting (apply_main _ _)

/-- The connections that wait are foreign to a session. -/
theorem call_waiting {i : Nat} {task : Call} {own : CallEvent} {stage : Option CallStage}
    {effect : Effect}
    (moved : callStep config daemon i task.peer task.stage own = some (stage, effect)) :
    ((effect.apply daemon).setCall i task stage).waiting = daemon.waiting := by
  change (effect.apply daemon).waiting = daemon.waiting
  obtain ⟨rings, -⟩ := keepsRings_apply (callStep_keeps moved) daemon
  rw [Daemon.waiting, apply_main, rings]
  rfl

theorem call_moves {i : Nat} {task : Call} {own : CallEvent} {stage : Option CallStage}
    {effect : Effect} (found : daemon.calls.get i = some task)
    (moved : callStep config daemon i task.peer task.stage own = some (stage, effect)) :
    Moved config daemon ((effect.apply daemon).setCall i task stage) (.call i own) := by
  obtain ⟨calls, -, conns, tasks⟩ := callStep_apart moved
  refine .call rfl found moved (call_waiting moved) ?_ rfl conns tasks
  unfold Daemon.setCall
  rw [calls]

theorem step_moved {event : DaemonEvent} (stepped : daemonStep config daemon event = some next) :
    Moved config daemon next event := by
  cases event with
  | main event =>
      obtain ⟨main, effect, moved, rfl⟩ := main_cases stepped
      exact mainStep_moves rfl moved
  | dial i event =>
      obtain ⟨task, stage, effect, found, moved, rfl⟩ := dial_cases stepped
      exact dial_moves found moved
  | call i event =>
      obtain ⟨task, stage, effect, found, moved, rfl⟩ := call_cases stepped
      exact call_moves found moved

/-! ## A peer that is lost -/

/-- A session that was told of its success holds an entry of its own peer. -/
def Keyed (daemon : Daemon) : Prop :=
  ∀ i task entry, daemon.calls.get i = some task → task.stage.entry = some entry →
    entry.id = task.peer

theorem keyed_start : Keyed .start := by
  intro i task entry found
  cases (HashMap.get_empty i).symm.trans found

/-- A session after its step. -/
theorem get_setCall {i j : Nat} {task other : Call} {stage : Option CallStage}
    (found : (daemon.setCall i task stage).calls.get j = some other) :
    (j = i ∧ ∃ after, stage = some after ∧ other = { task with stage := after }) ∨
      j ≠ i ∧ daemon.calls.get j = some other := by
  by_cases same : j = i
  · subst same
    refine .inl ⟨rfl, ?_⟩
    cases stage with
    | none => cases (HashMap.get_remove_self _ j).symm.trans found
    | some after =>
        have put := (HashMap.get_put_self ..).symm.trans found
        exact ⟨after, rfl, (Option.some.inj put).symm⟩
  · rw [get_setCall_of_ne same] at found
    exact .inr ⟨same, found⟩

theorem keyed_step {event : DaemonEvent} (keyed : Keyed daemon)
    (stepped : daemonStep config daemon event = some next) : Keyed next := by
  intro j other entry found told
  cases step_moved stepped with
  | rests offers waiting calls peers tasks =>
      rw [calls] at found
      exact keyed j other entry found told
  | spawns offers waiting calls peers tasks =>
      rw [calls, HashMap.get_put] at found
      split at found
      · cases found
        cases told
      · exact keyed j other entry found told
  | @call i own task stage effect is present moved waiting calls peers conns tasks =>
      rw [calls] at found
      rcases get_setCall found with ⟨rfl, after, left, rfl⟩ | ⟨-, old⟩
      · rcases (callStep_move moved).told left told with before | ⟨vips, -, -, is, -⟩
        · exact keyed j task entry present before
        · rw [is]
      · exact keyed j other entry old told

/-- Nothing of the peer is under way but, perhaps, this session: no dial, no connection
that waits for a session and no session before its end. -/
structure Still (daemon : Daemon) (peer : EndpointId) (but : Option Nat) : Prop where
  loop : daemon.main ≠ .dialPhase peer
  dials : ∀ i task, daemon.dials.get i = some task → task.stage = .connecting → task.peer ≠ peer
  waiting : ∀ conn, (peer, conn) ∉ daemon.waiting
  calls : ∀ i task, daemon.calls.get i = some task → task.peer = peer → but ≠ some i →
    ∃ at_, task.stage = .reconciling at_

theorem Offer.of_still {event : DaemonEvent} {offer : Multiset (EndpointId × Connection)}
    {peer : EndpointId} {but : Option Nat} (still : Still daemon peer but)
    (held : daemon.peers.containsKey peer = true) (offers : Offer daemon next event offer)
    (conn : Connection) : (peer, conn) ∉ offer := by
  cases offers with
  | old conns => exact still.waiting conn
  | incoming free conns =>
      intro member
      rcases Multiset.mem_cons.mp member with fresh | old
      · cases fresh
        cases held.symm.trans free
      · exact still.waiting conn old
  | dialled found connecting conns =>
      intro member
      rcases Multiset.mem_cons.mp member with fresh | old
      · cases fresh
        exact still.dials _ _ found connecting rfl
      · exact still.waiting conn old

/-- A dial after its step. -/
theorem get_setDial {i j : Nat} {task other : Dial} {stage : Option DialStage}
    (found : (daemon.setDial i task stage).dials.get j = some other) :
    (j = i ∧ ∃ after, stage = some after ∧ other = { task with stage := after }) ∨
      j ≠ i ∧ daemon.dials.get j = some other := by
  by_cases same : j = i
  · subst same
    refine .inl ⟨rfl, ?_⟩
    cases stage with
    | none => cases (HashMap.get_remove_self _ j).symm.trans found
    | some after =>
        have put := (HashMap.get_put_self ..).symm.trans found
        exact ⟨after, rfl, (Option.some.inj put).symm⟩
  · rw [get_setDial_of_ne same] at found
    exact .inr ⟨same, found⟩

/-- The task of a dial starts no other, and it connects once. -/
theorem dialStep_apart {peer : EndpointId} {stage : DialStage} {after : Option DialStage}
    {own : DialEvent} {effect : Effect}
    (moved : dialStep daemon peer stage own = some (after, effect)) :
    (effect.apply daemon).dials = daemon.dials ∧ after ≠ some .connecting := by
  cases stage with
  | connecting => cases own <;> cases moved <;> exact ⟨rfl, nofun⟩
  | reconciling at_ =>
      cases own <;> cases moved
      cases at_ <;> exact ⟨rfl, nofun⟩

/-- The loop and the dials are foreign to a session. -/
theorem call_leaves {i : Nat} {own : CallEvent}
    (stepped : daemonStep config daemon (.call i own) = some next) :
    next.main = daemon.main ∧ next.dials = daemon.dials := by
  obtain ⟨task, stage, effect, -, moved, rfl⟩ := call_cases stepped
  obtain ⟨-, kept, -, -⟩ := callStep_apart moved
  exact ⟨apply_main effect daemon, kept⟩

/-- A dial that appears comes from the phase before it, and no dial of a peer in the map
gets there. -/
theorem dials_step {event : DaemonEvent} {peer : EndpointId}
    (held : daemon.peers.containsKey peer = true)
    (stepped : daemonStep config daemon event = some next) (loop : daemon.main ≠ .dialPhase peer)
    (dials : ∀ i task, daemon.dials.get i = some task → task.stage = .connecting →
      task.peer ≠ peer) :
    next.main ≠ .dialPhase peer ∧
      ∀ i task, next.dials.get i = some task → task.stage = .connecting → task.peer ≠ peer := by
  cases event with
  | main own =>
      obtain ⟨main, effect, moved, rfl⟩ := main_cases stepped
      generalize daemon.main = from_ at moved loop
      cases mainStep_move moved with
      | @dial target other dials' =>
          refine ⟨?_, dials⟩
          rintro ⟨⟩
          have free := (dial_eq_dialPhase_iff.mp dials').2.2.1
          cases held.symm.trans free
      | @dialPhase other =>
          refine ⟨?_, fun i task found connecting => ?_⟩
          · rintro ⟨⟩
          change (daemon.dials.put _ _).get i = some task at found
          rw [HashMap.get_put] at found
          split at found
          · cases found
            exact fun same => loop (same ▸ rfl)
          · exact dials i task found connecting
      | @publish after =>
          refine ⟨?_, dials⟩
          cases after <;> rintro ⟨⟩
      | @reconcile at_ =>
          cases at_ <;> refine ⟨?_, dials⟩ <;> rintro ⟨⟩
      | _ =>
          refine ⟨?_, dials⟩
          rintro ⟨⟩
  | dial i own =>
      obtain ⟨task, stage, effect, -, moved, rfl⟩ := dial_cases stepped
      refine ⟨fun here => loop ((apply_main effect daemon).symm.trans here), ?_⟩
      obtain ⟨kept, lands⟩ := dialStep_apart moved
      intro j other present connecting
      rcases get_setDial present with ⟨-, after, rfl, rfl⟩ | ⟨-, old⟩
      · exact absurd (congrArg some connecting) lands
      · rw [kept] at old
        exact dials j other old connecting
  | call i own =>
      obtain ⟨main, kept⟩ := call_leaves stepped
      rw [main, kept]
      exact ⟨loop, dials⟩

theorem still_step {event : DaemonEvent} {peer : EndpointId} {but : Option Nat}
    (still : Still daemon peer but) (held : daemon.peers.containsKey peer = true)
    (stepped : daemonStep config daemon event = some next) : Still next peer but := by
  obtain ⟨loop, dials⟩ := dials_step held stepped still.loop still.dials
  cases step_moved stepped with
  | rests offers waiting calls peers tasks =>
      refine ⟨loop, dials, fun conn member => ?_, fun i task found => ?_⟩
      · exact offers.of_still still held conn (Multiset.mem_of_le waiting member)
      · exact still.calls i task (calls ▸ found)
  | @spawns offer other conn dialer offers waiting calls peers tasks =>
      refine ⟨loop, dials, fun conn' member => ?_, fun i task found same => ?_⟩
      · exact offers.of_still still held conn'
          (Multiset.mem_of_le waiting (Multiset.mem_cons_of_mem member))
      · rw [calls, HashMap.get_put] at found
        split at found
        · cases found
          cases same
          exact absurd (Multiset.mem_of_le waiting (Multiset.mem_cons_self _ _))
            (offers.of_still still held conn)
        · exact still.calls i task found same
  | @call i own task stage effect is present moved waiting calls peers conns tasks =>
      refine ⟨loop, dials, fun conn => waiting ▸ still.waiting conn,
        fun j other found same foreign => ?_⟩
      rw [calls] at found
      rcases get_setCall found with ⟨rfl, after, left, rfl⟩ | ⟨-, old⟩
      · obtain ⟨at_, place⟩ := still.calls j task present same foreign
        rw [place] at moved
        exact (callStep_move moved).ended left
      · exact still.calls j other old same foreign

/-- The entry stays in the map, and nothing of its peer is under way. -/
structure Lost (daemon : Daemon) (entry : ActivePeer) : Prop where
  present : daemon.peers.get entry.id = some entry
  still : Still daemon entry.id none

theorem Lost.held {entry : ActivePeer} (lost : Lost daemon entry) :
    daemon.peers.containsKey entry.id = true := by
  rw [HashMap.containsKey, lost.present]
  rfl

theorem lost_step {event : DaemonEvent} {entry : ActivePeer} (keyed : Keyed daemon)
    (lost : Lost daemon entry) (stepped : daemonStep config daemon event = some next) :
    Lost next entry := by
  refine ⟨?_, still_step lost.still lost.held stepped⟩
  cases step_moved stepped with
  | rests offers waiting calls peers tasks => rw [peers, lost.present]
  | spawns offers waiting calls peers tasks => rw [peers, lost.present]
  | @call i own task stage effect is present moved waiting calls peers conns tasks =>
      rw [peers]
      generalize before : task.stage = place at moved
      cases callStep_move moved with
      | fails | routes | announces => exact lost.present
      | @claims vips claimed usable is =>
          change (claimClosure claimed daemon.peers).get entry.id = some entry
          unfold claimClosure
          split
          · exact lost.present
          · rename_i free
            have apart : entry.id ≠ claimed.id := by
              intro same
              refine free (taken_iff.mpr (.inl ⟨entry, ?_⟩))
              rw [← same, lost.present]
            rw [HashMap.get_put_of_ne apart, lost.present]
      | @leaves _ _ removed told =>
          change (removeClosure removed daemon.peers).get entry.id = some entry
          have apart : entry.id ≠ removed.id := by
            intro same
            have mine := keyed i task removed present (before ▸ told)
            obtain ⟨at_, ended⟩ := lost.still.calls i task present (mine.symm.trans same.symm)
              (Option.some_ne_none i).symm
            rw [ended] at before
            rw [← before] at told
            cases told
          rw [removeClosure, HashMap.get_remove_of_ne apart, lost.present]
      | @reconciles at_ => cases at_ <;> exact lost.present

theorem claimSucceeded_of_free {entry : ActivePeer} (free : ¬ Taken daemon.peers entry) :
    claimSucceeded daemon.peers entry = false :=
  Bool.eq_false_of_not_eq_true fun succeeded =>
    free (claimSucceeded_iff.mp succeeded).taken

/-- The claim of a session that is alone leaves its entry and ends the session. -/
theorem claim_lost {i : Nat} {task : Call} {vips : OwnVips}
    (found : daemon.calls.get i = some task) (alone : Still daemon task.peer (some i))
    (usable : unusable config.own vips = false)
    (free : ¬ Taken daemon.peers ⟨task.peer, vips.v4, vips.v6, ⟨i⟩⟩)
    (stepped : daemonStep config daemon (.call i (.exchanged vips)) = some next) :
    Lost next ⟨task.peer, vips.v4, vips.v6, ⟨i⟩⟩ := by
  obtain ⟨main, dials⟩ := call_leaves stepped
  obtain ⟨peer, conn, dialer, place⟩ := task
  obtain ⟨other, stage, effect, present, moved, rfl⟩ := call_cases stepped
  cases found.symm.trans present
  have waiting := @call_waiting _ _ i ⟨peer, conn, dialer, place⟩ _ _ _ moved
  cases place with
  | exchanging =>
      simp only [callStep, usable, claimSucceeded_of_free free, Bool.false_eq_true, if_false,
        Option.some.injEq, Prod.mk.injEq] at moved
      obtain ⟨rfl, rfl⟩ := moved
      refine ⟨?_, ?_, ?_, fun conn' => ?_, ?_⟩
      · change (claimClosure _ daemon.peers).get peer = _
        rw [claimClosure, if_neg fun conflict => free (taken_iff.mp conflict),
          HashMap.get_put_self]
      · rw [main]; exact alone.loop
      · rw [dials]; exact alone.dials
      · rw [waiting]; exact alone.waiting conn'
      · intro j other found' same foreign
        rcases get_setCall found' with ⟨-, after, left, rfl⟩ | ⟨apart, old⟩
        · cases left
          exact ⟨.peers, rfl⟩
        · exact alone.calls j other old same fun own => apart (Option.some.inj own).symm
  | _ => cases moved

/-- **The first call is lost.** At any moment of any run, let a session be the only thing
under way of its peer and neither the peer nor its addresses be in the map. Its claim
fails and leaves the entry; from then on, whatever happens, the entry stays, and no session,
ring or dial of this peer ever comes about. -/
theorem first_call_lost {events : List DaemonEvent} {final : Daemon} {i : Nat} {task : Call}
    {vips : OwnVips} (ran : run (daemonStep config) .start events = some daemon)
    (found : daemon.calls.get i = some task) (alone : Still daemon task.peer (some i))
    (usable : unusable config.own vips = false)
    (free : ¬ Taken daemon.peers ⟨task.peer, vips.v4, vips.v6, ⟨i⟩⟩)
    (stepped : daemonStep config daemon (.call i (.exchanged vips)) = some next)
    (later : Leads (daemonStep config) next final) :
    Lost final ⟨task.peer, vips.v4, vips.v6, ⟨i⟩⟩ := by
  have keyed : Keyed next :=
    keyed_step ((allStates_of_invariant (fun _ _ _ => keyed_step) keyed_start events).final ran)
      stepped
  have lost := claim_lost found alone usable free stepped
  obtain ⟨rest, goes⟩ := later
  have both : AllStates (daemonStep config)
      (fun daemon => Keyed daemon ∧ Lost daemon ⟨task.peer, vips.v4, vips.v6, ⟨i⟩⟩) next rest :=
    allStates_of_invariant
      (fun _ _ _ held taken => ⟨keyed_step held.1 taken, lost_step held.1 held.2 taken⟩)
      ⟨keyed, lost⟩ rest
  exact (both.final goes).2

def phoneConfig : PhoneConfig :=
  ⟨1, ⟨0xAC180001, 0xfd24ac18000000000000000000000001⟩, none, fun peer => peer == 2,
    fun _ => some 2, fun _ peer => peer == 2, fun _ => true⟩

/-- A known contact has called, and its session is in the exchange. -/
def calledOnce : Daemon :=
  { Daemon.start with
    calls := HashMap.put ∅ 0 ⟨2, 0, false, .exchanging⟩, nextTask := 1, nextConn := 1 }

theorem still_calledOnce : Still calledOnce 2 (some 0) where
  loop := nofun
  dials i task found := by cases (HashMap.get_empty i).symm.trans found
  waiting conn := Multiset.notMem_zero _
  calls i task found same foreign := by
    change (HashMap.put ∅ 0 _).get i = some task at found
    rw [HashMap.get_put_of_ne fun own => foreign (congrArg some own.symm),
      HashMap.get_empty] at found
    cases found

/-- It calls again, and the phone is told to call it: neither gets anywhere. -/
theorem first_call_lost_again :
    ∃ final, run (daemonStep phoneConfig) .start
        [.main .incoming, .main (.handshaken 2 .tun),
          .call 0 (.exchanged ⟨0xAC180002, 0xfd24ac18000000000000000000000002⟩),
          .call 0 .next, .main .incoming, .main (.handshaken 2 .tun), .main (.dial "2")] =
        some final ∧ Lost final ⟨2, 0xAC180002, 0xfd24ac18000000000000000000000002, ⟨0⟩⟩ := by
  refine ⟨_, rfl, ?_⟩
  refine @first_call_lost phoneConfig calledOnce _ [.main .incoming, .main (.handshaken 2 .tun)] _ 0
    ⟨2, 0, false, .exchanging⟩ ⟨0xAC180002, 0xfd24ac18000000000000000000000002⟩ rfl rfl
    still_calledOnce (by decide) ?_ rfl
    ⟨[.call 0 .next, .main .incoming, .main (.handshaken 2 .tun), .main (.dial "2")], rfl⟩
  rw [← taken_iff]
  decide

end LinkP2p.Tun.Phone
