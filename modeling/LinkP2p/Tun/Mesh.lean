import LinkP2p.Lib.KeyedUpdates
import LinkP2p.Tun.HubInvariant

/-!
# The hub and its spokes

Each session has a queue of roster messages at the hub and a control stream to
its spoke. A spoke keeps its roster over reconnects; the tasks of the spoke that
change it load the mesh table, change a copy and store that. The reader of a
control stream is not waited for when its session ends, and goes on for a while.
-/

namespace LinkP2p.Tun.Mesh

open LinkP2p.Lib LinkP2p.Lib.Rcu LinkP2p.Lib.KeyedUpdates LinkP2p.Tun.Hub

/-- `SpokeMesh::roster` -/
abbrev RosterMap := HashMap EndpointId OwnVips

/-- The tasks of a spoke that call `mesh_update`: the session loop, the readers of
the control streams, and the receivers of direct links. -/
inductive Updater where
  | session
  /-- The reader of session `i`. -/
  | reader (i : Nat)
  | link (n : Nat)
  deriving DecidableEq

structure Spoke where
  own : OwnVips
  roster : RosterMap
  /-- The session whose control stream is open. -/
  conn : Option Nat
  /-- The hub's entry is in, and the reader of the control stream has started. -/
  entered : Bool
  /-- The sessions whose reader has started and has not ended. -/
  readers : Finset Nat
  /-- What is left to do of the message that the reader of a session is applying. -/
  todo : Nat → List (Update EndpointId OwnVips)
  /-- What a `mesh_update` under way has loaded. -/
  loaded : Updater → Option RosterMap

def Spoke.new (own : OwnVips) : Spoke :=
  ⟨own, ∅, none, false, ∅, fun _ => [], fun _ => none⟩

structure Net where
  hub : State
  /-- Written to the control stream of a session and not yet read. -/
  wire : Nat → List RosterMsg
  /-- Sent to the roster queue of a session and not yet written. -/
  queue : Nat → List RosterMsg
  /-- The sessions whose control stream the spoke has opened. -/
  opened : Finset Nat
  spokes : EndpointId → Option Spoke

def Net.start : Net where
  hub := .start
  wire := fun _ => []
  queue := fun _ => []
  opened := ∅
  spokes := fun _ => none

/-- What a spoke does on its own. -/
inductive SpokeAct where
  /-- The first half of `mesh_update`. -/
  | load (updater : Updater)
  /-- The spoke opens the control stream of session `i`. -/
  | openControl (i : Nat)
  /-- The hub's entry is put in, and the reader starts. -/
  | connect
  /-- The hub connection is given up, and the reader told to end. -/
  | disconnect
  /-- The reader of session `i` reads one message. -/
  | take (i : Nat)
  /-- It stores one update. -/
  | apply (i : Nat)
  /-- It ends, told to or with its stream. -/
  | stop (i : Nat)
  /-- `spoke_install_direct` -/
  | link (n : Nat) (peerId : EndpointId) (peer : OwnVips)
  /-- The direct link closes. -/
  | unlink (n : Nat)

inductive MeshEvent where
  | hub (event : Event)
  /-- The session's `ctrl_send_task` writes one message. -/
  | forward (i : Nat)
  /-- A spoke process starts. -/
  | spawn (id : EndpointId) (own : OwnVips)
  | quit (id : EndpointId)
  | spoke (id : EndpointId) (act : SpokeAct)

def entryUpdate (e : RosterEntry) : Update EndpointId OwnVips := .insert e.id ⟨e.vip, e.vip6⟩

/-- The updates of the roster that `spoke_apply_roster_msg` makes, one
`mesh_update` each. The order of a snapshot is arbitrary already. -/
def updates (ownId : EndpointId) : RosterMsg → List (Update EndpointId OwnVips)
  | .snapshot entries => (entries.filter fun e => e.id ≠ ownId).map entryUpdate
  | .joined e => if e.id = ownId then [] else [entryUpdate e]
  | .left e => [.remove e.id]

/-- A reader loads only while it applies a message. -/
def Spoke.updates (spoke : Spoke) : Updater → Bool
  | .reader i => !(spoke.todo i).isEmpty
  | _ => true

/-- The spoke after a `mesh_update` has stored its copy. -/
def Spoke.stored (spoke : Spoke) (updater : Updater) (roster : RosterMap) : Spoke :=
  { spoke with roster := roster, loaded := Function.update spoke.loaded updater none }

/-- The second half of `mesh_update`. -/
def Spoke.store (spoke : Spoke) (updater : Updater) (f : RosterMap → RosterMap) : Option Spoke :=
  (spoke.loaded updater).map fun base => spoke.stored updater (f base)

def Net.put (net : Net) (id : EndpointId) (spoke : Spoke) : Net :=
  { net with spokes := Function.update net.spokes id (some spoke) }

/-- What a step of session `i` writes or sends arrives at once. -/
def Net.post (net : Net) (i : Nat) : Effect → Net
  | .write msg => { net with wire := Function.update net.wire i (net.wire i ++ [msg]) }
  | .enqueue (.roster j) msg =>
      { net with queue := Function.update net.queue j (net.queue j ++ [msg]) }
  | _ => net

def sessionOf : Event → Nat
  | .accept _ => 0
  | .act i _ => i

/-- The hub accepts the control stream only after the spoke has opened it. -/
def ready (net : Net) : Event → Bool
  | .act i (.controlOpened _) => decide (i ∈ net.opened)
  | _ => true

/-- The task serves a connection of this peer and waits for the control stream. -/
def awaits (id : EndpointId) : Option Task → Bool
  | some (.exchanging peerId) => decide (peerId = id)
  | some (.opening peerId _) => decide (peerId = id)
  | _ => false

def isRunning : Option Task → Bool
  | some (.at _ .running) => true
  | _ => false

def spokeStep (cfg : HubConfig) (net : Net) (id : EndpointId) (spoke : Spoke) :
    SpokeAct → Option Net
  | .load updater =>
      if spoke.updates updater then
        some (net.put id
          { spoke with loaded := Function.update spoke.loaded updater (some spoke.roster) })
      else none
  | .openControl i =>
      if spoke.conn = none ∧ i ∉ net.opened ∧ awaits id (net.hub.tasks i) = true then
        some { net.put id { spoke with conn := some i, entered := false } with
          opened := insert i net.opened }
      else none
  | .connect =>
      match spoke.conn with
      | none => none
      | some i =>
          if spoke.entered then none
          else
            (spoke.store .session fun m => m.put cfg.ownId cfg.own).map fun stored =>
              net.put id { stored with entered := true, readers := insert i spoke.readers }
  | .disconnect =>
      match spoke.conn with
      | none => none
      | some _ =>
          -- a session that failed before the hub's entry was in leaves the table alone
          if spoke.entered then
            (spoke.store .session fun m => m).map fun stored =>
              net.put id { stored with conn := none }
          else some (net.put id { spoke with conn := none })
  | .take i =>
      match net.wire i with
      | [] => none
      | msg :: rest =>
          -- a reader that is aborted stops only at its next wait
          if i ∈ spoke.readers ∧ spoke.todo i = [] then
            some { net.put id
                { spoke with todo := Function.update spoke.todo i (updates id msg) } with
              wire := Function.update net.wire i rest }
          else none
  | .apply i =>
      match spoke.todo i with
      | [] => none
      | update :: rest =>
          (spoke.store (.reader i) fun m => update.apply m).map fun stored =>
            net.put id { stored with todo := Function.update spoke.todo i rest }
  | .stop i =>
      if spoke.todo i = [] then
        some (net.put id { spoke with readers := spoke.readers.erase i })
      else none
  | .link n peerId peer =>
      if peer.v4 = spoke.own.v4 ∨ peer.v6 = spoke.own.v6 then none
      else (spoke.store (.link n) fun m => m.put peerId peer).map fun stored => net.put id stored
  | .unlink n => (spoke.store (.link n) fun m => m).map fun stored => net.put id stored

/-- One step of the mesh; `seen` is the index that an `rcu` closure runs on. -/
def meshStep (cfg : HubConfig) (seen : HubPeerIndex) (net : Net) : MeshEvent → Option Net
  | .hub event =>
      if ready net event then
        (step cfg seen net.hub event).map fun hub =>
          Net.post { net with hub := hub } (sessionOf event) (effectOf cfg seen net.hub event)
      else none
  | .forward i =>
      if isRunning (net.hub.tasks i) then
        match net.queue i with
        | [] => none
        | msg :: rest =>
            some { net with
              wire := Function.update net.wire i (net.wire i ++ [msg])
              queue := Function.update net.queue i rest }
      else none
  | .spawn id own =>
      if (net.spokes id).isNone then
        some (net.put id (.new own))
      else none
  | .quit id => some { net with spokes := Function.update net.spokes id none }
  | .spoke id act => (net.spokes id).bind fun spoke => spokeStep cfg net id spoke act

def MeshEvent.swaps : MeshEvent → Option Nat
  | .hub event => event.swaps
  | _ => none

@[simp]
theorem post_hub (net : Net) (i : Nat) (effect : Effect) : (net.post i effect).hub = net.hub := by
  cases effect with
  | enqueue fan => cases fan <;> rfl
  | _ => rfl

@[simp]
theorem post_spokes (net : Net) (i : Nat) (effect : Effect) :
    (net.post i effect).spokes = net.spokes := by
  cases effect with
  | enqueue fan => cases fan <;> rfl
  | _ => rfl

/-! ## Inversion -/

inductive SpokeMoves (cfg : HubConfig) (net : Net) (id : EndpointId) (spoke : Spoke) :
    SpokeAct → Net → Prop where
  | load (updater : Updater) :
      SpokeMoves cfg net id spoke (.load updater) (net.put id
        { spoke with loaded := Function.update spoke.loaded updater (some spoke.roster) })
  | openControl (i : Nat) (free : spoke.conn = none)
      (awaiting : awaits id (net.hub.tasks i) = true) :
      SpokeMoves cfg net id spoke (.openControl i)
        { net.put id { spoke with conn := some i, entered := false } with
          opened := insert i net.opened }
  | connect (i : Nat) (base : RosterMap) (conn : spoke.conn = some i)
      (loaded : spoke.loaded .session = some base) :
      SpokeMoves cfg net id spoke .connect (net.put id
        { spoke.stored .session (base.put cfg.ownId cfg.own) with
          entered := true
          readers := insert i spoke.readers })
  | disconnect (base : RosterMap) (loaded : spoke.loaded .session = some base) :
      SpokeMoves cfg net id spoke .disconnect
        (net.put id { spoke.stored .session base with conn := none })
  | giveUp : SpokeMoves cfg net id spoke .disconnect (net.put id { spoke with conn := none })
  | take (i : Nat) (msg : RosterMsg) (rest : List RosterMsg) (reads : i ∈ spoke.readers)
      (written : net.wire i = msg :: rest) (idle : spoke.todo i = []) :
      SpokeMoves cfg net id spoke (.take i)
        { net.put id { spoke with todo := Function.update spoke.todo i (updates id msg) } with
          wire := Function.update net.wire i rest }
  | apply (i : Nat) (update : Update EndpointId OwnVips) (rest : List (Update EndpointId OwnVips))
      (base : RosterMap) (left : spoke.todo i = update :: rest)
      (loaded : spoke.loaded (.reader i) = some base) :
      SpokeMoves cfg net id spoke (.apply i) (net.put id
        { spoke.stored (.reader i) (update.apply base) with
          todo := Function.update spoke.todo i rest })
  | stop (i : Nat) (idle : spoke.todo i = []) :
      SpokeMoves cfg net id spoke (.stop i)
        (net.put id { spoke with readers := spoke.readers.erase i })
  | link (n : Nat) (peerId : EndpointId) (peer : OwnVips) (base : RosterMap)
      (loaded : spoke.loaded (.link n) = some base) :
      SpokeMoves cfg net id spoke (.link n peerId peer)
        (net.put id (spoke.stored (.link n) (base.put peerId peer)))
  | unlink (n : Nat) (base : RosterMap) (loaded : spoke.loaded (.link n) = some base) :
      SpokeMoves cfg net id spoke (.unlink n) (net.put id (spoke.stored (.link n) base))

inductive MeshMoves (cfg : HubConfig) (seen : HubPeerIndex) (net : Net) :
    MeshEvent → Net → Prop where
  | hub (event : Event) (hub : State) (stepped : step cfg seen net.hub event = some hub) :
      MeshMoves cfg seen net (.hub event)
        (Net.post { net with hub := hub } (sessionOf event) (effectOf cfg seen net.hub event))
  | forward (i : Nat) (peer : HubPeer) (msg : RosterMsg) (rest : List RosterMsg)
      (here : net.hub.At i peer .running) (queued : net.queue i = msg :: rest) :
      MeshMoves cfg seen net (.forward i)
        { net with
          wire := Function.update net.wire i (net.wire i ++ [msg])
          queue := Function.update net.queue i rest }
  | spawn (id : EndpointId) (own : OwnVips) :
      MeshMoves cfg seen net (.spawn id own) (net.put id (.new own))
  | quit (id : EndpointId) :
      MeshMoves cfg seen net (.quit id) { net with spokes := Function.update net.spokes id none }
  | spoke (id : EndpointId) (spoke : Spoke) (act : SpokeAct) (next : Net)
      (found : net.spokes id = some spoke) (moves : SpokeMoves cfg net id spoke act next) :
      MeshMoves cfg seen net (.spoke id act) next

variable {cfg : HubConfig} {seen : HubPeerIndex} {net next : Net}

theorem store_eq_some {spoke stored : Spoke} {updater : Updater} {f : RosterMap → RosterMap} :
    spoke.store updater f = some stored ↔
      ∃ base, spoke.loaded updater = some base ∧ spoke.stored updater (f base) = stored :=
  Option.map_eq_some_iff

theorem spokeStep_moves {id : EndpointId} {spoke : Spoke} {act : SpokeAct}
    (stepped : spokeStep cfg net id spoke act = some next) :
    SpokeMoves cfg net id spoke act next := by
  cases act with
  | load updater =>
      simp only [spokeStep, Option.ite_none_right_eq_some, Option.some.injEq] at stepped
      rw [← stepped.2]
      exact .load updater
  | openControl i =>
      simp only [spokeStep, Option.ite_none_right_eq_some, Option.some.injEq] at stepped
      obtain ⟨⟨free, _, awaiting⟩, rfl⟩ := stepped
      exact .openControl i free awaiting
  | connect =>
      simp only [spokeStep] at stepped
      split at stepped
      · cases stepped
      · rename_i i conn
        simp only [Option.ite_none_left_eq_some, Option.map_eq_some_iff, store_eq_some] at stepped
        obtain ⟨_, _, ⟨base, loaded, rfl⟩, rfl⟩ := stepped
        exact .connect i base conn loaded
  | disconnect =>
      simp only [spokeStep] at stepped
      split at stepped
      · cases stepped
      · split at stepped
        · simp only [Option.map_eq_some_iff, store_eq_some] at stepped
          obtain ⟨_, ⟨base, loaded, rfl⟩, rfl⟩ := stepped
          exact .disconnect base loaded
        · cases stepped
          exact .giveUp
  | take i =>
      simp only [spokeStep] at stepped
      split at stepped
      · cases stepped
      · rename_i msg rest written
        simp only [Option.ite_none_right_eq_some, Option.some.injEq] at stepped
        obtain ⟨⟨reads, idle⟩, rfl⟩ := stepped
        exact .take i msg rest reads written idle
  | apply i =>
      simp only [spokeStep] at stepped
      split at stepped
      · cases stepped
      · rename_i update rest left
        simp only [Option.map_eq_some_iff, store_eq_some] at stepped
        obtain ⟨_, ⟨base, loaded, rfl⟩, rfl⟩ := stepped
        exact .apply i update rest base left loaded
  | stop i =>
      simp only [spokeStep, Option.ite_none_right_eq_some, Option.some.injEq] at stepped
      obtain ⟨idle, rfl⟩ := stepped
      exact .stop i idle
  | link n peerId peer =>
      simp only [spokeStep, Option.ite_none_left_eq_some, Option.map_eq_some_iff,
        store_eq_some] at stepped
      obtain ⟨_, _, ⟨base, loaded, rfl⟩, rfl⟩ := stepped
      exact .link n peerId peer base loaded
  | unlink n =>
      simp only [spokeStep, Option.map_eq_some_iff, store_eq_some] at stepped
      obtain ⟨_, ⟨base, loaded, rfl⟩, rfl⟩ := stepped
      exact .unlink n base loaded

theorem isRunning_iff {task : Option Task} :
    isRunning task = true ↔ ∃ peer, task = some (.at peer .running) := by
  constructor
  · intro running
    unfold isRunning at running
    split at running
    · exact ⟨_, rfl⟩
    · cases running
  · rintro ⟨peer, rfl⟩
    rfl

theorem meshStep_moves {event : MeshEvent} (stepped : meshStep cfg seen net event = some next) :
    MeshMoves cfg seen net event next := by
  cases event with
  | hub event =>
      simp only [meshStep, Option.ite_none_right_eq_some, Option.map_eq_some_iff] at stepped
      obtain ⟨_, hub, stepped, rfl⟩ := stepped
      exact .hub event hub stepped
  | forward i =>
      simp only [meshStep, Option.ite_none_right_eq_some] at stepped
      obtain ⟨running, stepped⟩ := stepped
      obtain ⟨peer, here⟩ := isRunning_iff.mp running
      split at stepped <;> cases stepped
      exact .forward i peer _ _ here (by assumption)
  | spawn id own =>
      simp only [meshStep, Option.ite_none_right_eq_some, Option.some.injEq] at stepped
      rw [← stepped.2]
      exact .spawn id own
  | quit id =>
      cases stepped
      exact .quit id
  | spoke id act =>
      simp only [meshStep, Option.bind_eq_some_iff] at stepped
      obtain ⟨spoke, found, stepped⟩ := stepped
      exact .spoke id spoke act next found (spokeStep_moves stepped)

end LinkP2p.Tun.Mesh
