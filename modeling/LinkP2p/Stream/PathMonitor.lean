import LinkP2p.Lib.Latch
import LinkP2p.Lib.Transition

/-!
# The path monitor

Every session has a task that looks at the path of its connection, tells the user
about upgrades, slow relays and peers without direct addresses, and now and then
asks for another hole punch while the path is not direct.
-/

namespace LinkP2p.Stream.PathMonitor

open LinkP2p.Lib.Latch LinkP2p.Lib.Transition

/-! ## Paths -/

/-- What `path_kind` makes of the paths of a connection. -/
inductive PathKind where
  | direct
  | relay
  | relayWithDirectCandidate
  | unknown
  deriving DecidableEq, Repr

def PathKind.isDirect (kind : PathKind) : Bool := kind == .direct

/-- The path has shown an IP address of the peer. -/
def PathKind.showsIp (kind : PathKind) : Bool :=
  kind == .direct || kind == .relayWithDirectCandidate

/-! ## How often to retry -/

/-- The samples of a peer in the path log, and how many of them were direct. -/
structure Tally where
  direct : Nat
  total : Nat
  deriving DecidableEq, Repr

structure Pacing where
  upgradeSecs : Nat
  permStreak : Nat
  upgradeSecsPerm : Nat
  deriving DecidableEq, Repr

/-- The thresholds are 0.5 and 0.2 of the samples. -/
def pacing : Option Tally → Pacing
  | some ⟨direct, total⟩ =>
      if total ≤ 2 * direct then ⟨30, 6, 300⟩
      else if 5 * direct < total then ⟨90, 2, 300⟩
      else ⟨45, 4, 300⟩
  | none => ⟨45, 4, 300⟩

/-- `STATS_SECS` -/
def statsSecs : Nat := 30

/-- `RELAY_SLOW_BPS` -/
def relaySlowBps : Nat := 128 * 1024

/-- `ACTIVE_MIN_BPS` -/
def activeMinBps : Nat := 2 * 1024

/-- What the task is started with; times are in nanoseconds. -/
structure Setup where
  hist : Option Tally
  relayOnly : Bool
  started : Nat
  initial : PathKind
  initialBytes : Nat

def secs (seconds : Nat) : Nat := seconds * 1000000000

/-- The time until the next upgrade, when the peer has shown no IP address so often. -/
def Setup.upgradeDelay (setup : Setup) (noIpCandidateStreak : Nat) : Nat :=
  if (pacing setup.hist).permStreak ≤ noIpCandidateStreak then
    secs (pacing setup.hist).upgradeSecsPerm
  else secs (pacing setup.hist).upgradeSecs

/-! ## The task -/

/-- What a tick has found, for the history. -/
structure Sample where
  elapsed : Nat
  kind : PathKind
  bps : Nat
  deriving DecidableEq, Repr

/-- The variables of the task; `seen` is history, the newest sample first. -/
structure Monitor where
  nextUpgrade : Nat
  prevBytes : Nat
  slowRelayStreak : Nat
  noIpCandidateStreak : Nat
  warnedRelayLimit : Bool
  warnedRelayPermanent : Bool
  wasDirect : Bool
  firstDirectAt : Option Nat
  ended : Bool
  seen : List Sample
  deriving DecidableEq, Repr

def Monitor.start (setup : Setup) : Monitor where
  nextUpgrade := setup.started + secs (pacing setup.hist).upgradeSecs
  prevBytes := setup.initialBytes
  slowRelayStreak := 0
  noIpCandidateStreak := 0
  warnedRelayLimit := false
  warnedRelayPermanent := false
  wasDirect := setup.initial.isDirect
  firstDirectAt := if setup.initial.isDirect then some 0 else none
  ended := false
  seen := []

inductive Event where
  | tick (now : Nat) (kind : PathKind) (bytes : Nat)
  /-- The timer, with the variables of the environment. -/
  | upgrade (now : Nat) (kind : PathKind) (force disable : Bool)
  | closed (kind : PathKind)
  deriving DecidableEq, Repr

inductive Said where
  /-- path upgraded to direct (IP) -/
  | upgraded
  /-- no direct IP candidate observed -/
  | relayPermanent
  /-- low throughput while on relay (~{0} KB/s) -/
  | relayLimit (kbps : Nat)
  /-- `network_change` -/
  | nudge
  /-- The sample for the path log, with the time of the first direct path. -/
  | sample (kind : PathKind) (upgrade : Option Nat)
  deriving DecidableEq, Repr

/-- The path has become direct. -/
def Monitor.upgrade (elapsed : Nat) (m : Monitor) : Monitor :=
  { m with
    firstDirectAt := m.firstDirectAt.or (some elapsed)
    warnedRelayLimit := false
    warnedRelayPermanent := false
    slowRelayStreak := 0
    noIpCandidateStreak := 0 }

/-- The counter of samples without an IP address, a `u8`. -/
def countNoIp (kind : PathKind) (streak : Nat) : Nat :=
  match kind with
  | .relay => saturate 255 streak
  | .direct | .relayWithDirectCandidate => 0
  | .unknown => streak

/-- There is traffic on a relay, but not much. -/
def Sample.slow (s : Sample) : Bool :=
  !s.kind.isDirect && activeMinBps ≤ s.bps && s.bps < relaySlowBps

/-- One tick, after the path was looked at. -/
def Monitor.look (permStreak : Nat) (s : Sample) (m : Monitor) : Monitor × List Said :=
  let upgraded := s.kind.isDirect && !m.wasDirect
  let m := if upgraded then m.upgrade s.elapsed else m
  let noIp := countNoIp s.kind m.noIpCandidateStreak
  let permanent := !m.warnedRelayPermanent && decide (permStreak ≤ noIp)
  let slow := if s.slow then saturate 255 m.slowRelayStreak else 0
  let limit := !m.warnedRelayLimit && decide (2 ≤ slow)
  ({ m with
      wasDirect := s.kind.isDirect
      noIpCandidateStreak := noIp
      warnedRelayPermanent := m.warnedRelayPermanent || permanent
      slowRelayStreak := slow
      warnedRelayLimit := m.warnedRelayLimit || limit
      seen := s :: m.seen },
    (if upgraded then [.upgraded] else []) ++ (if permanent then [.relayPermanent] else []) ++
      if limit then [.relayLimit (s.bps / 1024)] else [])

def step (setup : Setup) (m : Monitor) : Event → Option (Monitor × List Said)
  | .tick now kind bytes =>
      if m.ended then none
      else
        let s : Sample := ⟨now - setup.started, kind, (bytes - m.prevBytes) / statsSecs⟩
        some ({ m with prevBytes := bytes }.look (pacing setup.hist).permStreak s)
  | .upgrade now kind force disable =>
      if m.ended || setup.relayOnly || decide (now < m.nextUpgrade) then none
      else
        let delay := setup.upgradeDelay m.noIpCandidateStreak
        some ({ m with nextUpgrade := now + delay },
          if !disable && (force || !kind.isDirect) then [.nudge] else [])
  | .closed kind =>
      if m.ended then none else some ({ m with ended := true }, [.sample kind m.firstDirectAt])

/-- The variables after an event. -/
def advance (setup : Setup) (m : Monitor) (event : Event) : Option Monitor :=
  (step setup m event).map Prod.fst

/-! ## What it goes by -/

/-- The samples over a relay alone, since the last that showed an IP address. -/
def relayStreak (seen : List Sample) : Nat :=
  streak (fun s => s.kind == .relay) (fun s => s.kind.showsIp) seen

/-- The slow samples at the end. -/
def slowStreak (seen : List Sample) : Nat := streak Sample.slow (fun s => !s.slow) seen

def Sample.direct (s : Sample) : Bool := s.kind.isDirect

def lastKind (setup : Setup) (seen : List Sample) : PathKind :=
  (seen.head?.map Sample.kind).getD setup.initial

/-- When the path was direct first. -/
def firstDirect (setup : Setup) (seen : List Sample) : Option Nat :=
  if setup.initial.isDirect then some 0 else (seen.reverse.find? Sample.direct).map Sample.elapsed

/-- The peer counts as permanently relayed since the last direct sample. -/
def Permanent (permStreak : Nat) : List Sample → Prop :=
  Latched Sample.direct fun seen => permStreak ≤ relayStreak seen

/-- The relay counts as slow since the last direct sample. -/
def Limited : List Sample → Prop := Latched Sample.direct fun seen => 2 ≤ slowStreak seen

structure Sound (setup : Setup) (m : Monitor) : Prop where
  noIp : m.noIpCandidateStreak = min 255 (relayStreak m.seen)
  slow : m.slowRelayStreak = min 255 (slowStreak m.seen)
  permanent : m.warnedRelayPermanent = true ↔ Permanent (pacing setup.hist).permStreak m.seen
  limited : m.warnedRelayLimit = true ↔ Limited m.seen
  wasDirect : m.wasDirect = (lastKind setup m.seen).isDirect
  first : m.firstDirectAt = firstDirect setup m.seen

variable {setup : Setup} {m next : Monitor} {s : Sample}

theorem sound_start : Sound setup (.start setup) where
  noIp := rfl
  slow := rfl
  permanent := ⟨nofun, fun latched => absurd latched not_latched_nil⟩
  limited := ⟨nofun, fun latched => absurd latched not_latched_nil⟩
  wasDirect := rfl
  first := rfl

/-- Between two and six samples. -/
theorem permStreak_bounds (hist : Option Tally) :
    0 < (pacing hist).permStreak ∧ (pacing hist).permStreak ≤ 255 := by
  unfold pacing
  split
  · split
    · decide
    · split <;> decide
  · decide

/-! ## One tick -/

theorem countNoIp_streak (s : Sample) (seen : List Sample) :
    countNoIp s.kind (min 255 (relayStreak seen)) = min 255 (relayStreak (s :: seen)) := by
  unfold relayStreak
  rw [streak_cons]
  cases kind : s.kind with
  | relay => exact saturate_min 255 _
  | direct | relayWithDirectCandidate | unknown => rfl

theorem countSlow_streak (s : Sample) (seen : List Sample) :
    (if s.slow then saturate 255 (min 255 (slowStreak seen)) else 0) =
      min 255 (slowStreak (s :: seen)) := by
  unfold slowStreak
  rw [streak_cons]
  cases s.slow with
  | true => exact saturate_min 255 _
  | false => rfl

theorem slow_of_direct (direct : s.direct = true) : s.slow = false := by
  unfold Sample.direct at direct
  rw [Sample.slow, direct]
  rfl

theorem relayStreak_of_direct (direct : s.direct = true) (seen : List Sample) :
    relayStreak (s :: seen) = 0 := by
  have ip : s.kind.showsIp = true := Bool.or_eq_true_iff.mpr (.inl direct)
  rw [relayStreak, streak_cons, if_pos ip]

theorem slowStreak_of_direct (direct : s.direct = true) (seen : List Sample) :
    slowStreak (s :: seen) = 0 := by
  rw [slowStreak, streak_cons, slow_of_direct direct]
  rfl

/-- Nothing has been latched since a direct sample. -/
theorem not_latched_of_lastKind {triggers : List Sample → Prop} {seen : List Sample}
    (last : (lastKind setup seen).isDirect = true) : ¬ Latched Sample.direct triggers seen := by
  cases seen with
  | nil => exact not_latched_nil
  | cons first rest => exact not_latched_of_resets last

/-- The path has become direct with this sample. -/
def fresh (m : Monitor) (s : Sample) : Bool := s.kind.isDirect && !m.wasDirect

theorem fresh_iff (sound : Sound setup m) :
    fresh m s = true ↔ s.kind = .direct ∧ lastKind setup m.seen ≠ .direct := by
  rw [fresh, sound.wasDirect, Bool.and_eq_true, Bool.not_eq_true', PathKind.isDirect,
    PathKind.isDirect, beq_iff_eq, beq_eq_false_iff_ne]

/-- A warning flag before the sample counts. -/
def flagAt (m : Monitor) (s : Sample) (flag : Bool) : Bool := if fresh m s then false else flag

section Flags

variable {flag : Bool} {triggers : List Sample → Prop} {now : Bool}

/-- What is warned of now has become true and was not since the last direct sample. -/
theorem warns_iff (held : flag = true ↔ Latched Sample.direct triggers m.seen)
    (calm : s.direct = true → ¬ triggers (s :: m.seen))
    (seen : now = true ↔ triggers (s :: m.seen)) :
    (!flagAt m s flag && now) = true ↔
      triggers (s :: m.seen) ∧ ¬ Latched Sample.direct triggers m.seen := by
  rw [Bool.and_eq_true, seen, Bool.not_eq_true', flagAt, and_comm]
  refine and_congr_right fun met => ?_
  have notFresh : fresh m s = false := by
    by_contra isFresh
    have direct : s.direct = true := (Bool.and_eq_true_iff.mp (Bool.not_eq_false _ ▸ isFresh)).1
    exact calm direct met
  rw [notFresh, if_neg Bool.false_ne_true, ← held, Bool.not_eq_true]

/-- A flag stays set until the next direct sample. -/
theorem flag_iff (sound : Sound setup m)
    (held : flag = true ↔ Latched Sample.direct triggers m.seen)
    (calm : s.direct = true → ¬ triggers (s :: m.seen))
    (seen : now = true ↔ triggers (s :: m.seen)) :
    (flagAt m s flag || (!flagAt m s flag && now)) = true ↔
      Latched Sample.direct triggers (s :: m.seen) := by
  rw [Bool.or_eq_true, warns_iff held calm seen, latched_cons]
  cases direct : s.direct with
  | true =>
      have quiet := calm direct
      have off : flagAt m s flag = false := by
        unfold flagAt
        cases was : m.wasDirect with
        | false =>
            have isFresh : fresh m s = true := by
              rw [fresh, was]
              exact Bool.and_eq_true_iff.mpr ⟨direct, rfl⟩
            rw [isFresh]
            rfl
        | true =>
            rw [sound.wasDirect] at was
            have off := Bool.eq_false_iff.mpr fun on => not_latched_of_lastKind was (held.mp on)
            rw [off]
            exact ite_self false
      rw [off]
      exact ⟨fun either => absurd (either.resolve_left Bool.false_ne_true).1 quiet,
        fun both => nomatch both.1⟩
  | false =>
      have notFresh : fresh m s = false := by
        unfold Sample.direct at direct
        rw [fresh, direct]
        rfl
      rw [flagAt, notFresh, if_neg Bool.false_ne_true, held]
      constructor
      · rintro (before | ⟨met, _⟩)
        · exact ⟨rfl, .inr before⟩
        · exact ⟨rfl, .inl met⟩
      · rintro ⟨_, met | before⟩
        · exact (Classical.em _).imp_right fun fresh => ⟨met, fresh⟩
        · exact .inl before

end Flags

/-- What a tick does, by what was there before. -/
structure Looked (permStreak : Nat) (s : Sample) (m next : Monitor) (said : List Said) : Prop where
  noIp : next.noIpCandidateStreak = countNoIp s.kind m.noIpCandidateStreak
  slow : next.slowRelayStreak = if s.slow then saturate 255 m.slowRelayStreak else 0
  permanent : next.warnedRelayPermanent = (flagAt m s m.warnedRelayPermanent ||
    (!flagAt m s m.warnedRelayPermanent && decide (permStreak ≤ next.noIpCandidateStreak)))
  limited : next.warnedRelayLimit = (flagAt m s m.warnedRelayLimit ||
    (!flagAt m s m.warnedRelayLimit && decide (2 ≤ next.slowRelayStreak)))
  wasDirect : next.wasDirect = s.kind.isDirect
  first : next.firstDirectAt = if fresh m s then m.firstDirectAt.or (some s.elapsed)
    else m.firstDirectAt
  seen : next.seen = s :: m.seen
  nextUpgrade : next.nextUpgrade = m.nextUpgrade
  said : said = (if fresh m s then [.upgraded] else []) ++
    (if !flagAt m s m.warnedRelayPermanent && decide (permStreak ≤ next.noIpCandidateStreak) then
      [.relayPermanent] else []) ++
    if !flagAt m s m.warnedRelayLimit && decide (2 ≤ next.slowRelayStreak) then
      [.relayLimit (s.bps / 1024)] else []

theorem look_looked (permStreak : Nat) (s : Sample) (m : Monitor) :
    Looked permStreak s m (m.look permStreak s).1 (m.look permStreak s).2 := by
  cases isFresh : fresh m s with
  | true =>
      have direct : s.kind = .direct := beq_iff_eq.mp (Bool.and_eq_true_iff.mp isFresh).1
      have slow : s.slow = false := slow_of_direct (beq_iff_eq.mpr direct)
      have upgraded : (PathKind.direct.isDirect && !m.wasDirect) = true := direct ▸ isFresh
      refine ⟨?_, ?_, ?_, ?_, rfl, ?_, ?_, ?_, ?_⟩
      all_goals simp only [Monitor.look, Monitor.upgrade, flagAt, isFresh, upgraded, direct, slow,
        countNoIp, Bool.false_eq_true, if_true, if_false]
  | false =>
      have upgraded : (s.kind.isDirect && !m.wasDirect) = false := isFresh
      refine ⟨?_, ?_, ?_, ?_, rfl, ?_, ?_, ?_, ?_⟩
      all_goals simp only [Monitor.look, flagAt, isFresh, upgraded, Bool.false_eq_true, if_false]

variable {said : List Said} {event : Event}

/-- What makes the warning about a peer without direct addresses true. -/
theorem permanent_trigger (sound : Sound setup m)
    (looked : Looked (pacing setup.hist).permStreak s m next said) :
    decide ((pacing setup.hist).permStreak ≤ next.noIpCandidateStreak) = true ↔
      (pacing setup.hist).permStreak ≤ relayStreak (s :: m.seen) := by
  obtain ⟨_, small⟩ := permStreak_bounds setup.hist
  rw [looked.noIp, sound.noIp, countNoIp_streak, decide_eq_true_iff]
  omega

theorem limited_trigger (sound : Sound setup m)
    (looked : Looked (pacing setup.hist).permStreak s m next said) :
    decide (2 ≤ next.slowRelayStreak) = true ↔ 2 ≤ slowStreak (s :: m.seen) := by
  rw [looked.slow, sound.slow, countSlow_streak, decide_eq_true_iff]
  omega

theorem permanent_calm (hist : Option Tally) (seen : List Sample) (direct : s.direct = true) :
    ¬ (pacing hist).permStreak ≤ relayStreak (s :: seen) := by
  have bounds := permStreak_bounds hist
  rw [relayStreak_of_direct direct]
  omega

theorem limited_calm (seen : List Sample) (direct : s.direct = true) :
    ¬ 2 ≤ slowStreak (s :: seen) := by
  rw [slowStreak_of_direct direct]
  decide

/-- A new direct path is the first one, unless there was one before. -/
theorem first_look (sound : Sound setup m) :
    (if fresh m s then m.firstDirectAt.or (some s.elapsed) else m.firstDirectAt) =
      firstDirect setup (s :: m.seen) := by
  have was := sound.wasDirect
  rw [sound.first]
  unfold firstDirect
  cases initial : setup.initial.isDirect with
  | true =>
      change (if fresh m s then (some 0).or (some s.elapsed) else some 0) = some 0
      exact ite_self _
  | false =>
      simp only [Bool.false_eq_true, if_false]
      rw [List.reverse_cons, List.find?_append]
      cases found : m.seen.reverse.find? Sample.direct with
      | some earlier => exact ite_self _
      | none =>
          have notWas : m.wasDirect = false := by
            rw [was, lastKind]
            cases seen : m.seen with
            | nil => exact initial
            | cons last rest =>
                have member : last ∈ m.seen.reverse := by
                  rw [seen]
                  exact List.mem_reverse.mpr List.mem_cons_self
                exact Bool.eq_false_iff.mpr fun direct =>
                  List.find?_eq_none.mp found last member direct
          rw [fresh, notWas, Bool.not_false, Bool.and_true, List.find?_singleton]
          change _ = (if s.kind.isDirect = true then some s else none).map Sample.elapsed
          cases s.kind.isDirect with
          | true => rfl
          | false => rfl

theorem sound_look (sound : Sound setup m)
    (looked : Looked (pacing setup.hist).permStreak s m next said) : Sound setup next where
  noIp := by rw [looked.noIp, sound.noIp, countNoIp_streak, looked.seen]
  slow := by rw [looked.slow, sound.slow, countSlow_streak, looked.seen]
  permanent := by
    rw [looked.permanent, looked.seen]
    exact flag_iff sound sound.permanent (permanent_calm setup.hist m.seen)
      (permanent_trigger sound looked)
  limited := by
    rw [looked.limited, looked.seen]
    exact flag_iff sound sound.limited (limited_calm m.seen) (limited_trigger sound looked)
  wasDirect := by rw [looked.wasDirect, looked.seen]; rfl
  first := by rw [looked.first, first_look sound, looked.seen]

/-- The sample that a tick takes. -/
def sampleAt (setup : Setup) (m : Monitor) (now : Nat) (kind : PathKind) (bytes : Nat) : Sample :=
  ⟨now - setup.started, kind, (bytes - m.prevBytes) / statsSecs⟩

theorem tick_looked {now bytes : Nat} {kind : PathKind}
    (stepped : step setup m (.tick now kind bytes) = some (next, said)) :
    Looked (pacing setup.hist).permStreak (sampleAt setup m now kind bytes)
      { m with prevBytes := bytes } next said := by
  obtain ⟨_, same⟩ := Option.ite_none_left_eq_some.mp stepped
  have looked := look_looked (pacing setup.hist).permStreak (sampleAt setup m now kind bytes)
    { m with prevBytes := bytes }
  change some ({ m with prevBytes := bytes }.look (pacing setup.hist).permStreak
    (sampleAt setup m now kind bytes)) = _ at same
  rw [Option.some.inj same] at looked
  exact looked

theorem sound_step (sound : Sound setup m) (stepped : advance setup m event = some next) :
    Sound setup next := by
  obtain ⟨⟨after, said⟩, taken, same⟩ := Option.map_eq_some_iff.mp stepped
  cases same
  cases event with
  | tick now kind bytes =>
      have before : Sound setup { m with prevBytes := bytes } :=
        ⟨sound.noIp, sound.slow, sound.permanent, sound.limited, sound.wasDirect, sound.first⟩
      exact sound_look before (tick_looked taken)
  | upgrade now kind force disable =>
      obtain ⟨_, same⟩ := Option.ite_none_left_eq_some.mp taken
      cases same
      exact ⟨sound.noIp, sound.slow, sound.permanent, sound.limited, sound.wasDirect, sound.first⟩
  | closed kind =>
      obtain ⟨_, same⟩ := Option.ite_none_left_eq_some.mp taken
      cases same
      exact ⟨sound.noIp, sound.slow, sound.permanent, sound.limited, sound.wasDirect, sound.first⟩

theorem sound_run {events : List Event} (ran : run (advance setup) (.start setup) events = some m) :
    Sound setup m :=
  (allStates_of_invariant (fun _ _ _ => sound_step) sound_start events).final ran

/-! ## What the user is told -/

theorem said_mem {upgraded permanent limit : Bool} {kbps : Nat}
    (all : said = (if upgraded then [.upgraded] else []) ++
      (if permanent then [.relayPermanent] else []) ++ if limit then [.relayLimit kbps] else []) :
    (.upgraded ∈ said ↔ upgraded = true) ∧ (.relayPermanent ∈ said ↔ permanent = true) ∧
      ((∃ kbps, .relayLimit kbps ∈ said) ↔ limit = true) := by
  subst all
  cases upgraded <;> cases permanent <;> cases limit <;> simp

/-- **What the user is told** at a tick of any run: that the path is direct, if it was
not at the tick before; that the peer shows no direct address or that the relay is
slow, when that has become true for the first time since the path was direct last.
The sample for the log has the time of the first direct path. -/
theorem monitor_tells {events : List Event}
    (ran : run (advance setup) (.start setup) events = some m) :
    (∀ now kind bytes next said, step setup m (.tick now kind bytes) = some (next, said) →
      let seen := sampleAt setup m now kind bytes :: m.seen
      next.seen = seen ∧
        (.upgraded ∈ said ↔ kind = .direct ∧ lastKind setup m.seen ≠ .direct) ∧
        (.relayPermanent ∈ said ↔ (pacing setup.hist).permStreak ≤ relayStreak seen ∧
          ¬ Permanent (pacing setup.hist).permStreak m.seen) ∧
        ((∃ kbps, .relayLimit kbps ∈ said) ↔ 2 ≤ slowStreak seen ∧ ¬ Limited m.seen)) ∧
    ∀ kind next said, step setup m (.closed kind) = some (next, said) →
      said = [.sample kind (firstDirect setup m.seen)] := by
  have sound := sound_run ran
  constructor
  · intro now kind bytes next said stepped seen
    have looked := tick_looked stepped
    have before : Sound setup { m with prevBytes := bytes } :=
      ⟨sound.noIp, sound.slow, sound.permanent, sound.limited, sound.wasDirect, sound.first⟩
    obtain ⟨upgraded, permanent, limited⟩ := said_mem looked.said
    refine ⟨looked.seen, upgraded.trans (fresh_iff before), permanent.trans ?_, limited.trans ?_⟩
    · exact warns_iff before.permanent (permanent_calm setup.hist m.seen)
        (permanent_trigger before looked)
    · exact warns_iff before.limited (limited_calm m.seen) (limited_trigger before looked)
  · intro kind next said stepped
    obtain ⟨_, same⟩ := Option.ite_none_left_eq_some.mp stepped
    cases same
    rw [sound.first]

/-- A session over a relay, of a peer that is not in the log. -/
def relayed : Setup := ⟨none, false, 0, .relay, 0⟩

/-- The fourth sample over a relay alone is the first that makes the peer permanently relayed. -/
theorem monitor_tells_relayed : ∃ m next said,
    run (advance relayed) (.start relayed)
      [.tick 30 .relay 0, .tick 60 .relay 0, .tick 90 .relay 0] = some m ∧
    step relayed m (.tick 120 .relay 0) = some (next, said) ∧ .relayPermanent ∈ said ∧
      ¬ Permanent 4 m.seen := by
  refine ⟨_, _, [.relayPermanent], rfl, rfl, List.mem_singleton.mpr rfl, ?_⟩
  have told := (@monitor_tells relayed _ [.tick 30 .relay 0, .tick 60 .relay 0,
    .tick 90 .relay 0] rfl).1 120 .relay 0 _ [.relayPermanent] rfl
  exact (told.2.2.1.mp (List.mem_singleton.mpr rfl)).2

/-! ## How often it asks for a hole punch -/

/-- The event is the timer's. -/
def Event.isUpgrade : Event → Bool
  | .upgrade .. => true
  | .tick .. | .closed _ => false

theorem upgrade_cases {now : Nat} {kind : PathKind} {force disable : Bool}
    (stepped : step setup m (.upgrade now kind force disable) = some (next, said)) :
    m.nextUpgrade ≤ now ∧ next.nextUpgrade = now + setup.upgradeDelay m.noIpCandidateStreak ∧
      setup.relayOnly = false ∧
        (.nudge ∈ said → disable = false ∧ (force = true ∨ kind ≠ .direct)) := by
  obtain ⟨open_, same⟩ := Option.ite_none_left_eq_some.mp stepped
  cases same
  simp only [Bool.or_eq_true, decide_eq_true_eq, not_or, Nat.not_lt, Bool.not_eq_true] at open_
  refine ⟨open_.2, rfl, open_.1.2, fun nudged => ?_⟩
  split at nudged
  · rename_i asked
    rw [Bool.and_eq_true, Bool.not_eq_true', Bool.or_eq_true, Bool.not_eq_true',
      PathKind.isDirect, beq_eq_false_iff_ne] at asked
    exact asked
  · cases nudged

theorem upgradeSecsPerm_eq (hist : Option Tally) : (pacing hist).upgradeSecsPerm = 300 := by
  unfold pacing
  split
  · split
    · rfl
    · split <;> rfl
  · rfl

/-- The least time between two retries. -/
theorem upgradeDelay_le (setup : Setup) (streak : Nat) :
    secs (pacing setup.hist).upgradeSecs ≤ setup.upgradeDelay streak := by
  have slower : ∀ hist, (pacing hist).upgradeSecs ≤ (pacing hist).upgradeSecsPerm := by
    intro hist
    unfold pacing
    split
    · split
      · decide
      · split <;> decide
    · decide
  unfold Setup.upgradeDelay
  split
  · exact Nat.mul_le_mul_right _ (slower setup.hist)
  · exact Nat.le_refl _

/-- The timer moves on with every retry and stays where it is otherwise. -/
theorem nextUpgrade_step (stepped : advance setup m event = some next) :
    m.nextUpgrade + (if event.isUpgrade then secs (pacing setup.hist).upgradeSecs else 0) ≤
      next.nextUpgrade := by
  obtain ⟨⟨after, said⟩, taken, same⟩ := Option.map_eq_some_iff.mp stepped
  cases same
  cases event with
  | tick now kind bytes => exact Nat.le_of_eq (tick_looked taken).nextUpgrade.symm
  | upgrade now kind force disable =>
      obtain ⟨due, later, _⟩ := upgrade_cases taken
      rw [later]
      exact Nat.add_le_add due (upgradeDelay_le setup _)
  | closed kind =>
      obtain ⟨_, same⟩ := Option.ite_none_left_eq_some.mp taken
      cases same
      exact Nat.le_refl _

theorem nextUpgrade_run {events : List Event} (ran : run (advance setup) m events = some next) :
    m.nextUpgrade + events.countP Event.isUpgrade * secs (pacing setup.hist).upgradeSecs ≤
      next.nextUpgrade := by
  induction events generalizing m with
  | nil =>
      cases ran
      exact Nat.le_of_eq (by rw [List.countP_nil, Nat.zero_mul, Nat.add_zero])
  | cons event rest ih =>
      obtain ⟨middle, taken, later⟩ := Option.bind_eq_some_iff.mp ran
      have first := nextUpgrade_step taken
      have second := ih later
      rw [List.countP_cons, Nat.add_mul]
      split at first
      · rename_i retry
        rw [if_pos retry, Nat.one_mul]
        omega
      · rename_i other
        rw [if_neg other, Nat.zero_mul]
        omega

/-- **The retries are paced.** In every run the retries up to some moment fit into the
time since the start at their least distance, and after one for a peer that has shown
no IP address in as many samples as make it permanently relayed, the next is five
minutes later. There is none with `--relay-only`. The network is asked for a direct path
only if that is not disabled, and while the path is direct only if it is forced. -/
theorem retries_paced {before middle : List Event}
    (ran : run (advance setup) (.start setup) before = some m)
    {now : Nat} {kind : PathKind} {force disable : Bool}
    (stepped : step setup m (.upgrade now kind force disable) = some (next, said)) :
    setup.relayOnly = false ∧
      setup.started + (before.countP Event.isUpgrade + 1) * secs (pacing setup.hist).upgradeSecs ≤
        now ∧
      (.nudge ∈ said → disable = false ∧ (force = true ∨ kind ≠ .direct)) ∧
      ∀ (m' last : Monitor) (now' : Nat) (kind' : PathKind) (force' disable' : Bool)
        (said' : List Said), run (advance setup) next middle = some m' →
        step setup m' (.upgrade now' kind' force' disable') = some (last, said') →
        (pacing setup.hist).permStreak ≤ relayStreak m.seen → now + secs 300 ≤ now' := by
  obtain ⟨due, later, direct, asked⟩ := upgrade_cases stepped
  have paced := nextUpgrade_run ran
  refine ⟨direct, ?_, asked, ?_⟩
  · change setup.started + secs (pacing setup.hist).upgradeSecs + _ ≤ _ at paced
    rw [Nat.add_mul, Nat.one_mul]
    omega
  · intro m' last now' kind' force' disable' said' ran' stepped' permanent
    obtain ⟨_, small⟩ := permStreak_bounds setup.hist
    have slow : setup.upgradeDelay m.noIpCandidateStreak = secs 300 := by
      have streak : (pacing setup.hist).permStreak ≤ m.noIpCandidateStreak := by
        rw [(sound_run ran).noIp]
        omega
      rw [Setup.upgradeDelay, if_pos streak, upgradeSecsPerm_eq]
    have between := nextUpgrade_run ran'
    have due' := (upgrade_cases stepped').1
    rw [later, slow] at between
    omega

theorem retries_paced_relayed : ∃ m next said,
    run (advance relayed) (.start relayed)
      [.tick 30 .relay 0, .tick 60 .relay 0, .tick 90 .relay 0, .tick 120 .relay 0] = some m ∧
    step relayed m (.upgrade (secs 125) .relay false false) = some (next, said) ∧
      ∀ m' last now' kind' force' disable' said', run (advance relayed) next [] = some m' →
        step relayed m' (.upgrade now' kind' force' disable') = some (last, said') →
        secs 425 ≤ now' := by
  refine ⟨_, _, [.nudge], rfl, rfl, ?_⟩
  intro m' last now' kind' force' disable' said' ran stepped
  have paced := (@retries_paced relayed _ _ [.nudge] [.tick 30 .relay 0, .tick 60 .relay 0,
    .tick 90 .relay 0, .tick 120 .relay 0] [] rfl (secs 125) .relay false false rfl).2.2.2
  exact paced m' last now' kind' force' disable' said' ran stepped (by decide)

end LinkP2p.Stream.PathMonitor
