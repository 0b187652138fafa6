import LinkP2p.Identity.KeyFile
import LinkP2p.Lib.HashMap
import LinkP2p.Lib.StableSort

/-!
# The order of the relays

Before a dial the relays are probed at once, and each probe ends when it ends. The
result is written to a file, and for a day the next start takes the order from there
and probes in the background.
-/

namespace LinkP2p.Daemon.RelayProbe

open LinkP2p.Identity (Text)
open LinkP2p.Lib LinkP2p.Lib.StableSort

/-- A relay and how many nanoseconds the connection took, if there was one. -/
structure Probe where
  url : Text
  rtt : Option Nat
  deriving DecidableEq, Repr

structure Entry where
  rttMs : Option Nat
  updatedUnix : Nat
  deriving DecidableEq, Repr

/-- `relay-rtt.json` -/
abbrev CacheFile := HashMap Text Entry

/-- `CACHE_TTL` in seconds -/
def cacheTtl : Nat := 24 * 60 * 60

def nanosPerMilli : Nat := 1000000

/-- What `probe_and_record` sorts by: a probe that failed counts as a minute. -/
def measured (probe : Probe) : Nat := probe.rtt.getD (60000 * nanosPerMilli)

/-- `as_millis() as u64` -/
def Probe.millis (probe : Probe) : Option Nat := probe.rtt.map fun d => d / nanosPerMilli % 2 ^ 64

/-- What `order_from_fresh_cache` sorts by: `u64::MAX / 2` for a failure. -/
def cachedRank (rttMs : Option Nat) : Nat := rttMs.getD 9223372036854775807

def recordProbeResults (now : Nat) (cache : CacheFile) (results : List Probe) : CacheFile :=
  results.foldl (fun cache probe => cache.put probe.url ⟨probe.millis, now⟩) cache

/-- The rows are in the order in which the probes have ended. -/
def probeAndRecord (now : Nat) (cache : CacheFile) (urls : List Text)
    (rows : List (Probe × Nat)) : List Text × CacheFile :=
  if urls.length = 1 then (urls, recordProbeResults now cache (rows.map Prod.fst))
  else
    let scored := sortRows measured rows
    (scored.map fun row => row.1.url, recordProbeResults now cache (scored.map Prod.fst))

/-- The rank of a URL in the file, if it is not older than a day. -/
def freshRank (now : Nat) (cache : CacheFile) (url : Text) : Option Nat :=
  (cache.get url).bind fun entry =>
    if cacheTtl < now - entry.updatedUnix then none else some (cachedRank entry.rttMs)

def orderFromFreshCache (now : Nat) (cache : CacheFile) (urls : List Text) : Option (List Text) :=
  if urls = [] then some []
  else
    (urls.mapM fun url => (freshRank now cache url).map fun rank => (url, rank)).map fun ranked =>
      (sortRows Prod.snd ranked.zipIdx).map fun row => row.1.1

/-- What a start dials, and the file after it and its background refresh. The file can be
written, and every probe ends with a result. -/
def orderByConnectLatency (now : Nat) (cache : CacheFile) (urls : List Text)
    (rows : List (Probe × Nat)) : List Text × CacheFile :=
  if urls = [] then ([], cache)
  else
    match orderFromFreshCache now cache urls with
    | some cached => (cached, (probeAndRecord now cache urls rows).2)
    | none => probeAndRecord now cache urls rows

/-- What a process meets when it orders the relays. -/
structure Probing where
  now : Nat
  /-- How long a connection takes. A probe is given up after two seconds. -/
  rtt : Text → Option Nat
  quick : ∀ url d, rtt url = some d → d < 60000 * nanosPerMilli
  /-- The order in which the probes end. -/
  arrive : List (Probe × Nat) → List (Probe × Nat)
  perm : ∀ rows, (arrive rows).Perm rows
  /-- Whether a refresh in the background ends before the next process reads the file. -/
  inTime : Bool

def Probing.probes (p : Probing) (urls : List Text) : List Probe :=
  urls.map fun url => ⟨url, p.rtt url⟩

/-- The order that the process dials in, and the file after it. -/
def Probing.order (p : Probing) (file : CacheFile) (urls : List Text) : List Text × CacheFile :=
  orderByConnectLatency p.now file urls (p.arrive (p.probes urls).zipIdx)

/-- The file that the next process finds. -/
def Probing.left (p : Probing) (file : CacheFile) (urls : List Text) : CacheFile :=
  if (orderFromFreshCache p.now file urls).isSome && !p.inTime then file else (p.order file urls).2

/-! ## The file -/

variable {now later : Nat} {cache : CacheFile} {probes : List Probe}

theorem get_record_of_notMem (url : Text) (results : List Probe)
    (absent : url ∉ results.map Probe.url) :
    (recordProbeResults now cache results).get url = cache.get url := by
  induction results generalizing cache with
  | nil => rfl
  | cons probe rest ih =>
      obtain ⟨other, absent⟩ := not_or.mp (List.mem_cons.not.mp absent)
      change (recordProbeResults now (cache.put probe.url _) rest).get url = _
      rw [ih absent, HashMap.get_put_of_ne other]

/-- A URL that was probed once has its result in the file. -/
theorem get_record {probe : Probe} {results : List Probe}
    (distinct : (results.map Probe.url).Nodup) (probed : probe ∈ results) :
    (recordProbeResults now cache results).get probe.url = some ⟨probe.millis, now⟩ := by
  induction results generalizing cache with
  | nil => cases probed
  | cons first rest ih =>
      obtain ⟨once, distinct⟩ := List.nodup_cons.mp distinct
      change (recordProbeResults now (cache.put first.url _) rest).get probe.url = _
      rcases List.mem_cons.mp probed with rfl | probed
      · rw [get_record_of_notMem _ _ once, HashMap.get_put_self]
      · exact ih distinct probed

theorem freshRank_record {probe : Probe} {results : List Probe}
    (distinct : (results.map Probe.url).Nodup) (probed : probe ∈ results)
    (soon : later - now ≤ cacheTtl) :
    freshRank later (recordProbeResults now cache results) probe.url =
      some (cachedRank probe.millis) := by
  rw [freshRank, get_record distinct probed]
  exact if_neg (Nat.not_lt.mpr soon)

/-- The order that the file gives to a list of URLs with these ranks. -/
theorem orderFromFreshCache_of_ranks {rank : Probe → Nat}
    (ranked : ∀ probe ∈ probes, freshRank later cache probe.url = some (rank probe)) :
    orderFromFreshCache later cache (probes.map Probe.url) =
      some ((sortBy rank probes).map Probe.url) := by
  have looked : ((probes.map Probe.url).mapM fun url =>
      (freshRank later cache url).map fun rank => (url, rank)) =
      some (probes.map fun probe => (probe.url, rank probe)) := by
    induction probes with
    | nil => rfl
    | cons probe rest ih =>
        obtain ⟨here, later⟩ := List.forall_mem_cons.mp ranked
        rw [List.map_cons, List.mapM_cons, here, ih later]
        rfl
  have sorted : sortBy Prod.snd (probes.map fun probe => (probe.url, rank probe)) =
      (sortBy rank probes).map fun probe => (probe.url, rank probe) := sortBy_map Prod.snd _ probes
  rw [orderFromFreshCache]
  split
  · rename_i none
    rw [List.map_eq_nil_iff.mp none]
    rfl
  · rw [looked, Option.map_some]
    have order := sortRows_arrived Prod.snd
      (List.Perm.refl (probes.map fun probe => (probe.url, rank probe)).zipIdx)
    rw [sorted] at order
    have urls := congrArg (List.map Prod.fst) order
    rw [List.map_map, List.map_map] at urls
    exact congrArg some urls

/-- The rank that the file has for a URL, however old. -/
def storedRank (cache : CacheFile) (url : Text) : Nat :=
  cachedRank ((cache.get url).bind Entry.rttMs)

theorem freshRank_stored {url : Text} {rank : Nat} (fresh : freshRank now cache url = some rank) :
    rank = storedRank cache url := by
  obtain ⟨entry, found, given⟩ := Option.bind_eq_some_iff.mp fresh
  obtain ⟨-, same⟩ := Option.ite_none_left_eq_some.mp given
  rw [storedRank, found, ← Option.some.inj same]
  rfl

theorem fresh_of_mapM {urls : List Text} {ranked : List (Text × Nat)}
    (looked : (urls.mapM fun url => (freshRank now cache url).map fun rank => (url, rank)) =
      some ranked) :
    ∀ url ∈ urls, freshRank now cache url = some (storedRank cache url) := by
  induction urls generalizing ranked with
  | nil => exact List.forall_mem_nil _
  | cons url rest ih =>
      rw [List.mapM_cons] at looked
      obtain ⟨first, here, looked⟩ := Option.bind_eq_some_iff.mp looked
      obtain ⟨others, there, -⟩ := Option.bind_eq_some_iff.mp looked
      obtain ⟨rank, fresh, -⟩ := Option.map_eq_some_iff.mp here
      refine List.forall_mem_cons.mpr ⟨?_, ih there⟩
      rw [fresh, freshRank_stored fresh]

/-- A fresh order does not depend on when it is taken. -/
theorem eq_of_fresh {urls cached : List Text}
    (fresh : orderFromFreshCache now cache urls = some cached) :
    cached = sortBy (storedRank cache) urls := by
  have listed : (urls.map fun url => Probe.mk url none).map Probe.url = urls := by
    rw [List.map_map]
    exact List.map_id urls
  have ranked : ∀ probe ∈ urls.map fun url => Probe.mk url none,
      freshRank now cache probe.url = some (storedRank cache probe.url) := by
    intro probe member
    obtain ⟨url, inside, rfl⟩ := List.mem_map.mp member
    rw [orderFromFreshCache] at fresh
    split at fresh
    · rename_i none
      rw [none] at inside
      cases inside
    · obtain ⟨_, looked, -⟩ := Option.map_eq_some_iff.mp fresh
      exact fresh_of_mapM looked url inside
  have order := @orderFromFreshCache_of_ranks now cache _ (fun probe => storedRank cache probe.url)
    ranked
  have sorted := sortBy_map (storedRank cache) Probe.url (urls.map fun url => Probe.mk url none)
  rw [listed] at order sorted
  rw [fresh] at order
  exact (Option.some.inj order).trans sorted.symm

/-! ## A start and the next one -/

/-- The probes in the order in which they are sorted and written. -/
theorem recorded {urls : List Text} {rows : List (Probe × Nat)}
    (listed : probes.map Probe.url = urls) (arrived : rows.Perm probes.zipIdx) :
    (probeAndRecord now cache urls rows).1 = (sortBy measured probes).map Probe.url ∧
      ∃ results, results.Perm probes ∧
        (probeAndRecord now cache urls rows).2 = recordProbeResults now cache results := by
  subst listed
  have order := sortRows_arrived measured arrived
  rw [probeAndRecord]
  split
  · rename_i single
    rw [List.length_map] at single
    obtain ⟨probe, rfl⟩ := List.length_eq_one_iff.mp single
    rw [List.perm_singleton.mp arrived]
    exact ⟨rfl, _, .refl _, rfl⟩
  · refine ⟨?_, _, order ▸ perm_sortBy measured probes, rfl⟩
    rw [← order, List.map_map]
    rfl

theorem eq_of_map_url (distinct : (probes.map Probe.url).Nodup) {first second : List Probe}
    (known : ∀ probe ∈ first, probe ∈ probes) (known' : ∀ probe ∈ second, probe ∈ probes)
    (same : first.map Probe.url = second.map Probe.url) : first = second := by
  induction first generalizing second with
  | nil => exact (List.map_eq_nil_iff.mp same.symm).symm
  | cons probe rest ih =>
      obtain ⟨other, others, rfl, url, urls⟩ := List.map_eq_cons_iff.mp same.symm
      obtain ⟨here, known⟩ := List.forall_mem_cons.mp known
      obtain ⟨there, known'⟩ := List.forall_mem_cons.mp known'
      rw [List.inj_on_of_nodup_map distinct there here url, ih known known' urls.symm]

/-- Nanoseconds below a minute are written as they are, in milliseconds. -/
theorem millis_of_quick {probe : Probe} {d : Nat} (answered : probe.rtt = some d)
    (quick : d < 60000 * nanosPerMilli) : probe.millis = some (d / nanosPerMilli) := by
  have small : d / nanosPerMilli < 60000 := Nat.div_lt_of_lt_mul (by rwa [Nat.mul_comm])
  rw [Probe.millis, answered, Option.map_some, Nat.mod_eq_of_lt (by omega)]

/-- The file has the measured order, up to what is lost below a millisecond. -/
structure Coarse (a b : Probe) : Prop where
  mono : measured a ≤ measured b → cachedRank a.millis ≤ cachedRank b.millis
  tied : (cachedRank a.millis = cachedRank b.millis → measured a ≤ measured b) ↔
    ∀ d e, a.rtt = some d → b.rtt = some e → d / nanosPerMilli = e / nanosPerMilli → d ≤ e

theorem coarse_of_quick {a b : Probe} (first : ∀ d, a.rtt = some d → d < 60000 * nanosPerMilli)
    (second : ∀ d, b.rtt = some d → d < 60000 * nanosPerMilli) : Coarse a b := by
  unfold nanosPerMilli at first second
  cases here : a.rtt with
  | none =>
      have failed : a.millis = none := by rw [Probe.millis, here]; rfl
      cases there : b.rtt with
      | none =>
          have failed' : b.millis = none := by rw [Probe.millis, there]; rfl
          constructor
          · rw [failed, failed']
            exact fun _ => Nat.le_refl _
          · rw [measured, measured, here, there]
            exact ⟨fun _ => nofun, fun _ _ => Nat.le_refl _⟩
      | some e =>
          have small := second e there
          rw [there] at second
          constructor
          · rw [measured, measured, here, there]
            intro le
            change 60000 * 1000000 ≤ e at le
            omega
          · refine ⟨fun _ => by rw [here]; nofun, fun _ same => ?_⟩
            rw [failed, millis_of_quick there small] at same
            change 9223372036854775807 = e / 1000000 at same
            omega
  | some d =>
      have small := first d here
      have written := millis_of_quick here small
      cases there : b.rtt with
      | none =>
          have failed : b.millis = none := by rw [Probe.millis, there]; rfl
          constructor
          · rw [written, failed]
            intro _
            change d / 1000000 ≤ 9223372036854775807
            omega
          · rw [measured, measured, here, there]
            refine ⟨fun _ _ _ _ => nofun, fun _ _ => ?_⟩
            exact Nat.le_of_lt small
      | some e =>
          have written' := millis_of_quick there (second e there)
          constructor
          · rw [measured, measured, here, there, written, written']
            exact fun le => Nat.div_le_div_right le
          · rw [measured, measured, here, there, written, written']
            constructor
            · rintro tied _ _ ⟨⟩ ⟨⟩
              exact tied
            · exact fun tied => tied d e rfl rfl

/-- Every URL that was probed is fresh in the file. -/
theorem ranked_of_recorded {results : List Probe} (distinct : (probes.map Probe.url).Nodup)
    (listed : results.Perm probes) (soon : later - now ≤ cacheTtl) (cache : CacheFile) :
    ∀ probe ∈ probes, freshRank later (recordProbeResults now cache results) probe.url =
      some (cachedRank probe.millis) := by
  intro probe member
  exact freshRank_record ((listed.map Probe.url).nodup_iff.mpr distinct)
    (listed.mem_iff.mpr member) soon

theorem order_of_ranks {rank : Probe → Nat} {rows : List (Probe × Nat)}
    (ranked : ∀ probe ∈ probes, freshRank later cache probe.url = some (rank probe)) :
    (orderByConnectLatency later cache (probes.map Probe.url) rows).1 =
      (sortBy rank probes).map Probe.url := by
  rw [orderByConnectLatency]
  split
  · rename_i none
    rw [List.map_eq_nil_iff.mp none]
    rfl
  · rw [orderFromFreshCache_of_ranks ranked]

/-- No relay is faster within the same whole millisecond than one listed before it. -/
def Settled (probes : List Probe) : Prop :=
  probes.Pairwise fun p q => ∀ d e, p.rtt = some d → q.rtt = some e →
    d / nanosPerMilli = e / nanosPerMilli → d ≤ e

/-- The whole milliseconds give the order of the exact times. -/
theorem cached_eq_measured_iff (distinct : (probes.map Probe.url).Nodup)
    (quick : ∀ probe ∈ probes, ∀ d, probe.rtt = some d → d < 60000 * nanosPerMilli) :
    (sortBy (fun probe => cachedRank probe.millis) probes).map Probe.url =
        (sortBy measured probes).map Probe.url ↔ Settled probes := by
  have coarse : ∀ p ∈ probes, ∀ q ∈ probes, Coarse p q := fun p here q there =>
    coarse_of_quick (quick p here) (quick q there)
  have mono := fun p here q there => (coarse p here q there).mono
  calc _ ↔ sortBy (fun probe => cachedRank probe.millis) probes = sortBy measured probes :=
        ⟨fun same => eq_of_map_url distinct (fun _ => (mem_sortBy _).mp)
          (fun _ => (mem_sortBy _).mp) same, congrArg _⟩
    _ ↔ _ := sortBy_coarser_iff mono
    _ ↔ _ := List.Pairwise.iff_of_mem fun here there => (coarse _ here _ there).tied

/-- **The order of the relays** does not depend on which probe ends first: it is the
order of the URLs by the time that was measured, failures last, ties as they were
listed. A start within a day after it takes the order by whole milliseconds, and that
is the same exactly if no relay is faster within the same whole millisecond than one
listed before it. -/
theorem relays_ordered {rows rows' : List (Probe × Nat)}
    (distinct : (probes.map Probe.url).Nodup)
    (quick : ∀ probe ∈ probes, ∀ d, probe.rtt = some d → d < 60000 * nanosPerMilli)
    (arrived : rows.Perm probes.zipIdx) (soon : later - now ≤ cacheTtl) (cache : CacheFile) :
    let urls := probes.map Probe.url
    let first := probeAndRecord now cache urls rows
    let second := orderByConnectLatency later first.2 urls rows'
    first.1 = (sortBy measured probes).map Probe.url ∧
      second.1 = (sortBy (fun probe => cachedRank probe.millis) probes).map Probe.url ∧
      (second.1 = first.1 ↔ probes.Pairwise fun p q => ∀ d e, p.rtt = some d → q.rtt = some e →
        d / nanosPerMilli = e / nanosPerMilli → d ≤ e) := by
  intro urls first second
  obtain ⟨order, results, listed, file⟩ :=
    @recorded now cache probes urls rows rfl arrived
  have cached :
      second.1 = (sortBy (fun probe => cachedRank probe.millis) probes).map Probe.url := by
    change (orderByConnectLatency later (probeAndRecord now cache urls rows).2 urls rows').1 = _
    rw [file]
    exact order_of_ranks (ranked_of_recorded distinct listed soon cache)
  refine ⟨order, cached, ?_⟩
  rw [cached, order]
  exact cached_eq_measured_iff distinct quick

/-- The second relay is faster by half a millisecond, so the next start has the other order. -/
theorem relays_ordered_swapped :
    let probes : List Probe := [⟨"a".toList, some 7500000⟩, ⟨"b".toList, some 7000000⟩]
    let urls := probes.map Probe.url
    let first := probeAndRecord 0 ∅ urls (probes.zipIdx.reverse)
    (orderByConnectLatency cacheTtl first.2 urls []).1 ≠ first.1 := by
  intro probes urls first same
  have quick : ∀ probe ∈ probes, ∀ d, probe.rtt = some d → d < 60000 * nanosPerMilli := by
    rintro probe member d answered
    unfold nanosPerMilli
    rcases List.mem_pair.mp member with rfl | rfl
    · cases answered
      omega
    · cases answered
      omega
  have agrees := (@relays_ordered 0 cacheTtl probes _ [] (by decide) quick
    (List.reverse_perm _) (Nat.sub_le _ _) ∅).2.2.mp same
  have tied : 7500000 / nanosPerMilli = 7000000 / nanosPerMilli := by decide
  have later := List.pairwise_pair.mp agrees 7500000 7000000 rfl rfl tied
  omega

/-! ## One process after the other -/

namespace Probing

variable {p w : Probing} {file : CacheFile} {urls : List Text}

theorem url_probes (p : Probing) (urls : List Text) : (p.probes urls).map Probe.url = urls := by
  rw [probes, List.map_map]
  exact List.map_id urls

theorem quick_probes : ∀ probe ∈ p.probes urls, ∀ d, probe.rtt = some d →
    d < 60000 * nanosPerMilli := by
  intro probe member d answered
  obtain ⟨url, -, rfl⟩ := List.mem_map.mp member
  exact p.quick url d answered

/-- The process that finds no fresh order probes. -/
theorem order_probed (stale : orderFromFreshCache p.now file urls = none) :
    p.order file urls = probeAndRecord p.now file urls (p.arrive (p.probes urls).zipIdx) := by
  rw [order, orderByConnectLatency]
  split
  · rename_i none
    rw [none] at stale
    cases stale
  · rw [stale]

theorem order_fresh {cached : List Text}
    (fresh : orderFromFreshCache p.now file urls = some cached) :
    (p.order file urls).1 = cached := by
  rw [order, orderByConnectLatency]
  split
  · rename_i none
    rw [none] at fresh
    exact Option.some.inj fresh
  · rw [fresh]

/-- With or without a fresh order, the probes are written at last. -/
theorem order_recorded (p : Probing) (file : CacheFile) (urls : List Text) :
    ∃ results, results.Perm (p.probes urls) ∧
      (p.order file urls).2 = recordProbeResults p.now file results := by
  obtain ⟨-, results, listed, written⟩ := @recorded p.now file _ urls _ (p.url_probes urls)
    (p.perm (p.probes urls).zipIdx)
  rw [order, orderByConnectLatency]
  split
  · rename_i none
    subst none
    exact ⟨[], .refl _, rfl⟩
  · refine ⟨results, listed, ?_⟩
    split
    · exact written
    · exact written

/-- All the relays are dialled, once each. -/
theorem order_perm (p : Probing) (file : CacheFile) (urls : List Text) :
    (p.order file urls).1.Perm urls := by
  cases fresh : orderFromFreshCache p.now file urls with
  | some cached =>
      rw [order_fresh fresh, eq_of_fresh fresh]
      exact perm_sortBy _ urls
  | none =>
      have order := (@recorded p.now file _ urls _ (p.url_probes urls)
        (p.perm (p.probes urls).zipIdx)).1
      rw [order_probed fresh, order]
      exact ((perm_sortBy measured _).map Probe.url).trans (.of_eq (p.url_probes urls))

end Probing

/-- The relays of a process and of the one after it: the same ones, in order by what the
first has left. -/
structure Followed (p w : Probing) (file : CacheFile) (urls first second : List Text) : Prop where
  perm : second.Perm first
  /-- What the first has measured and written is taken from the file. -/
  recorded : orderFromFreshCache p.now file urls = none ∨ p.inTime = true →
    w.now - p.now ≤ cacheTtl →
    second = (sortBy (fun probe => cachedRank probe.millis) (p.probes urls)).map Probe.url
  /-- If the first has dialled in the order of the exact times, it is kept exactly if they
  are settled. -/
  probed : orderFromFreshCache p.now file urls = none → w.now - p.now ≤ cacheTtl →
    (second = first ↔ Settled (p.probes urls))
  /-- An order that comes from the file is kept while the file is. -/
  kept : (orderFromFreshCache p.now file urls).isSome = true → p.inTime = false →
    (orderFromFreshCache w.now file urls).isSome = true → second = first

/-- **The next process** dials the same relays, in the order of the whole milliseconds. -/
theorem relays_followed (p w : Probing) (file : CacheFile) {urls : List Text}
    (distinct : urls.Nodup) :
    Followed p w file urls (p.order file urls).1 (w.order (p.left file urls) urls).1 := by
  have distinct' : ((p.probes urls).map Probe.url).Nodup := (p.url_probes urls).symm ▸ distinct
  have recorded' : orderFromFreshCache p.now file urls = none ∨ p.inTime = true →
      w.now - p.now ≤ cacheTtl → (w.order (p.left file urls) urls).1 =
        (sortBy (fun probe => cachedRank probe.millis) (p.probes urls)).map Probe.url := by
    intro writes soon
    obtain ⟨results, listed, written⟩ := p.order_recorded file urls
    have left : p.left file urls = recordProbeResults p.now file results := by
      rw [← written, Probing.left]
      refine if_neg fun kept => ?_
      obtain ⟨fresh, late⟩ := Bool.and_eq_true_iff.mp kept
      rcases writes with stale | early
      · rw [stale] at fresh
        cases fresh
      · rw [early] at late
        cases late
    have ranked := ranked_of_recorded distinct' listed soon file
    have order := @order_of_ranks _ _ _ _ (w.arrive (w.probes urls).zipIdx) ranked
    rw [p.url_probes] at order
    rw [left]
    exact order
  constructor
  · exact (w.order_perm _ urls).trans (p.order_perm file urls).symm
  · exact recorded'
  · intro stale soon
    have first := (@recorded p.now file _ urls _ (p.url_probes urls)
      (p.perm (p.probes urls).zipIdx)).1
    rw [recorded' (.inl stale) soon, Probing.order_probed stale, first]
    exact cached_eq_measured_iff distinct' Probing.quick_probes
  · intro fresh late still
    have left : p.left file urls = file := if_pos (by rw [fresh, late]; rfl)
    obtain ⟨cached, found⟩ := Option.isSome_iff_exists.mp fresh
    obtain ⟨cached', found'⟩ := Option.isSome_iff_exists.mp still
    rw [left, Probing.order_fresh found, Probing.order_fresh found', eq_of_fresh found,
      eq_of_fresh found']

end LinkP2p.Daemon.RelayProbe
