import LinkP2p.Identity.KeyFile
import LinkP2p.Tun.Packet
import Mathlib.Data.Finset.Insert

/-!
# The allow list

`LINK_P2P_ALLOW` is read twice: by the command that runs a plane in the foreground,
which gives way to `--allow`, and by the worker of a background daemon. No list at
all leaves the plane open to everybody.
-/

namespace LinkP2p.Daemon

open LinkP2p.Identity (Text trim)
open LinkP2p.Tun (EndpointId)

/-- What `std::env::var` returns. -/
inductive EnvVar where
  | notPresent
  | notUnicode
  | ok (value : Text)
  deriving DecidableEq, Repr

inductive AllowError where
  /-- '{0}' is not a valid EndpointId in --allow, with exit code `USAGE` -/
  | notValid (token : Text)
  /-- bad LINK_P2P_ALLOW id {0} -/
  | badId (token : Text)
  deriving DecidableEq, Repr

/-! ## In the foreground -/

/-- `merge_allow_list`: CLI `--allow` wins. -/
def mergeAllowList (cli : List Text) (env : EnvVar) : List Text :=
  if cli ≠ [] then cli
  else
    match env with
    | .ok s => if trim s ≠ [] then ((s.splitOn ',').map trim).filter (· ≠ []) else []
    | .notPresent | .notUnicode => []

/-- The loop of `parse_tun_allow`. -/
def insertAllowed (parse : Text → Option EndpointId) :
    Finset EndpointId → List Text → Except AllowError (Finset EndpointId)
  | set, [] => .ok set
  | set, s :: rest =>
      match parse s with
      | none => .error (.notValid s)
      | some id => insertAllowed parse (insert id set) rest

/-- `parse_tun_allow`: `none` means open. -/
def parseTunAllow (parse : Text → Option EndpointId) (cli : List Text) (env : EnvVar) :
    Except AllowError (Option (Finset EndpointId)) :=
  let allow := mergeAllowList cli env
  if allow = [] then .ok none else (insertAllowed parse ∅ allow).map some

/-! ## In the worker -/

/-- The loop of `parse_allow_env`. -/
def insertParts (parse : Text → Option EndpointId) :
    Finset EndpointId → List Text → Except AllowError (Finset EndpointId)
  | set, [] => .ok set
  | set, part :: rest =>
      let part := trim part
      if part = [] then insertParts parse set rest
      else
        match parse part with
        | none => .error (.badId part)
        | some id => insertParts parse (insert id set) rest

def parseAllowEnv (parse : Text → Option EndpointId) (env : EnvVar) :
    Except AllowError (Option (Finset EndpointId)) :=
  match env with
  | .ok raw =>
      if trim raw ≠ [] then (insertParts parse ∅ (raw.splitOn ',')).map some else .ok none
  | .notPresent | .notUnicode => .ok none

/-! ## The two readers -/

/-- Both an error, both open or both the same set. -/
def SameList (fst snd : Except AllowError (Option (Finset EndpointId))) : Prop :=
  fst.toOption = snd.toOption

instance (fst snd : Except AllowError (Option (Finset EndpointId))) :
    Decidable (SameList fst snd) :=
  inferInstanceAs (Decidable (fst.toOption = snd.toOption))

variable {parse : Text → Option EndpointId}

theorem toOption_map {α β : Type} (f : α → β) (result : Except AllowError α) :
    (result.map f).toOption = result.toOption.map f := by
  cases result <;> rfl

/-- The worker skips the blank parts that the command drops before its loop. -/
theorem insertParts_eq (set : Finset EndpointId) (parts : List Text) :
    (insertParts parse set parts).toOption =
      (insertAllowed parse set ((parts.map trim).filter (· ≠ []))).toOption := by
  induction parts generalizing set with
  | nil => rfl
  | cons part rest ih =>
      rw [List.map_cons, insertParts]
      by_cases blank : trim part = []
      · rw [if_pos blank, List.filter_cons_of_neg (by simp [blank]), ih]
      · rw [if_neg blank, List.filter_cons_of_pos (by simp [blank]), insertAllowed]
        cases parse (trim part) with
        | none => rfl
        | some id => exact ih _

/-- Not blank, but nothing between the commas. -/
def SeparatorsOnly (env : EnvVar) : Prop :=
  ∃ value, env = .ok value ∧ trim value ≠ [] ∧ ∀ part ∈ value.splitOn ',', trim part = []

/-- Every part of the text is blank. -/
theorem filter_parts_iff (value : Text) :
    ((value.splitOn ',').map trim).filter (· ≠ []) = [] ↔
      ∀ part ∈ value.splitOn ',', trim part = [] := by
  simp [List.filter_eq_nil_iff]

/-- What the command finds open is open for the worker too. -/
theorem parseAllowEnv_open {env : EnvVar} (isOpen : mergeAllowList [] env = [])
    (value : ¬ SeparatorsOnly env) : parseAllowEnv parse env = .ok none := by
  cases env with
  | notPresent => rfl
  | notUnicode => rfl
  | ok text =>
      rw [parseAllowEnv]
      by_cases blank : trim text = []
      · rw [if_neg (not_not.mpr blank)]
      · unfold mergeAllowList at isOpen
        rw [if_neg (not_not.mpr rfl)] at isOpen
        dsimp only at isOpen
        rw [if_pos blank] at isOpen
        exact absurd ⟨text, rfl, blank, (filter_parts_iff text).mp isOpen⟩ value

/-- **Allow list.** Without `--allow` the two readers agree on every value but those
that are made of separators: the command then leaves the plane open, the worker denies
everybody. -/
theorem allow_readers_agree_iff (parse : Text → Option EndpointId) (env : EnvVar) :
    SameList (parseTunAllow parse [] env) (parseAllowEnv parse env) ↔ ¬ SeparatorsOnly env := by
  cases env with
  | notPresent => exact iff_of_true rfl nofun
  | notUnicode => exact iff_of_true rfl nofun
  | ok value =>
      have merged : mergeAllowList [] (.ok value) =
          if trim value ≠ [] then ((value.splitOn ',').map trim).filter (· ≠ []) else [] := rfl
      unfold SameList parseTunAllow parseAllowEnv
      rw [merged]
      by_cases blank : trim value = []
      · rw [if_neg (not_not.mpr blank)]
        dsimp only
        rw [if_neg (not_not.mpr blank)]
        refine iff_of_true rfl ?_
        rintro ⟨_, same, nonblank, -⟩
        cases same
        exact nonblank blank
      · rw [if_pos blank]
        dsimp only
        rw [if_pos blank, toOption_map, insertParts_eq]
        by_cases none : ((value.splitOn ',').map trim).filter (· ≠ []) = []
        · rw [none, if_pos rfl]
          exact iff_of_false nofun
            (not_not.mpr ⟨value, rfl, blank, (filter_parts_iff value).mp none⟩)
        · rw [if_neg none, toOption_map]
          refine iff_of_true rfl ?_
          rintro ⟨_, same, -, blanks⟩
          cases same
          exact none ((filter_parts_iff value).mpr blanks)

/-- A lone comma opens the plane in the foreground and closes it in the background. -/
theorem lone_comma_disagrees :
    ¬ SameList (parseTunAllow (fun _ => none) [] (.ok [',']))
      (parseAllowEnv (fun _ => none) (.ok [','])) := by
  decide

end LinkP2p.Daemon
