import LinkP2p.I18n.Lossy
import LinkP2p.Lib.UnitFile

/-!
# The systemd unit

The unit is rendered from the paths and options as they are; a few characters are refused.
What systemd starts is what it makes of the `ExecStart` line.
-/

namespace LinkP2p.Service

open LinkP2p.I18n (fromUtf8Lossy fromUtf8Lossy_utf8Encode)
open LinkP2p.Identity (Text utf8Encode)
open LinkP2p.Lib LinkP2p.Lib.CommandLine LinkP2p.Lib.UnitFile

/-! ## The options -/

/-- `InstallOpts`; a path is its bytes, and `target` is the source's `to`. -/
structure InstallOpts where
  role : Text
  target : Option Text
  identity : List UInt8
  serviceUser : Text

/-- What the service is to be started with. -/
def wantedArgv (exe : List UInt8) (opts : InstallOpts) : List (List UInt8) :=
  [exe, utf8Encode "tun".toList, utf8Encode "up".toList, utf8Encode "--foreground".toList,
    utf8Encode "--system".toList, utf8Encode "--role".toList, utf8Encode opts.role,
    utf8Encode "--identity".toList, opts.identity] ++
  match opts.target with
  | some target => [utf8Encode "--to".toList, utf8Encode target]
  | none => []

/-! ## Rendering -/

/-- The text of the lines. -/
def unlines (lines : List Text) : Text := lines.flatMap (· ++ ['\n'])

def unitHead : List Text :=
  [("# Installed by `link-p2p tun service install` — " ++
      "do not hand-edit; re-run install to change.").toList,
    "[Unit]".toList,
    "Description=link-p2p TUN mesh daemon".toList,
    "After=network-online.target".toList,
    "Wants=network-online.target".toList,
    "".toList,
    "[Service]".toList,
    "Type=simple".toList]

def unitTail : List Text :=
  ["RuntimeDirectory=link-p2p".toList,
    "AmbientCapabilities=CAP_NET_ADMIN".toList,
    "CapabilityBoundingSet=CAP_NET_ADMIN".toList,
    "NoNewPrivileges=true".toList,
    "Restart=on-failure".toList,
    "RestartSec=5".toList,
    "".toList,
    "[Install]".toList,
    "WantedBy=multi-user.target".toList]

/-- The lines from the user on. -/
def afterExec (user : Text) : Text := unlines (("User=".toList ++ user) :: unitTail)

def unitText (exec user : Text) : Text :=
  unlines unitHead ++ ("ExecStart=".toList ++ exec ++ '\n' :: afterExec user)

def refuses (path : Text) : Bool := '\n' ∈ path || '"' ∈ path

def execOf (exe identity : Text) (opts : InstallOpts) : Text :=
  exe ++ " tun up --foreground --system --role ".toList ++ opts.role ++
    " --identity ".toList ++ identity

def renderUnit (exe : List UInt8) (opts : InstallOpts) : Except Text Text :=
  let exe := fromUtf8Lossy exe
  if refuses exe then .error "invalid executable path for systemd unit".toList
  else
    let identity := fromUtf8Lossy opts.identity
    if refuses identity then .error "invalid identity path for systemd unit".toList
    else
      let exec := execOf exe identity opts
      match opts.target with
      | some target =>
          if refuses target then .error "invalid --to value for systemd unit".toList
          else .ok (unitText (exec ++ " --to ".toList ++ target) opts.serviceUser)
      | none => .ok (unitText exec opts.serviceUser)

/-! ## What systemd starts -/

def systemdArgv (manager : Manager) (unit : Text) : Option (List Text) :=
  (value "Service".toList "ExecStart".toList unit).bind (argv manager)

/-- Every systemd starts a rendered unit with the wanted arguments. -/
def UnitRebuilt (exe : List UInt8) (opts : InstallOpts) : Prop :=
  ∀ unit, renderUnit exe opts = .ok unit → ∀ manager,
    ∃ args, systemdArgv manager unit = some args ∧ args.map utf8Encode = wantedArgv exe opts

/-! ## The line -/

def argsOf (exe identity : Text) (opts : InstallOpts) : List Text :=
  [exe, "tun".toList, "up".toList, "--foreground".toList, "--system".toList, "--role".toList,
    opts.role, "--identity".toList, identity] ++
  match opts.target with
  | some target => ["--to".toList, target]
  | none => []

theorem argsOf_encoded {exe identity : Text} {opts : InstallOpts}
    (same : utf8Encode identity = opts.identity) :
    (argsOf exe identity opts).map utf8Encode = wantedArgv (utf8Encode exe) opts := by
  rw [argsOf, wantedArgv, ← same]
  cases opts.target with
  | none => rfl
  | some target => rfl

/-- The whole line is the words with blanks between them. -/
theorem execOf_unwords (exe identity : Text) (opts : InstallOpts) :
    (match opts.target with
      | some target => execOf exe identity opts ++ " --to ".toList ++ target
      | none => execOf exe identity opts) = unwords (argsOf exe identity opts) := by
  rw [execOf, argsOf]
  cases opts.target with
  | none =>
      simp only [List.append_nil, List.append_assoc, unwords, List.flatMap_cons, List.flatMap_nil]
      rfl
  | some target =>
      simp only [List.cons_append, List.nil_append, List.append_nil, List.append_assoc, unwords,
        List.flatMap_cons, List.flatMap_nil]
      rfl

/-- What `render_unit` refuses. -/
def UnitRefused (exe : List UInt8) (opts : InstallOpts) : Prop :=
  refuses (fromUtf8Lossy exe) = true ∨ refuses (fromUtf8Lossy opts.identity) = true ∨
    ∃ target, opts.target = some target ∧ refuses target = true

theorem renderUnit_ok {exe : List UInt8} {opts : InstallOpts} (kept : ¬ UnitRefused exe opts) :
    renderUnit exe opts =
      .ok (unitText (unwords (argsOf (fromUtf8Lossy exe) (fromUtf8Lossy opts.identity) opts))
        opts.serviceUser) := by
  obtain ⟨path, other⟩ := not_or.mp kept
  obtain ⟨key, target⟩ := not_or.mp other
  rw [← execOf_unwords, renderUnit, if_neg path]
  dsimp only
  rw [if_neg key]
  cases given : opts.target with
  | none => rfl
  | some t =>
      dsimp only
      rw [if_neg fun refused => target ⟨t, given, refused⟩]

theorem renderUnit_error {exe : List UInt8} {opts : InstallOpts} (refused : UnitRefused exe opts) :
    ∃ e, renderUnit exe opts = .error e := by
  rw [renderUnit]
  dsimp only
  split_ifs with path key
  · exact ⟨_, rfl⟩
  · exact ⟨_, rfl⟩
  · obtain ⟨target, given, special⟩ := (refused.resolve_left path).resolve_left key
    rw [given]
    exact ⟨_, if_pos special⟩

/-! ## The lines of the unit -/

/-- The user adds no other `ExecStart`. -/
def CalmUser (user : Text) : Prop :=
  values "Service".toList "ExecStart".toList true false (lines (afterExec user)) = []

instance (user : Text) : Decidable (CalmUser user) := inferInstanceAs (Decidable (_ = _))

theorem unitHead_lines : ∀ line ∈ unitHead, oneLine line = true := by
  decide +kernel

theorem unitTail_lines : ∀ line ∈ unitTail, oneLine line = true := by
  decide +kernel

set_option maxRecDepth 2000 in
theorem values_unitHead (later : List Text) :
    values "Service".toList "ExecStart".toList false false (unitHead ++ later) =
      values "Service".toList "ExecStart".toList true false later :=
  Eq.refl (values "Service".toList "ExecStart".toList true false later)

theorem values_user (user : Text) (later : List Text) :
    values "Service".toList "ExecStart".toList true false (("User=".toList ++ user) :: later) =
      values "Service".toList "ExecStart".toList true (goesOn user) later := rfl

theorem values_unitTail : ∀ continued,
    values "Service".toList "ExecStart".toList true continued (unitTail ++ [[]]) = [] := by
  decide +kernel

/-- A user in one line is calm. -/
theorem calmUser_of_line {user : Text} (inside : oneLine user = true) : CalmUser user := by
  have whole : ∀ line ∈ ("User=".toList ++ user) :: unitTail, oneLine line = true :=
    List.forall_mem_cons.mpr ⟨inside, unitTail_lines⟩
  have split := lines_flatMap whole []
  have last : lines [] = [[]] := rfl
  rw [List.append_nil, last, List.cons_append] at split
  rw [CalmUser, afterExec, unlines, split, values_user, values_unitTail]

theorem values_execStart (front : Text) (later : List Text) :
    values "Service".toList "ExecStart".toList true false
        (("ExecStart=".toList ++ front) :: later) =
      (if goesOn front then none else some front) ::
        values "Service".toList "ExecStart".toList true (goesOn front) later := rfl

theorem lines_unitText (exec user : Text) :
    ∃ others, lines (unitText exec user) =
        unitHead ++ (("ExecStart=".toList ++ exec.takeWhile fun c => !isLineEnd c) ::
          (others ++ lines (afterExec user))) ∧
      (exec.takeWhile (fun c => !isLineEnd c) = exec → others = []) := by
  obtain ⟨others, split, only⟩ := lines_eq ("ExecStart=".toList ++ exec)
  have first : ("ExecStart=".toList ++ exec).takeWhile (fun c => !isLineEnd c) =
      "ExecStart=".toList ++ exec.takeWhile fun c => !isLineEnd c := rfl
  rw [first] at split only
  refine ⟨others, ?_, fun whole => only (congrArg _ whole)⟩
  rw [unitText, unlines, lines_flatMap unitHead_lines, lines_append _ _ rfl, split]
  rfl

/-- The value is the line of the rendered command, as far as it goes. -/
theorem value_unitText {exec user front : Text}
    (found : value "Service".toList "ExecStart".toList (unitText exec user) = some front) :
    front = exec.takeWhile (fun c => !isLineEnd c) ∧ (front = exec → CalmUser user) := by
  obtain ⟨others, split, only⟩ := lines_unitText exec user
  rw [value, split, values_unitHead, values_execStart] at found
  split at found
  · rename_i _ shown alone
    cases found
    obtain ⟨first, later⟩ := List.cons.inj alone
    obtain ⟨calm, same⟩ := Option.ite_none_left_eq_some.mp first
    cases same
    refine ⟨rfl, fun whole => ?_⟩
    rw [only whole, List.nil_append, Bool.eq_false_iff.mpr calm] at later
    exact later
  · cases found

theorem value_calm {exec user : Text} (inside : oneLine exec = true)
    (plain : '\\' ∉ exec) (calm : CalmUser user) :
    value "Service".toList "ExecStart".toList (unitText exec user) = some exec := by
  have whole : exec.takeWhile (fun c => !isLineEnd c) = exec :=
    List.takeWhile_eq_self_iff.mpr (List.all_eq_true.mp inside)
  obtain ⟨others, split, only⟩ := lines_unitText exec user
  rw [value, split, values_unitHead, whole, values_execStart, goesOn_plain plain, only whole]
  have none_ : values "Service".toList "ExecStart".toList true false
      (lines (afterExec user)) = [] := calm
  rw [List.nil_append, none_]
  rfl

/-! ## What survives -/

/-- Nothing in the words is special to systemd, and the user adds no command. -/
structure Survives (exe identity : Text) (opts : InstallOpts) : Prop where
  inert : ∀ w ∈ argsOf exe identity opts, Inert w
  solid : ∀ w ∈ argsOf exe identity opts, '\x00' ∉ w
  bare : Bare exe
  shown : exe.any isControl = false
  user : CalmUser opts.serviceUser

instance (exe identity : Text) (opts : InstallOpts) : Decidable (Survives exe identity opts) :=
  decidable_of_iff ((∀ w ∈ argsOf exe identity opts, Inert w ∧ '\x00' ∉ w) ∧ Bare exe ∧
      exe.any isControl = false ∧ CalmUser opts.serviceUser)
    ⟨fun ⟨words, bare, shown, user⟩ =>
        ⟨fun w member => (words w member).1, fun w member => (words w member).2, bare, shown, user⟩,
      fun survives => ⟨fun w member => ⟨survives.inert w member, survives.solid w member⟩,
        survives.bare, survives.shown, survives.user⟩⟩

theorem Survives.line {exe identity : Text} {opts : InstallOpts}
    (survives : Survives exe identity opts) {c : Char}
    (member : c ∈ unwords (argsOf exe identity opts)) : isLineEnd c = false ∧ c ≠ '\\' := by
  rcases mem_unwords member with rfl | ⟨w, inside, here⟩
  · exact ⟨rfl, by decide⟩
  · obtain ⟨solid, shown, -⟩ := (survives.inert w inside).plain.ordinary c here
    refine ⟨?_, solid⟩
    simp only [isBlank, isLineEnd, Bool.or_eq_false_iff, decide_eq_false_iff_not] at shown ⊢
    refine ⟨⟨shown.1.2, shown.2⟩, ?_⟩
    rintro rfl
    exact survives.solid w inside here

/-- The command is started as it was meant whatever the machine. -/
theorem Survives.argv {exe identity : Text} {opts : InstallOpts}
    (survives : Survives exe identity opts) (manager : Manager) :
    systemdArgv manager (unitText (unwords (argsOf exe identity opts)) opts.serviceUser) =
      some (argsOf exe identity opts) := by
  rw [systemdArgv, value_calm (oneLine_iff.mpr fun c member => (survives.line member).1)
    (fun member => (survives.line member).2 rfl) survives.user]
  exact argv_unwords manager survives.inert survives.bare survives.shown

/-- What is started as it was meant where no variable and no specifier has a value. -/
theorem survives_of_argv {exe identity : Text} {opts : InstallOpts}
    (found : systemdArgv strict (unitText (unwords (argsOf exe identity opts)) opts.serviceUser) =
      some (argsOf exe identity opts)) : Survives exe identity opts := by
  obtain ⟨front, read, split⟩ := Option.bind_eq_some_iff.mp found
  obtain ⟨line, calm⟩ := value_unitText read
  obtain ⟨bound, tight⟩ := argv_weight split
  have weight_eq : (unwords (argsOf exe identity opts)).length + 1 =
      weight (argsOf exe identity opts) := weight_unwords _ _
  have start : front <+: unwords (argsOf exe identity opts) :=
    line ▸ List.takeWhile_prefix _
  have whole := start.eq_of_length (Nat.le_antisymm start.length_le (by omega))
  obtain ⟨inert, bare, shown⟩ := tight (by rw [whole, weight_eq])
  refine ⟨inert, fun w member zero => ?_, bare, shown, calm whole⟩
  have inside := mem_unwords_of_mem member zero
  rw [← whole, line] at inside
  cases List.mem_takeWhile_imp inside

theorem utf8Encode_injective : Function.Injective utf8Encode :=
  Function.LeftInverse.injective fromUtf8Lossy_utf8Encode

theorem wantedArgv_get {args : List Text} {exe : List UInt8} {opts : InstallOpts}
    (same : args.map utf8Encode = wantedArgv exe opts) (k : Nat) :
    (args[k]?).map utf8Encode = (wantedArgv exe opts)[k]? := by
  rw [← same, List.getElem?_map]

theorem unitText_argv_iff (exe : List UInt8) (opts : InstallOpts) :
    (∀ manager, ∃ args, systemdArgv manager
        (unitText (unwords (argsOf (fromUtf8Lossy exe) (fromUtf8Lossy opts.identity) opts))
          opts.serviceUser) = some args ∧ args.map utf8Encode = wantedArgv exe opts) ↔
      ∃ e i, utf8Encode e = exe ∧ utf8Encode i = opts.identity ∧ Survives e i opts := by
  constructor
  · intro rebuilt
    obtain ⟨args, found, same⟩ := rebuilt strict
    obtain ⟨e, -, path⟩ := Option.map_eq_some_iff.mp (wantedArgv_get same 0)
    obtain ⟨i, -, key⟩ := Option.map_eq_some_iff.mp (wantedArgv_get same 8)
    refine ⟨e, i, path, key, survives_of_argv ?_⟩
    rw [← path, ← key, fromUtf8Lossy_utf8Encode, fromUtf8Lossy_utf8Encode] at found
    rw [← path, ← argsOf_encoded key] at same
    rw [found, List.map_injective_iff.mpr utf8Encode_injective same]
  · rintro ⟨e, i, rfl, key, survives⟩ manager
    rw [← key, fromUtf8Lossy_utf8Encode, fromUtf8Lossy_utf8Encode]
    exact ⟨argsOf e i opts, survives.argv manager, argsOf_encoded key⟩

/-- What holds of the text, if there is one. -/
theorem forall_ok_iff {rendered : Except Text Text} {text : Text} {refused good : Prop}
    {property : Text → Prop} (error : refused → ∃ e, rendered = .error e)
    (ok : ¬ refused → rendered = .ok text) (iff_ : property text ↔ good) :
    (∀ t, rendered = .ok t → property t) ↔ refused ∨ good := by
  by_cases kept : refused
  · obtain ⟨e, failed⟩ := error kept
    refine iff_of_true (fun t given => ?_) (.inl kept)
    rw [failed] at given
    cases given
  · rw [ok kept, or_iff_right kept, ← iff_]
    constructor
    · intro all
      exact all text rfl
    · rintro here _ ⟨⟩
      exact here

/-- The unit starts what was meant exactly when nothing in the words is special. -/
theorem unit_rebuilt_iff (exe : List UInt8) (opts : InstallOpts) :
    UnitRebuilt exe opts ↔ UnitRefused exe opts ∨
      ∃ e i, utf8Encode e = exe ∧ utf8Encode i = opts.identity ∧ Survives e i opts :=
  forall_ok_iff renderUnit_error renderUnit_ok (unitText_argv_iff exe opts)

example : Survives "/usr/local/bin/link-p2p".toList "/etc/link-p2p/identity.key".toList
    ⟨"hub".toList, none, utf8Encode "/etc/link-p2p/identity.key".toList, "link-p2p".toList⟩ := by
  decide +kernel

end LinkP2p.Service
