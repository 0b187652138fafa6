import LinkP2p.Lib.PropertyList
import LinkP2p.Service.Unit

/-!
# The launchd property list

The same options as a property list. The paths and the target are escaped, and the role
is not. Nothing is refused that XML has no character for.
-/

namespace LinkP2p.Service

open LinkP2p.I18n (fromUtf8Lossy fromUtf8Lossy_utf8Encode)
open LinkP2p.Identity (Text utf8Encode)
open LinkP2p.Lib.CommandLine (isBlank)
open LinkP2p.Lib.PropertyList

/-! ## Rendering -/

def launchdLabel : Text := "com.link-p2p.tun".toList

def macosLogDir : Text := "/var/log/link-p2p".toList

def replace (c : Char) (by_ s : Text) : Text := s.flatMap fun d => if d = c then by_ else [d]

def xmlEscape (s : Text) : Text :=
  replace '>' "&gt;".toList (replace '<' "&lt;".toList (replace '&' "&amp;".toList s))

def plistHead : Text :=
  unlines
    ["<?xml version=\"1.0\" encoding=\"UTF-8\"?>".toList,
      ("<!DOCTYPE plist PUBLIC \"-//Apple//DTD PLIST 1.0//EN\" ".toList ++
        "\"http://www.apple.com/DTDs/PropertyList-1.0.dtd\">".toList),
      "<!-- Installed by `link-p2p tun service install` — re-run install to change. -->".toList,
      "<plist version=\"1.0\">".toList,
      "<dict>".toList,
      "    <key>Label</key>".toList,
      "    <string>".toList ++ launchdLabel ++ "</string>".toList] ++
  "    ".toList

def plistTail : Text :=
  "\n    </array>\n".toList ++
  unlines
    ["    <key>RunAtLoad</key>".toList,
      "    <true/>".toList,
      "    <key>KeepAlive</key>".toList,
      "    <dict>".toList,
      "        <key>SuccessfulExit</key>".toList,
      "        <false/>".toList,
      "    </dict>".toList,
      "    <key>StandardOutPath</key>".toList,
      "    <string>".toList ++ macosLogDir ++ "/tun.log</string>".toList,
      "    <key>StandardErrorPath</key>".toList,
      "    <string>".toList ++ macosLogDir ++ "/tun.err.log</string>".toList,
      "</dict>".toList,
      "</plist>".toList]

def plistItem (arg : Text) : Text := "\n        <string>".toList ++ arg ++ "</string>".toList

def plistText (args : List Text) : Text :=
  plistHead ++ "<key>ProgramArguments</key>\n    <array>".toList ++ args.flatMap plistItem ++
    plistTail

def plistArgs (exe identity : Text) (opts : InstallOpts) : List Text :=
  [exe, "tun".toList, "up".toList, "--foreground".toList, "--system".toList, "--role".toList,
    opts.role, "--identity".toList, identity]

def renderPlist (exe : List UInt8) (opts : InstallOpts) : Except Text Text :=
  let exe := xmlEscape (fromUtf8Lossy exe)
  if '\n' ∈ exe then .error "invalid executable path for LaunchDaemon plist".toList
  else
    let identity := xmlEscape (fromUtf8Lossy opts.identity)
    if '\n' ∈ identity then .error "invalid identity path for LaunchDaemon plist".toList
    else
      let args := plistArgs exe identity opts
      match opts.target with
      | some target =>
          if '\n' ∈ target then .error "invalid --to value for LaunchDaemon plist".toList
          else .ok (plistText (args ++ ["--to".toList, xmlEscape target]))
      | none => .ok (plistText args)

/-! ## What launchd starts -/

def launchdArgv (plist : Text) : Option (List Text) :=
  (document plist).bind (array "ProgramArguments".toList)

/-- A rendered property list starts the wanted arguments. -/
def PlistRebuilt (exe : List UInt8) (opts : InstallOpts) : Prop :=
  ∀ plist, renderPlist exe opts = .ok plist →
    ∃ args, launchdArgv plist = some args ∧ args.map utf8Encode = wantedArgv exe opts

/-! ## Escaping -/

def escapeChar (c : Char) : Text :=
  if c = '&' then "&amp;".toList
  else if c = '<' then "&lt;".toList
  else if c = '>' then "&gt;".toList
  else [c]

theorem replace_append (c : Char) (by_ s t : Text) :
    replace c by_ (s ++ t) = replace c by_ s ++ replace c by_ t := List.flatMap_append

theorem replace_other {c d : Char} (other : d ≠ c) (by_ : Text) : replace c by_ [d] = [d] := by
  rw [replace, List.flatMap_singleton, if_neg other]

/-- The replacements do not meet each other. -/
theorem xmlEscape_eq (s : Text) : xmlEscape s = s.flatMap escapeChar := by
  induction s with
  | nil => rfl
  | cons c s ih =>
      have split : xmlEscape (c :: s) = xmlEscape [c] ++ xmlEscape s := by
        rw [← List.singleton_append, xmlEscape, replace_append, replace_append, replace_append]
        rfl
      have one : xmlEscape [c] = escapeChar c := by
        rw [xmlEscape, escapeChar]
        by_cases amp : c = '&'
        · subst amp
          rfl
        · rw [replace_other amp, if_neg amp]
          by_cases lt : c = '<'
          · subst lt
            rfl
          · rw [replace_other lt, if_neg lt, replace, List.flatMap_singleton]
      rw [split, one, ih, List.flatMap_cons]

theorem escapeChar_free {c : Char} (other : c ≠ '\r') : '\r' ∉ escapeChar c := by
  rw [escapeChar]
  split_ifs
  · decide
  · decide
  · decide
  · exact fun same => other (List.mem_singleton.mp same).symm

theorem escapeChar_xml (c : Char) : (escapeChar c).all isXmlChar = isXmlChar c := by
  rw [escapeChar]
  split_ifs with amp lt gt
  · rw [amp]
    decide
  · rw [lt]
    decide
  · rw [gt]
    decide
  · exact Bool.and_true _

theorem xmlEscape_all (s : Text) : (xmlEscape s).all isXmlChar = s.all isXmlChar := by
  rw [xmlEscape_eq]
  induction s with
  | nil => rfl
  | cons c s ih =>
      rw [List.flatMap_cons, List.all_append, escapeChar_xml, ih, List.all_cons]

theorem xmlEscape_cons (c : Char) (s : Text) :
    xmlEscape (c :: s) = escapeChar c ++ xmlEscape s := by
  rw [xmlEscape_eq, List.flatMap_cons, ← xmlEscape_eq]

/-- Escaping puts no line feed behind a carriage return. -/
theorem newline_first_of_xmlEscape {s later : Text} (first : xmlEscape s = '\n' :: later) :
    ∃ rest, s = '\n' :: rest := by
  cases s with
  | nil => cases first
  | cons c s =>
      rw [xmlEscape_cons, escapeChar] at first
      split_ifs at first
      · cases first
      · cases first
      · cases first
      · exact ⟨s, by rw [(List.cons.inj first).1]⟩

theorem lineEnds_xmlEscape (s : Text) : lineEnds (xmlEscape s) = xmlEscape (lineEnds s) := by
  induction s using lineEnds.induct with
  | case1 rest ih =>
      have escaped : xmlEscape ('\r' :: '\n' :: rest) = '\r' :: '\n' :: xmlEscape rest := by
        rw [xmlEscape_cons, xmlEscape_cons]
        rfl
      rw [escaped, lineEnds, lineEnds, xmlEscape_cons, ih]
      rfl
  | case2 rest none_ ih =>
      have escaped : xmlEscape ('\r' :: rest) = '\r' :: xmlEscape rest := xmlEscape_cons _ _
      have next : ∀ later, xmlEscape rest ≠ '\n' :: later := fun later first =>
        (newline_first_of_xmlEscape first).elim none_
      rw [escaped, lineEnds_return next, lineEnds_return none_, xmlEscape_cons, ih]
      rfl
  | case3 c rest _ other ih =>
      rw [xmlEscape_cons, lineEnds_append (escapeChar_free other), lineEnds_cons other,
        xmlEscape_cons, ih]
  | case4 => rfl

theorem content_escapeChar {c : Char} {rest : Text} (inside : ¬ "]]>".toList <+: c :: rest) :
    content (escapeChar c ++ rest) = (content rest).map fun (w, after) => (c :: w, after) := by
  rw [escapeChar]
  split_ifs with amp lt gt
  · rw [amp]
    exact content_reference rfl
  · rw [lt]
    exact content_reference rfl
  · rw [gt]
    exact content_reference rfl
  · exact content_char amp lt inside

theorem newline_xmlEscape_iff {s : Text} : '\n' ∈ xmlEscape s ↔ '\n' ∈ s := by
  rw [xmlEscape_eq, List.mem_flatMap]
  constructor
  · rintro ⟨c, member, inside⟩
    rw [escapeChar] at inside
    split_ifs at inside
    · exact absurd inside (by decide)
    · exact absurd inside (by decide)
    · exact absurd inside (by decide)
    · rw [List.mem_singleton.mp inside]
      exact member
  · exact fun member => ⟨'\n', member, by decide⟩

theorem greater_xmlEscape (s : Text) : '>' ∉ xmlEscape s := by
  rw [xmlEscape_eq, List.mem_flatMap]
  rintro ⟨c, -, inside⟩
  rw [escapeChar] at inside
  split_ifs at inside with _ _ other
  · exact absurd inside (by decide)
  · exact absurd inside (by decide)
  · exact absurd inside (by decide)
  · exact other (List.mem_singleton.mp inside).symm

/-- Text that is read back as the string that it stands for. -/
def Shown (shown w : Text) : Prop :=
  ∀ after, content (shown ++ (closing ++ after)) = some (w, after)

theorem shown_plain {w : Text} (plain : Plain w) : Shown w w :=
  fun after => content_plain w after plain

theorem shown_xmlEscape (s : Text) : Shown (xmlEscape s) s := by
  intro after
  induction s with
  | nil => exact content_close after
  | cons c s ih =>
      have inside : ¬ "]]>".toList <+: c :: (xmlEscape s ++ (closing ++ after)) := by
        intro begins
        have front : "]]>".toList <+: c :: xmlEscape s := section_end_of_prefix begins
        obtain ⟨-, later⟩ := List.cons_prefix_cons.mp front
        exact greater_xmlEscape s (later.subset (by decide))
      rw [xmlEscape_cons, List.append_assoc, content_escapeChar inside, ih]
      rfl

/-! ## The strings of the list -/

/-- The strings that stand for the arguments, as they are written. -/
def shownArgs (exe identity : Text) (opts : InstallOpts) : List Text :=
  plistArgs (xmlEscape exe) (xmlEscape identity) opts ++
  match opts.target with
  | some target => ["--to".toList, xmlEscape target]
  | none => []

/-- What `render_plist` refuses. -/
def PlistRefused (exe : List UInt8) (opts : InstallOpts) : Prop :=
  '\n' ∈ fromUtf8Lossy exe ∨ '\n' ∈ fromUtf8Lossy opts.identity ∨
    ∃ target, opts.target = some target ∧ '\n' ∈ target

theorem renderPlist_ok {exe : List UInt8} {opts : InstallOpts} (kept : ¬ PlistRefused exe opts) :
    renderPlist exe opts =
      .ok (plistText (shownArgs (fromUtf8Lossy exe) (fromUtf8Lossy opts.identity) opts)) := by
  obtain ⟨path, other⟩ := not_or.mp kept
  obtain ⟨key, target⟩ := not_or.mp other
  rw [renderPlist, if_neg (mt newline_xmlEscape_iff.mp path)]
  dsimp only
  rw [if_neg (mt newline_xmlEscape_iff.mp key), shownArgs]
  cases given : opts.target with
  | none => rfl
  | some t =>
      dsimp only
      rw [if_neg fun newline => target ⟨t, given, newline⟩]

theorem renderPlist_error {exe : List UInt8} {opts : InstallOpts}
    (refused : PlistRefused exe opts) : ∃ e, renderPlist exe opts = .error e := by
  rw [renderPlist]
  dsimp only
  split_ifs with path key
  · exact ⟨_, rfl⟩
  · exact ⟨_, rfl⟩
  · have later := refused.resolve_left (mt newline_xmlEscape_iff.mpr path)
    obtain ⟨target, given, newline⟩ := later.resolve_left (mt newline_xmlEscape_iff.mpr key)
    rw [given]
    exact ⟨_, if_pos newline⟩

theorem head_first :
    (plistHead ++ ("<key>".toList ++ "ProgramArguments".toList ++ "</key>".toList)).dropInfix?
      ("<key>".toList ++ "ProgramArguments".toList ++ "</key>".toList) = some (plistHead, []) := by
  decide +kernel

theorem blank_indent : ∀ c ∈ "\n    ".toList, isBlank c = true :=
  List.all_eq_true.mp rfl

theorem plistItem_append (arg more : Text) : plistItem arg ++ more =
    "\n        ".toList ++ ("<string>".toList ++ (arg ++ (closing ++ more))) := by
  have whole : plistItem arg = "\n        ".toList ++ "<string>".toList ++ arg ++ closing := rfl
  rw [whole]
  simp only [List.append_assoc]

/-- Only the line ends of the arguments change. -/
theorem lineEnds_items (args : List Text) :
    lineEnds (args.flatMap plistItem ++ plistTail) =
      (args.map lineEnds).flatMap plistItem ++ plistTail := by
  induction args with
  | nil => exact lineEnds_eq_iff.mpr (by decide +kernel)
  | cons arg args ih =>
      have tag : ∀ more, lineEnds (arg ++ (closing ++ more)) =
          lineEnds arg ++ (closing ++ lineEnds more) := by
        intro more
        have free : '\r' ∉ closing := by decide
        rw [← lineEnds_append free]
        exact lineEnds_before (by decide) arg _
      rw [List.flatMap_cons, List.append_assoc, plistItem_append,
        lineEnds_append (by decide), lineEnds_append (by decide), tag, ih, List.map_cons,
        List.flatMap_cons, List.append_assoc, plistItem_append]

theorem all_items (args : List Text) :
    (args.flatMap plistItem ++ plistTail).all isXmlChar =
      args.all fun arg => arg.all isXmlChar := by
  induction args with
  | nil =>
      rw [List.flatMap_nil, List.nil_append, List.all_nil]
      decide +kernel
  | cons arg args ih =>
      have blanks : "\n        ".toList.all isXmlChar = true := rfl
      have opened : "<string>".toList.all isXmlChar = true := rfl
      have closed : closing.all isXmlChar = true := rfl
      rw [List.flatMap_cons, List.append_assoc, plistItem_append]
      simp only [List.all_append, blanks, opened, closed, Bool.true_and, List.all_cons]
      rw [← List.all_append, ih]

theorem plistText_eq (args : List Text) : plistText args =
    plistHead ++ ("<key>".toList ++ "ProgramArguments".toList ++ "</key>".toList) ++
      ("\n    ".toList ++ ("<array>".toList ++ (args.flatMap plistItem ++ plistTail))) := by
  have opened : "<key>ProgramArguments</key>\n    <array>".toList =
      "<key>".toList ++ "ProgramArguments".toList ++ "</key>".toList ++
        ("\n    ".toList ++ "<array>".toList) := rfl
  rw [plistText, opened]
  simp only [List.append_assoc]

theorem document_plistText (args : List Text) :
    document (plistText args) =
      if args.all (fun arg => arg.all isXmlChar) then some (plistText (args.map lineEnds))
      else none := by
  have head : plistHead.all isXmlChar = true ∧ '\r' ∉ plistHead := by decide +kernel
  have key : ("<key>".toList ++ "ProgramArguments".toList ++ "</key>".toList).all isXmlChar =
      true := rfl
  have opened : "\n    ".toList.all isXmlChar = true ∧ "<array>".toList.all isXmlChar = true :=
    ⟨rfl, rfl⟩
  have whole : (plistText args).all isXmlChar = args.all fun arg => arg.all isXmlChar := by
    rw [plistText_eq, List.all_append, List.all_append, head.1, key, List.all_append, opened.1,
      List.all_append, opened.2, all_items]
    rfl
  rw [document, whole, plistText_eq, plistText_eq, List.append_assoc, lineEnds_append head.2,
    lineEnds_append (by decide), lineEnds_append (by decide), lineEnds_append (by decide),
    lineEnds_items]
  simp only [List.append_assoc]

theorem launchdArgv_plistText (args : List Text) :
    launchdArgv (plistText args) =
      if args.all (fun arg => arg.all isXmlChar) then
        strings ((args.map lineEnds).flatMap plistItem ++ plistTail)
      else none := by
  rw [launchdArgv, document_plistText]
  split_ifs
  · rw [Option.bind_some, plistText_eq]
    exact array_first head_first blank_indent _
  · rfl

theorem strings_item (arg more : Text) :
    strings (plistItem arg ++ more) =
      (content (arg ++ (closing ++ more))).bind fun (w, after) => (strings after).map (w :: ·) := by
  have blank : ∀ c ∈ "\n        ".toList, isBlank c = true := List.all_eq_true.mp rfl
  rw [plistItem_append]
  exact strings_string blank (arg ++ (closing ++ more))

theorem strings_items {args ws : List Text} (shown : List.Forall₂ Shown args ws) (more : Text) :
    strings (args.flatMap plistItem ++ more) = (strings more).map (ws ++ ·) := by
  induction shown with
  | nil => exact Option.map_id'.symm
  | cons first _ ih =>
      rw [List.flatMap_cons, List.append_assoc, strings_item, first, Option.bind_some]
      dsimp only
      rw [ih, Option.map_map]
      rfl

theorem strings_plistTail : strings plistTail = some [] :=
  strings_end blank_indent _

/-! ## What is started -/

/-- The role is written as it is, and the rest of the list follows it. -/
theorem shownArgs_role (exe identity : Text) (opts : InstallOpts) :
    ∃ later, shownArgs exe identity opts = [xmlEscape exe, "tun".toList, "up".toList,
        "--foreground".toList, "--system".toList, "--role".toList] ++ opts.role :: later ∧
      ∀ arg ∈ later, '>' ∉ arg := by
  rw [shownArgs, plistArgs]
  cases opts.target with
  | none =>
      refine ⟨["--identity".toList, xmlEscape identity], rfl, ?_⟩
      exact List.forall_mem_cons.mpr ⟨by decide,
        List.forall_mem_singleton.mpr (greater_xmlEscape identity)⟩
  | some target =>
      refine ⟨["--identity".toList, xmlEscape identity, "--to".toList, xmlEscape target], rfl, ?_⟩
      exact List.forall_mem_cons.mpr ⟨by decide, List.forall_mem_cons.mpr
        ⟨greater_xmlEscape identity, List.forall_mem_cons.mpr
          ⟨by decide, List.forall_mem_singleton.mpr (greater_xmlEscape target)⟩⟩⟩

/-- The options as they are read back. -/
def InstallOpts.readBack (opts : InstallOpts) : InstallOpts :=
  { opts with role := lineEnds opts.role, target := opts.target.map lineEnds }

theorem lineEnds_of_free {text : Text} (free : '\r' ∉ text) : lineEnds text = text :=
  lineEnds_eq_iff.mpr free

theorem map_lineEnds_iff {args : List Text} :
    args.map lineEnds = args ↔ ∀ w ∈ args, '\r' ∉ w :=
  calc args.map lineEnds = args ↔ args.map lineEnds = args.map id := by rw [List.map_id]
    _ ↔ ∀ w ∈ args, lineEnds w = id w := List.map_inj_left
    _ ↔ ∀ w ∈ args, '\r' ∉ w := forall₂_congr fun _ _ => lineEnds_eq_iff

theorem plistArgs_lineEnds (exe identity : Text) (opts : InstallOpts) :
    (plistArgs exe identity opts).map lineEnds =
      plistArgs (lineEnds exe) (lineEnds identity) opts.readBack := by
  rw [plistArgs, plistArgs, InstallOpts.readBack]
  simp (disch := decide) only [List.map_cons, List.map_nil, lineEnds_of_free]

theorem shownArgs_lineEnds (exe identity : Text) (opts : InstallOpts) :
    (shownArgs exe identity opts).map lineEnds =
      shownArgs (lineEnds exe) (lineEnds identity) opts.readBack := by
  rw [shownArgs, shownArgs, List.map_append, plistArgs_lineEnds, lineEnds_xmlEscape,
    lineEnds_xmlEscape]
  cases given : opts.target with
  | none =>
      rw [InstallOpts.readBack, given]
      rfl
  | some target =>
      simp (disch := decide) only [InstallOpts.readBack, given, Option.map_some, List.map_cons,
        List.map_nil, lineEnds_xmlEscape, lineEnds_of_free]

theorem argsOf_lineEnds (exe identity : Text) (opts : InstallOpts) :
    (argsOf exe identity opts).map lineEnds =
      argsOf (lineEnds exe) (lineEnds identity) opts.readBack := by
  have head := plistArgs_lineEnds exe identity opts
  rw [plistArgs, plistArgs] at head
  rw [argsOf, argsOf, List.map_append, head]
  cases given : opts.target with
  | none =>
      rw [InstallOpts.readBack, given]
      rfl
  | some target =>
      simp (disch := decide) only [InstallOpts.readBack, given, Option.map_some, List.map_cons,
        List.map_nil, lineEnds_of_free]

theorem shownArgs_all (exe identity : Text) (opts : InstallOpts) :
    (shownArgs exe identity opts).all (fun arg => arg.all isXmlChar) =
      (argsOf exe identity opts).all fun arg => arg.all isXmlChar := by
  rw [shownArgs, argsOf, plistArgs]
  cases opts.target with
  | none => simp only [List.all_append, List.all_cons, xmlEscape_all]
  | some target => simp only [List.all_append, List.all_cons, xmlEscape_all]

/-- What stands before the role is read back. -/
theorem front_shown (exe : Text) :
    List.Forall₂ Shown
      [xmlEscape exe, "tun".toList, "up".toList, "--foreground".toList, "--system".toList,
        "--role".toList]
      [exe, "tun".toList, "up".toList, "--foreground".toList, "--system".toList,
        "--role".toList] := by
  refine .cons (shown_xmlEscape exe) ?_
  refine .cons (shown_plain (by decide +kernel)) (.cons (shown_plain (by decide +kernel)) ?_)
  refine .cons (shown_plain (by decide +kernel)) (.cons (shown_plain (by decide +kernel)) ?_)
  exact .cons (shown_plain (by decide +kernel)) .nil

theorem shownArgs_shown {exe identity : Text} {opts : InstallOpts} (plain : Plain opts.role) :
    List.Forall₂ Shown (shownArgs exe identity opts) (argsOf exe identity opts) := by
  have head : List.Forall₂ Shown (plistArgs (xmlEscape exe) (xmlEscape identity) opts)
      (plistArgs exe identity opts) := by
    refine List.rel_append (front_shown exe) (.cons (shown_plain plain) ?_)
    exact .cons (shown_plain (by decide +kernel)) (.cons (shown_xmlEscape identity) .nil)
  rw [shownArgs, argsOf]
  cases opts.target with
  | none => exact List.rel_append head .nil
  | some target =>
      exact List.rel_append head
        (.cons (shown_plain (by decide +kernel)) (.cons (shown_xmlEscape target) .nil))

theorem head_append {front back : Text} (free : '>' ∉ front) (bare : back.head? ≠ some '>') :
    (front ++ back).head? ≠ some '>' := by
  cases front with
  | nil => exact bare
  | cons c front =>
      rintro ⟨⟩
      exact free List.mem_cons_self

theorem head_tag (text : Text) : ('<' :: text).head? ≠ some '>' := by
  rw [List.head?_cons]
  decide

/-- The items after the role and the rest of the list close nothing. -/
theorem quiet_items {args : List Text} (free : ∀ arg ∈ args, '>' ∉ arg) :
    Quiet (args.flatMap plistItem ++ plistTail) ∧
      (args.flatMap plistItem ++ plistTail).head? ≠ some '>' := by
  induction args with
  | nil => exact ⟨by decide +kernel, by decide⟩
  | cons arg args ih =>
      obtain ⟨first, later⟩ := List.forall_mem_cons.mp free
      obtain ⟨calm, bare⟩ := ih later
      rw [List.flatMap_cons, List.append_assoc, plistItem_append]
      have closed : Quiet (closing ++ (args.flatMap plistItem ++ plistTail)) :=
        quiet_append (by decide) calm bare
      have data : Quiet (arg ++ (closing ++ (args.flatMap plistItem ++ plistTail))) :=
        quiet_append (quiet_of_notMem first) closed (head_tag _)
      have opened : Quiet ("<string>".toList ++
          (arg ++ (closing ++ (args.flatMap plistItem ++ plistTail)))) :=
        quiet_append (by decide) data (head_append first (head_tag _))
      have blanks : '>' ∉ "\n        ".toList := by decide
      exact ⟨quiet_append (quiet_of_notMem blanks) opened (head_tag _),
        head_append blanks (head_tag _)⟩

/-- The arguments are read back but for their line ends. -/
theorem launchdArgv_shown {exe identity : Text} {opts : InstallOpts}
    (xml : (argsOf exe identity opts).all (fun arg => arg.all isXmlChar) = true)
    (plain : Plain (lineEnds opts.role)) :
    launchdArgv (plistText (shownArgs exe identity opts)) =
      some ((argsOf exe identity opts).map lineEnds) := by
  have shown := @shownArgs_shown (lineEnds exe) (lineEnds identity) opts.readBack plain
  rw [launchdArgv_plistText, shownArgs_all, if_pos xml, shownArgs_lineEnds, argsOf_lineEnds,
    strings_items shown, strings_plistTail]
  exact congrArg some (List.append_nil _)

/-- A role that is started as it is has nothing special in it. -/
theorem role_plain {exe identity : Text} {opts : InstallOpts} {args : List Text}
    (found : launchdArgv (plistText (shownArgs exe identity opts)) = some args)
    (role : args[6]? = some opts.role) :
    (argsOf exe identity opts).all (fun arg => arg.all isXmlChar) = true ∧
      Plain opts.role ∧ lineEnds opts.role = opts.role := by
  rw [launchdArgv_plistText, shownArgs_all] at found
  obtain ⟨xml, found⟩ := Option.ite_none_right_eq_some.mp found
  obtain ⟨later, split, free⟩ := shownArgs_role (lineEnds exe) (lineEnds identity) opts.readBack
  rw [shownArgs_lineEnds, split, List.flatMap_append, List.append_assoc,
    strings_items (front_shown (lineEnds exe)), List.flatMap_cons, List.append_assoc,
    strings_item] at found
  obtain ⟨args', read, rfl⟩ := Option.map_eq_some_iff.mp found
  obtain ⟨⟨w, after⟩, content_eq, inner⟩ := Option.bind_eq_some_iff.mp read
  obtain ⟨rest, -, rfl⟩ := Option.map_eq_some_iff.mp inner
  obtain rfl : w = opts.role := Option.some.inj role
  obtain ⟨calm, bare⟩ := quiet_items free
  exact ⟨xml, content_tight (quiet_append (by decide) calm bare) content_eq
    (length_lineEnds_le opts.role)⟩

/-! ## What survives -/

/-- XML has every character of the words and keeps it, and the role has nothing special in it. -/
structure PlistSurvives (exe identity : Text) (opts : InstallOpts) : Prop where
  readable : ∀ w ∈ argsOf exe identity opts, w.all isXmlChar = true ∧ '\r' ∉ w
  role : Plain opts.role

theorem PlistSurvives.kept {exe identity : Text} {opts : InstallOpts}
    (survives : PlistSurvives exe identity opts) :
    (argsOf exe identity opts).map lineEnds = argsOf exe identity opts :=
  map_lineEnds_iff.mpr fun w member => (survives.readable w member).2

theorem PlistSurvives.argv {exe identity : Text} {opts : InstallOpts}
    (survives : PlistSurvives exe identity opts) :
    launchdArgv (plistText (shownArgs exe identity opts)) = some (argsOf exe identity opts) := by
  have inside : opts.role ∈ argsOf exe identity opts := List.mem_of_getElem? (i := 6) rfl
  have same : lineEnds opts.role = opts.role :=
    lineEnds_of_free (survives.readable opts.role inside).2
  have xml := List.all_eq_true.mpr fun w member => (survives.readable w member).1
  rw [launchdArgv_shown xml (same.symm ▸ survives.role), survives.kept]

/-- What is started as it was meant. -/
theorem plistSurvives_of_argv {exe identity : Text} {opts : InstallOpts}
    (found : launchdArgv (plistText (shownArgs exe identity opts)) =
      some (argsOf exe identity opts)) : PlistSurvives exe identity opts := by
  obtain ⟨xml, plain, same⟩ := role_plain found rfl
  rw [launchdArgv_shown xml (same.symm ▸ plain)] at found
  have kept := map_lineEnds_iff.mp (Option.some.inj found)
  exact ⟨fun w member => ⟨List.all_eq_true.mp xml w member, kept w member⟩, plain⟩

theorem plistText_argv_iff (exe : List UInt8) (opts : InstallOpts) :
    (∃ args, launchdArgv
        (plistText (shownArgs (fromUtf8Lossy exe) (fromUtf8Lossy opts.identity) opts)) = some args ∧
      args.map utf8Encode = wantedArgv exe opts) ↔
      ∃ e i, utf8Encode e = exe ∧ utf8Encode i = opts.identity ∧ PlistSurvives e i opts := by
  constructor
  · rintro ⟨args, found, same⟩
    obtain ⟨e, -, path⟩ := Option.map_eq_some_iff.mp (wantedArgv_get same 0)
    obtain ⟨i, -, key⟩ := Option.map_eq_some_iff.mp (wantedArgv_get same 8)
    refine ⟨e, i, path, key, plistSurvives_of_argv ?_⟩
    rw [← path, ← key, fromUtf8Lossy_utf8Encode, fromUtf8Lossy_utf8Encode] at found
    rw [← path, ← argsOf_encoded key] at same
    rw [found, List.map_injective_iff.mpr utf8Encode_injective same]
  · rintro ⟨e, i, rfl, key, survives⟩
    rw [← key, fromUtf8Lossy_utf8Encode, fromUtf8Lossy_utf8Encode]
    exact ⟨argsOf e i opts, survives.argv, argsOf_encoded key⟩

/-- The property list starts what was meant exactly when XML keeps every word and the role
has nothing special in it. -/
theorem plist_rebuilt_iff (exe : List UInt8) (opts : InstallOpts) :
    PlistRebuilt exe opts ↔ PlistRefused exe opts ∨
      ∃ e i, utf8Encode e = exe ∧ utf8Encode i = opts.identity ∧ PlistSurvives e i opts :=
  forall_ok_iff renderPlist_error renderPlist_ok (plistText_argv_iff exe opts)

/-- Both supervisors start what was meant exactly when nothing in the words is special to
systemd, XML keeps them all and nothing in the role is special to it. -/
theorem service_argv_iff (exe : List UInt8) (opts : InstallOpts) :
    UnitRebuilt exe opts ∧ PlistRebuilt exe opts ↔
      (UnitRefused exe opts ∨
        ∃ e i, utf8Encode e = exe ∧ utf8Encode i = opts.identity ∧ Survives e i opts) ∧
      (PlistRefused exe opts ∨
        ∃ e i, utf8Encode e = exe ∧ utf8Encode i = opts.identity ∧ PlistSurvives e i opts) :=
  and_congr (unit_rebuilt_iff exe opts) (plist_rebuilt_iff exe opts)

/-- A blank in the path of the binary makes two words of it. -/
theorem blank_in_path_splits :
    ¬ (UnitRebuilt (utf8Encode "/opt/my app/link-p2p".toList)
        ⟨"hub".toList, none, utf8Encode "/etc/link-p2p/identity.key".toList, "link-p2p".toList⟩ ∧
      PlistRebuilt (utf8Encode "/opt/my app/link-p2p".toList)
        ⟨"hub".toList, none, utf8Encode "/etc/link-p2p/identity.key".toList,
          "link-p2p".toList⟩) := by
  rintro ⟨unit, -⟩
  rcases (unit_rebuilt_iff _ _).mp unit with refused | ⟨e, i, path, -, survives⟩
  · rw [UnitRefused, fromUtf8Lossy_utf8Encode, fromUtf8Lossy_utf8Encode] at refused
    rcases refused with path | key | ⟨_, none_, -⟩
    · exact absurd path (by decide)
    · exact absurd key (by decide)
    · cases none_
  · have blank : ' ' ∈ e := by
      rw [utf8Encode_injective path]
      decide
    have shown := ((survives.inert e List.mem_cons_self).plain.ordinary ' ' blank).2.1
    cases shown

end LinkP2p.Service
