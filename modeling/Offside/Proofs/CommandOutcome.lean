import Offside.Main
import Offside.Proofs.FlagSettings
import Offside.Proofs.ReportLines

/-!
# What a command comes to

A command goes through three steps: it puts the settings together, reads the source and scans
it.  The first of them that fails is what it complains about, and then it prints nothing.  If
none fails it prints the report of the scan.  A scan can only fail for a tab width of zero, and
since the option for the tab width refuses zero, it is the file with settings that has it then.
-/

namespace Offside
namespace Command

open Settings

theorem tabWidth?_ne_zero
    {cs : List Char}
    {width : UInt32}
    (h : tabWidth? cs = some width) :
    width ≠ 0 := by
  simp only [tabWidth?, Option.ite_none_left_eq_some, Option.ite_none_right_eq_some] at h
  obtain ⟨-, ⟨hpos, hlt⟩, hwidth⟩ := h
  obtain rfl := Option.some.inj hwidth
  intro hzero
  have htoNat := congrArg UInt32.toNat hzero
  rw [UInt32.toNat_ofNat_of_lt' hlt] at htoNat
  exact absurd htoNat (Nat.ne_of_gt hpos)

namespace Draft

/-- Whether no tab width of zero was kept. -/
def WidthPositive (d : Draft) : Prop := d.tabWidth ≠ some 0

theorem WidthPositive.assign
    {d after : Draft}
    {slot : Slot}
    {text : String}
    (hd : d.WidthPositive)
    (h : d.assign slot text = .ok after) :
    after.WidthPositive := by
  cases slot with
  | path =>
      rw [Draft.assign] at h
      split at h
      next => cases h
      next =>
        cases h
        exact hd
  | config =>
      rw [Draft.assign] at h
      split at h
      next => cases h
      next =>
        cases h
        exact hd
  | format =>
      rw [Draft.assign] at h
      split at h
      next =>
        cases h
        exact hd
      next => cases h
  | tabWidth =>
      rw [Draft.assign] at h
      split at h
      next width _ hwidth =>
        cases h
        exact fun hzero => tabWidth?_ne_zero hwidth (Option.some.inj hzero)
      next => cases h

theorem WidthPositive.settle
    {d after : Draft}
    {pending : Pending}
    (hd : d.WidthPositive)
    (h : d.settle pending = .ok after) :
    after.WidthPositive := by
  cases pending with
  | nothing =>
      cases h
      exact hd
  | missing slot => cases h
  | value slot text => exact hd.assign h

theorem WidthPositive.turnOn
    {d after : Draft}
    {switch : Switch}
    (hd : d.WidthPositive)
    (h : d.turnOn switch = .ok after) :
    after.WidthPositive := by
  have hkept : after.tabWidth = d.tabWidth := by
    cases switch with
    | noCheckpoints | quiet =>
        rw [Draft.turnOn] at h
        split at h
        next => cases h
        next =>
          cases h
          rfl
    | verbose =>
        cases h
        rfl
    | version | help => cases h
  rw [WidthPositive, hkept]
  exact hd

theorem WidthPositive.readLong
    {d : Draft}
    {pending : Pending}
    {name : String}
    {attached : Option String}
    {result : Draft × Pending}
    (hd : d.WidthPositive)
    (h : d.readLong pending name attached = .ok result) :
    result.1.WidthPositive := by
  unfold Draft.readLong at h
  split at h
  next =>
    simp only [bind_eq_ok_iff] at h
    obtain ⟨settled, hsettle, assigned, hassign, hresult⟩ := h
    cases hresult
    exact (hd.settle hsettle).assign hassign
  next =>
    simp only [bind_eq_ok_iff] at h
    obtain ⟨settled, hsettle, hresult⟩ := h
    cases hresult
    exact hd.settle hsettle
  next =>
    simp only [bind_eq_ok_iff] at h
    obtain ⟨settled, hsettle, turned, hturn, hresult⟩ := h
    cases hresult
    exact (hd.settle hsettle).turnOn hturn
  next => cases h

theorem WidthPositive.readLetters
    {d : Draft}
    {pending : Pending}
    {cs : List Char}
    {result : Draft × Pending}
    (hd : d.WidthPositive)
    (h : d.readLetters pending cs = .ok result) :
    result.1.WidthPositive := by
  induction cs generalizing d pending with
  | nil =>
      cases h
      exact hd
  | cons c rest ih =>
      rw [Draft.readLetters] at h
      split at h
      next =>
        simp only [bind_eq_ok_iff] at h
        obtain ⟨settled, hsettle, turned, hturn, hrest⟩ := h
        exact ih ((hd.settle hsettle).turnOn hturn) hrest
      next =>
        rw [bind_eq_ok_iff] at h
        obtain ⟨settled, hsettle, hvalue⟩ := h
        split at hvalue
        next =>
          cases hvalue
          exact hd.settle hsettle
        next =>
          obtain ⟨assigned, hassign, hresult⟩ := bind_eq_ok_iff.1 hvalue
          cases hresult
          exact (hd.settle hsettle).assign hassign
        next =>
          obtain ⟨assigned, hassign, hresult⟩ := bind_eq_ok_iff.1 hvalue
          cases hresult
          exact (hd.settle hsettle).assign hassign
      next => cases h

theorem WidthPositive.readPath
    {d : Draft}
    {pending : Pending}
    {text : String}
    {result : Draft × Pending}
    (hd : d.WidthPositive)
    (h : d.readPath pending text = .ok result) :
    result.1.WidthPositive := by
  obtain ⟨settled, hsettle, hpath⟩ := bind_eq_ok_iff.1 h
  split at hpath
  next => cases hpath
  next =>
    cases hpath
    exact hd.settle hsettle

theorem WidthPositive.readArgument
    {d : Draft}
    {pending : Pending}
    {text : String}
    {result : Draft × Pending}
    (hd : d.WidthPositive)
    (h : d.readArgument pending text = .ok result) :
    result.1.WidthPositive := by
  unfold Draft.readArgument at h
  split at h
  next =>
    dsimp only at h
    split at h
    next => exact hd.readLong h
    next => exact hd.readLong h
  next => exact hd.readLetters h
  next =>
    split at h
    next =>
      cases h
      exact hd
    next => exact hd.readPath h

theorem WidthPositive.readAll
    {onlyPaths : Bool}
    {d after : Draft}
    {pending : Pending}
    {texts : List String}
    (hd : d.WidthPositive)
    (h : d.readAll onlyPaths pending texts = .ok after) :
    after.WidthPositive := by
  induction texts generalizing onlyPaths d pending with
  | nil => exact hd.settle h
  | cons text rest ih =>
      rw [Draft.readAll] at h
      split at h
      next =>
        obtain ⟨result, hpath, hrest⟩ := bind_eq_ok_iff.1 h
        exact ih (hd.readPath hpath) hrest
      next =>
        split at h
        next => exact ih hd h
        next =>
          obtain ⟨result, hargument, hrest⟩ := bind_eq_ok_iff.1 h
          exact ih (hd.readArgument hargument) hrest

end Draft

/-- No option for a tab width of zero is well formed. -/
theorem tabWidth_ne_zero_of_parse
    {texts : List String}
    {args : Arguments}
    (h : Arguments.parse texts = .ok args) :
    args.tabWidth ≠ some 0 := by
  obtain ⟨d, hread, hfinish⟩ := bind_eq_ok_iff.1 h
  have hpositive : d.WidthPositive :=
    Draft.WidthPositive.readAll (fun hzero => by cases hzero) hread
  rw [Draft.finish] at hfinish
  split at hfinish
  next => cases hfinish
  next =>
    split at hfinish
    next => cases hfinish
    next =>
      cases hfinish
      exact hpositive

/-- An option for the tab width is what counts. -/
theorem tabWidth_of_flag
    {view : FileView}
    {args : Arguments}
    {settings : Settings}
    {width : UInt32}
    (h : settingsFor view args = .ok settings)
    (hwidth : args.tabWidth = some width) :
    settings.layout.tabWidth = width := by
  rw [settingsFor_eq] at h
  obtain ⟨root, -, hdecode⟩ := bind_eq_ok_iff.1 h
  rw [setFlags, hwidth] at hdecode
  obtain ⟨hlayout, -⟩ := decodeIn_eq_ok_iff.1 hdecode
  have hword := first_of_decodeFrom_set_first names?_tabWidthPath rfl hlayout
  rw [decodeWord_widthValue] at hword
  exact (Except.ok.inj hword).symm

/-- Without a file and without the option the tab width is four. -/
theorem tabWidth_of_defaults
    {view : FileView}
    {args : Arguments}
    {settings : Settings}
    (h : settingsFor view args = .ok settings)
    (hconfig : args.config = none)
    (hwidth : args.tabWidth = none) :
    settings.layout.tabWidth = 4 := by
  have hdefaults : layoutOf .declared defaults = .ok (4, true) := by rfl
  rw [settingsFor_eq, fileValues, hconfig] at h
  change decode (setFlags args defaults) = _ at h
  rw [setFlags, hwidth] at h
  change decode (withFormat defaults args.format) = _ at h
  obtain ⟨hlayout, -⟩ := decodeIn_eq_ok_iff.1 h
  rw [layoutOf_withFormat, hdefaults] at hlayout
  exact (Prod.mk.inj (Except.ok.inj hlayout)).1.symm

/-- A tab width of zero comes from the file with settings. -/
theorem zero_tabWidth_from_file
    {view : FileView}
    {texts : List String}
    {args : Arguments}
    {settings : Settings}
    (hargs : Arguments.parse texts = .ok args)
    (h : settingsFor view args = .ok settings)
    (hzero : settings.layout.tabWidth = 0) :
    args.tabWidth = none ∧ args.config ≠ none := by
  have hwidth : args.tabWidth = none := by
    cases hflag : args.tabWidth with
    | none => rfl
    | some width =>
        have heq := tabWidth_of_flag h hflag
        rw [← heq, hzero] at hflag
        exact absurd hflag (tabWidth_ne_zero_of_parse hargs)
  refine ⟨hwidth, fun hconfig => ?_⟩
  rw [tabWidth_of_defaults h hconfig hwidth] at hzero
  exact absurd hzero (by decide)

/-- A view of some paths shows what each of them leads to. -/
theorem viewOf_of_mem
    {paths : List String}
    {path : String}
    (h : path ∈ paths)
    (look : FileView) :
    viewOf (paths.map fun path => (path, look path)) path = look path := by
  induction paths with
  | nil => cases h
  | cons first rest ih =>
      rw [viewOf, List.map_cons]
      by_cases heq : first = path
      · rw [List.find?_cons_of_pos (by simpa using heq), heq]
        rfl
      · rw [List.find?_cons_of_neg (by simpa using heq)]
        exact ih ((List.mem_cons.1 h).resolve_left (Ne.symm heq))

/-- A file is found under its name or under the extended one. -/
theorem mem_of_findFile
    {view : FileView}
    {name found : String}
    (h : findFile view name = .ok found) :
    found ∈ name :: (extendedName? name).toList := by
  unfold findFile at h
  split at h
  next =>
    cases h
    exact List.mem_cons_self
  next =>
    split at h
    next extended hextended =>
      split at h
      next =>
        cases h
        rw [hextended]
        exact List.mem_cons_of_mem _ List.mem_cons_self
      next => cases h
    next => cases h

/-- Reading a file with settings looks at its name and at the extended one only. -/
theorem setFile_congr
    {view look : FileView}
    {name : String}
    (h : ∀ path ∈ name :: (extendedName? name).toList, view path = look path)
    (root : Value) :
    setFile view root name = setFile look root name := by
  have hfound : findFile view name = findFile look name := by
    rw [findFile, findFile, h name List.mem_cons_self]
    cases hextended : extendedName? name with
    | none => rfl
    | some extended =>
        have hmem : extended ∈ name :: (extendedName? name).toList := by
          rw [hextended]
          exact List.mem_cons_of_mem _ List.mem_cons_self
        dsimp only
        rw [h extended hmem]
  rw [setFile, setFile, hfound]
  cases hfile : findFile look name with
  | error e => rfl
  | ok found =>
      have hsame := h found (mem_of_findFile hfile)
      simp only [bind, Except.bind, hsame]

theorem fileValues_congr
    {view look : FileView}
    {args : Arguments}
    (h : ∀ name, args.config = some name →
      ∀ path ∈ name :: (extendedName? name).toList, view path = look path) :
    fileValues view args = fileValues look args := by
  rw [fileValues, fileValues]
  cases hconfig : args.config with
  | none => rfl
  | some name =>
      have hfile := setFile_congr (h name hconfig) defaults
      rw [Option.toList_some, List.foldlM_cons, List.foldlM_cons, hfile]
      rfl

/-- The program looks at nothing but the paths that it names beforehand. -/
theorem respond_viewOf
    (look : FileView)
    (texts : List String) :
    respond (viewOf ((pathsOf texts).map fun path => (path, look path))) texts =
      respond look texts := by
  cases hargs : Arguments.parse texts with
  | error stop =>
      rw [respond, respond, hargs]
      cases stop <;> rfl
  | ok args =>
      have hpaths : pathsOf texts =
          args.path :: args.config.elim [] fun name => name :: (extendedName? name).toList := by
        cases hconfig : args.config <;> simp only [pathsOf, hargs, hconfig, Option.elim]
      have hsame : ∀ path ∈ pathsOf texts,
          viewOf ((pathsOf texts).map fun path => (path, look path)) path = look path :=
        fun path hpath => viewOf_of_mem hpath look
      rw [hpaths] at hsame ⊢
      have hsource := hsame args.path List.mem_cons_self
      have hfiles := fileValues_congr fun name hname path hpath => by
        refine hsame path (List.mem_cons_of_mem _ ?_)
        rw [hname]
        exact hpath
      have hsettings := settingsFor_eq look args
      rw [← hfiles, ← settingsFor_eq] at hsettings
      rw [respond, respond, hargs]
      dsimp only
      rw [run, run, hsource, hsettings]

/-- Whether every step of a command succeeds, with these settings and this source. -/
structure Succeeds
    (look : FileView)
    (args : Arguments)
    (settings : Settings)
    (source : String) :
    Prop where
  settings_eq : settingsFor look args = .ok settings
  source_eq : (look args.path).readText = .ok source
  tabWidth_ne_zero : settings.layout.tabWidth ≠ 0

/-- What the first step of a command that fails complains about. -/
inductive FirstFailure
    (look : FileView)
    (args : Arguments) :
    Failure → Prop
  | settings
      {cause : Settings.Error}
      (h : settingsFor look args = .error cause) :
      FirstFailure look args (.settings cause)
  | source
      {settings : Settings}
      {cause : ReadError}
      (hsettings : settingsFor look args = .ok settings)
      (h : (look args.path).readText = .error cause) :
      FirstFailure look args (.source args.path cause)
  | layout
      {settings : Settings}
      {source : String}
      (hsettings : settingsFor look args = .ok settings)
      (hsource : (look args.path).readText = .ok source)
      (h : settings.layout.tabWidth = 0) :
      FirstFailure look args (.layout .zeroTabWidth)

theorem succeeds_or_firstFailure
    (look : FileView)
    (args : Arguments) :
    (∃ settings source, Succeeds look args settings source) ∨
      ∃ failure, FirstFailure look args failure := by
  cases hsettings : settingsFor look args with
  | error cause => exact .inr ⟨_, .settings hsettings⟩
  | ok settings =>
      cases hsource : (look args.path).readText with
      | error cause => exact .inr ⟨_, .source hsettings hsource⟩
      | ok source =>
          by_cases hzero : settings.layout.tabWidth = 0
          · exact .inr ⟨_, .layout hsettings hsource hzero⟩
          · exact .inl ⟨settings, source, hsettings, hsource, hzero⟩

/-- A run whose steps succeed has the report of the scan. -/
theorem Succeeds.exists_run
    {look : FileView}
    {args : Arguments}
    {settings : Settings}
    {source : String}
    (h : Succeeds look args settings source) :
    ∃ trace,
      Layout.traceOf source.toList settings.layout = .ok trace ∧
      run look args =
        .ok (renderTrace trace settings.format
          (settings.showCheckpoints && !args.noCheckpoints)) := by
  refine ⟨_, Layout.traceOf_eq h.tabWidth_ne_zero source.toList, ?_⟩
  rw [run, h.settings_eq, h.source_eq]
  change (do
    let trace ← orFail .layout (Layout.traceOf source.toList settings.layout)
    pure (renderTrace trace settings.format
      (settings.showCheckpoints && !args.noCheckpoints))) = _
  rw [Layout.traceOf_eq h.tabWidth_ne_zero]
  rfl

/-- A run ends with its first failure. -/
theorem FirstFailure.run_eq
    {look : FileView}
    {args : Arguments}
    {failure : Failure}
    (h : FirstFailure look args failure) :
    run look args = .error failure := by
  cases h with
  | settings h =>
      rw [run, h]
      rfl
  | source hsettings h =>
      rw [run, hsettings, h]
      rfl
  | @layout settings source hsettings hsource h =>
      have htrace : Layout.traceOf source.toList settings.layout = .error .zeroTabWidth := by
        rw [Layout.traceOf, Layout.Scan.ofSource, if_pos h]
        rfl
      rw [run, hsettings, hsource]
      change (do
        let trace ← orFail .layout (Layout.traceOf source.toList settings.layout)
        pure (renderTrace trace settings.format
          (settings.showCheckpoints && !args.noCheckpoints))) = _
      rw [htrace]
      rfl

/-- What a command with these arguments comes to. -/
structure ComesTo
    (look : FileView)
    (args : Arguments)
    (outcome : Outcome) :
    Prop where
  decided :
    (∃ settings source, Succeeds look args settings source) ∨
      ∃ failure, FirstFailure look args failure
  report : ∀ settings source, Succeeds look args settings source →
    ∃ trace,
      Layout.traceOf source.toList settings.layout = .ok trace ∧
      outcome.exitCode = 0 ∧
      outcome.complaint = "" ∧
      outcome.output =
        renderTrace trace settings.format (settings.showCheckpoints && !args.noCheckpoints)
  failure : ∀ failure, FirstFailure look args failure →
    outcome.exitCode = 1 ∧
    outcome.output = "" ∧
    outcome.complaint = "Error: " ++ failure.message
  /-- A tab width of zero is never given on the command line. -/
  zero_from_file : ∀ settings, settingsFor look args = .ok settings →
    settings.layout.tabWidth = 0 → args.tabWidth = none ∧ args.config ≠ none

/-- How the outcome with the switch that hides checkpoints compares to the one without. -/
structure HidesCheckpoints
    (look : FileView)
    (args : Arguments)
    (outcome hidden : Outcome) :
    Prop where
  exitCode_eq : hidden.exitCode = outcome.exitCode
  complaint_eq : hidden.complaint = outcome.complaint
  /-- The switch changes nothing when there is nothing to hide. -/
  output_eq : ∀ settings, settingsFor look args = .ok settings →
    settings.showCheckpoints = false → hidden.output = outcome.output
  /-- A text report loses the lines of the checkpoints and nothing else. -/
  lines_eq : ∀ settings, settingsFor look args = .ok settings → settings.format = .text →
    hidden.output.toList = TextReport.deleteCheckpoints outcome.output.toList
  /-- The report does not depend on the checkpoints. -/
  blind : ∀ settings source trace, Succeeds look args settings source →
    Layout.traceOf source.toList settings.layout = .ok trace →
    ∀ checkpoints,
      hidden.output = renderTrace ⟨trace.events, checkpoints⟩ settings.format false

theorem respond_of_parse
    {look : FileView}
    {texts : List String}
    {args : Arguments}
    (h : Arguments.parse texts = .ok args) :
    respond look texts =
      match run look args with
      | .ok text => .printed text
      | .error failure => .failed ("Error: " ++ failure.message) := by
  cases hrun : run look args <;> simp only [respond, h, hrun]

/-- The report without checkpoints does not depend on them. -/
theorem renderTrace_hidden
    (trace : Layout.Trace)
    (format : OutputFormat)
    (checkpoints : List Layout.Checkpoint) :
    renderTrace ⟨trace.events, checkpoints⟩ format false = renderTrace trace format false := by
  cases format <;> rfl

theorem hidesCheckpoints_of_parse
    {look : FileView}
    {texts others : List String}
    {args : Arguments}
    (hargs : Arguments.parse texts = .ok args)
    (hothers : Arguments.parse others = .ok { args with noCheckpoints := true }) :
    HidesCheckpoints look args (respond look texts) (respond look others) := by
  rw [respond_of_parse hargs, respond_of_parse hothers]
  rcases succeeds_or_firstFailure look args with ⟨settings, source, hsucceeds⟩ | ⟨failure, hfails⟩
  · -- The settings and the source do not depend on the switch.
    have hhidden : Succeeds look { args with noCheckpoints := true } settings source :=
      ⟨hsucceeds.settings_eq, hsucceeds.source_eq, hsucceeds.tabWidth_ne_zero⟩
    obtain ⟨trace, htrace, hrun⟩ := hsucceeds.exists_run
    obtain ⟨same, hsame, hrunHidden⟩ := hhidden.exists_run
    obtain rfl := Except.ok.inj (htrace.symm.trans hsame)
    rw [hrun, hrunHidden, Bool.not_true, Bool.and_false]
    refine
      ⟨rfl, rfl, fun other hother hshow => ?_, fun other hother htext => ?_,
        fun other text found hother hfound => ?_⟩
    · obtain rfl := Except.ok.inj (hsucceeds.settings_eq.symm.trans hother)
      rw [hshow, Bool.false_and]
    · obtain rfl := Except.ok.inj (hsucceeds.settings_eq.symm.trans hother)
      simp only [Outcome.output, renderTrace, htext, String.toList_ofList,
        TextReport.deleteCheckpoints_render]
    · obtain rfl := Except.ok.inj (hsucceeds.settings_eq.symm.trans hother.settings_eq)
      obtain rfl := Except.ok.inj (hsucceeds.source_eq.symm.trans hother.source_eq)
      obtain rfl := Except.ok.inj (htrace.symm.trans hfound)
      exact fun checkpoints => (renderTrace_hidden trace settings.format checkpoints).symm
  · have hhidden : FirstFailure look { args with noCheckpoints := true } failure := by
      cases hfails with
      | settings h => exact .settings h
      | source hsettings h => exact .source hsettings h
      | layout hsettings hsource h => exact .layout hsettings hsource h
    rw [hfails.run_eq, hhidden.run_eq]
    refine
      ⟨rfl, rfl, fun _ _ _ => rfl, fun _ _ _ => rfl, fun settings source trace hsucceeds => ?_⟩
    obtain ⟨_, -, hrun⟩ := hsucceeds.exists_run
    rw [hfails.run_eq] at hrun
    cases hrun

/-- A command whose arguments are well formed is the composition of its steps: it prints the
report of the scan of its source, with the settings that the defaults, the file and the options
come to, or complains about the first step that fails and prints nothing.  The switch for
checkpoints can only hide them. -/
theorem command_composes_steps
    {look : FileView}
    {texts : List String}
    {args : Arguments}
    (hargs : Arguments.parse texts = .ok args) :
    ComesTo look args (respond (viewOf ((pathsOf texts).map fun path => (path, look path))) texts) ∧
    ∀ others, Arguments.parse others = .ok { args with noCheckpoints := true } →
      HidesCheckpoints look args (respond look texts) (respond look others) := by
  rw [respond_viewOf]
  refine
    ⟨⟨succeeds_or_firstFailure look args, ?_, ?_, ?_⟩,
      fun others hothers => hidesCheckpoints_of_parse hargs hothers⟩
  · intro settings source h
    obtain ⟨trace, htrace, hrun⟩ := h.exists_run
    refine ⟨trace, htrace, ?_⟩
    rw [respond_of_parse hargs, hrun]
    exact ⟨rfl, rfl, rfl⟩
  · intro failure h
    rw [respond_of_parse hargs, h.run_eq]
    exact ⟨rfl, rfl, rfl⟩
  · exact fun settings => zero_tabWidth_from_file hargs

/-- A tab width of two from the file, and a zero in another file. -/
theorem command_composes_steps_in_directory :
    let look :=
      (Directory.ofFiles
        [ ("c.toml", "[layout]\ntab_width = 2".toUTF8),
          ("zero.toml", "layout.tab_width = 0".toUTF8),
          ("a.txt", "a\n\tb\n  c\n".toUTF8) ]).view
    let shown := respond look ["a.txt", "-c", "c.toml"]
    let hidden := respond look ["-cc.toml", "--no-checkpoints", "a.txt"]
    let refused := respond look ["a.txt", "--config", "zero.toml"]
    HidesCheckpoints look ⟨"a.txt", some "c.toml", none, none, false, false, 0⟩ shown hidden ∧
      hidden.output = "2\tindent\n3\tnewline\n3\tdedent\n" ∧
      ComesTo look ⟨"a.txt", some "zero.toml", none, none, false, false, 0⟩ refused ∧
      refused.complaint = "Error: Layout scan failed: tab width must be greater than zero" := by
  intro look shown hidden refused
  have hshown : Arguments.parse ["a.txt", "-c", "c.toml"] =
      .ok ⟨"a.txt", some "c.toml", none, none, false, false, 0⟩ := by
    rfl
  have hhidden : Arguments.parse ["-cc.toml", "--no-checkpoints", "a.txt"] =
      .ok ⟨"a.txt", some "c.toml", none, none, true, false, 0⟩ := by
    rfl
  have hrefused : Arguments.parse ["a.txt", "--config", "zero.toml"] =
      .ok ⟨"a.txt", some "zero.toml", none, none, false, false, 0⟩ := by
    rfl
  obtain ⟨-, hhides⟩ := @command_composes_steps look _ _ hshown
  obtain ⟨hcomes, -⟩ := @command_composes_steps look _ _ hrefused
  rw [respond_viewOf] at hcomes
  refine ⟨hhides _ hhidden, ?_, hcomes, ?_⟩
  · decide +kernel
  · decide +kernel

end Command
end Offside
