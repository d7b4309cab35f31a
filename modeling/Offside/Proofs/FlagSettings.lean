import Offside.Command.Run
import Offside.Proofs.LoadOrder

/-!
# Flags and the file with settings

The options of the command for the format of the report and for the tab width are overrides, and
each of them is the first setting of its group.  So an option changes its own setting and
nothing else, as long as the file gives the settings of the group by name.  A file may also
give them by position, as an array; then an option for the group takes the place of the whole
array, and the command complains that the other setting of the group is missing.

That is so in every order in which the settings may be put together, if without the options they
come to the same in every order.  They do so if no two keys of the file lead to one place
(`loads_iff_of_ok`).
-/

namespace Offside
namespace Command

open Settings

/-- The path of the setting for the format of the report. -/
def formatPath : KeyPath := ⟨"inspect", [.child "format"]⟩

/-- The path of the setting for the tab width. -/
def tabWidthPath : KeyPath := ⟨"layout", [.child "tab_width"]⟩

theorem parse?_formatPath : KeyPath.parse? "inspect.format" = some formatPath := by
  decide +kernel

theorem parse?_tabWidthPath : KeyPath.parse? "layout.tab_width" = some tabWidthPath := by
  decide +kernel

theorem names?_formatPath :
    formatPath.names? = some [Group.inspect.key, Group.inspect.fields.1] := by
  decide +kernel

theorem names?_tabWidthPath :
    tabWidthPath.names? = some [Group.layout.key, Group.layout.fields.1] := by
  decide +kernel

/-- The value that an option for the format stands for. -/
def formatValue (format : OutputFormat) : Value := .scalar none (.string format.name)

/-- The value that an option for the tab width stands for. -/
def widthValue (width : UInt32) : Value := .scalar none (.int (Int64.ofNat width.toNat))

theorem decodeFormat_formatValue (format : OutputFormat) :
    decodeFormat (formatValue format) = .ok format := by
  have hname : Lowercase.ofString format.name = format.name := by
    cases format <;> decide +kernel
  rw [formatValue, decodeFormat, formatOfText, hname, OutputFormat.ofName?_name]

theorem integer?_widthValue (width : UInt32) :
    (widthValue width).integer? = some (Int.ofNat width.toNat) := by
  have hlt : width.toNat < 2 ^ 63 := Nat.lt_trans width.toNat_lt (by decide)
  exact congrArg some (Int64.toInt_ofNat_of_lt hlt)

theorem decodeWord_widthValue
    (key : String)
    (width : UInt32) :
    decodeWord key (widthValue width) = .ok width :=
  (decodeWord_of_integer? key (integer?_widthValue width)).1 width rfl

/-- The values of the files, if they can all be read. -/
def fileValues
    (view : FileView)
    (args : Arguments) :
    Except Settings.Error Value :=
  args.config.toList.foldlM (setFile view) defaults

/-- Some values after an option for the format, if there is one. -/
def withFormat
    (root : Value)
    (format : Option OutputFormat) :
    Value :=
  (format.map fun format => root.set formatPath (formatValue format)).getD root

/-- Some values after an option for the tab width, if there is one. -/
def withTabWidth
    (root : Value)
    (width : Option UInt32) :
    Value :=
  (width.map fun width => root.set tabWidthPath (widthValue width)).getD root

/-- Some values after the options of the command. -/
def setFlags
    (args : Arguments)
    (root : Value) :
    Value :=
  withTabWidth (withFormat root args.format) args.tabWidth

/-- The overrides that the options stand for. -/
def flagOverrides (args : Arguments) : List (KeyPath × Value) :=
  (args.format.map fun format => (formatPath, formatValue format)).toList
    ++ (args.tabWidth.map fun width => (tabWidthPath, widthValue width)).toList

theorem ofLayers_layers (args : Arguments) :
    Plan.ofLayers (layers args) = .ok ⟨args.config.toList, flagOverrides args⟩ := by
  have hfile :
      (args.config.map fun name => Layer.file name).toList.foldlM Plan.addLayer Plan.initial =
        .ok ⟨args.config.toList, []⟩ := by
    cases args.config <;> rfl
  have hformat : ∀ files : List String,
      (args.format.map fun format =>
          Layer.override "inspect.format" (.scalar none (.string format.name))).toList.foldlM
            Plan.addLayer ⟨files, []⟩ =
        .ok ⟨files, (args.format.map fun format => (formatPath, formatValue format)).toList⟩ := by
    intro files
    cases args.format with
    | none => rfl
    | some format =>
        change Plan.addLayer _ _ >>= _ = _
        rw [Plan.addLayer, Plan.addOverride, parse?_formatPath]
        rfl
  have hwidth : ∀ (files : List String) (overrides : List (KeyPath × Value)),
      (overrides.filter fun o => o.1 != tabWidthPath) = overrides →
      (args.tabWidth.map fun width =>
          Layer.override "layout.tab_width"
            (.scalar none (.int (Int64.ofNat width.toNat)))).toList.foldlM
            Plan.addLayer ⟨files, overrides⟩ =
        .ok ⟨files, overrides
          ++ (args.tabWidth.map fun width => (tabWidthPath, widthValue width)).toList⟩ := by
    intro files overrides hother
    cases args.tabWidth with
    | none =>
        rw [Option.map_none, Option.map_none, Option.toList_none, Option.toList_none,
          List.append_nil]
        rfl
    | some width =>
        change Plan.addLayer _ _ >>= _ = _
        rw [Plan.addLayer, Plan.addOverride, parse?_tabWidthPath]
        dsimp only
        rw [hother]
        rfl
  have hother :
      ((args.format.map fun format => (formatPath, formatValue format)).toList.filter
        fun o => o.1 != tabWidthPath) =
        (args.format.map fun format => (formatPath, formatValue format)).toList := by
    have hne : (formatPath != tabWidthPath) = true := by decide
    cases args.format with
    | none => rfl
    | some format => exact List.filter_cons_of_pos hne
  rw [Plan.ofLayers, layers, List.foldlM_append, List.foldlM_append, hfile]
  change (do
    let plan ← List.foldlM Plan.addLayer ⟨args.config.toList, []⟩ _
    List.foldlM Plan.addLayer plan _) = _
  rw [hformat]
  exact hwidth _ _ hother

theorem foldl_flagOverrides
    (args : Arguments)
    (root : Value) :
    (flagOverrides args).foldl (fun (v : Value) (o : KeyPath × Value) => v.set o.1 o.2) root =
      setFlags args root := by
  rw [flagOverrides, List.foldl_append, setFlags]
  cases args.format <;> cases args.tabWidth <;> rfl

theorem values_flagOverrides
    (view : FileView)
    (args : Arguments) :
    Plan.values ⟨args.config.toList, flagOverrides args⟩ view = (do
      let root ← fileValues view args
      pure (setFlags args root)) := by
  rw [Plan.values]
  simp only [foldl_flagOverrides, fileValues]

theorem settingsFor_eq
    (view : FileView)
    (args : Arguments) :
    settingsFor view args = (do
      let root ← fileValues view args
      decode (setFlags args root)) := by
  rw [settingsFor, ofLayers, ofLayers_layers]
  change Plan.settings _ view = _
  rw [Plan.settings, values_flagOverrides]
  simp only [bind_assoc, pure_bind]

/-- The options lead to two places. -/
theorem areApart_flagOverrides (args : Arguments) : Assignment.AreApart (flagOverrides args) := by
  have hapart : formatPath.Apart tabWidthPath := by decide +kernel
  rw [Assignment.AreApart, flagOverrides]
  cases args.format <;> cases args.tabWidth <;>
    simp [Assignment.spread, Assignment.spreadValue, formatValue, widthValue, hapart]

/-- The command reads its file in some order, sets the options and converts in some order. -/
theorem loads_layers_iff
    {view : FileView}
    {args : Arguments}
    {outcome : Except Settings.Error Settings} :
    Loads view (layers args) outcome ↔
      (∃ e, FilesLead view args.config.toList defaults (.error e) ∧ outcome = .error e) ∨
      ∃ root order,
        FilesLead view args.config.toList defaults (.ok root) ∧
        outcome = decodeIn order (setFlags args root) := by
  rw [loads_iff_of_plan (ofLayers_layers args)]
  simp only [(areApart_flagOverrides args).lead_iff, foldl_flagOverrides]
  refine or_congr_right ?_
  constructor
  · rintro ⟨root, after, order, hroot, rfl, houtcome⟩
    exact ⟨root, order, hroot, houtcome⟩
  · rintro ⟨root, order, hroot, houtcome⟩
    exact ⟨root, _, order, hroot, rfl, houtcome⟩

/-- An option for the format leaves the other group alone. -/
theorem find?_withFormat
    (root : Value)
    (format : Option OutputFormat) :
    (withFormat root format).find? Group.layout.key = root.find? Group.layout.key := by
  cases format with
  | none => rfl
  | some format => exact find?_set_first_other names?_formatPath (by decide) root

/-- An option for the tab width leaves the other group alone. -/
theorem find?_withTabWidth
    (root : Value)
    (width : Option UInt32) :
    (withTabWidth root width).find? Group.inspect.key = root.find? Group.inspect.key := by
  cases width with
  | none => rfl
  | some width => exact find?_set_first_other names?_tabWidthPath (by decide) root

theorem layoutOf_withFormat
    (order : Order)
    (root : Value)
    (format : Option OutputFormat) :
    layoutOf order (withFormat root format) = layoutOf order root :=
  decodeFrom_congr (find?_withFormat root format) _ _ _

theorem inspectOf_withTabWidth
    (order : Order)
    (root : Value)
    (width : Option UInt32) :
    inspectOf order (withTabWidth root width) = inspectOf order root :=
  decodeFrom_congr (find?_withTabWidth root width) _ _ _

/-- What an option for the tab width makes of the settings for the scan. -/
theorem layoutOf_withTabWidth
    {order : Order}
    {root : Value}
    {tabWidth : UInt32}
    {commentsAreBlank : Bool}
    (h : layoutOf order root = .ok (tabWidth, commentsAreBlank))
    (width : Option UInt32) :
    layoutOf order (withTabWidth root width) =
      if width.isSome ∧ root.byPosition .layout then
        .error (.missingField Group.layout.fields.2)
      else
        .ok (width.getD tabWidth, commentsAreBlank) := by
  cases width with
  | none => exact h
  | some width =>
      have hset :=
        decodeFrom_set_first_of_ok names?_tabWidthPath rfl h (decodeWord_widthValue _ width)
      simpa [layoutOf, withTabWidth] using hset

/-- What an option for the format makes of the settings for the report. -/
theorem inspectOf_withFormat
    {order : Order}
    {root : Value}
    {format : OutputFormat}
    {showCheckpoints : Bool}
    (h : inspectOf order root = .ok (format, showCheckpoints))
    (flag : Option OutputFormat) :
    inspectOf order (withFormat root flag) =
      if flag.isSome ∧ root.byPosition .inspect then
        .error (.missingField Group.inspect.fields.2)
      else
        .ok (flag.getD format, showCheckpoints) := by
  cases flag with
  | none => exact h
  | some flag =>
      have hset :=
        decodeFrom_set_first_of_ok names?_formatPath rfl h (decodeFormat_formatValue flag)
      simpa [inspectOf, withFormat] using hset

/-- Whether there is an option for a setting of a group. -/
def hasFlag
    (args : Arguments) :
    Group → Bool
  | .layout => args.tabWidth.isSome
  | .inspect => args.format.isSome

/-- Whether the value of an option takes the place of a whole group, because the group is given by
position. -/
def displaces
    (args : Arguments)
    (root : Value)
    (group : Group) :
    Bool :=
  hasFlag args group && root.byPosition group

/-- Some settings with the values of the options in them. -/
def withFlags
    (args : Arguments)
    (settings : Settings) :
    Settings :=
  { settings with
    layout.tabWidth := args.tabWidth.getD settings.layout.tabWidth
    format := args.format.getD settings.format }

section WithFlags

variable {args : Arguments}
variable {order : Order}
variable {root : Value}
variable {settings : Settings}

theorem layoutOf_setFlags
    (h : layoutOf order root = .ok (settings.layout.tabWidth, settings.layout.commentsAreBlank)) :
    layoutOf order (setFlags args root) =
      if displaces args root .layout then .error (.missingField Group.layout.fields.2)
      else .ok ((withFlags args settings).layout.tabWidth, settings.layout.commentsAreBlank) := by
  have hposition : (withFormat root args.format).byPosition .layout = root.byPosition .layout := by
    rw [Value.byPosition, Value.byPosition, find?_withFormat]
  rw [setFlags, layoutOf_withTabWidth ((layoutOf_withFormat order root args.format).trans h),
    hposition]
  simp only [displaces, hasFlag, Bool.and_eq_true, withFlags]

theorem inspectOf_setFlags
    (h : inspectOf order root = .ok (settings.format, settings.showCheckpoints)) :
    inspectOf order (setFlags args root) =
      if displaces args root .inspect then .error (.missingField Group.inspect.fields.2)
      else .ok ((withFlags args settings).format, settings.showCheckpoints) := by
  rw [setFlags, inspectOf_withTabWidth, inspectOf_withFormat h]
  simp only [displaces, hasFlag, Bool.and_eq_true, withFlags]

theorem isSome_find?_setFlags
    {key : String}
    (h : (root.find? key).isSome)
    (args : Arguments) :
    ((setFlags args root).find? key).isSome := by
  have hformat : ((withFormat root args.format).find? key).isSome := by
    rw [withFormat]
    cases args.format with
    | none => exact h
    | some format => exact Value.isSome_find?_set h _ _
  rw [setFlags, withTabWidth]
  cases args.tabWidth with
  | none => exact hformat
  | some width => exact Value.isSome_find?_set hformat _ _

/-- With options the settings are there if no group is displaced, in every order. -/
theorem decodeIn_setFlags_eq_ok_iff
    (h : decodeIn order root = .ok settings)
    {after : Settings} :
    decodeIn order (setFlags args root) = .ok after ↔
      (∀ group, displaces args root group = false) ∧ after = withFlags args settings := by
  obtain ⟨hlayout, hinspect⟩ := decodeIn_eq_ok_iff.1 h
  rw [decodeIn_eq_ok_iff, layoutOf_setFlags hlayout, inspectOf_setFlags hinspect]
  constructor
  · rintro ⟨hlayoutAfter, hinspectAfter⟩
    split at hlayoutAfter
    next => cases hlayoutAfter
    next hkeptLayout =>
      split at hinspectAfter
      next => cases hinspectAfter
      next hkeptInspect =>
        refine ⟨fun group => ?_, ?_⟩
        · cases group with
          | layout => exact Bool.eq_false_iff.2 hkeptLayout
          | inspect => exact Bool.eq_false_iff.2 hkeptInspect
        · obtain ⟨⟨tabWidth, commentsAreBlank⟩, format, showCheckpoints⟩ := after
          cases hlayoutAfter
          cases hinspectAfter
          rfl
  · rintro ⟨hkept, rfl⟩
    rw [hkept .layout, hkept .inspect]
    exact ⟨rfl, rfl⟩

/-- With options the settings are refused for a group that is displaced, and for any such group in
some order. -/
theorem exists_decodeIn_setFlags_eq_error_iff
    (h : ∀ order, decodeIn order root = .ok settings)
    {e : Settings.Error} :
    (∃ order, decodeIn order (setFlags args root) = .error e) ↔
      ∃ group, displaces args root group = true ∧ e = .missingField group.fields.2 := by
  have hlayout := fun order =>
    @layoutOf_setFlags args order root settings (decodeIn_eq_ok_iff.1 (h order)).1
  have hinspect := fun order =>
    @inspectOf_setFlags args order root settings (decodeIn_eq_ok_iff.1 (h order)).2
  obtain ⟨hlayoutFound, hinspectFound⟩ := isSome_find?_of_decodeIn (h .declared)
  have hfound := isSome_find?_setFlags hlayoutFound args
  have hfoundOther := isSome_find?_setFlags hinspectFound args
  simp only [decodeIn_eq_error_iff_of_found hfound hfoundOther, hlayout, hinspect]
  constructor
  · rintro ⟨order, herror⟩
    rcases inOrder_eq_error herror with hlost | hlost
    · split at hlost
      next hdisplaced => exact ⟨.layout, hdisplaced, (Except.error.inj hlost).symm⟩
      next => cases hlost
    · split at hlost
      next hdisplaced => exact ⟨.inspect, hdisplaced, (Except.error.inj hlost).symm⟩
      next => cases hlost
  · rintro ⟨group, hdisplaced, rfl⟩
    cases group with
    | layout =>
        refine ⟨⟨false, fun _ => false⟩, ?_⟩
        rw [if_pos hdisplaced]
        rfl
    | inspect =>
        refine ⟨⟨true, fun _ => false⟩, ?_⟩
        rw [if_pos hdisplaced]
        rfl

/-- With options the settings are there, with the values of the options in them, or refused for a
group that is displaced. -/
theorem exists_eq_decodeIn_setFlags_iff
    (h : ∀ order, decodeIn order root = .ok settings)
    {outcome : Except Settings.Error Settings} :
    (∃ order, outcome = decodeIn order (setFlags args root)) ↔
      ((∀ group, displaces args root group = false) ∧ outcome = .ok (withFlags args settings)) ∨
      ∃ group,
        displaces args root group = true ∧ outcome = .error (.missingField group.fields.2) := by
  cases outcome with
  | ok after =>
      constructor
      · rintro ⟨order, hafter⟩
        obtain ⟨hkept, rfl⟩ := (decodeIn_setFlags_eq_ok_iff (h order)).1 hafter.symm
        exact .inl ⟨hkept, rfl⟩
      · rintro (⟨hkept, hafter⟩ | ⟨group, -, herror⟩)
        · refine ⟨.declared, Eq.symm ?_⟩
          exact (decodeIn_setFlags_eq_ok_iff (h .declared)).2 ⟨hkept, Except.ok.inj hafter⟩
        · cases herror
  | error e =>
      constructor
      · rintro ⟨order, herror⟩
        obtain ⟨group, hdisplaced, rfl⟩ :=
          (exists_decodeIn_setFlags_eq_error_iff h).1 ⟨order, herror.symm⟩
        exact .inr ⟨group, hdisplaced, rfl⟩
      · rintro (⟨-, hafter⟩ | ⟨group, hdisplaced, herror⟩)
        · cases hafter
        · obtain ⟨order, horder⟩ :=
            (exists_decodeIn_setFlags_eq_error_iff h).2
              ⟨group, hdisplaced, Except.error.inj herror⟩
          exact ⟨order, horder.symm⟩

end WithFlags

/-- Where the command comes to settings without its options for the tab width and the format, and to
the same ones in every order in which they may be put together, each option changes its own setting
only.  The exception are groups that the values of the file give by position: an option takes the
place of such a group, and the complaint is that the other setting of some group that is lost in
this way is missing. -/
theorem flags_change_own_settings
    {view : FileView}
    {args : Arguments}
    {settings : Settings}
    (h : ∀ outcome,
      Loads view (layers { args with format := none, tabWidth := none }) outcome →
        outcome = .ok settings)
    (outcome : Except Settings.Error Settings) :
    Loads view (layers args) outcome ↔
      ∃ root,
        FilesLead view args.config.toList defaults (.ok root) ∧
        (((∀ group, displaces args root group = false) ∧
            outcome = .ok
              { settings with
                layout.tabWidth := args.tabWidth.getD settings.layout.tabWidth
                format := args.format.getD settings.format }) ∨
          ∃ group,
            displaces args root group = true ∧
            outcome = .error (.missingField group.fields.2)) := by
  have hread : ∀ e, ¬ FilesLead view args.config.toList defaults (.error e) := by
    intro e hrefused
    cases h _ (loads_layers_iff.2 (.inl ⟨e, hrefused, rfl⟩))
  have hbase : ∀ root, FilesLead view args.config.toList defaults (.ok root) →
      ∀ order, decodeIn order root = .ok settings := by
    intro root hroot order
    exact h _ (loads_layers_iff.2 (.inr ⟨root, order, hroot, rfl⟩))
  rw [loads_layers_iff]
  constructor
  · rintro (⟨e, hrefused, -⟩ | ⟨root, order, hroot, houtcome⟩)
    · exact absurd hrefused (hread e)
    · exact ⟨root, hroot, (exists_eq_decodeIn_setFlags_iff (hbase root hroot)).1 ⟨order, houtcome⟩⟩
  · rintro ⟨root, hroot, hcases⟩
    obtain ⟨order, houtcome⟩ := (exists_eq_decodeIn_setFlags_iff (hbase root hroot)).2 hcases
    exact .inr ⟨root, order, hroot, houtcome⟩

/-- The file names the tab width on a path of its own, and has a table in braces. -/
theorem flags_change_own_settings_in_file :
    let view :=
      (Directory.ofFiles
        [ ("c.toml",
            "\x22Layout.TAB_WIDTH\x22 = 3\ninspect = \x7b show_checkpoints = 'off' \x7d".toUTF8)
        ]).view
    (∀ outcome,
      Loads view (layers ⟨"a.txt", some "c", none, none, false, false, 0⟩) outcome →
        outcome = .ok ⟨⟨3, true⟩, .text, false⟩) ∧
    ∀ outcome,
      Loads view (layers ⟨"a.txt", some "c", some .json, some 8, false, false, 0⟩) outcome ↔
        outcome = .ok ⟨⟨8, true⟩, .json, false⟩ := by
  intro view
  have hkeys : ∀ name ∈ ["c"], FileApart view name := by
    decide +kernel
  have hbase : ∀ outcome,
      Loads view (layers ⟨"a.txt", some "c", none, none, false, false, 0⟩) outcome →
        outcome = .ok ⟨⟨3, true⟩, .text, false⟩ := by
    intro outcome
    have hsome :
        (settingsFor view ⟨"a.txt", some "c", none, none, false, false, 0⟩).toOption =
          some ⟨⟨3, true⟩, .text, false⟩ := by
      decide +kernel
    have hplan := ofLayers_layers ⟨"a.txt", some "c", none, none, false, false, 0⟩
    exact (loads_iff_of_ok hplan hkeys (areApart_flagOverrides _) (eq_ok_of_toOption hsome)).1
  have hvalues :
      ((["c"].foldlM (setFile view) defaults).toOption.map fun root =>
        (root.byPosition .layout, root.byPosition .inspect)) = some (false, false) := by
    decide +kernel
  obtain ⟨root, hroot, hnames⟩ := Option.map_eq_some_iff.1 hvalues
  have hlead : ∀ other, FilesLead view ["c"] defaults (.ok other) ↔ other = root := by
    intro other
    rw [filesLead_iff_of_apart hkeys, eq_ok_of_toOption hroot, Except.ok.injEq]
  have hkept : ∀ group,
      displaces ⟨"a.txt", some "c", some .json, some 8, false, false, 0⟩ root group = false := by
    intro group
    cases group with
    | layout => exact (Prod.mk.inj hnames).1
    | inspect => exact (Prod.mk.inj hnames).2
  refine ⟨hbase, fun outcome => ?_⟩
  rw [@flags_change_own_settings view ⟨"a.txt", some "c", some .json, some 8, false, false, 0⟩ _
    hbase outcome]
  constructor
  · rintro ⟨other, hother, ⟨-, houtcome⟩ | ⟨group, hdisplaced, -⟩⟩
    · exact houtcome
    · rw [(hlead other).1 hother, hkept group] at hdisplaced
      cases hdisplaced
  · rintro rfl
    exact ⟨root, (hlead root).2 rfl, .inl ⟨hkept, rfl⟩⟩

/-- A file that gives the settings for the scan by position is fine without the option for the
tab width, and refused with it. -/
theorem flag_loses_positional_sibling :
    let view := (Directory.ofFiles [("c.toml", "layout = [4, false]".toUTF8)]).view
    settingsFor view ⟨"a.txt", some "c.toml", none, none, false, false, 0⟩ =
        .ok ⟨⟨4, false⟩, .text, true⟩ ∧
      settingsFor view ⟨"a.txt", some "c.toml", none, some 8, false, false, 0⟩ ≠
        .ok ⟨⟨8, false⟩, .text, true⟩ := by
  intro view
  refine ⟨?_, fun h => ?_⟩
  · have hsome :
        (settingsFor view ⟨"a.txt", some "c.toml", none, none, false, false, 0⟩).toOption =
          some ⟨⟨4, false⟩, .text, true⟩ := by
      decide +kernel
    exact eq_ok_of_toOption hsome
  · have hnone :
        (settingsFor view ⟨"a.txt", some "c.toml", none, some 8, false, false, 0⟩).toOption =
          none := by
      decide +kernel
    rw [h] at hnone
    cases hnone

end Command
end Offside
