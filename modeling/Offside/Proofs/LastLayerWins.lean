import Mathlib.Data.List.Induction
import Offside.Proofs.ConversionOrder
import Offside.Proofs.Leaves

/-!
# The last layer wins

Layers are put together before anything is converted.  Each of the four settings goes its own
way: what counts is the last override of it, or else the value that the last file with one has,
or else its default (`winning`).  So the settings are these four values converted, and a value
that a later layer hides is never converted at all.
-/

namespace Offside
namespace Settings

namespace Leaf

/-- The path of a setting in one text. -/
def key (leaf : Leaf) : String := leaf.group.key ++ "." ++ leaf.name

/-- The value of a setting that no layer has. -/
def fallback : Leaf → Value
  | tabWidth => .scalar none (.int 4)
  | commentsAreBlank => .scalar none (.bool true)
  | format => .scalar none (.string "text")
  | showCheckpoints => .scalar none (.bool true)

theorem leaf?_defaults (leaf : Leaf) : defaults.leaf? leaf = some leaf.fallback := by
  cases leaf <;> rfl

end Leaf

/-- The settings that a value for each of them is converted to. -/
def ofLeaves (values : Leaf → Value) : Except Error Settings := do
  let tabWidth ← decodeWord Leaf.tabWidth.key (values .tabWidth)
  let commentsAreBlank ← decodeBool Leaf.commentsAreBlank.key (values .commentsAreBlank)
  let format ← decodeFormat (values .format)
  let showCheckpoints ← decodeBool Leaf.showCheckpoints.key (values .showCheckpoints)
  pure ⟨⟨tabWidth, commentsAreBlank⟩, format, showCheckpoints⟩

/-- The settings that a value for each of them is converted to, in some order. -/
def ofLeavesIn
    (order : Order)
    (values : Leaf → Value) :
    Except Error Settings := do
  let (layout, inspect) ← inOrder order.inspectFirst
    (inOrder (order.secondFirst .layout)
      (decodeWord Leaf.tabWidth.key (values .tabWidth))
      (decodeBool Leaf.commentsAreBlank.key (values .commentsAreBlank)))
    (inOrder (order.secondFirst .inspect)
      (decodeFormat (values .format))
      (decodeBool Leaf.showCheckpoints.key (values .showCheckpoints)))
  pure ⟨⟨layout.1, layout.2⟩, inspect.1, inspect.2⟩

theorem ofLeavesIn_declared (values : Leaf → Value) :
    ofLeavesIn .declared values = ofLeaves values := by
  simp only [ofLeavesIn, inOrder, Order.declared, Bool.false_eq_true, if_false, bind_assoc,
    pure_bind, ofLeaves]

theorem decodeGroup_of_find?
    {α β : Type}
    {group : Group}
    {value v w : Value}
    (order : Order)
    (first : String → Value → Except Error α)
    (second : String → Value → Except Error β)
    (hfirst : value.find? group.fields.1 = some v)
    (hsecond : value.find? group.fields.2 = some w) :
    decodeGroup order group first second value =
      inOrder (order.secondFirst group)
        (first (group.key ++ "." ++ group.fields.1) v)
        (second (group.key ++ "." ++ group.fields.2) w) := by
  obtain ⟨origin, entries, rfl⟩ := Value.exists_table_of_find? hfirst
  rw [decodeGroup]
  exact decodeFields_of_found hfirst hsecond _

/-- The settings of a group stand in its table. -/
theorem exists_group_of_leaves?
    {root v w : Value}
    {first second : Leaf}
    (hfirst : root.leaf? first = some v)
    (hsecond : root.leaf? second = some w)
    (hgroup : second.group = first.group) :
    ∃ value,
      root.find? first.group.key = some value ∧
      value.find? first.name = some v ∧
      value.find? second.name = some w := by
  obtain ⟨value, hvalue, hv⟩ := Value.exists_group_of_leaf? hfirst
  obtain ⟨same, hsame, hw⟩ := Value.exists_group_of_leaf? hsecond
  rw [hgroup, hvalue] at hsame
  obtain rfl := Option.some.inj hsame
  exact ⟨value, hvalue, hv, hw⟩

theorem decodeIn_of_leaf?
    {root : Value}
    {values : Leaf → Value}
    (h : ∀ leaf, root.leaf? leaf = some (values leaf))
    (order : Order) :
    decodeIn order root = ofLeavesIn order values := by
  obtain ⟨layout, hlayout, htabWidth, hcomments⟩ :=
    exists_group_of_leaves? (h .tabWidth) (h .commentsAreBlank) rfl
  obtain ⟨inspect, hinspect, hformat, hshow⟩ :=
    exists_group_of_leaves? (h .format) (h .showCheckpoints) rfl
  have hfirst := decodeGroup_of_find? order decodeWord decodeBool htabWidth hcomments
  have hsecond := decodeGroup_of_find? order (fun _ => decodeFormat) decodeBool hformat hshow
  rw [decodeIn, decodeFields_of_found hlayout hinspect, decodeLayout, decodeInspect, hfirst,
    hsecond]
  rfl

/-- The values that the top-level entries of a document set, in order. -/
def assignments
    (origin : Option String)
    (entries : Toml.Entries) :
    List Assignment :=
  entries.map fun entry => (Value.pathOfKey entry.1, Value.ofNode origin entry.2)

/-- The values that a file sets, if it is found and reads as a document. -/
def fileAssignments?
    (view : FileView)
    (name : String) :
    Option (List Assignment) :=
  match findFile view name with
  | .error _ => none
  | .ok found =>
      match (view found).readText with
      | .error _ => none
      | .ok text =>
          match Toml.parse? text with
          | some (.entries entries) => some (assignments (some (shownName found)) entries)
          | _ => none

theorem exists_entries_of_fileAssignments?
    {view : FileView}
    {name : String}
    {as : List Assignment}
    (h : fileAssignments? view name = some as) :
    ∃ found text entries,
      findFile view name = .ok found ∧
      (view found).readText = .ok text ∧
      Toml.parse? text = some (.entries entries) ∧
      as = assignments (some (shownName found)) entries := by
  unfold fileAssignments? at h
  split at h
  next => cases h
  next found hfound =>
    split at h
    next => cases h
    next text htext =>
      split at h
      next entries hparse =>
        exact ⟨found, text, entries, hfound, htext, hparse, (Option.some.inj h).symm⟩
      next => cases h

theorem setDocument_eq_foldl
    (root : Value)
    (origin : Option String)
    (entries : Toml.Entries) :
    root.setDocument origin entries =
      (assignments origin entries).foldl (fun root a => root.set a.1 a.2) root := by
  rw [Value.setDocument, assignments, List.foldl_map]

theorem setFile_of_fileAssignments?
    {view : FileView}
    {name : String}
    {as : List Assignment}
    (h : fileAssignments? view name = some as)
    (root : Value) :
    setFile view root name = .ok (as.foldl (fun root a => root.set a.1 a.2) root) := by
  obtain ⟨found, text, entries, hfound, htext, hparse, rfl⟩ := exists_entries_of_fileAssignments? h
  rw [← setDocument_eq_foldl]
  simp only [setFile, hfound, bind, Except.bind, htext, hparse]

/-- A file that is set sets the values that it has. -/
theorem exists_fileAssignments?_of_setFile
    {view : FileView}
    {name : String}
    {root next : Value}
    (h : setFile view root name = .ok next) :
    ∃ as,
      fileAssignments? view name = some as ∧
      next = as.foldl (fun root a => root.set a.1 a.2) root := by
  obtain ⟨found, hfound, h⟩ := bind_eq_ok_iff.1 h
  split at h
  next => cases h
  next text htext =>
    split at h
    next => cases h
    next => cases h
    next entries hparse =>
      refine ⟨assignments (some (shownName found)) entries, ?_, ?_⟩
      · simp only [fileAssignments?, hfound, htext, hparse]
      · rw [← setDocument_eq_foldl]
        exact (Except.ok.inj h).symm

/-- Whether some assignments take leaves for leaves and groups for tables, and give no leaf a
value twice.  A document whose keys differ in lowercase, and none of whose paths leads through
another one, gives no leaf a value twice. -/
structure IsPlain (as : List Assignment) : Prop where
  fits : ∀ a ∈ as, a.Fits
  once : ∀ leaf ∈ Leaf.all, as.Pairwise fun a b =>
    (Assignment.given? leaf a).isNone ∨ (Assignment.given? leaf b).isNone

instance : DecidablePred IsPlain := fun as =>
  decidable_of_iff
    ((∀ a ∈ as, a.Fits) ∧
      ∀ leaf ∈ Leaf.all, as.Pairwise fun a b =>
        (Assignment.given? leaf a).isNone ∨ (Assignment.given? leaf b).isNone)
    ⟨fun ⟨fits, once⟩ => ⟨fits, once⟩, fun h => ⟨h.fits, h.once⟩⟩

/-- The last value that a plain document gives a leaf is the only one. -/
theorem IsPlain.getLast?_filterMap
    {as : List Assignment}
    (h : IsPlain as)
    (leaf : Leaf) :
    (as.filterMap (Assignment.given? leaf)).getLast? = as.findSome? (Assignment.given? leaf) := by
  have honce := h.once leaf leaf.mem_all
  clear h
  induction as with
  | nil => rfl
  | cons a as ih =>
      obtain ⟨hfirst, hrest⟩ := List.pairwise_cons.1 honce
      cases hgiven : Assignment.given? leaf a with
      | none => rw [List.filterMap_cons_none hgiven, List.findSome?_cons, hgiven, ih hrest]
      | some value =>
          have hnone : as.filterMap (Assignment.given? leaf) = [] := by
            rw [List.filterMap_eq_nil_iff]
            intro b hb
            simpa [hgiven] using hfirst b hb
          rw [List.filterMap_cons_some hgiven, List.findSome?_cons, hgiven, hnone]
          rfl

namespace Layer

/-- The file that a layer names. -/
def fileName? : Layer → Option String
  | file name => some name
  | override _ _ => none

/-- The value that an override gives a leaf. -/
def override?
    (leaf : Leaf) :
    Layer → Option Value
  | file _ => none
  | override key value =>
      if (KeyPath.parse? key).bind KeyPath.names? = some leaf.path then some value else none

/-- Whether a layer is a file that reads as a plain document, or an override of a leaf with a
value that is no table.  The path of the leaf may be in letters of any case. -/
def Plain (view : FileView) : Layer → Prop
  | file name => ∃ as ∈ fileAssignments? view name, IsPlain as
  | override key value =>
      (∃ leaf ∈ Leaf.all, (KeyPath.parse? key).bind KeyPath.names? = some leaf.path) ∧
        value.isTable = false

instance (view : FileView) : DecidablePred (Plain view)
  | file name => inferInstanceAs (Decidable (∃ as ∈ fileAssignments? view name, IsPlain as))
  | override key value =>
      inferInstanceAs
        (Decidable
          ((∃ leaf ∈ Leaf.all, (KeyPath.parse? key).bind KeyPath.names? = some leaf.path) ∧
            value.isTable = false))

end Layer

/-- The value that a file gives a leaf. -/
def fileValue?
    (view : FileView)
    (leaf : Leaf)
    (name : String) :
    Option Value :=
  (fileAssignments? view name).bind fun as => as.findSome? (Assignment.given? leaf)

/-- The value of a leaf that counts: that of the last override of it, or else that of the last
file with a value for it, or else its default. -/
def winning
    (view : FileView)
    (layers : List Layer)
    (leaf : Leaf) :
    Value :=
  ((layers.filterMap (Layer.override? leaf)).getLast?.or
    ((layers.filterMap Layer.fileName?).filterMap (fileValue? view leaf)).getLast?).getD
      leaf.fallback

/-- After some plain files a leaf has the value of the last file with one for it. -/
theorem exists_foldlM_setFile
    {view : FileView}
    {files : List String}
    {root : Value}
    {values : Leaf → Value}
    (hfiles : ∀ name ∈ files, ∃ as ∈ fileAssignments? view name, IsPlain as)
    (hroot : ∀ leaf, root.leaf? leaf = some (values leaf)) :
    ∃ after,
      files.foldlM (setFile view) root = .ok after ∧
      ∀ leaf, after.leaf? leaf =
        some ((files.filterMap (fileValue? view leaf)).getLast?.getD (values leaf)) := by
  induction files generalizing root values with
  | nil => exact ⟨root, rfl, hroot⟩
  | cons name files ih =>
      obtain ⟨⟨as, has, hplain⟩, hrest⟩ := List.forall_mem_cons.1 hfiles
      have hset := setFile_of_fileAssignments? has root
      have hleaf : ∀ leaf,
          (as.foldl (fun root a => root.set a.1 a.2) root).leaf? leaf =
            some ((fileValue? view leaf name).getD (values leaf)) := by
        intro leaf
        rw [Assignment.leaf?_foldl_set hplain.fits (hroot leaf), hplain.getLast?_filterMap,
          fileValue?, Option.mem_def.1 has, Option.bind_some]
      obtain ⟨after, hafter, hleaves⟩ := ih hrest hleaf
      refine ⟨after, ?_, fun leaf => ?_⟩
      · rw [List.foldlM_cons, hset]
        exact hafter
      · rw [hleaves, Assignment.getLast?_filterMap_cons_getD]

theorem filterMap_concat_of_none
    {α β : Type}
    {f : α → Option β}
    {a : α}
    (h : f a = none)
    (as : List α) :
    (as ++ [a]).filterMap f = as.filterMap f := by
  rw [List.filterMap_append, List.filterMap_cons_none h, List.filterMap_nil, List.append_nil]

theorem getLast?_filterMap_concat
    {α β : Type}
    {f : α → Option β}
    {a : α}
    {b : β}
    (h : f a = some b)
    (as : List α) :
    ((as ++ [a]).filterMap f).getLast? = some b := by
  rw [List.filterMap_append, List.filterMap_cons_some h, List.filterMap_nil,
    List.getLast?_concat]

namespace Plan

/-- Whether a plan has the files of some layers, and overrides that come down to the same. -/
structure Holds
    (plan : Plan)
    (layers : List Layer) :
    Prop where
  files : plan.files = layers.filterMap Layer.fileName?
  fits : ∀ o ∈ plan.overrides, Assignment.Fits o
  last : ∀ leaf,
    (plan.overrides.filterMap (Assignment.given? leaf)).getLast? =
      (layers.filterMap (Layer.override? leaf)).getLast?

theorem holds_initial : initial.Holds [] :=
  ⟨rfl, fun _ h => absurd h List.not_mem_nil, fun _ => rfl⟩

theorem Holds.addFile
    {plan : Plan}
    {layers : List Layer}
    (h : plan.Holds layers)
    (name : String) :
    (plan.addFile name).Holds (layers ++ [.file name]) where
  files := by
    rw [Plan.addFile, h.files, List.filterMap_append]
    rfl
  fits := h.fits
  last leaf := by
    rw [filterMap_concat_of_none rfl]
    exact h.last leaf

/-- Overrides at the path of one leaf have nothing for another one. -/
theorem filterMap_given?_filter
    {path : KeyPath}
    {leaf other : Leaf}
    (hpath : path.names? = some leaf.path)
    (hne : leaf ≠ other)
    (overrides : List Assignment) :
    (overrides.filter fun o => o.1 != path).filterMap (Assignment.given? other) =
      overrides.filterMap (Assignment.given? other) := by
  induction overrides with
  | nil => rfl
  | cons o overrides ih =>
      by_cases ho : o.1 = path
      · have hnone : Assignment.given? other o = none :=
          Assignment.given?_of_other_leaf (by rw [ho, hpath]) hne
        rw [List.filter_cons_of_neg (by simp [ho]), List.filterMap_cons_none hnone, ih]
      · rw [List.filter_cons_of_pos (by simp [ho]), List.filterMap_cons, List.filterMap_cons, ih]

/-- An override takes the place of the earlier ones of its key, and becomes the last one of
its leaf. -/
theorem Holds.addOverride
    {plan : Plan}
    {layers : List Layer}
    {key : String}
    {value : Value}
    {path : KeyPath}
    {leaf : Leaf}
    (h : plan.Holds layers)
    (hkey : KeyPath.parse? key = some path)
    (hpath : path.names? = some leaf.path)
    (hvalue : value.isTable = false) :
    ∃ after,
      plan.addOverride key value = .ok after ∧
      after.Holds (layers ++ [.override key value]) := by
  refine ⟨_, by rw [Plan.addOverride, hkey], ?_, ?_, fun other => ?_⟩
  · rw [filterMap_concat_of_none rfl]
    exact h.files
  · intro o ho
    rcases List.mem_append.1 ho with hbefore | hlast
    · exact h.fits o (List.mem_filter.1 hbefore).1
    · rw [List.mem_singleton.1 hlast]
      exact Assignment.fits_of_leaf hpath hvalue
  · by_cases hother : leaf = other
    · subst hother
      have hgiven : Assignment.given? leaf (path, value) = some value :=
        Assignment.given?_of_leaf hpath
      have hlayer : Layer.override? leaf (.override key value) = some value := by
        rw [Layer.override?, hkey, Option.bind_some, if_pos hpath]
      rw [getLast?_filterMap_concat hgiven, getLast?_filterMap_concat hlayer]
    · -- Neither the override nor those that it replaces have anything for another leaf.
      have hgiven : Assignment.given? other (path, value) = none :=
        Assignment.given?_of_other_leaf hpath hother
      have hlayer : Layer.override? other (.override key value) = none := by
        rw [Layer.override?, hkey, Option.bind_some, if_neg]
        rw [hpath]
        exact fun heq => hother (Leaf.path_injective (Option.some.inj heq))
      rw [filterMap_concat_of_none hgiven, filterMap_concat_of_none hlayer,
        filterMap_given?_filter hpath hother, h.last other]

theorem ofLayers_append_singleton
    (layers : List Layer)
    (layer : Layer) :
    ofLayers (layers ++ [layer]) = (do
      let plan ← ofLayers layers
      plan.addLayer layer) := by
  rw [ofLayers, List.foldlM_append]
  simp only [List.foldlM_cons, List.foldlM_nil, bind_pure, ofLayers]

/-- Plain layers make a plan. -/
theorem exists_holds_of_plain
    {view : FileView}
    {layers : List Layer}
    (h : ∀ layer ∈ layers, layer.Plain view) :
    ∃ plan, ofLayers layers = .ok plan ∧ plan.Holds layers := by
  induction layers using List.reverseRecOn with
  | nil => exact ⟨initial, rfl, holds_initial⟩
  | append_singleton layers layer ih =>
      obtain ⟨plan, hplan, hholds⟩ := ih fun l hl => h l (List.mem_append_left _ hl)
      have hlayer := h layer (List.mem_append_right _ List.mem_cons_self)
      have hstep : ofLayers (layers ++ [layer]) = plan.addLayer layer := by
        rw [ofLayers_append_singleton, hplan]
        rfl
      rw [hstep]
      cases layer with
      | file name => exact ⟨plan.addFile name, rfl, hholds.addFile name⟩
      | override key value =>
          obtain ⟨⟨leaf, -, hpath⟩, hvalue⟩ := hlayer
          obtain ⟨path, hkey, hnames⟩ := Option.bind_eq_some_iff.1 hpath
          exact hholds.addOverride hkey hnames hvalue

theorem Holds.plain_files
    {view : FileView}
    {layers : List Layer}
    {plan : Plan}
    (hplan : plan.Holds layers)
    (h : ∀ layer ∈ layers, layer.Plain view) :
    ∀ name ∈ plan.files, ∃ as ∈ fileAssignments? view name, IsPlain as := by
  intro name hname
  rw [hplan.files, List.mem_filterMap] at hname
  obtain ⟨layer, hlayer, hfile⟩ := hname
  cases layer with
  | override key value => cases hfile
  | file other =>
      obtain rfl := Option.some.inj hfile
      exact h _ hlayer

/-- The values of plain layers put together have the winning value at each leaf. -/
theorem Holds.exists_values
    {view : FileView}
    {layers : List Layer}
    {plan : Plan}
    (hplan : plan.Holds layers)
    (h : ∀ layer ∈ layers, layer.Plain view) :
    ∃ root,
      plan.values view = .ok root ∧
      ∀ leaf, root.leaf? leaf = some (winning view layers leaf) := by
  obtain ⟨root, hroot, hleaves⟩ := exists_foldlM_setFile (hplan.plain_files h) Leaf.leaf?_defaults
  refine ⟨plan.overrides.foldl (fun v o => v.set o.1 o.2) root, ?_, fun leaf => ?_⟩
  · rw [values, hroot]
    rfl
  · rw [Assignment.leaf?_foldl_set hplan.fits (hleaves leaf), hplan.last, hplan.files, winning,
      Option.getD_or]

end Plan

/-- Whether the settings are there does not depend on the order in which they are converted. -/
theorem ofLeavesIn_eq_ok_iff
    {order : Order}
    {values : Leaf → Value}
    {settings : Settings} :
    ofLeavesIn order values = .ok settings ↔
      decodeWord Leaf.tabWidth.key (values .tabWidth) = .ok settings.layout.tabWidth ∧
      decodeBool Leaf.commentsAreBlank.key (values .commentsAreBlank) =
        .ok settings.layout.commentsAreBlank ∧
      decodeFormat (values .format) = .ok settings.format ∧
      decodeBool Leaf.showCheckpoints.key (values .showCheckpoints) =
        .ok settings.showCheckpoints := by
  rw [ofLeavesIn, bind_eq_ok_iff]
  constructor
  · rintro ⟨⟨layout, inspect⟩, hboth, hsettings⟩
    obtain ⟨hlayout, hinspect⟩ := inOrder_eq_ok_iff.1 hboth
    obtain ⟨htabWidth, hcomments⟩ := inOrder_eq_ok_iff.1 hlayout
    obtain ⟨hformat, hshown⟩ := inOrder_eq_ok_iff.1 hinspect
    cases hsettings
    exact ⟨htabWidth, hcomments, hformat, hshown⟩
  · rintro ⟨htabWidth, hcomments, hformat, hshown⟩
    let layout := (settings.layout.tabWidth, settings.layout.commentsAreBlank)
    refine ⟨(layout, settings.format, settings.showCheckpoints),
      inOrder_eq_ok_iff.2 ⟨?_, ?_⟩, rfl⟩
    · exact inOrder_eq_ok_iff.2 ⟨htabWidth, hcomments⟩
    · exact inOrder_eq_ok_iff.2 ⟨hformat, hshown⟩

theorem ofLayers_eq_ofLeaves_winning
    {view : FileView}
    {layers : List Layer}
    (h : ∀ layer ∈ layers, layer.Plain view) :
    ofLayers view layers = ofLeaves (winning view layers) := by
  obtain ⟨plan, hplan, hholds⟩ := Plan.exists_holds_of_plain h
  obtain ⟨root, hroot, hleaves⟩ := hholds.exists_values h
  rw [ofLayers, hplan]
  change plan.settings view = _
  rw [Plan.settings, hroot, ← ofLeavesIn_declared]
  exact decodeIn_of_leaf? hleaves .declared

/-- The settings of plain layers are the four winning values converted, each on its own: they
are there if and only if these four values convert.  Both sides of the equation are taken in the
order of the text and of the declarations, which counts where several values do not convert, or
where two overrides of a leaf have keys in different letters; `loads_iff_of_plain` is about every
order. -/
theorem last_layer_wins
    {view : FileView}
    {layers : List Layer}
    (h : ∀ layer ∈ layers, layer.Plain view) :
    ofLayers view layers = ofLeaves (winning view layers) ∧
    ∀ settings, ofLayers view layers = .ok settings ↔
      decodeWord Leaf.tabWidth.key (winning view layers .tabWidth) =
        .ok settings.layout.tabWidth ∧
      decodeBool Leaf.commentsAreBlank.key (winning view layers .commentsAreBlank) =
        .ok settings.layout.commentsAreBlank ∧
      decodeFormat (winning view layers .format) = .ok settings.format ∧
      decodeBool Leaf.showCheckpoints.key (winning view layers .showCheckpoints) =
        .ok settings.showCheckpoints := by
  have hlayers := ofLayers_eq_ofLeaves_winning h
  refine ⟨hlayers, fun settings => ?_⟩
  rw [hlayers, ← ofLeavesIn_declared]
  exact ofLeavesIn_eq_ok_iff

/-- The word in the first file is no width, but the override hides it. -/
theorem last_layer_wins_over_word :
    ofLayers
        (Directory.ofFiles
          [ ("first.toml", "Layout.TAB_WIDTH = \"wide\"".toUTF8),
            ("second.toml", "\"inspect.format\" = \"json\"".toUTF8) ]).view
        [ .override "layout.tab_width" (.scalar none (.int 8)),
          .file "first.toml",
          .file "second" ] =
      .ok ⟨⟨8, true⟩, .json, true⟩ := by
  refine ((last_layer_wins ?_).2 _).2
    ⟨eq_ok_of_toOption ?_, eq_ok_of_toOption ?_, eq_ok_of_toOption ?_, eq_ok_of_toOption ?_⟩
  · decide +kernel
  · decide +kernel
  · decide +kernel
  · decide +kernel
  · decide +kernel

end Settings
end Offside
