import Offside.Proofs.GroupSettings
import Offside.Proofs.OverrideOrder

/-!
# Orders that are not fixed

The package that puts the settings together goes through tables in the order of a hash map.  So
three orders are open: that of the keys of a file, that of the overrides, and that of the
conversions.  `Loads` says to what outcomes some layers may come in any of these orders, and the
outcome in the order of the text and of the declarations is one of them (`loads_ofLayers`).

A table is merged entry by entry, and what it comes down to are assignments of values that are set
as a whole (`Assignment.spread`), in some order (`Assignment.Spreads`).  Where the paths of these
part, no two keys lead to one place, and the values are the same in any order
(`filesLead_iff_of_apart`).  Then the outcome is fixed if it is settings (`loads_iff_of_ok`).
-/

namespace Offside
namespace Settings

/-- The path to a part of what stands at a path. -/
def KeyPath.child
    (path : KeyPath)
    (name : String) :
    KeyPath :=
  { path with steps := path.steps ++ [.child name] }

/-- Whether a way ends at a position, where a table is not merged. -/
def endsAtPosition : List Segment → Bool
  | [] => false
  | [.index _] => true
  | _ :: rest => endsAtPosition rest

namespace Assignment

mutual

/-- The assignments of values that are set as a whole, which a value at a path comes down to. -/
def spreadValue (path : KeyPath) : Value → List Assignment
  | .table origin entries =>
      if endsAtPosition path.steps || entries.isEmpty then [(path, .table origin entries)]
      else spreadEntries path entries
  | .scalar origin content => [(path, .scalar origin content)]
  | .array origin items => [(path, .array origin items)]

/-- The assignments that the entries of a table at a path come down to. -/
def spreadEntries (path : KeyPath) : List (String × Value) → List Assignment
  | [] => []
  | (key, value) :: rest => spreadValue (path.child key) value ++ spreadEntries path rest

end

/-- The assignments of values that are set as a whole, which some assignments come down to. -/
def spread (as : List Assignment) : List Assignment :=
  as.flatMap fun a => spreadValue a.1 a.2

end Assignment

theorem endsAtPosition_append_child
    (steps : List Segment)
    (name : String) :
    endsAtPosition (steps ++ [.child name]) = false := by
  induction steps with
  | nil => rfl
  | cons step steps ih =>
      rw [List.cons_append, endsAtPosition]
      · exact ih
      · simp

namespace Value

/-- Replaces what is at the end of some steps. -/
def alterAt (f : Option Value → Value) : List Segment → Option Value → Value
  | [], current => f current
  | .child name :: rest, current =>
      (current.getD nil).alterKey (Lowercase.ofString name) (alterAt f rest)
  | .index i :: rest, current =>
      (current.getD nil).alterIndex i fun v => alterAt f rest (some v)

/-- A value is merged at the end of some steps, unless they end at a position. -/
theorem setAt_eq_alterAt
    {steps : List Segment}
    (h : endsAtPosition steps = false)
    (value : Value) :
    setAt value steps = alterAt (fun current => settleOn current value) steps := by
  induction steps with
  | nil =>
      funext current
      rw [setAt, alterAt]
  | cons step steps ih =>
      funext current
      cases step with
      | child name =>
          have hrest : endsAtPosition steps = false := by
            rw [endsAtPosition] at h
            · exact h
            · simp
          rw [setAt, alterAt, ih hrest]
      | index i =>
          cases steps with
          | nil => cases h
          | cons next steps =>
              have hrest : endsAtPosition (next :: steps) = false := by
                rw [endsAtPosition] at h
                · exact h
                · simp
              rw [setAt_index_of_ne_nil (List.cons_ne_nil next steps), alterAt, ih hrest]

theorem alterAt_append_child
    (f : Option Value → Value)
    (steps : List Segment)
    (name : String) :
    alterAt f (steps ++ [.child name]) =
      alterAt (fun current => (current.getD nil).alterKey (Lowercase.ofString name) f) steps := by
  induction steps with
  | nil =>
      funext current
      rfl
  | cons step steps ih =>
      funext current
      cases step <;> rw [List.cons_append, alterAt, alterAt, ih]

/-- What is at the end of some steps can be replaced in two steps. -/
theorem alterAt_alterAt
    (f g : Option Value → Value)
    (steps : List Segment)
    (current : Option Value) :
    alterAt g steps (some (alterAt f steps current)) =
      alterAt (fun inner => g (some (f inner))) steps current := by
  induction steps generalizing current with
  | nil => rfl
  | cons step steps ih =>
      cases step with
      | child name =>
          rw [alterAt, alterAt, alterAt, Option.getD_some, alterKey_alterKey_self]
          congr 1
          funext inner
          exact ih inner
      | index i =>
          rw [alterAt, alterAt, alterAt, Option.getD_some, alterIndex_alterIndex_self]
          congr 1
          funext inner
          exact ih (some inner)

/-- A table that is merged at a path brings its first entry there, and then the others. -/
theorem set_table_cons
    {path : KeyPath}
    (h : endsAtPosition path.steps = false)
    (root : Value)
    (origin : Option String)
    (entry : String × Value)
    (rest : List (String × Value)) :
    root.set path (.table origin (entry :: rest)) =
      (root.set (path.child entry.1) entry.2).set path (.table origin rest) := by
  obtain ⟨key, value⟩ := entry
  have hchild : endsAtPosition (path.steps ++ [.child key]) = false :=
    endsAtPosition_append_child path.steps key
  simp only [set, KeyPath.child, setAt_eq_alterAt h, setAt_eq_alterAt hchild,
    alterAt_append_child, alterKey_alterKey_self, alterAt_alterAt]
  congr 2
  funext current
  rw [settleOn, addEntries, settleOn, Option.getD_some]
  cases current <;> rfl

/-- A table with one entry brings that entry. -/
theorem set_table_singleton
    {path : KeyPath}
    (h : endsAtPosition path.steps = false)
    (root : Value)
    (origin : Option String)
    (entry : String × Value) :
    root.set path (.table origin [entry]) = root.set (path.child entry.1) entry.2 := by
  obtain ⟨key, value⟩ := entry
  have hchild : endsAtPosition (path.steps ++ [.child key]) = false :=
    endsAtPosition_append_child path.steps key
  simp only [set, KeyPath.child, setAt_eq_alterAt h, setAt_eq_alterAt hchild,
    alterAt_append_child]
  congr 2
  funext current
  rw [settleOn, addEntries, addEntries]
  cases current <;> rfl

/-- A table is merged entry by entry. -/
theorem set_table_eq_foldl
    {path : KeyPath}
    (h : endsAtPosition path.steps = false)
    (root : Value)
    (origin : Option String)
    {entries : List (String × Value)}
    (hne : entries ≠ []) :
    root.set path (.table origin entries) =
      entries.foldl (fun root entry => root.set (path.child entry.1) entry.2) root := by
  induction entries generalizing root with
  | nil => exact absurd rfl hne
  | cons entry rest ih =>
      cases rest with
      | nil => exact set_table_singleton h root origin entry
      | cons next rest =>
          rw [set_table_cons h, List.foldl_cons]
          exact ih _ (List.cons_ne_nil next rest)

end Value

namespace Assignment

mutual

/-- An assignment does what those do that it comes down to. -/
theorem foldl_set_spreadValue
    (path : KeyPath)
    (root : Value) :
    ∀ value : Value,
      (spreadValue path value).foldl (fun root a => root.set a.1 a.2) root = root.set path value
  | .scalar origin content => by
      rw [spreadValue]
      rfl
  | .array origin items => by
      rw [spreadValue]
      rfl
  | .table origin entries => by
      rw [spreadValue]
      split
      next => rfl
      next h =>
        simp only [Bool.or_eq_true, List.isEmpty_iff, not_or, Bool.not_eq_true] at h
        rw [foldl_set_spreadEntries path root entries, Value.set_table_eq_foldl h.1 root origin h.2]

theorem foldl_set_spreadEntries
    (path : KeyPath)
    (root : Value) :
    ∀ entries : List (String × Value),
      (spreadEntries path entries).foldl (fun root a => root.set a.1 a.2) root =
        entries.foldl (fun root entry => root.set (path.child entry.1) entry.2) root
  | [] => by
      rw [spreadEntries]
      rfl
  | (key, value) :: rest => by
      rw [spreadEntries, List.foldl_append, foldl_set_spreadValue (path.child key) root value,
        foldl_set_spreadEntries path _ rest, List.foldl_cons]

end

theorem foldl_set_spread
    (as : List Assignment)
    (root : Value) :
    (spread as).foldl (fun root a => root.set a.1 a.2) root =
      as.foldl (fun root a => root.set a.1 a.2) root := by
  induction as generalizing root with
  | nil => rfl
  | cons a as ih =>
      rw [spread, List.flatMap_cons, List.foldl_append, foldl_set_spreadValue, List.foldl_cons]
      exact ih _

/-- Whether no two values that some assignments bring lead to one place, or through each other. -/
def AreApart (as : List Assignment) : Prop :=
  (spread as).Pairwise fun a b => a.1.Apart b.1

instance : DecidablePred AreApart := fun as =>
  inferInstanceAs (Decidable ((spread as).Pairwise fun a b => a.1.Apart b.1))

/-- The assignments of the entries of a table at a path. -/
def ofEntries
    (path : KeyPath)
    (entries : List (String × Value)) :
    List Assignment :=
  entries.map fun entry => (path.child entry.1, entry.2)

theorem spreadEntries_eq
    (path : KeyPath)
    (entries : List (String × Value)) :
    spreadEntries path entries = spread (ofEntries path entries) := by
  induction entries with
  | nil =>
      rw [spreadEntries]
      rfl
  | cons entry rest ih =>
      rw [spreadEntries, ih]
      rfl

/-- Whether some assignments, one after the other, come down to others, where the entries of each
table are taken in some order. -/
inductive Spreads : List Assignment → List Assignment → Prop
  | nil :
      Spreads [] []
  | whole
      {path : KeyPath}
      {value : Value}
      {as bs : List Assignment}
      (hvalue : spreadValue path value = [(path, value)])
      (hrest : Spreads as bs) :
      Spreads ((path, value) :: as) ((path, value) :: bs)
  | table
      {path : KeyPath}
      {origin : Option String}
      {entries reordered : List (String × Value)}
      {as bs cs : List Assignment}
      (hmerged : (endsAtPosition path.steps || entries.isEmpty) = false)
      (horder : reordered.Perm entries)
      (hentries : Spreads (ofEntries path reordered) bs)
      (hrest : Spreads as cs) :
      Spreads ((path, .table origin entries) :: as) (bs ++ cs)

theorem Spreads.of_whole
    {path : KeyPath}
    {value : Value}
    {as bs : List Assignment}
    (h : Spreads as bs)
    (hvalue : spreadValue path value = [(path, value)]) :
    Spreads ((path, value) :: as) (spreadValue path value ++ bs) := by
  rw [hvalue]
  exact .whole hvalue h

mutual

theorem Spreads.value
    {as bs : List Assignment}
    (h : Spreads as bs)
    (path : KeyPath) :
    ∀ value : Value, Spreads ((path, value) :: as) (spreadValue path value ++ bs)
  | .scalar origin content => by
      refine h.of_whole ?_
      rw [spreadValue]
  | .array origin items => by
      refine h.of_whole ?_
      rw [spreadValue]
  | .table origin entries => by
      by_cases hmerged : (endsAtPosition path.steps || entries.isEmpty) = true
      · refine h.of_whole ?_
        rw [spreadValue, if_pos hmerged]
      · rw [spreadValue, if_neg hmerged]
        exact .table (Bool.eq_false_iff.2 hmerged) (List.Perm.refl entries)
          (Spreads.entries path entries) h

theorem Spreads.entries
    (path : KeyPath) :
    ∀ entries : List (String × Value),
      Spreads (ofEntries path entries) (spreadEntries path entries)
  | [] => by
      rw [spreadEntries]
      exact .nil
  | (key, value) :: rest => by
      rw [spreadEntries]
      exact (Spreads.entries path rest).value (path.child key) value

end

/-- The order in which they are written down is one of them. -/
theorem spreads_spread (as : List Assignment) : Spreads as (spread as) := by
  induction as with
  | nil => exact .nil
  | cons a as ih => exact ih.value a.1 a.2

/-- The assignments are the same in every order. -/
theorem Spreads.perm
    {as bs : List Assignment}
    (h : Spreads as bs) :
    bs.Perm (spread as) := by
  induction h with
  | nil => exact List.Perm.refl []
  | @whole path value as bs hvalue hrest ih =>
      rw [spread, List.flatMap_cons, hvalue]
      exact ih.cons (path, value)
  | @table path origin entries reordered as bs cs hmerged horder hentries hrest ihEntries ih =>
      have hsame : (spread (ofEntries path reordered)).Perm (spread (ofEntries path entries)) :=
        (horder.map _).flatMap_right _
      have hvalue : spreadValue path (.table origin entries) = spread (ofEntries path entries) := by
        rw [spreadValue, hmerged, if_neg Bool.false_ne_true, spreadEntries_eq]
      rw [spread, List.flatMap_cons, hvalue]
      exact (ihEntries.trans hsame).append ih

/-- Whether some assignments may lead from some values to others, in some order of theirs and of
the entries of each table that they bring. -/
def Lead
    (as : List Assignment)
    (root next : Value) :
    Prop :=
  ∃ reordered bs : List Assignment,
    reordered.Perm as ∧
    Spreads reordered bs ∧
    next = bs.foldl (fun root a => root.set a.1 a.2) root

/-- The order in which they are written down is one of them. -/
theorem lead_foldl
    (as : List Assignment)
    (root : Value) :
    Lead as root (as.foldl (fun root a => root.set a.1 a.2) root) :=
  ⟨as, spread as, List.Perm.refl as, spreads_spread as, (foldl_set_spread as root).symm⟩

/-- Assignments lead where those of whole values lead that they come down to. -/
theorem Lead.exists_perm
    {as : List Assignment}
    {root next : Value}
    (h : Lead as root next) :
    ∃ bs : List Assignment,
      bs.Perm (spread as) ∧ next = bs.foldl (fun root a => root.set a.1 a.2) root := by
  obtain ⟨reordered, bs, horder, hspreads, hnext⟩ := h
  exact ⟨bs, hspreads.perm.trans (horder.flatMap_right _), hnext⟩

theorem Lead.of_perm
    {as bs : List Assignment}
    {root next : Value}
    (h : Lead as root next)
    (hperm : as.Perm bs) :
    Lead bs root next := by
  obtain ⟨reordered, cs, horder, hspreads, hnext⟩ := h
  exact ⟨reordered, cs, horder.trans hperm, hspreads, hnext⟩

theorem AreApart.lead_iff
    {as : List Assignment}
    (h : AreApart as)
    {root next : Value} :
    Lead as root next ↔ next = as.foldl (fun root a => root.set a.1 a.2) root := by
  constructor
  · intro hlead
    obtain ⟨bs, hperm, rfl⟩ := hlead.exists_perm
    rw [← foldl_set_spread as root]
    exact (Value.foldl_set_of_perm hperm.symm h root).symm
  · rintro rfl
    exact lead_foldl as root

end Assignment

/-- Whether no two keys of a file lead to one place, or through each other. -/
def FileApart
    (view : FileView)
    (name : String) :
    Prop :=
  ∀ as ∈ fileAssignments? view name, Assignment.AreApart as

instance (view : FileView) : DecidablePred (FileApart view) := fun name =>
  inferInstanceAs (Decidable (∀ as ∈ fileAssignments? view name, Assignment.AreApart as))

/-- Whether files may lead from some values to an outcome, in some order of the keys of each. -/
inductive FilesLead (view : FileView) : List String → Value → Except Error Value → Prop
  | nil
      (root : Value) :
      FilesLead view [] root (.ok root)
  | refused
      {name : String}
      {files : List String}
      {root : Value}
      {e : Error}
      (hfile : setFile view root name = .error e) :
      FilesLead view (name :: files) root (.error e)
  | file
      {name : String}
      {files : List String}
      {root next : Value}
      {as : List Assignment}
      {outcome : Except Error Value}
      (hfile : fileAssignments? view name = some as)
      (hnext : Assignment.Lead as root next)
      (hrest : FilesLead view files next outcome) :
      FilesLead view (name :: files) root outcome

theorem filesLead_foldlM
    (view : FileView)
    (files : List String)
    (root : Value) :
    FilesLead view files root (files.foldlM (setFile view) root) := by
  induction files generalizing root with
  | nil => exact .nil root
  | cons name files ih =>
      rw [List.foldlM_cons]
      cases hfile : setFile view root name with
      | error e => exact .refused hfile
      | ok next =>
          obtain ⟨as, has, rfl⟩ := exists_fileAssignments?_of_setFile hfile
          exact .file has (Assignment.lead_foldl as root) (ih _)

/-- Files no two keys of which lead to one place lead to the same values in any order. -/
theorem filesLead_iff_of_apart
    {view : FileView}
    {files : List String}
    (h : ∀ name ∈ files, FileApart view name)
    {root : Value}
    {outcome : Except Error Value} :
    FilesLead view files root outcome ↔ outcome = files.foldlM (setFile view) root := by
  constructor
  · intro hlead
    induction hlead with
    | nil root => rfl
    | refused hfile =>
        rw [List.foldlM_cons, hfile]
        rfl
    | file hfile hnext hrest ih =>
        obtain ⟨hname, hfiles⟩ := List.forall_mem_cons.1 h
        rw [List.foldlM_cons, setFile_of_fileAssignments? hfile, ih hfiles]
        rw [(hname _ hfile).lead_iff.1 hnext]
        rfl
  · rintro rfl
    exact filesLead_foldlM view files root

/-- Whether layers may come to an outcome, in some order of the keys of each file, of the
overrides and of the conversions. -/
inductive Loads
    (view : FileView)
    (layers : List Layer) :
    Except Error Settings → Prop
  | malformed
      {e : Error}
      (hplan : Plan.ofLayers layers = .error e) :
      Loads view layers (.error e)
  | refused
      {plan : Plan}
      {e : Error}
      (hplan : Plan.ofLayers layers = .ok plan)
      (hfiles : FilesLead view plan.files defaults (.error e)) :
      Loads view layers (.error e)
  | converted
      {plan : Plan}
      {start root : Value}
      (hplan : Plan.ofLayers layers = .ok plan)
      (hfiles : FilesLead view plan.files defaults (.ok start))
      (hoverrides : Assignment.Lead plan.overrides start root)
      (order : Order) :
      Loads view layers (decodeIn order root)

/-- Layers with a plan are refused for a file, or their values are put together and converted. -/
theorem loads_iff_of_plan
    {view : FileView}
    {layers : List Layer}
    {plan : Plan}
    (hplan : Plan.ofLayers layers = .ok plan)
    {outcome : Except Error Settings} :
    Loads view layers outcome ↔
      (∃ e, FilesLead view plan.files defaults (.error e) ∧ outcome = .error e) ∨
      ∃ start root order,
        FilesLead view plan.files defaults (.ok start) ∧
        Assignment.Lead plan.overrides start root ∧
        outcome = decodeIn order root := by
  constructor
  · rintro (hmalformed | ⟨hsame, hrefused⟩ | ⟨hsame, hstart, hroot, order⟩)
    · cases hplan.symm.trans hmalformed
    · obtain rfl := Except.ok.inj (hplan.symm.trans hsame)
      exact .inl ⟨_, hrefused, rfl⟩
    · obtain rfl := Except.ok.inj (hplan.symm.trans hsame)
      exact .inr ⟨_, _, order, hstart, hroot, rfl⟩
  · rintro (⟨e, hrefused, rfl⟩ | ⟨start, root, order, hstart, hroot, rfl⟩)
    · exact .refused hplan hrefused
    · exact .converted hplan hstart hroot order

/-- What the layers come to in the order of the text and of the declarations is one of the
outcomes to which they may come. -/
theorem loads_ofLayers
    (view : FileView)
    (layers : List Layer) :
    Loads view layers (ofLayers view layers) := by
  cases hplan : Plan.ofLayers layers with
  | error e =>
      rw [ofLayers, hplan]
      exact .malformed hplan
  | ok plan =>
      have hfiles := filesLead_foldlM view plan.files defaults
      rw [ofLayers, hplan]
      change Loads view layers (plan.settings view)
      rw [Plan.settings, Plan.values]
      cases hstart : plan.files.foldlM (setFile view) defaults with
      | error e =>
          rw [hstart] at hfiles
          exact .refused hplan hfiles
      | ok start =>
          rw [hstart] at hfiles
          exact .converted hplan hfiles (Assignment.lead_foldl plan.overrides start) .declared

/-- Where no two keys of a file and no two overrides lead to one place, only the order of the
conversions is left open. -/
theorem loads_iff_of_apart
    {view : FileView}
    {layers : List Layer}
    {plan : Plan}
    (hplan : Plan.ofLayers layers = .ok plan)
    (hfiles : ∀ name ∈ plan.files, FileApart view name)
    (hoverrides : Assignment.AreApart plan.overrides)
    {outcome : Except Error Settings} :
    Loads view layers outcome ↔ ∃ order, outcome = (do
      let root ← plan.values view
      decodeIn order root) := by
  rw [loads_iff_of_plan hplan, Plan.values]
  simp only [filesLead_iff_of_apart hfiles, hoverrides.lead_iff]
  constructor
  · rintro (⟨e, hrefused, rfl⟩ | ⟨start, root, order, hstart, rfl, rfl⟩)
    · rw [← hrefused]
      exact ⟨.declared, rfl⟩
    · rw [← hstart]
      exact ⟨order, rfl⟩
  · rintro ⟨order, rfl⟩
    cases hstart : plan.files.foldlM (setFile view) defaults with
    | error e => exact .inl ⟨e, rfl, rfl⟩
    | ok start => exact .inr ⟨start, _, order, rfl, rfl, rfl⟩

/-- Settings to which such layers come in one order are what they come to in every order. -/
theorem loads_iff_of_ok
    {view : FileView}
    {layers : List Layer}
    {plan : Plan}
    {settings : Settings}
    (hplan : Plan.ofLayers layers = .ok plan)
    (hfiles : ∀ name ∈ plan.files, FileApart view name)
    (hoverrides : Assignment.AreApart plan.overrides)
    (h : ofLayers view layers = .ok settings)
    {outcome : Except Error Settings} :
    Loads view layers outcome ↔ outcome = .ok settings := by
  rw [ofLayers, hplan] at h
  change plan.settings view = _ at h
  obtain ⟨root, hroot, hdecode⟩ := bind_eq_ok_iff.1 h
  have hevery : ∀ order, decodeIn order root = .ok settings :=
    fun order => (decodeIn_eq_ok_iff_of_order .declared order).1 hdecode
  rw [loads_iff_of_apart hplan hfiles hoverrides, hroot]
  change (∃ order, outcome = decodeIn order root) ↔ _
  constructor
  · rintro ⟨order, rfl⟩
    exact hevery order
  · rintro rfl
    exact ⟨.declared, (hevery .declared).symm⟩

/-- Layers with the same files and overrides in another order come to the same outcomes. -/
theorem Loads.of_perm
    {view : FileView}
    {layers others : List Layer}
    {files : List String}
    {overrides reordered : List Assignment}
    {outcome : Except Error Settings}
    (h : Loads view layers outcome)
    (hplan : Plan.ofLayers layers = .ok ⟨files, overrides⟩)
    (hother : Plan.ofLayers others = .ok ⟨files, reordered⟩)
    (hperm : overrides.Perm reordered) :
    Loads view others outcome := by
  rcases (loads_iff_of_plan hplan).1 h with
    ⟨e, hrefused, rfl⟩ | ⟨start, root, order, hstart, hroot, rfl⟩
  · exact .refused hother hrefused
  · exact .converted hother hstart (hroot.of_perm hperm) order

/-- Layers that were moved as in `moved_overrides_change_nothing` may come to the same outcomes. -/
theorem loads_iff_of_perm
    {view : FileView}
    {layers reordered : List Layer}
    (hkeys : ∀ layer ∈ layers, layer.IsPlainlyKeyed)
    (hapart : layers.Pairwise Layer.Apart)
    (hperm : reordered.Perm layers)
    (hfiles : reordered.filterMap Layer.fileName? = layers.filterMap Layer.fileName?)
    {outcome : Except Error Settings} :
    Loads view reordered outcome ↔ Loads view layers outcome := by
  obtain ⟨files, overrides, others, hreordered, hlayers, hsame, -⟩ :=
    Plan.ofLayers_of_perm hkeys hapart hperm hfiles
  constructor
  · exact fun h => h.of_perm hreordered hlayers hsame
  · exact fun h => h.of_perm hlayers hreordered hsame.symm

end Settings
end Offside
