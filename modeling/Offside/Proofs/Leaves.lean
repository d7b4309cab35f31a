import Offside.Settings.Layers
import Mathlib.Data.List.Basic

/-!
# Settings as leaves

The four settings are leaves of a tree of values: each one stands under its name in the table
of its group.  What stands there is changed by an assignment at the path of the leaf, and by
one at the path of the group that brings a table with the name of the leaf (`given?`).  No
other assignment changes it, as long as the leaf itself is never taken for a table (`Fits`).
So after some assignments a leaf has the value that the last one of them gave it
(`leaf?_foldl_set`).
-/

namespace Offside
namespace Settings

/-- One of the four settings. -/
inductive Leaf where
  | tabWidth
  | commentsAreBlank
  | format
  | showCheckpoints
  deriving DecidableEq, Repr

namespace Leaf

def all : List Leaf := [tabWidth, commentsAreBlank, format, showCheckpoints]

theorem mem_all (leaf : Leaf) : leaf ∈ all := by
  cases leaf <;> decide

def group : Leaf → Group
  | tabWidth => .layout
  | commentsAreBlank => .layout
  | format => .inspect
  | showCheckpoints => .inspect

def name : Leaf → String
  | tabWidth => Group.layout.fields.1
  | commentsAreBlank => Group.layout.fields.2
  | format => Group.inspect.fields.1
  | showCheckpoints => Group.inspect.fields.2

/-- The names that lead to a setting. -/
def path (leaf : Leaf) : List String := [leaf.group.key, leaf.name]

theorem path_injective
    {first second : Leaf}
    (h : first.path = second.path) :
    first = second := by
  revert h
  cases first <;> cases second <;> decide

end Leaf

/-- The lowercased names of some steps, unless one of them is a position. -/
def stepNames? : List Segment → Option (List String)
  | [] => some []
  | .child name :: rest => (stepNames? rest).map (Lowercase.ofString name :: ·)
  | .index _ :: _ => none

/-- The lowercased names on a path, unless it has a position. -/
def KeyPath.names? (path : KeyPath) : Option (List String) :=
  (stepNames? path.steps).map (Lowercase.ofString path.head :: ·)

namespace Value

def isTable : Value → Bool
  | .table _ _ => true
  | _ => false

/-- What stands at a leaf. -/
def leaf?
    (root : Value)
    (leaf : Leaf) :
    Option Value :=
  (root.find? leaf.group.key).bind (find? leaf.name)

/-- What a table has under a name in letters of any case. -/
def lookup?
    (name : String) :
    Value → Option Value
  | .table _ entries =>
      (List.find? (fun entry => Lowercase.ofString entry.1 == name) entries).map Prod.snd
  | _ => none

/-- Whether the keys of two entries differ, in letters of any case. -/
def KeysDiffer (first second : String × Value) : Prop :=
  Lowercase.ofString first.1 ≠ Lowercase.ofString second.1

instance : DecidableRel KeysDiffer := fun first second =>
  inferInstanceAs (Decidable (Lowercase.ofString first.1 ≠ Lowercase.ofString second.1))

/-- Whether a value is a table no two keys of which are the same in lowercase. -/
def IsPlainTable : Value → Prop
  | .table _ entries => entries.Pairwise KeysDiffer
  | _ => False

instance : DecidablePred IsPlainTable
  | .table _ entries => inferInstanceAs (Decidable (entries.Pairwise KeysDiffer))
  | .scalar _ _ => isFalse id
  | .array _ _ => isFalse id

end Value

/-- A value that is set at a path. -/
abbrev Assignment : Type := KeyPath × Value

namespace Assignment

/-- The value that an assignment gives a leaf: its own, at the path of the leaf, or that under
the name of the leaf, at the path of the group. -/
def given?
    (leaf : Leaf)
    (a : Assignment) :
    Option Value :=
  if a.1.names? = some leaf.path then some a.2
  else if a.1.names? = some [leaf.group.key] then a.2.lookup? leaf.name
  else none

/-- Whether an assignment takes leaves for leaves and groups for tables, and has no position
on its path. -/
structure Fits (a : Assignment) : Prop where
  no_position : a.1.names?.isSome
  group_table : ∀ leaf ∈ Leaf.all, a.1.names? = some [leaf.group.key] → a.2.IsPlainTable
  /-- No path leads through a leaf. -/
  leaf_last : ∀ leaf ∈ Leaf.all, ∀ names ∈ a.1.names?, leaf.path <+: names → names = leaf.path
  leaf_value : ∀ leaf ∈ Leaf.all, ∀ value ∈ given? leaf a, value.isTable = false

instance : DecidablePred Fits := fun a =>
  decidable_of_iff
    (a.1.names?.isSome ∧
      (∀ leaf ∈ Leaf.all, a.1.names? = some [leaf.group.key] → a.2.IsPlainTable) ∧
      (∀ leaf ∈ Leaf.all, ∀ names ∈ a.1.names?, leaf.path <+: names → names = leaf.path) ∧
      ∀ leaf ∈ Leaf.all, ∀ value ∈ given? leaf a, value.isTable = false)
    ⟨fun ⟨position, table, last, value⟩ => ⟨position, table, last, value⟩,
      fun h => ⟨h.no_position, h.group_table, h.leaf_last, h.leaf_value⟩⟩

end Assignment

namespace Value

theorem settleOn_of_not_isTable
    {value : Value}
    (h : value.isTable = false)
    (current : Option Value) :
    settleOn current value = value := by
  cases value with
  | scalar | array => rw [settleOn]
  | table => cases h

/-- What is found in a value is found in a table. -/
theorem exists_table_of_find?
    {root v : Value}
    {key : String}
    (h : root.find? key = some v) :
    ∃ origin entries, root = .table origin entries := by
  cases root with
  | table origin entries => exact ⟨origin, entries, rfl⟩
  | scalar | array => cases h

theorem find?_alterKey_self
    {root v : Value}
    {key : String}
    (h : root.find? key = some v)
    (f : Option Value → Value) :
    (root.alterKey key f).find? key = some (f (some v)) := by
  obtain ⟨origin, entries, rfl⟩ := exists_table_of_find? h
  rw [find?] at h
  rw [alterKey, find?, Entries.find?_alter_self, h]

theorem find?_alterKey_of_ne
    {root v : Value}
    {key other : String}
    (h : root.find? other = some v)
    (hne : other ≠ key)
    (f : Option Value → Value) :
    (root.alterKey key f).find? other = some v := by
  obtain ⟨origin, entries, rfl⟩ := exists_table_of_find? h
  rw [alterKey, find?, Entries.find?_alter_of_ne hne]
  exact h

theorem lookup?_cons_of_eq
    {name key : String}
    (h : Lowercase.ofString key = name)
    (origin : Option String)
    (value : Value)
    (rest : List (String × Value)) :
    lookup? name (.table origin ((key, value) :: rest)) = some value := by
  rw [lookup?, List.find?_cons_of_pos (by simpa using h), Option.map_some]

theorem lookup?_cons_of_ne
    {name key : String}
    (h : Lowercase.ofString key ≠ name)
    (origin : Option String)
    (value : Value)
    (rest : List (String × Value)) :
    lookup? name (.table origin ((key, value) :: rest)) = lookup? name (.table origin rest) := by
  rw [lookup?, List.find?_cons_of_neg (by simpa using h), lookup?]

/-- Merging a table into another changes what is under a name to what the first one has
there. -/
theorem find?_addEntries
    {name : String}
    {entries : List (String × Value)}
    (hplain : entries.Pairwise KeysDiffer)
    (hvalue : ∀ found ∈ lookup? name (.table none entries), found.isTable = false)
    {target v : Value}
    (htarget : target.find? name = some v) :
    (addEntries target entries).find? name =
      some ((lookup? name (.table none entries)).getD v) := by
  induction entries generalizing target v with
  | nil =>
      rw [addEntries, htarget]
      rfl
  | cons entry rest ih =>
      obtain ⟨key, value⟩ := entry
      obtain ⟨hkey, hrest⟩ := List.pairwise_cons.1 hplain
      rw [addEntries]
      by_cases hname : Lowercase.ofString key = name
      · have hfound : lookup? name (.table none ((key, value) :: rest)) = some value :=
          lookup?_cons_of_eq hname none value rest
        have hmissing : lookup? name (.table none rest) = none := by
          rw [lookup?, Option.map_eq_none_iff, List.find?_eq_none]
          intro entry hentry heq
          exact hkey entry hentry (hname.trans (beq_iff_eq.1 heq).symm)
        have hset := find?_alterKey_self htarget fun current => settleOn current value
        rw [settleOn_of_not_isTable (hvalue value hfound)] at hset
        rw [hname, ih hrest (by simp [hmissing]) hset, hmissing, hfound]
        rfl
      · rw [lookup?_cons_of_ne hname] at hvalue ⊢
        exact ih hrest hvalue
          (find?_alterKey_of_ne htarget (Ne.symm hname) fun current => settleOn current value)

/-- What stands at a leaf stands in the table of its group. -/
theorem exists_group_of_leaf?
    {root v : Value}
    {leaf : Leaf}
    (h : root.leaf? leaf = some v) :
    ∃ group, root.find? leaf.group.key = some group ∧ group.find? leaf.name = some v :=
  Option.bind_eq_some_iff.1 h

theorem leaf?_alterKey_group
    {root group v : Value}
    {leaf : Leaf}
    {f : Option Value → Value}
    (hgroup : root.find? leaf.group.key = some group)
    (hleaf : (f (some group)).find? leaf.name = some v) :
    (root.alterKey leaf.group.key f).leaf? leaf = some v := by
  rw [leaf?, find?_alterKey_self hgroup]
  exact hleaf

/-- At the path of a group a table is merged into the table of the group. -/
theorem leaf?_set_group
    {root v value : Value}
    {leaf : Leaf}
    {head : String}
    (hroot : root.leaf? leaf = some v)
    (hhead : Lowercase.ofString head = leaf.group.key)
    (hplain : value.IsPlainTable)
    (hvalue : ∀ found ∈ value.lookup? leaf.name, found.isTable = false) :
    (root.set ⟨head, []⟩ value).leaf? leaf = some ((value.lookup? leaf.name).getD v) := by
  obtain ⟨group, hgroup, hleaf⟩ := exists_group_of_leaf? hroot
  cases value with
  | scalar | array => cases hplain
  | table origin entries =>
      rw [set, hhead]
      refine leaf?_alterKey_group hgroup ?_
      rw [setAt, settleOn, Option.getD_some]
      exact find?_addEntries hplain hvalue hleaf

/-- At the path of a leaf a value that is no table takes the place of what was there. -/
theorem leaf?_set_leaf
    {root v value : Value}
    {leaf : Leaf}
    {head name : String}
    (hroot : root.leaf? leaf = some v)
    (hhead : Lowercase.ofString head = leaf.group.key)
    (hname : Lowercase.ofString name = leaf.name)
    (hvalue : value.isTable = false) :
    (root.set ⟨head, [.child name]⟩ value).leaf? leaf = some value := by
  obtain ⟨group, hgroup, hleaf⟩ := exists_group_of_leaf? hroot
  rw [set, hhead]
  refine leaf?_alterKey_group hgroup ?_
  rw [setAt, hname, Option.getD_some, find?_alterKey_self hleaf, setAt,
    settleOn_of_not_isTable hvalue]

/-- At the path of another part of the group nothing changes. -/
theorem leaf?_set_sibling
    {root v : Value}
    {leaf : Leaf}
    {head name : String}
    (hroot : root.leaf? leaf = some v)
    (hhead : Lowercase.ofString head = leaf.group.key)
    (hname : leaf.name ≠ Lowercase.ofString name)
    (steps : List Segment)
    (value : Value) :
    (root.set ⟨head, .child name :: steps⟩ value).leaf? leaf = some v := by
  obtain ⟨group, hgroup, hleaf⟩ := exists_group_of_leaf? hroot
  rw [set, hhead]
  refine leaf?_alterKey_group hgroup ?_
  rw [setAt, Option.getD_some, find?_alterKey_of_ne hleaf hname]

/-- Outside of the group nothing changes. -/
theorem leaf?_set_outside
    {root v : Value}
    {leaf : Leaf}
    {head : String}
    (hroot : root.leaf? leaf = some v)
    (hhead : leaf.group.key ≠ Lowercase.ofString head)
    (steps : List Segment)
    (value : Value) :
    (root.set ⟨head, steps⟩ value).leaf? leaf = some v := by
  obtain ⟨group, hgroup, hleaf⟩ := exists_group_of_leaf? hroot
  rw [set, leaf?, find?_alterKey_of_ne hgroup hhead]
  exact hleaf

end Value

theorem stepNames?_cons_eq_some
    {step : Segment}
    {steps : List Segment}
    {names : List String}
    (h : stepNames? (step :: steps) = some names) :
    ∃ name more,
      step = .child name ∧
      names = Lowercase.ofString name :: more ∧
      stepNames? steps = some more := by
  cases step with
  | index i => cases h
  | child name =>
      obtain ⟨more, hmore, hnames⟩ := Option.map_eq_some_iff.1 h
      exact ⟨name, more, rfl, hnames.symm, hmore⟩

theorem eq_nil_of_stepNames?
    {steps : List Segment}
    (h : stepNames? steps = some []) :
    steps = [] := by
  cases steps with
  | nil => rfl
  | cons step steps =>
      obtain ⟨name, more, -, hnames, -⟩ := stepNames?_cons_eq_some h
      cases hnames

namespace Assignment

variable {leaf : Leaf}

theorem given?_of_group
    {a : Assignment}
    (h : a.1.names? = some [leaf.group.key]) :
    given? leaf a = a.2.lookup? leaf.name := by
  rw [given?, h, if_neg (by simp [Leaf.path]), if_pos rfl]

theorem given?_of_leaf
    {a : Assignment}
    (h : a.1.names? = some leaf.path) :
    given? leaf a = some a.2 := by
  rw [given?, if_pos h]

theorem given?_of_ne
    {a : Assignment}
    (hleaf : a.1.names? ≠ some leaf.path)
    (hgroup : a.1.names? ≠ some [leaf.group.key]) :
    given? leaf a = none := by
  rw [given?, if_neg hleaf, if_neg hgroup]

/-- At the path of one leaf no other leaf is given a value. -/
theorem given?_of_other_leaf
    {a : Assignment}
    {other : Leaf}
    (h : a.1.names? = some other.path)
    (hne : other ≠ leaf) :
    given? leaf a = none := by
  rw [given?_of_ne]
  · rw [h]
    exact fun heq => hne (Leaf.path_injective (Option.some.inj heq))
  · rw [h]
    simp [Leaf.path]

/-- A value that is no table fits at a leaf. -/
theorem fits_of_leaf
    {a : Assignment}
    (h : a.1.names? = some leaf.path)
    (hvalue : a.2.isTable = false) :
    a.Fits where
  no_position := by rw [h]; rfl
  group_table other _ hgroup := by simp [h, Leaf.path] at hgroup
  leaf_last other _ names hnames hstart := by
    rw [h, Option.mem_def, Option.some.injEq] at hnames
    subst hnames
    exact (hstart.eq_of_length rfl).symm
  leaf_value other _ value hgiven := by
    by_cases hother : leaf = other
    · subst hother
      rw [given?_of_leaf h, Option.mem_def, Option.some.injEq] at hgiven
      rwa [← hgiven]
    · rw [given?_of_other_leaf h hother] at hgiven
      cases hgiven

/-- An assignment changes what stands at a leaf to the value that it gives the leaf, if it
gives one. -/
theorem Fits.leaf?_set
    {a : Assignment}
    {root v : Value}
    (h : a.Fits)
    (hroot : root.leaf? leaf = some v) :
    (root.set a.1 a.2).leaf? leaf = some ((given? leaf a).getD v) := by
  obtain ⟨⟨head, steps⟩, value⟩ := a
  obtain ⟨names, hnames⟩ := Option.isSome_iff_exists.1 h.no_position
  obtain ⟨more, hsteps, rfl⟩ := Option.map_eq_some_iff.1 hnames
  have hvalue := h.leaf_value leaf leaf.mem_all
  by_cases hhead : Lowercase.ofString head = leaf.group.key
  · cases steps with
    | nil =>
        cases hsteps
        rw [hhead] at hnames
        rw [given?_of_group hnames] at hvalue ⊢
        exact Value.leaf?_set_group hroot hhead (h.group_table leaf leaf.mem_all hnames) hvalue
    | cons step steps =>
        obtain ⟨name, more, rfl, rfl, hmore⟩ := stepNames?_cons_eq_some hsteps
        by_cases hname : Lowercase.ofString name = leaf.name
        · -- The path leads to the leaf, so it ends there.
          rw [hhead, hname] at hnames
          have hpath := h.leaf_last leaf leaf.mem_all _ hnames (List.prefix_append leaf.path more)
          obtain rfl : more = [] := by simpa [Leaf.path] using hpath
          obtain rfl := eq_nil_of_stepNames? hmore
          rw [given?_of_leaf hnames] at hvalue ⊢
          exact Value.leaf?_set_leaf hroot hhead hname (hvalue value rfl)
        · rw [given?_of_ne (by simp [hnames, Leaf.path, hname]) (by simp [hnames])]
          exact Value.leaf?_set_sibling hroot hhead (Ne.symm hname) steps value
  · rw [given?_of_ne (by simp [hnames, Leaf.path, hhead]) (by simp [hnames, hhead])]
    exact Value.leaf?_set_outside hroot (Ne.symm hhead) steps value

/-- The last of some values, or else the one there was before them. -/
theorem getLast?_filterMap_cons_getD
    {α : Type}
    (f : α → Option Value)
    (a : α)
    (as : List α)
    (v : Value) :
    ((a :: as).filterMap f).getLast?.getD v =
      (as.filterMap f).getLast?.getD ((f a).getD v) := by
  cases h : f a with
  | none => rw [List.filterMap_cons_none h, Option.getD_none]
  | some value =>
      rw [List.filterMap_cons_some h, List.getLast?_cons, Option.getD_some, Option.getD_some]

/-- After some assignments a leaf has the value that the last one of them gave it. -/
theorem leaf?_foldl_set
    {as : List Assignment}
    {root v : Value}
    (h : ∀ a ∈ as, a.Fits)
    (hroot : root.leaf? leaf = some v) :
    (as.foldl (fun root a => root.set a.1 a.2) root).leaf? leaf =
      some ((as.filterMap (given? leaf)).getLast?.getD v) := by
  induction as generalizing root v with
  | nil => exact hroot
  | cons a as ih =>
      obtain ⟨ha, has⟩ := List.forall_mem_cons.1 h
      rw [List.foldl_cons, ih has (ha.leaf?_set hroot), getLast?_filterMap_cons_getD]

end Assignment
end Settings
end Offside
