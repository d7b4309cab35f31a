import Offside.Proofs.GroupSettings
import Offside.Proofs.OverrideOrder

/-!
# What leaves a setting alone

An assignment leaves a leaf alone when its path parts from the path of the leaf at a name, or
when it brings the group of the leaf a table without the name of the leaf (`Spares`).  Such
assignments commute with one at the leaf itself (`set_comm_of_spares`).  So a value that stands
at a leaf, in the sense that to set it there changes nothing, still stands there after them, and
one that takes its place afterwards might as well have been there from the start.
-/

namespace Offside
namespace Settings

namespace Leaf

/-- The path of a setting in lowercase letters. -/
def keyPath (leaf : Leaf) : KeyPath := ⟨leaf.group.key, [.child leaf.name]⟩

theorem parse?_key (leaf : Leaf) : KeyPath.parse? leaf.key = some leaf.keyPath := by
  cases leaf <;> decide +kernel

theorem names?_keyPath (leaf : Leaf) : leaf.keyPath.names? = some leaf.path := by
  cases leaf <;> decide +kernel

end Leaf

namespace Value

/-- Whether a value is a table without a name, in letters of any case. -/
def Lacks (name : String) : Value → Prop
  | .table _ entries => ∀ entry ∈ entries, Lowercase.ofString entry.1 ≠ name
  | _ => False

instance (name : String) : DecidablePred (Lacks name)
  | .table _ entries =>
      inferInstanceAs (Decidable (∀ entry ∈ entries, Lowercase.ofString entry.1 ≠ name))
  | .scalar _ _ => isFalse id
  | .array _ _ => isFalse id

end Value

/-- Whether an assignment leaves a leaf alone. -/
def Assignment.Spares
    (leaf : Leaf)
    (a : Assignment) :
    Prop :=
  a.1.Apart leaf.keyPath ∨ (a.1.names? = some [leaf.group.key] ∧ a.2.Lacks leaf.name)

instance (leaf : Leaf) : DecidablePred (Assignment.Spares leaf) := fun a =>
  inferInstanceAs
    (Decidable
      (a.1.Apart leaf.keyPath ∨ (a.1.names? = some [leaf.group.key] ∧ a.2.Lacks leaf.name)))

/-- An assignment at the path of a leaf does not leave the leaf alone. -/
theorem Assignment.not_spares_of_names?
    {leaf : Leaf}
    {a : Assignment}
    (h : a.1.names? = some leaf.path) :
    ¬ a.Spares leaf := by
  obtain ⟨name, hsteps, hhead, hname⟩ := KeyPath.exists_of_names?_pair h
  obtain ⟨leafName, hleafSteps, hleafHead, hleafName⟩ :=
    KeyPath.exists_of_names?_pair leaf.names?_keyPath
  rintro (hapart | ⟨hgroup, -⟩)
  · rw [KeyPath.Apart, hsteps, hleafSteps, hhead, hleafHead] at hapart
    rcases hapart with hne | hne | hend
    · exact hne rfl
    · exact hne (hname.trans hleafName.symm)
    · exact hend
  · rw [h] at hgroup
    simp [Leaf.path] at hgroup

namespace Value

theorem addEntries_append
    (target : Value)
    (entries others : List (String × Value)) :
    target.addEntries (entries ++ others) = (target.addEntries entries).addEntries others := by
  induction entries generalizing target with
  | nil => rw [addEntries, List.nil_append]
  | cons entry rest ih =>
      obtain ⟨key, value⟩ := entry
      rw [List.cons_append, addEntries, addEntries, ih]

/-- Entries without a name can be merged before or after something changes under the name. -/
theorem alterKey_addEntries
    {name : String}
    {entries : List (String × Value)}
    (h : ∀ entry ∈ entries, Lowercase.ofString entry.1 ≠ name)
    (target : Value)
    (f : Option Value → Value) :
    (target.addEntries entries).alterKey name f = (target.alterKey name f).addEntries entries := by
  induction entries generalizing target with
  | nil => rw [addEntries, addEntries]
  | cons entry rest ih =>
      obtain ⟨key, value⟩ := entry
      obtain ⟨hkey, hrest⟩ := List.forall_mem_cons.1 h
      rw [addEntries, addEntries, ih hrest, alterKey_comm hkey.symm]

variable {leaf : Leaf}

theorem set_of_names?
    {path : KeyPath}
    (h : path.names? = some leaf.path)
    (root value : Value) :
    root.set path value =
      root.alterKey leaf.group.key fun group =>
        (group.getD nil).alterKey leaf.name fun current => settleOn current value := by
  obtain ⟨name, hsteps, hhead, hname⟩ := KeyPath.exists_of_names?_pair h
  rw [set, hsteps, hhead]
  congr 1
  funext group
  rw [setAt, hname]
  congr 1

/-- At the path of a leaf the case of the letters does not matter. -/
theorem set_eq_set_keyPath
    {path : KeyPath}
    (h : path.names? = some leaf.path)
    (root value : Value) :
    root.set path value = root.set leaf.keyPath value := by
  rw [set_of_names? h, set_of_names? leaf.names?_keyPath]

/-- At the path of a group a table is merged, entry by entry. -/
theorem set_table_of_names?
    {path : KeyPath}
    (h : path.names? = some [leaf.group.key])
    (root : Value)
    (origin : Option String)
    (entries : List (String × Value)) :
    root.set path (.table origin entries) =
      root.alterKey leaf.group.key fun group => (group.getD emptyTable).addEntries entries := by
  obtain ⟨more, hmore, hnames⟩ := Option.map_eq_some_iff.1 h
  obtain ⟨hhead, rfl⟩ := List.cons_eq_cons.1 hnames
  rw [set, eq_nil_of_stepNames? hmore, hhead]
  congr 1

/-- A value that is set at a leaf takes the place of one that was set there before. -/
theorem set_keyPath_set_keyPath
    {value : Value}
    (h : value.isTable = false)
    (root other : Value) :
    (root.set leaf.keyPath other).set leaf.keyPath value = root.set leaf.keyPath value := by
  simp only [set_of_names? leaf.names?_keyPath, alterKey_alterKey_self, Option.getD_some,
    settleOn_of_not_isTable h]

/-- An assignment that leaves a leaf alone can be made before or after one at the leaf. -/
theorem set_comm_of_spares
    {a : Assignment}
    (h : a.Spares leaf)
    (root value : Value) :
    (root.set a.1 a.2).set leaf.keyPath value = (root.set leaf.keyPath value).set a.1 a.2 := by
  rcases h with hapart | ⟨hgroup, hlacks⟩
  · exact (set_comm hapart _ _ root).symm
  · obtain ⟨path, brought⟩ := a
    cases brought with
    | scalar | array => cases hlacks
    | table origin entries =>
        have hmissing : ∀ group : Option Value, ∀ f,
            (group.getD emptyTable).alterKey leaf.name f =
              (group.getD nil).alterKey leaf.name f := by
          intro group f
          cases group <;> rfl
        simp only [set_table_of_names? hgroup, set_of_names? leaf.names?_keyPath,
          alterKey_alterKey_self, Option.getD_some, alterKey_addEntries hlacks, hmissing]

theorem foldl_set_comm_of_spares
    {as : List Assignment}
    (h : ∀ a ∈ as, a.Spares leaf)
    (root value : Value) :
    (as.foldl (fun root a => root.set a.1 a.2) root).set leaf.keyPath value =
      as.foldl (fun root a => root.set a.1 a.2) (root.set leaf.keyPath value) := by
  induction as generalizing root with
  | nil => rfl
  | cons a as ih =>
      obtain ⟨ha, has⟩ := List.forall_mem_cons.1 h
      rw [List.foldl_cons, List.foldl_cons, ih has, set_comm_of_spares ha]

/-- A table with a value under the name of a leaf brings the group that value. -/
theorem set_keyPath_of_group_table
    {path : KeyPath}
    {name : String}
    {origin : Option String}
    {value : Value}
    {before after : List (String × Value)}
    (hpath : path.names? = some [leaf.group.key])
    (hname : Lowercase.ofString name = leaf.name)
    (hvalue : value.isTable = false)
    (hafter : ∀ entry ∈ after, Lowercase.ofString entry.1 ≠ leaf.name)
    (root : Value) :
    let next := root.set path (.table origin (before ++ (name, value) :: after))
    next.set leaf.keyPath value = next := by
  intro next
  have hnext : next = root.alterKey leaf.group.key fun group =>
      (((group.getD emptyTable).addEntries before).alterKey leaf.name
        fun current => settleOn current value).addEntries after := by
    rw [← hname]
    simp only [next, set_table_of_names? hpath, addEntries_append, addEntries]
  rw [hnext, set_of_names? leaf.names?_keyPath, alterKey_alterKey_self]
  simp only [Option.getD_some, alterKey_addEntries hafter, alterKey_alterKey_self,
    settleOn_of_not_isTable hvalue]

end Value
end Settings
end Offside
