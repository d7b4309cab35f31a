import Mathlib.Data.List.Pairwise
import Offside.Proofs.Leaves

/-!
# Paths that part

Two paths part at a name or at a position.  Then what is set at the one and what is set at the
other are different entries of one table, or different values of one array, whatever stood there
before.  So assignments at paths that part commute (`set_comm`), and any number of them can be made
in any order (`foldl_set_of_perm`).
-/

namespace Offside
namespace Settings

/-- Whether two ways part, at a name or at a position counted from the start. -/
def Part : List Segment → List Segment → Prop
  | .child first :: steps, .child second :: others =>
      Lowercase.ofString first ≠ Lowercase.ofString second ∨ Part steps others
  | .index i :: steps, .index j :: others => 0 ≤ i ∧ 0 ≤ j ∧ (i ≠ j ∨ Part steps others)
  | _, _ => False

instance decidablePart : DecidableRel Part
  | .child first :: steps, .child second :: others =>
      have := decidablePart steps others
      inferInstanceAs
        (Decidable (Lowercase.ofString first ≠ Lowercase.ofString second ∨ Part steps others))
  | .index i :: steps, .index j :: others =>
      have := decidablePart steps others
      inferInstanceAs (Decidable (0 ≤ i ∧ 0 ≤ j ∧ (i ≠ j ∨ Part steps others)))
  | [], _ => isFalse id
  | .index _ :: _, [] => isFalse id
  | .index _ :: _, .child _ :: _ => isFalse id
  | .child _ :: _, [] => isFalse id
  | .child _ :: _, .index _ :: _ => isFalse id

/-- Whether two paths part, at a name or at a position counted from the start. -/
def KeyPath.Apart (first second : KeyPath) : Prop :=
  Lowercase.ofString first.head ≠ Lowercase.ofString second.head ∨ Part first.steps second.steps

instance : DecidableRel KeyPath.Apart := fun first second =>
  inferInstanceAs
    (Decidable
      (Lowercase.ofString first.head ≠ Lowercase.ofString second.head ∨
        Part first.steps second.steps))

theorem not_part_self (steps : List Segment) : ¬ Part steps steps := by
  induction steps with
  | nil => exact id
  | cons step steps ih =>
      cases step with
      | index i => exact fun ⟨_, _, h⟩ => h.elim (fun hne => hne rfl) ih
      | child name => exact fun h => h.elim (fun hne => hne rfl) ih

theorem KeyPath.Apart.ne
    {first second : KeyPath}
    (h : first.Apart second) :
    first ≠ second := by
  rintro rfl
  exact h.elim (fun hne => hne rfl) (not_part_self first.steps)

/-- Steps by name part when neither names start with the other ones. -/
theorem part_of_stepNames?
    {steps others : List Segment}
    {names otherNames : List String}
    (hnames : stepNames? steps = some names)
    (hothers : stepNames? others = some otherNames)
    (h : ¬ names <+: otherNames)
    (hback : ¬ otherNames <+: names) :
    Part steps others := by
  induction steps generalizing others names otherNames with
  | nil =>
      cases hnames
      exact absurd (List.nil_prefix) h
  | cons step steps ih =>
      obtain ⟨first, more, rfl, rfl, hmore⟩ := stepNames?_cons_eq_some hnames
      cases others with
      | nil =>
          cases hothers
          exact absurd (List.nil_prefix) hback
      | cons other others =>
          obtain ⟨second, otherMore, rfl, rfl, hotherMore⟩ := stepNames?_cons_eq_some hothers
          by_cases hname : Lowercase.ofString first = Lowercase.ofString second
          · rw [hname, List.prefix_cons_inj] at h hback
            exact .inr (ih hmore hotherMore h hback)
          · exact .inl hname

theorem KeyPath.apart_of_names?
    {first second : KeyPath}
    {names otherNames : List String}
    (hnames : first.names? = some names)
    (hothers : second.names? = some otherNames)
    (h : ¬ names <+: otherNames)
    (hback : ¬ otherNames <+: names) :
    first.Apart second := by
  obtain ⟨more, hmore, rfl⟩ := Option.map_eq_some_iff.1 hnames
  obtain ⟨otherMore, hotherMore, rfl⟩ := Option.map_eq_some_iff.1 hothers
  by_cases hname : Lowercase.ofString first.head = Lowercase.ofString second.head
  · rw [hname, List.prefix_cons_inj] at h hback
    exact .inr (part_of_stepNames? hmore hotherMore h hback)
  · exact .inl hname

theorem Entries.alter_alter_self
    (key : String)
    (f g : Option Value → Value)
    (entries : Entries) :
    alter key g (alter key f entries) =
      alter key (fun current => g (some (f current))) entries := by
  induction entries with
  | nil => simp [alter]
  | cons entry rest ih =>
      obtain ⟨k, v⟩ := entry
      rw [alter, alter]
      split
      next hlt => simp [alter]
      next hlt =>
        split
        next heq => simp [alter, heq]
        next hne => rw [alter, if_neg hlt, if_neg hne, ih]

namespace Value

theorem alterKey_alterKey_self
    (key : String)
    (f g : Option Value → Value)
    (v : Value) :
    (v.alterKey key f).alterKey key g = v.alterKey key fun current => g (some (f current)) := by
  cases v <;> exact congrArg (table _) (Entries.alter_alter_self key f g _)

theorem alterKey_comm
    {key other : String}
    (hne : key ≠ other)
    (f g : Option Value → Value)
    (v : Value) :
    (v.alterKey other g).alterKey key f = (v.alterKey key f).alterKey other g := by
  cases v <;> exact congrArg (table _) (Entries.alter_comm hne f g _)

theorem length_alterPlace
    (place : Nat)
    (f : Value → Value)
    (items : List Value) :
    (alterPlace place f items).length = max items.length (place + 1) := by
  rw [alterPlace, List.length_set, List.length_append, List.length_replicate]
  omega

theorem getElem?_alterPlace
    (place : Nat)
    (f : Value → Value)
    (items : List Value)
    (k : Nat) :
    (alterPlace place f items)[k]? =
      if k = place then some (f (items[place]?.getD nil))
      else if k < max items.length place then some (items[k]?.getD nil)
      else none := by
  have hpadded : ∀ k : Nat,
      (items ++ List.replicate (place + 1 - items.length) nil)[k]? =
        if k < max items.length (place + 1) then some (items[k]?.getD nil) else none := by
    intro k
    rw [List.getElem?_append, List.getElem?_replicate]
    grind
  rw [alterPlace, List.getElem?_set, hpadded, hpadded, List.length_append, List.length_replicate]
  grind

/-- What is at a place can be replaced in two steps. -/
theorem alterPlace_alterPlace_self
    (place : Nat)
    (f g : Value → Value)
    (items : List Value) :
    alterPlace place g (alterPlace place f items) =
      alterPlace place (fun v => g (f v)) items := by
  refine List.ext_getElem? fun k => ?_
  simp only [getElem?_alterPlace, length_alterPlace]
  grind

theorem alterPlace_comm
    {place other : Nat}
    (hne : place ≠ other)
    (f g : Value → Value)
    (items : List Value) :
    alterPlace place f (alterPlace other g items) =
      alterPlace other g (alterPlace place f items) := by
  refine List.ext_getElem? fun k => ?_
  simp only [getElem?_alterPlace, length_alterPlace]
  grind

/-- An index means the same position after the array was filled up to it. -/
theorem position_max
    (length : Nat)
    (i : Int) :
    position (max length (position length i + 1)) i = position length i := by
  unfold position
  split <;> omega

theorem alterIndex_alterIndex_self
    (i : Int)
    (f g : Value → Value)
    (v : Value) :
    (v.alterIndex i f).alterIndex i g = v.alterIndex i fun inner => g (f inner) := by
  simp only [alterIndex, arrayOrigin, elements, length_alterPlace, position_max,
    alterPlace_alterPlace_self]

theorem alterIndex_of_nonneg
    {i : Int}
    (h : 0 ≤ i)
    (f : Value → Value)
    (v : Value) :
    v.alterIndex i f = .array v.arrayOrigin (alterPlace i.toNat f v.elements) := by
  rw [alterIndex, position, if_pos h]

theorem alterIndex_comm
    {i j : Int}
    (hi : 0 ≤ i)
    (hj : 0 ≤ j)
    (hne : i ≠ j)
    (f g : Value → Value)
    (v : Value) :
    (v.alterIndex j g).alterIndex i f = (v.alterIndex i f).alterIndex j g := by
  have hplaces : i.toNat ≠ j.toNat := by omega
  simp only [alterIndex_of_nonneg hi, alterIndex_of_nonneg hj, arrayOrigin, elements]
  rw [alterPlace_comm hplaces]

theorem setAt_index_of_ne_nil
    {steps : List Segment}
    (h : steps ≠ [])
    (value : Value)
    (i : Int)
    (current : Option Value) :
    setAt value (.index i :: steps) current =
      (current.getD nil).alterIndex i fun v => setAt value steps (some v) := by
  cases steps with
  | nil => exact absurd rfl h
  | cons step steps =>
      rw [setAt]
      exact List.cons_ne_nil step steps

theorem exists_setAt_index
    (value : Value)
    (i : Int)
    (steps : List Segment) :
    ∃ f, ∀ current,
      setAt value (.index i :: steps) current = (current.getD nil).alterIndex i f := by
  cases steps with
  | nil => exact ⟨fun _ => value, fun current => by rw [setAt]⟩
  | cons step steps => exact ⟨_, setAt_index_of_ne_nil (List.cons_ne_nil step steps) value i⟩

end Value

theorem Part.ne_nil
    {steps others : List Segment}
    (h : Part steps others) :
    steps ≠ [] ∧ others ≠ [] := by
  constructor
  · rintro rfl
    exact h
  · rintro rfl
    cases steps with
    | nil => exact h
    | cons step steps => cases step <;> exact h

namespace Value

/-- What is set at the ends of two ways that part does not depend on which comes first. -/
theorem setAt_comm
    {steps others : List Segment}
    (h : Part steps others)
    (v w : Value)
    (current : Option Value) :
    setAt v steps (some (setAt w others current)) =
      setAt w others (some (setAt v steps current)) := by
  induction steps generalizing others current with
  | nil => cases h.ne_nil.1 rfl
  | cons step steps ih =>
      cases others with
      | nil => cases h.ne_nil.2 rfl
      | cons other others =>
          cases step with
          | child first =>
              cases other with
              | index j => cases h
              | child second =>
                  simp only [setAt, Option.getD_some]
                  by_cases hname : Lowercase.ofString first = Lowercase.ofString second
                  · have hrest : Part steps others := h.resolve_left (not_not_intro hname)
                    rw [hname, alterKey_alterKey_self, alterKey_alterKey_self]
                    congr 1
                    funext inner
                    exact ih hrest inner
                  · exact alterKey_comm hname _ _ _
          | index i =>
              cases other with
              | child second => cases h
              | index j =>
                  obtain ⟨hi, hj, hpart⟩ := h
                  by_cases hplace : i = j
                  · subst hplace
                    have hrest : Part steps others := hpart.resolve_left (not_not_intro rfl)
                    obtain ⟨hsteps, hothers⟩ := hrest.ne_nil
                    simp only [setAt_index_of_ne_nil hsteps, setAt_index_of_ne_nil hothers,
                      Option.getD_some, alterIndex_alterIndex_self]
                    congr 1
                    funext inner
                    exact ih hrest (some inner)
                  · obtain ⟨f, hf⟩ := exists_setAt_index v i steps
                    obtain ⟨g, hg⟩ := exists_setAt_index w j others
                    simp only [hf, hg, Option.getD_some]
                    exact alterIndex_comm hi hj hplace f g _

/-- Assignments at paths that part commute. -/
theorem set_comm
    {first second : KeyPath}
    (h : first.Apart second)
    (v w root : Value) :
    (root.set second w).set first v = (root.set first v).set second w := by
  simp only [set]
  by_cases hname : Lowercase.ofString first.head = Lowercase.ofString second.head
  · have hrest : Part first.steps second.steps := h.resolve_left (not_not_intro hname)
    rw [hname, alterKey_alterKey_self, alterKey_alterKey_self]
    congr 1
    funext inner
    exact setAt_comm hrest v w inner
  · exact alterKey_comm hname _ _ _

/-- Assignments at paths that part can be made in any order. -/
theorem foldl_set_of_perm
    {as bs : List Assignment}
    (hperm : as.Perm bs)
    (hapart : as.Pairwise fun a b => a.1.Apart b.1)
    (root : Value) :
    as.foldl (fun root a => root.set a.1 a.2) root =
      bs.foldl (fun root a => root.set a.1 a.2) root := by
  let commute := fun a b : Assignment =>
    ∀ root : Value, (root.set a.1 a.2).set b.1 b.2 = (root.set b.1 b.2).set a.1 a.2
  have hsymm : Std.Symm commute := ⟨fun _ _ h root => (h root).symm⟩
  have hcommute : as.Pairwise commute :=
    hapart.imp fun h root => (set_comm h _ _ root).symm
  exact hperm.foldl_eq' (hcommute.forall_of_forall fun _ _ _ => rfl) root

end Value

end Settings
end Offside
