import Offside.Proofs.LastLayerWins

/-!
# Settings of a group

The settings are read group by group: from a table by name, or from an array by position.  An
override of the first setting of a group puts a value under its name.  Where the group is a
table, its other setting stays; an array gives way to a table that has nothing else in it, and
the other setting is missing then (`decodeFrom_set_first_of_ok`).  The other group stays as it is.
-/

namespace Offside
namespace Settings
namespace Value

def isArray : Value → Bool
  | .array _ _ => true
  | _ => false

/-- Whether a group gives its settings by position. -/
def byPosition
    (root : Value)
    (group : Group) :
    Bool :=
  (root.find? group.key).any isArray

theorem find?_alterKey
    (v : Value)
    (key : String)
    (f : Option Value → Value) :
    (v.alterKey key f).find? key = some (f (v.find? key)) := by
  cases v <;> exact Entries.find?_alter_self key f _

theorem find?_alterKey_other
    (v : Value)
    {key other : String}
    (hne : other ≠ key)
    (f : Option Value → Value) :
    (v.alterKey key f).find? other = v.find? other := by
  cases v <;> exact Entries.find?_alter_of_ne hne f _

/-- What is set somewhere leaves no key without a value that had one. -/
theorem isSome_find?_set
    {root : Value}
    {key : String}
    (h : (root.find? key).isSome)
    (path : KeyPath)
    (value : Value) :
    ((root.set path value).find? key).isSome := by
  by_cases hkey : key = Lowercase.ofString path.head
  · rw [set, hkey, find?_alterKey]
    rfl
  · rw [set, find?_alterKey_other _ hkey]
    exact h

theorem exists_table_of_alterKey
    (v : Value)
    (key : String)
    (f : Option Value → Value) :
    ∃ origin entries, v.alterKey key f = .table origin entries := by
  cases v <;> exact ⟨_, _, rfl⟩

end Value

/-- A path of two names has one step. -/
theorem KeyPath.exists_of_names?_pair
    {path : KeyPath}
    {first second : String}
    (h : path.names? = some [first, second]) :
    ∃ name,
      path.steps = [.child name] ∧
      Lowercase.ofString path.head = first ∧
      Lowercase.ofString name = second := by
  obtain ⟨more, hmore, hnames⟩ := Option.map_eq_some_iff.1 h
  obtain ⟨hhead, rfl⟩ := List.cons_eq_cons.1 hnames
  cases hsteps : path.steps with
  | nil =>
      rw [hsteps] at hmore
      cases hmore
  | cons step steps =>
      rw [hsteps] at hmore
      obtain ⟨name, rest, rfl, hname, hrest⟩ := stepNames?_cons_eq_some hmore
      obtain ⟨hsecond, rfl⟩ := List.cons_eq_cons.1 hname
      obtain rfl := eq_nil_of_stepNames? hrest
      exact ⟨name, rfl, hhead, hsecond.symm⟩

/-- The two settings of one group. -/
def decodeFrom
    {α β : Type}
    (order : Order)
    (root : Value)
    (group : Group)
    (first : String → Value → Except Error α)
    (second : String → Value → Except Error β) :
    Except Error (α × β) := do
  let value ← require group.key (root.find? group.key)
  decodeGroup order group first second value

/-- A group depends on what stands under its key only. -/
theorem decodeFrom_congr
    {α β : Type}
    {root other : Value}
    {group : Group}
    (h : root.find? group.key = other.find? group.key)
    (order : Order)
    (first : String → Value → Except Error α)
    (second : String → Value → Except Error β) :
    decodeFrom order root group first second = decodeFrom order other group first second := by
  rw [decodeFrom, decodeFrom, h]

/-- Whether a group converts does not depend on the order. -/
theorem decodeFrom_eq_ok_iff_of_order
    {α β : Type}
    {root : Value}
    {group : Group}
    {first : String → Value → Except Error α}
    {second : String → Value → Except Error β}
    {p : α × β}
    (order other : Order) :
    decodeFrom order root group first second = .ok p ↔
      decodeFrom other root group first second = .ok p := by
  simp only [decodeFrom, bind_eq_ok_iff, decodeGroup_eq_ok_iff_of_order order other]

/-- The settings for the scan. -/
def layoutOf
    (order : Order)
    (root : Value) :
    Except Error (UInt32 × Bool) :=
  decodeFrom order root .layout decodeWord decodeBool

/-- The settings for the report. -/
def inspectOf
    (order : Order)
    (root : Value) :
    Except Error (OutputFormat × Bool) :=
  decodeFrom order root .inspect (fun _ => decodeFormat) decodeBool

theorem decodeIn_eq_ok_iff
    {order : Order}
    {root : Value}
    {settings : Settings} :
    decodeIn order root = .ok settings ↔
      layoutOf order root = .ok (settings.layout.tabWidth, settings.layout.commentsAreBlank) ∧
      inspectOf order root = .ok (settings.format, settings.showCheckpoints) := by
  rw [decodeIn, bind_eq_ok_iff, layoutOf, inspectOf, decodeFrom, decodeFrom, bind_eq_ok_iff,
    bind_eq_ok_iff]
  simp only [require_eq_ok_iff]
  constructor
  · rintro ⟨⟨layout, inspect⟩, hboth, hsettings⟩
    cases hsettings
    exact decodeFields_eq_ok_iff.1 hboth
  · intro hboth
    exact ⟨_, decodeFields_eq_ok_iff.2 hboth, rfl⟩

/-- Whether the settings are there does not depend on the order. -/
theorem decodeIn_eq_ok_iff_of_order
    {root : Value}
    {settings : Settings}
    (order other : Order) :
    decodeIn order root = .ok settings ↔ decodeIn other root = .ok settings := by
  rw [decodeIn_eq_ok_iff, decodeIn_eq_ok_iff, layoutOf, layoutOf, inspectOf, inspectOf,
    decodeFrom_eq_ok_iff_of_order order other, decodeFrom_eq_ok_iff_of_order order other]

/-- Two groups that are found are converted in the given order. -/
theorem decodeIn_of_found
    {root : Value}
    (hlayout : (root.find? Group.layout.key).isSome)
    (hinspect : (root.find? Group.inspect.key).isSome)
    (order : Order) :
    decodeIn order root = (do
      let (layout, inspect) ←
        inOrder order.inspectFirst (layoutOf order root) (inspectOf order root)
      pure ⟨⟨layout.1, layout.2⟩, inspect.1, inspect.2⟩) := by
  obtain ⟨layout, hlayout⟩ := Option.isSome_iff_exists.1 hlayout
  obtain ⟨inspect, hinspect⟩ := Option.isSome_iff_exists.1 hinspect
  rw [decodeIn, decodeFields_of_found hlayout hinspect, layoutOf, inspectOf, decodeFrom,
    decodeFrom, hlayout, hinspect]
  rfl

/-- What two groups are refused for that are found. -/
theorem decodeIn_eq_error_iff_of_found
    {root : Value}
    (hlayout : (root.find? Group.layout.key).isSome)
    (hinspect : (root.find? Group.inspect.key).isSome)
    {order : Order}
    {e : Error} :
    decodeIn order root = .error e ↔
      inOrder order.inspectFirst (layoutOf order root) (inspectOf order root) = .error e := by
  rw [decodeIn_of_found hlayout hinspect, bind_eq_error_iff]
  constructor
  · rintro (h | ⟨p, -, hpair⟩)
    · exact h
    · cases hpair
  · exact .inl

theorem isSome_find?_of_decodeIn
    {order : Order}
    {root : Value}
    {settings : Settings}
    (h : decodeIn order root = .ok settings) :
    (root.find? Group.layout.key).isSome ∧ (root.find? Group.inspect.key).isSome := by
  obtain ⟨hlayout, hinspect⟩ := decodeIn_eq_ok_iff.1 h
  obtain ⟨layout, hlayoutFound, -⟩ := bind_eq_ok_iff.1 hlayout
  obtain ⟨inspect, hinspectFound, -⟩ := bind_eq_ok_iff.1 hinspect
  rw [require_eq_ok_iff] at hlayoutFound hinspectFound
  rw [hlayoutFound, hinspectFound]
  exact ⟨rfl, rfl⟩

section FirstSetting

variable {α β : Type}
variable {first : String → Value → Except Error α}
variable {second : String → Value → Except Error β}
variable {group : Group}
variable {path : KeyPath}
variable {value : Value}

/-- After an override of its first setting a group is a table, with the other setting of the
table that it was. -/
theorem exists_group_of_set_first
    (hpath : path.names? = some [group.key, group.fields.1])
    (hvalue : value.isTable = false)
    (root : Value) :
    ∃ origin entries,
      (root.set path value).find? group.key = some (.table origin entries) ∧
      Entries.find? group.fields.1 entries = some value ∧
      Entries.find? group.fields.2 entries =
        (root.find? group.key).bind (Value.find? group.fields.2) := by
  obtain ⟨name, hsteps, hhead, hname⟩ := KeyPath.exists_of_names?_pair hpath
  have hne : group.fields.2 ≠ group.fields.1 := by cases group <;> decide
  let inner := (root.find? group.key).getD Value.nil
  obtain ⟨origin, entries, htable⟩ :=
    inner.exists_table_of_alterKey group.fields.1 (Value.setAt value [])
  have hgroup : (root.set path value).find? group.key = some (.table origin entries) := by
    rw [Value.set, hhead, hsteps, Value.find?_alterKey, Value.setAt, hname]
    exact congrArg some htable
  have hset := inner.find?_alterKey group.fields.1 (Value.setAt value [])
  have hother := inner.find?_alterKey_other hne (Value.setAt value [])
  rw [htable] at hset hother
  refine ⟨origin, entries, hgroup, ?_, ?_⟩
  · rw [Value.setAt, Value.settleOn_of_not_isTable hvalue] at hset
    exact hset
  · refine Eq.trans hother ?_
    cases hfound : root.find? group.key with
    | none => simp only [inner, hfound]; rfl
    | some found => simp only [inner, hfound]; rfl

/-- What a group comes to after an override of its first setting. -/
theorem exists_decodeFrom_set_first
    (hpath : path.names? = some [group.key, group.fields.1])
    (hvalue : value.isTable = false)
    (root : Value) :
    ∃ found? : String → Option Value,
      found? group.fields.1 = some value ∧
      found? group.fields.2 = (root.find? group.key).bind (Value.find? group.fields.2) ∧
      ∀ order : Order, decodeFrom order (root.set path value) group first second =
        decodeFields (order.secondFirst group) group.fields
          (first (group.key ++ "." ++ group.fields.1))
          (second (group.key ++ "." ++ group.fields.2)) found? := by
  obtain ⟨origin, entries, hgroup, hfirst, hsecond⟩ := exists_group_of_set_first hpath hvalue root
  refine ⟨fun name => Entries.find? name entries, hfirst, hsecond, fun order => ?_⟩
  rw [decodeFrom, hgroup, require]
  change decodeGroup order group first second (.table origin entries) = _
  rw [decodeGroup]

/-- An override of the first setting of a group that converts is that setting. -/
theorem first_of_decodeFrom_set_first
    (hpath : path.names? = some [group.key, group.fields.1])
    (hvalue : value.isTable = false)
    {order : Order}
    {root : Value}
    {a : α}
    {b : β}
    (h : decodeFrom order (root.set path value) group first second = .ok (a, b)) :
    first (group.key ++ "." ++ group.fields.1) value = .ok a := by
  obtain ⟨found?, hfirst, -, hdecode⟩ :=
    @exists_decodeFrom_set_first _ _ first second _ _ _ hpath hvalue root
  rw [hdecode, decodeFields_eq_ok_iff] at h
  obtain ⟨⟨v, hv, hconverts⟩, -⟩ := h
  obtain rfl := Option.some.inj (hfirst.symm.trans hv)
  exact hconverts

/-- An override that does not convert is what the group is refused for, if there is one with which
it would not be. -/
theorem decodeFrom_set_first_of_error
    (hpath : path.names? = some [group.key, group.fields.1])
    (hvalue : value.isTable = false)
    {order : Order}
    {root standIn : Value}
    {p : α × β}
    {e : Error}
    (hstandIn : standIn.isTable = false)
    (htried : decodeFrom order (root.set path standIn) group first second = .ok p)
    (h : first (group.key ++ "." ++ group.fields.1) value = .error e) :
    decodeFrom order (root.set path value) group first second = .error e := by
  obtain ⟨tried?, -, hsame, htriedDecode⟩ :=
    @exists_decodeFrom_set_first _ _ first second _ _ _ hpath hstandIn root
  obtain ⟨found?, hfirst, hsecond, hdecode⟩ :=
    @exists_decodeFrom_set_first _ _ first second _ _ _ hpath hvalue root
  rw [htriedDecode, decodeFields_eq_ok_iff] at htried
  obtain ⟨-, w, hw, hconverts⟩ := htried
  rw [hsame, ← hsecond] at hw
  rw [hdecode, decodeFields_of_found hfirst hw, hconverts]
  exact inOrder_of_error_of_ok h _

/-- The second setting of a group by name is there, and converts. -/
theorem exists_second_of_decodeFrom
    {order : Order}
    {root : Value}
    {a : α}
    {b : β}
    (h : decodeFrom order root group first second = .ok (a, b))
    (hnames : root.byPosition group = false) :
    ∃ w,
      (root.find? group.key).bind (Value.find? group.fields.2) = some w ∧
      second (group.key ++ "." ++ group.fields.2) w = .ok b := by
  obtain ⟨found, hfound, hgroup⟩ := bind_eq_ok_iff.1 h
  rw [require_eq_ok_iff] at hfound
  cases found with
  | scalar origin content => cases hgroup
  | array origin items =>
      rw [Value.byPosition, hfound] at hnames
      cases hnames
  | table origin entries =>
      rw [decodeGroup, decodeFields_eq_ok_iff] at hgroup
      rw [hfound]
      exact hgroup.2

/-- An override of the first setting of a group keeps the second one, unless the group gives
them by position: then the second one is lost. -/
theorem decodeFrom_set_first_of_ok
    (hpath : path.names? = some [group.key, group.fields.1])
    (hvalue : value.isTable = false)
    {order : Order}
    {root : Value}
    {a c : α}
    {b : β}
    (h : decodeFrom order root group first second = .ok (a, b))
    (hfirst : first (group.key ++ "." ++ group.fields.1) value = .ok c) :
    decodeFrom order (root.set path value) group first second =
      if root.byPosition group then .error (.missingField group.fields.2) else .ok (c, b) := by
  obtain ⟨found?, hvalueFound, hsecondFound, hdecode⟩ :=
    @exists_decodeFrom_set_first _ _ first second _ _ _ hpath hvalue root
  rw [hdecode]
  by_cases hposition : root.byPosition group = true
  · have hmissing : found? group.fields.2 = none := by
      rw [hsecondFound]
      cases hgroup : root.find? group.key with
      | none => rfl
      | some found =>
          cases found with
          | array origin items => rfl
          | scalar | table =>
              rw [Value.byPosition, hgroup] at hposition
              cases hposition
    rw [if_pos hposition]
    exact decodeFields_of_second_missing hvalueFound hfirst hmissing _
  · obtain ⟨w, hw, hsecond⟩ := exists_second_of_decodeFrom h (Bool.eq_false_iff.2 hposition)
    rw [if_neg hposition, decodeFields_eq_ok_iff]
    exact ⟨⟨value, hvalueFound, hfirst⟩, w, hsecondFound.trans hw, hsecond⟩

/-- The other groups stay as they are. -/
theorem find?_set_first_other
    (hpath : path.names? = some [group.key, group.fields.1])
    {other : Group}
    (hne : other ≠ group)
    (root : Value) :
    (root.set path value).find? other.key = root.find? other.key := by
  obtain ⟨name, -, hhead, -⟩ := KeyPath.exists_of_names?_pair hpath
  have hkey : other.key ≠ group.key := by
    revert hne
    cases other <;> cases group <;> decide
  rw [Value.set, hhead, Value.find?_alterKey_other _ hkey]

end FirstSetting

/-- The whole number that a value is, if it is one. -/
def Value.integer? : Value → Option Int
  | .scalar _ (.int i) => some i.toInt
  | .scalar _ (.unsigned u) => some (Int.ofNat u.toNat)
  | .scalar _ (.wideInt i) => some i.toInt
  | .scalar _ (.wideUnsigned u) => some (Int.ofNat u.toNat)
  | _ => none

/-- The whole number that was found, if it was one. -/
def Found.integer? : Found → Option Int
  | .int i => some i.toInt
  | .unsigned u => some (Int.ofNat u.toNat)
  | .wideInt i => some i.toInt
  | .wideUnsigned u => some (Int.ofNat u.toNat)
  | _ => none

theorem isTable_of_integer?
    {value : Value}
    {n : Int}
    (h : value.integer? = some n) :
    value.isTable = false := by
  cases value with
  | scalar | array => rfl
  | table => cases h

/-- A number with 64 bits is a word if it has no more than 32 of them. -/
theorem decodeWord_of_unsigned
    {key : String}
    {value : Value}
    {u : UInt64}
    (h : decodeUnsigned key value = .ok u) :
    (∀ w : UInt32, w.toNat = u.toNat → decodeWord key value = .ok w) ∧
    (UInt32.size ≤ u.toNat →
      decodeWord key value = .error (.wrongType (.unsigned u) .word key none)) := by
  rw [decodeWord, h]
  dsimp only
  constructor
  · intro w hw
    have hlt : u.toNat < UInt32.size := hw ▸ w.toNat_lt
    rw [if_pos hlt]
    refine congrArg Except.ok (UInt32.toNat_inj.1 ?_)
    rw [UInt64.toNat_toUInt32, Nat.mod_eq_of_lt hlt, hw]
  · intro hle
    rw [if_neg (Nat.not_lt.2 hle)]

/-- A whole number is converted to itself if it has 64 bits and no sign, and if not it is refused
for its type, with the number itself in the complaint. -/
theorem decodeUnsigned_of_integer?
    {value : Value}
    {n : Int}
    (key : String)
    (h : value.integer? = some n) :
    (∃ u : UInt64, Int.ofNat u.toNat = n ∧ decodeUnsigned key value = .ok u) ∨
      ((n < 0 ∨ 18446744073709551616 ≤ n) ∧
        ∃ found expected origin,
          found.integer? = some n ∧
          decodeUnsigned key value = .error (.wrongType found expected key origin)) := by
  have hsize : UInt64.size = 18446744073709551616 := rfl
  cases value with
  | array origin items => cases h
  | table origin entries => cases h
  | scalar origin content =>
      cases content with
      | nil | bool | float | string => cases h
      | unsigned u =>
          obtain rfl := Option.some.inj h
          exact .inl ⟨u, rfl, rfl⟩
      | int i =>
          obtain rfl := Option.some.inj h
          by_cases hsign : 0 ≤ i
          · have hpos : 0 ≤ i.toInt := Int64.le_iff_toInt_le.1 hsign
            have htoNat : i.toUInt64.toNat = i.toInt.toNat := Int64.toNat_toUInt64_of_le hsign
            refine .inl ⟨i.toUInt64, ?_, by rw [decodeUnsigned, if_pos hsign]⟩
            rw [htoNat, Int.ofNat_eq_natCast, Int.toNat_of_nonneg hpos]
          · have hneg : ¬ 0 ≤ i.toInt := fun hle => hsign (Int64.le_iff_toInt_le.2 hle)
            refine .inr ⟨.inl (Int.not_le.1 hneg), .int i, .notNegative, origin, rfl, ?_⟩
            rw [decodeUnsigned, if_neg hsign]
      | wideInt i =>
          obtain rfl := Option.some.inj h
          by_cases hfits : 0 ≤ i.toInt ∧ i.toInt.toNat < UInt64.size
          · refine .inl ⟨UInt64.ofNat i.toInt.toNat, ?_, by rw [decodeUnsigned, if_pos hfits]⟩
            rw [UInt64.toNat_ofNat_of_lt' hfits.2, Int.ofNat_eq_natCast,
              Int.toNat_of_nonneg hfits.1]
          · refine .inr ⟨by omega, .wideInt i, .notNegative, origin, rfl, ?_⟩
            rw [decodeUnsigned, if_neg hfits]
      | wideUnsigned u =>
          obtain rfl := Option.some.inj h
          by_cases hfits : u.toNat < UInt64.size
          · refine .inl ⟨UInt64.ofNat u.toNat, ?_, by rw [decodeUnsigned, if_pos hfits]⟩
            rw [UInt64.toNat_ofNat_of_lt' hfits]
          · refine .inr ⟨.inr ?_, .wideUnsigned u, .notNegative, origin, rfl, ?_⟩
            · rw [Int.ofNat_eq_natCast]
              omega
            · rw [decodeUnsigned, if_neg hfits]

/-- A whole number is converted to itself if it is a word, and if not it is refused for its type,
with the number itself in the complaint. -/
theorem decodeWord_of_integer?
    {value : Value}
    {n : Int}
    (key : String)
    (h : value.integer? = some n) :
    (∀ w : UInt32, Int.ofNat w.toNat = n → decodeWord key value = .ok w) ∧
    (¬ (0 ≤ n ∧ n < 4294967296) →
      ∃ found expected origin,
        found.integer? = some n ∧
        decodeWord key value = .error (.wrongType found expected key origin)) := by
  have hsize : UInt32.size = 4294967296 := rfl
  rcases decodeUnsigned_of_integer? key h with
    ⟨u, rfl, hdecode⟩ | ⟨hrange, found, expected, origin, hfound, hdecode⟩
  · obtain ⟨hword, hgreat⟩ := decodeWord_of_unsigned hdecode
    refine ⟨fun w hw => hword w (Int.ofNat.inj hw), fun hout => ?_⟩
    refine ⟨.unsigned u, .word, none, rfl, hgreat ?_⟩
    simp only [Int.ofNat_eq_natCast] at hout
    omega
  · refine ⟨fun w hw => ?_, fun _ => ⟨found, expected, origin, hfound, ?_⟩⟩
    · have hlt := w.toNat_lt
      rw [Int.ofNat_eq_natCast] at hw
      omega
    · rw [decodeWord, hdecode]

end Settings
end Offside
