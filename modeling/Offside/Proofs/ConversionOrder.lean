import Offside.Settings.Decode

/-!
# The order of conversions

Two parts of a table are both converted before one that is missing is missed.  So they are there
if and only if both of them are found and convert, whichever comes first
(`decodeFields_eq_ok_iff`).  Only the complaint depends on the order: it is about a part that does
not convert, and about any such part in some order (`exists_inOrder_eq_error_iff`).
-/

namespace Offside
namespace Settings

theorem bind_eq_ok_iff
    {ε α β : Type}
    {x : Except ε α}
    {f : α → Except ε β}
    {b : β} :
    x >>= f = .ok b ↔ ∃ a, x = .ok a ∧ f a = .ok b := by
  cases x <;> simp [bind, Except.bind]

theorem bind_eq_error_iff
    {ε α β : Type}
    {x : Except ε α}
    {f : α → Except ε β}
    {e : ε} :
    x >>= f = .error e ↔ x = .error e ∨ ∃ a, x = .ok a ∧ f a = .error e := by
  cases x <;> simp [bind, Except.bind]

theorem eq_ok_of_toOption
    {ε α : Type}
    {x : Except ε α}
    {a : α}
    (h : x.toOption = some a) :
    x = .ok a := by
  cases x with
  | error e => cases h
  | ok b => exact congrArg Except.ok (Option.some.inj h)

section

variable {α β : Type}

theorem inOrder_eq_ok_iff
    {secondFirst : Bool}
    {x : Except Error α}
    {y : Except Error β}
    {a : α}
    {b : β} :
    inOrder secondFirst x y = .ok (a, b) ↔ x = .ok a ∧ y = .ok b := by
  cases secondFirst <;> cases x <;> cases y <;>
    simp [inOrder, bind, Except.bind, pure, Except.pure]

theorem inOrder_eq_error
    {secondFirst : Bool}
    {x : Except Error α}
    {y : Except Error β}
    {e : Error}
    (h : inOrder secondFirst x y = .error e) :
    x = .error e ∨ y = .error e := by
  rw [inOrder] at h
  split at h
  next =>
    rcases bind_eq_error_iff.1 h with hy | ⟨b, -, hrest⟩
    · exact .inr hy
    · rcases bind_eq_error_iff.1 hrest with hx | ⟨a, -, hpair⟩
      · exact .inl hx
      · cases hpair
  next =>
    rcases bind_eq_error_iff.1 h with hx | ⟨a, -, hrest⟩
    · exact .inl hx
    · rcases bind_eq_error_iff.1 hrest with hy | ⟨b, -, hpair⟩
      · exact .inr hy
      · cases hpair

theorem inOrder_of_error_of_ok
    {x : Except Error α}
    {e : Error}
    {b : β}
    (h : x = .error e)
    (secondFirst : Bool) :
    inOrder secondFirst x (.ok b : Except Error β) = .error e := by
  cases secondFirst <;> rw [inOrder, h] <;> rfl

/-- Each of two failures is the one that is reported if it comes first. -/
theorem exists_inOrder_eq_error_iff
    {x : Except Error α}
    {y : Except Error β}
    {e : Error} :
    (∃ secondFirst, inOrder secondFirst x y = .error e) ↔ x = .error e ∨ y = .error e := by
  constructor
  · rintro ⟨secondFirst, h⟩
    exact inOrder_eq_error h
  · rintro (h | h)
    · exact ⟨false, by rw [inOrder, h]; rfl⟩
    · exact ⟨true, by rw [inOrder, h]; rfl⟩

theorem decodeOptional_eq_ok_some_iff
    {decode : Value → Except Error α}
    {found : Option Value}
    {a : α} :
    decodeOptional decode found = .ok (some a) ↔ ∃ v, found = some v ∧ decode v = .ok a := by
  cases found with
  | none => simp [decodeOptional]
  | some v =>
      rw [decodeOptional]
      cases h : decode v <;> simp [Except.map, h]

theorem require_eq_ok_iff
    {name : String}
    {found : Option α}
    {a : α} :
    require name found = .ok a ↔ found = some a := by
  cases found <;> simp [require]

variable {names : String × String}
variable {first : Value → Except Error α}
variable {second : Value → Except Error β}
variable {found? : String → Option Value}

/-- Two parts are there if and only if both are found and convert. -/
theorem decodeFields_eq_ok_iff
    {secondFirst : Bool}
    {a : α}
    {b : β} :
    decodeFields secondFirst names first second found? = .ok (a, b) ↔
      (∃ v, found? names.1 = some v ∧ first v = .ok a) ∧
      ∃ w, found? names.2 = some w ∧ second w = .ok b := by
  rw [← decodeOptional_eq_ok_some_iff, ← decodeOptional_eq_ok_some_iff, decodeFields,
    bind_eq_ok_iff]
  constructor
  · rintro ⟨⟨a?, b?⟩, hboth, hrequired⟩
    obtain ⟨ha, hb⟩ := inOrder_eq_ok_iff.1 hboth
    obtain ⟨c, hc, hrest⟩ := bind_eq_ok_iff.1 hrequired
    obtain ⟨d, hd, hpair⟩ := bind_eq_ok_iff.1 hrest
    obtain ⟨rfl, rfl⟩ := Prod.mk.inj (Except.ok.inj hpair)
    rw [require_eq_ok_iff.1 hc] at ha
    rw [require_eq_ok_iff.1 hd] at hb
    exact ⟨ha, hb⟩
  · rintro ⟨ha, hb⟩
    exact ⟨(some a, some b), inOrder_eq_ok_iff.2 ⟨ha, hb⟩, rfl⟩

/-- A part that is missing is missed if the other one converts. -/
theorem decodeFields_of_second_missing
    {v : Value}
    {a : α}
    (hfirst : found? names.1 = some v)
    (hconverts : first v = .ok a)
    (hmissing : found? names.2 = none)
    (secondFirst : Bool) :
    decodeFields secondFirst names first second found? = .error (.missingField names.2) := by
  rw [decodeFields, hfirst, hmissing, decodeOptional, decodeOptional, hconverts]
  cases secondFirst <;> rfl

/-- Two parts that are found are converted in the given order. -/
theorem decodeFields_of_found
    {v w : Value}
    (hfirst : found? names.1 = some v)
    (hsecond : found? names.2 = some w)
    (secondFirst : Bool) :
    decodeFields secondFirst names first second found? =
      inOrder secondFirst (first v) (second w) := by
  rw [decodeFields, hfirst, hsecond, decodeOptional, decodeOptional]
  cases secondFirst <;> cases first v <;> cases second w <;> rfl

end

/-- Whether a group converts does not depend on the order. -/
theorem decodeGroup_eq_ok_iff_of_order
    {α β : Type}
    {group : Group}
    {first : String → Value → Except Error α}
    {second : String → Value → Except Error β}
    {value : Value}
    {p : α × β}
    (order other : Order) :
    decodeGroup order group first second value = .ok p ↔
      decodeGroup other group first second value = .ok p := by
  cases value with
  | scalar origin content => rfl
  | array origin items =>
      match items with
      | [] => rfl
      | [v] => rfl
      | v :: w :: rest => rfl
  | table origin entries =>
      rw [decodeGroup, decodeGroup, decodeFields_eq_ok_iff, decodeFields_eq_ok_iff]

end Settings
end Offside
