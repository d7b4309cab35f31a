/-!
# Bytes in hexadecimal

Two lowercase digits a byte, the high half first and no separators.  Reading
accepts digits of either case and refuses an odd number of them.
-/

namespace Offside
namespace Hex

/-- The lowercase digit of a value below sixteen. -/
def digit (n : Nat) : Char :=
  if n < 10 then Char.ofNat (0x30 + n) else Char.ofNat (0x57 + n)

/-- The value of a hexadecimal digit of either case. -/
def digitValue? (c : Char) : Option Nat :=
  if '0' ≤ c ∧ c ≤ '9' then some (c.toNat - 0x30)
  else if 'a' ≤ c ∧ c ≤ 'f' then some (c.toNat - 0x57)
  else if 'A' ≤ c ∧ c ≤ 'F' then some (c.toNat - 0x37)
  else none

def ofByte (b : UInt8) : List Char :=
  [digit (b.toNat / 16), digit (b.toNat % 16)]

def ofBytes (bs : List UInt8) : List Char :=
  bs.flatMap ofByte

/-- The bytes spelled by a run of digits. -/
def toBytes? : List Char → Option (List UInt8)
  | [] => some []
  | [_] => none
  | high :: low :: rest => do
      let h ← digitValue? high
      let l ← digitValue? low
      let bytes ← toBytes? rest
      pure (UInt8.ofNat (16 * h + l) :: bytes)

/-- The digits of a natural number without leading zeros. -/
def ofNat (n : Nat) : List Char :=
  Nat.toDigits 16 n

theorem digitValue?_digit
    {n : Nat}
    (h : n < 16) :
    digitValue? (digit n) = some n := by
  have check : ∀ k : Fin 16, digitValue? (digit k) = some k.val := by decide
  exact check ⟨n, h⟩

/-- Reading the digits of some bytes gives the bytes back. -/
theorem toBytes?_ofBytes (bs : List UInt8) : toBytes? (ofBytes bs) = some bs := by
  induction bs with
  | nil => rfl
  | cons b rest ih =>
      have hb := b.toNat_lt
      have hvalue : 16 * (b.toNat / 16) + b.toNat % 16 = b.toNat := by omega
      have hbyte : UInt8.ofNat (16 * (b.toNat / 16) + b.toNat % 16) = b := by
        rw [hvalue, UInt8.ofNat_toNat]
      show toBytes? (digit (b.toNat / 16) :: digit (b.toNat % 16) :: ofBytes rest) = _
      rw [toBytes?, digitValue?_digit (by omega), digitValue?_digit (by omega), ih]
      exact congrArg (fun x => some (x :: rest)) hbyte

end Hex
end Offside
