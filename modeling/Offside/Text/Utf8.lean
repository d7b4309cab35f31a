/-!
# Text measured in bytes

Positions in a source are counted in bytes of its UTF-8 form, while the source
itself is a list of characters.  `byteLength` is the length of `bytes`, and
`dropBytes?` and `takeBytes?` are defined exactly at the positions between two
characters.
-/

namespace Offside
namespace Utf8

def bytes (cs : List Char) : List UInt8 :=
  cs.flatMap String.utf8EncodeChar

/-- Number of bytes in the UTF-8 form of a text. -/
def byteLength (cs : List Char) : Nat :=
  cs.foldr (fun c n => c.utf8Size + n) 0

/-- The text after its first `n` bytes, unless they end inside a character or
after the end. -/
def dropBytes? : Nat → List Char → Option (List Char)
  | 0, cs => some cs
  | _ + 1, [] => none
  | n + 1, c :: cs =>
      if c.utf8Size ≤ n + 1 then dropBytes? (n + 1 - c.utf8Size) cs else none

/-- The first `n` bytes of a text, unless they end inside a character or after
the end. -/
def takeBytes? : Nat → List Char → Option (List Char)
  | 0, _ => some []
  | _ + 1, [] => none
  | n + 1, c :: cs =>
      if c.utf8Size ≤ n + 1 then (takeBytes? (n + 1 - c.utf8Size) cs).map (c :: ·) else none

/-- What stands between two byte positions of a text. -/
def slice?
    (start stop : Nat)
    (cs : List Char) :
    Option (List Char) :=
  if start ≤ stop then (dropBytes? start cs).bind (takeBytes? (stop - start)) else none

@[simp] theorem byteLength_nil : byteLength [] = 0 := rfl

@[simp] theorem byteLength_cons
    (c : Char)
    (cs : List Char) :
    byteLength (c :: cs) = c.utf8Size + byteLength cs := rfl

@[simp] theorem byteLength_append (cs ds : List Char) :
    byteLength (cs ++ ds) = byteLength cs + byteLength ds := by
  induction cs with
  | nil => simp
  | cons c cs ih =>
      rw [List.cons_append, byteLength_cons, byteLength_cons, ih, Nat.add_assoc]

theorem bytes_append (cs ds : List Char) :
    bytes (cs ++ ds) = bytes cs ++ bytes ds := by
  simp [bytes]

/-- The byte length of a text is the number of bytes of its UTF-8 form. -/
theorem length_bytes (cs : List Char) : (bytes cs).length = byteLength cs := by
  induction cs with
  | nil => rfl
  | cons c cs ih =>
      have hcons : bytes (c :: cs) = String.utf8EncodeChar c ++ bytes cs := rfl
      rw [hcons, List.length_append, ih, byteLength_cons,
        String.length_utf8EncodeChar]

/-- Dropping the bytes of a first part leaves the second part. -/
theorem dropBytes?_append (cs ds : List Char) :
    dropBytes? (byteLength cs) (cs ++ ds) = some ds := by
  induction cs with
  | nil => simp [dropBytes?]
  | cons c cs ih =>
      obtain ⟨k, hk⟩ : ∃ k, c.utf8Size + byteLength cs = k + 1 :=
        ⟨c.utf8Size + byteLength cs - 1, by have := c.utf8Size_pos; omega⟩
      have hle : c.utf8Size ≤ k + 1 := by omega
      have hrest : k + 1 - c.utf8Size = byteLength cs := by omega
      rw [byteLength_cons, hk, List.cons_append, dropBytes?, if_pos hle, hrest, ih]

/-- The first part of a text is found again by its length in bytes. -/
theorem takeBytes?_append (cs ds : List Char) :
    takeBytes? (byteLength cs) (cs ++ ds) = some cs := by
  induction cs with
  | nil => simp [takeBytes?]
  | cons c cs ih =>
      obtain ⟨k, hk⟩ : ∃ k, c.utf8Size + byteLength cs = k + 1 :=
        ⟨c.utf8Size + byteLength cs - 1, by have := c.utf8Size_pos; omega⟩
      have hle : c.utf8Size ≤ k + 1 := by omega
      have hrest : k + 1 - c.utf8Size = byteLength cs := by omega
      rw [byteLength_cons, hk, List.cons_append, takeBytes?, if_pos hle, hrest, ih]
      rfl

/-- A part of a text stands between the position where it starts and the one
where it ends. -/
theorem slice?_append (before part after : List Char) :
    slice? (byteLength before) (byteLength before + byteLength part)
      (before ++ (part ++ after)) = some part := by
  rw [slice?, if_pos (Nat.le_add_right _ _), dropBytes?_append, Nat.add_sub_cancel_left]
  exact takeBytes?_append part after

end Utf8
end Offside
