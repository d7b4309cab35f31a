/-!
# Words as four bytes

A 32-bit word is written as four bytes, the least significant first.  Runs of
words and runs of bytes are inverse to each other: `words_flatMap_bytes` reads
back what was written, and `flatMap_bytes_words` says that bytes which make up
whole words are written in one way only.
-/

namespace Offside
namespace LittleEndian

def width : Nat := 4

/-- The four bytes of a word, least significant first. -/
def bytes (w : UInt32) : List UInt8 :=
  [ UInt8.ofNat w.toNat,
    UInt8.ofNat (w.toNat / 256),
    UInt8.ofNat (w.toNat / 65536),
    UInt8.ofNat (w.toNat / 16777216) ]

/-- The word whose bytes, least significant first, are the four arguments. -/
def word (a b c d : UInt8) : UInt32 :=
  UInt32.ofNat
    (a.toNat + 256 * b.toNat + 65536 * c.toNat + 16777216 * d.toNat)

/-- The words spelled by a run of bytes; up to three bytes left over are ignored. -/
def words : List UInt8 → List UInt32
  | a :: b :: c :: d :: rest => word a b c d :: words rest
  | _ => []

@[simp] theorem bytes_length (w : UInt32) : (bytes w).length = width := rfl

/-- Writing a word and reading its bytes gives the word back. -/
theorem words_bytes_append
    (w : UInt32)
    (rest : List UInt8) :
    words (bytes w ++ rest) = w :: words rest := by
  have hw : w.toNat < 4294967296 := w.toNat_lt
  have hword :
      word (UInt8.ofNat w.toNat) (UInt8.ofNat (w.toNat / 256))
        (UInt8.ofNat (w.toNat / 65536)) (UInt8.ofNat (w.toNat / 16777216)) = w := by
    apply UInt32.toNat_inj.1
    simp only [word, UInt32.toNat_ofNat', UInt8.toNat_ofNat']
    omega
  show word _ _ _ _ :: words rest = w :: words rest
  rw [hword]

/-- Words written one after another are read back in order. -/
theorem words_flatMap_bytes_append
    (ws : List UInt32)
    (rest : List UInt8) :
    words (ws.flatMap bytes ++ rest) = ws ++ words rest := by
  induction ws with
  | nil => rfl
  | cons w ws ih =>
      rw [List.flatMap_cons, List.append_assoc, words_bytes_append, ih, List.cons_append]

theorem words_flatMap_bytes (ws : List UInt32) : words (ws.flatMap bytes) = ws := by
  simpa [words] using words_flatMap_bytes_append ws []

theorem length_flatMap_bytes (ws : List UInt32) :
    (ws.flatMap bytes).length = ws.length * width := by
  induction ws with
  | nil => rfl
  | cons w ws ih =>
      rw [List.flatMap_cons, List.length_append, ih, bytes_length, List.length_cons,
        Nat.succ_mul, Nat.add_comm]

/-- Four bytes are the bytes of the word that they spell. -/
theorem bytes_word
    (a b c d : UInt8) :
    bytes (word a b c d) = [a, b, c, d] := by
  have ha := a.toNat_lt
  have hb := b.toNat_lt
  have hc := c.toNat_lt
  have hd := d.toNat_lt
  simp only [bytes, word, UInt32.toNat_ofNat', List.cons.injEq, and_true]
  refine ⟨?_, ?_, ?_, ?_⟩ <;>
    · apply UInt8.toNat_inj.1
      simp only [UInt8.toNat_ofNat']
      omega

/-- The words read from a run of bytes are as many as fit into it. -/
theorem words_length (bs : List UInt8) : (words bs).length = bs.length / width := by
  fun_induction words bs with
  | case1 a b c d rest ih =>
      simp only [List.length_cons, ih, width]
      omega
  | case2 bs hshort =>
      match bs, hshort with
      | [], _ | [_], _ | [_, _], _ | [_, _, _], _ => simp [width]
      | a :: b :: c :: d :: rest, h => exact absurd rfl (h a b c d rest)

/-- A run of bytes without any left over is the bytes of its words. -/
theorem flatMap_bytes_words
    {bs : List UInt8}
    (h : bs.length % width = 0) :
    (words bs).flatMap bytes = bs := by
  fun_induction words bs with
  | case1 a b c d rest ih =>
      have hrest : rest.length % width = 0 := by
        simp only [List.length_cons, width] at h ⊢
        omega
      rw [List.flatMap_cons, bytes_word, ih hrest]
      rfl
  | case2 bs hshort =>
      match bs, hshort, h with
      | [], _, _ => rfl
      | [_], _, h | [_, _], _, h | [_, _, _], _, h => simp [width] at h
      | a :: b :: c :: d :: rest, hshort, _ => exact absurd rfl (hshort a b c d rest)

/-- Behind a run of bytes without any left over the words go on with what follows. -/
theorem words_append
    {bs : List UInt8}
    (h : bs.length % width = 0)
    (rest : List UInt8) :
    words (bs ++ rest) = words bs ++ words rest := by
  have hbytes := words_flatMap_bytes_append (words bs) rest
  rwa [flatMap_bytes_words h] at hbytes

end LittleEndian
end Offside
