/-
Bytes read as UTF-8. Where the bytes form no character, the longest beginning of one, or else a
single byte, is read as the replacement character.
-/
namespace Maquette.Utf8

/-- What the first byte of a longer character says: how many bytes follow it, the range of the first
of them, and its own bits. -/
structure Lead where
  count : Nat
  low : Nat
  high : Nat
  bits : Nat
  deriving DecidableEq, Repr

/-- The lead that a byte is. Overlong forms, surrogates and numbers that are too great are ruled out
by the range of the second byte. -/
def lead? (b : Nat) : Option Lead :=
  if 0xc2 ≤ b ∧ b ≤ 0xdf then some ⟨1, 0x80, 0xbf, b - 0xc0⟩
  else if b = 0xe0 then some ⟨2, 0xa0, 0xbf, 0⟩
  else if b = 0xed then some ⟨2, 0x80, 0x9f, 0xd⟩
  else if 0xe1 ≤ b ∧ b ≤ 0xef then some ⟨2, 0x80, 0xbf, b - 0xe0⟩
  else if b = 0xf0 then some ⟨3, 0x90, 0xbf, 0⟩
  else if b = 0xf4 then some ⟨3, 0x80, 0x8f, 4⟩
  else if 0xf1 ≤ b ∧ b ≤ 0xf3 then some ⟨3, 0x80, 0xbf, b - 0xf0⟩
  else none

/-- Reads the bytes after a lead: the character if they are all there, and what is left. -/
def follow : Lead → List Nat → Option Char × List Nat
  | ⟨0, _, _, bits⟩, bytes => (some (Char.ofNat bits), bytes)
  | ⟨_ + 1, _, _, _⟩, [] => (none, [])
  | ⟨count + 1, low, high, bits⟩, b :: rest =>
    if low ≤ b ∧ b ≤ high then follow ⟨count, 0x80, 0xbf, bits * 64 + (b - 0x80)⟩ rest
    else (none, b :: rest)

theorem follow_length_le (l : Lead) (bytes : List Nat) :
    (follow l bytes).2.length ≤ bytes.length := by
  fun_induction follow l bytes with
  | case1 => simp
  | case2 => simp
  | case3 count low high bits b rest h ih => simpa [h] using Nat.le_succ_of_le ih
  | case4 => simp

/-- The characters of bytes. -/
def decode : List Nat → List Char
  | [] => []
  | b :: rest =>
    if b < 0x80 then Char.ofNat b :: decode rest
    else
      match lead? b with
      | none => '\ufffd' :: decode rest
      | some l => (follow l rest).1.getD '\ufffd' :: decode (follow l rest).2
termination_by bytes => bytes.length
decreasing_by
  · simp
  · simp
  · have := follow_length_le l rest
    simp only [List.length_cons]
    omega

/-- The bytes of characters. -/
def encode (cs : List Char) : List Nat :=
  cs.flatMap fun c => (String.utf8EncodeChar c).map UInt8.toNat

end Maquette.Utf8
