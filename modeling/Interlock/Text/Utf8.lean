/-!
# UTF-8

Characters as bytes and back. `decode?` accepts exactly the well-formed byte sequences: no
overlong form, no surrogate, nothing above `U+10FFFF`.
-/

namespace Interlock.Text.Utf8

/-- The bytes of one character. -/
def encodeChar (c : Char) : List UInt8 :=
  let n := c.toNat
  if n < 0x80 then [n.toUInt8]
  else if n < 0x800 then [(0xC0 + n / 0x40).toUInt8, (0x80 + n % 0x40).toUInt8]
  else if n < 0x10000 then
    [(0xE0 + n / 0x1000).toUInt8, (0x80 + n / 0x40 % 0x40).toUInt8, (0x80 + n % 0x40).toUInt8]
  else
    [(0xF0 + n / 0x40000).toUInt8, (0x80 + n / 0x1000 % 0x40).toUInt8,
      (0x80 + n / 0x40 % 0x40).toUInt8, (0x80 + n % 0x40).toUInt8]

/-- The bytes of a list of characters. -/
def encode (cs : List Char) : List UInt8 := cs.flatMap encodeChar

/-- What a first byte promises: how many bytes follow, the bits it carries, and the range of the
byte that comes next. The range of the second byte is what shuts out overlong forms, surrogates
and numbers that are too large. -/
structure Lead where
  more : Nat
  bits : Nat
  low : Nat
  high : Nat

/-- Reads a first byte; `none` for a byte that cannot start a character. -/
def lead? (b : Nat) : Option Lead :=
  if b < 0x80 then some ⟨0, b, 0, 0⟩
  else if b < 0xC2 then none
  else if b < 0xE0 then some ⟨1, b - 0xC0, 0x80, 0xBF⟩
  else if b == 0xE0 then some ⟨2, 0, 0xA0, 0xBF⟩
  else if b == 0xED then some ⟨2, 0x0D, 0x80, 0x9F⟩
  else if b < 0xF0 then some ⟨2, b - 0xE0, 0x80, 0xBF⟩
  else if b == 0xF0 then some ⟨3, 0, 0x90, 0xBF⟩
  else if b < 0xF4 then some ⟨3, b - 0xF0, 0x80, 0xBF⟩
  else if b == 0xF4 then some ⟨3, 4, 0x80, 0x8F⟩
  else none

/-- Reads up to `more` continuation bytes, the first between `low` and `high`. The answer is the
number read and whether all bytes were there, with the bytes that are left. -/
def follow : (more bits low high : Nat) → List UInt8 → (Nat × Bool) × List UInt8
  | 0, bits, _, _, bs => ((bits, true), bs)
  | _ + 1, bits, _, _, [] => ((bits, false), [])
  | more + 1, bits, low, high, b :: bs =>
    if low ≤ b.toNat ∧ b.toNat ≤ high then
      follow more (bits * 0x40 + (b.toNat - 0x80)) 0x80 0xBF bs
    else ((bits, false), b :: bs)

theorem length_follow_le (more bits low high : Nat) (bs : List UInt8) :
    (follow more bits low high bs).2.length ≤ bs.length := by
  induction more generalizing bits low high bs with
  | zero => simp [follow]
  | succ more ih =>
    cases bs with
    | nil => simp [follow]
    | cons b bs =>
      unfold follow
      split
      · exact Nat.le_succ_of_le (ih ..)
      · simp

/-- The pieces of a byte sequence, each a character or an ill-formed piece. -/
def pieces : List UInt8 → List (Option Char)
  | [] => []
  | b :: bs =>
    match lead? b.toNat with
    | none => none :: pieces bs
    | some l =>
      have := length_follow_le l.more l.bits l.low l.high bs
      let r := follow l.more l.bits l.low l.high bs
      (if r.1.2 then some (Char.ofNat r.1.1) else none) :: pieces r.2
termination_by bs => bs.length
decreasing_by
  · simp
  · simp only [List.length_cons]; omega

/-- The characters of a well-formed byte sequence. -/
def decode? (bs : List UInt8) : Option (List Char) := (pieces bs).mapM id

end Interlock.Text.Utf8
