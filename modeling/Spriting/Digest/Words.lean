/-!
# Messages as words

What the digests have in common: a message is filled up to whole blocks, a block
is read as sixteen words, and every block stirs the words of a running state.
-/

namespace Spriting.Digest

/-- The number that bytes write, the most significant first. -/
def ofBigEndian (bytes : List UInt8) : Nat := bytes.foldl (fun n b => 256 * n + b.toNat) 0

/-- The number that bytes write, the least significant first. -/
def ofLittleEndian (bytes : List UInt8) : Nat := ofBigEndian bytes.reverse

/-- The word that bytes write, the least significant first. -/
def wordOf (bytes : List UInt8) : UInt32 := bytes.foldr (fun b w => (w <<< 8) ||| b.toUInt32) 0

/-- The last `size` bytes of a number, the least significant first. -/
def toLittleEndian (size n : Nat) : List UInt8 :=
  match size with
  | 0 => []
  | size + 1 => UInt8.ofNat n :: toLittleEndian size (n / 256)

/-- The last `size` bytes of a number, the most significant first. -/
def toBigEndian (size n : Nat) : List UInt8 := (toLittleEndian size n).reverse

/-- A list cut into pieces of `n`, the last of which may be shorter. -/
def chunks (n : Nat) (l : List α) : List (List α) :=
  if l = [] ∨ n = 0 then [] else l.take n :: chunks n (l.drop n)
termination_by l.length
decreasing_by
  rename_i h
  have : 0 < l.length := List.length_pos_iff.2 fun hl => h (.inl hl)
  rw [List.length_drop]
  omega

/-- A message filled up to whole blocks: a one bit, zeros and the bytes of its
length in bits. -/
def fill (blockSize : Nat) (bitLength : List UInt8) (message : List UInt8) : List UInt8 :=
  let used := message.length + 1 + bitLength.length
  message ++ 0x80 :: List.replicate ((blockSize - used % blockSize) % blockSize) 0 ++ bitLength

/-- The blocks of a filled message, as words of `size` bytes. -/
def blocks (size : Nat) (read : List UInt8 → Nat) (filled : List UInt8) :
    List (List (BitVec (8 * size))) :=
  (chunks (16 * size) filled).map fun block => (chunks size block).map fun w => .ofNat _ (read w)

/-- Lower-case hexadecimal, two digits a byte. -/
def hex (bytes : List UInt8) : String :=
  String.ofList (bytes.flatMap fun b => [Nat.digitChar (b.toNat / 16), Nat.digitChar (b.toNat % 16)])

end Spriting.Digest
