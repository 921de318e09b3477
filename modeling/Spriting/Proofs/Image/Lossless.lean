import Mathlib.Algebra.BigOperators.Group.List.Basic
import Mathlib.Tactic.IntervalCases
import Spriting.Image.Library

/-!
# Images that are written and read again

The written form of an image says its size in decimal and then the bytes of its pixels, four for
each.  So it is read as an image of the same size and the same pixels.

* `readNumber_toString`: a number is read as it was written;
* `getElem?_pixels`: where the bytes of a pixel stand;
* `decode?_encode`: an image is read as it was written;
* `Library.plain_lossless`: so does the plain library.
-/

namespace Spriting.Image

/-! ## Texts as bytes -/

theorem utf8_append (s t : String) : utf8 (s ++ t) = utf8 s ++ utf8 t := by
  simp [utf8]

theorem utf8_ofList (cs : List Char) :
    utf8 (String.ofList cs) = cs.flatMap String.utf8EncodeChar := by
  simp [utf8, List.utf8Encode]

theorem utf8EncodeChar_digitChar {d : Nat} (h : d < 10) :
    String.utf8EncodeChar d.digitChar = [UInt8.ofNat (48 + d)] := by
  interval_cases d <;> rfl

/-- The last digit of a number stands behind the others. -/
theorem utf8_toString (n : Nat) :
    utf8 (toString n) =
      (if n < 10 then [] else utf8 (toString (n / 10))) ++ [UInt8.ofNat (48 + n % 10)] := by
  have written (n : Nat) : utf8 (toString n) = (Nat.toDigits 10 n).flatMap String.utf8EncodeChar :=
    utf8_ofList _
  rw [written, written, Nat.toDigits_eq_if (by decide)]
  split
  · rename_i h
    simp [utf8EncodeChar_digitChar h, Nat.mod_eq_of_lt h]
  · simp [utf8EncodeChar_digitChar (Nat.mod_lt n (by decide : 0 < 10))]

theorem digit_of_mem_toString {n : Nat} {b : UInt8} (h : b ∈ utf8 (toString n)) :
    48 ≤ b ∧ b ≤ 57 := by
  induction n using Nat.strongRecOn with
  | ind n ih =>
    rw [utf8_toString, List.mem_append, List.mem_singleton] at h
    rcases h with h | rfl
    · split at h
      · cases h
      · exact ih (n / 10) (by omega) h
    · have : n % 10 < 10 := Nat.mod_lt n (by decide)
      constructor <;> rw [UInt8.le_iff_toNat_le] <;> simp <;> omega

/-- A number is read as it was written. -/
theorem readNumber_toString (n : Nat) : Raster.readNumber (utf8 (toString n)) = some n := by
  have some_digit : utf8 (toString n) ≠ [] := by
    rw [utf8_toString]
    simp
  have digits : (utf8 (toString n)).all (fun d => 48 ≤ d && d ≤ 57) = true := by
    rw [List.all_eq_true]
    intro b hb
    simpa using digit_of_mem_toString hb
  have value : (utf8 (toString n)).foldl (fun n d => 10 * n + (d.toNat - 48)) 0 = n := by
    clear some_digit digits
    induction n using Nat.strongRecOn with
    | ind n ih =>
      rw [utf8_toString, List.foldl_append]
      split
      · simp
        omega
      · rw [ih (n / 10) (by omega)]
        simp
        omega
  rw [Raster.readNumber, if_pos ⟨some_digit, digits⟩, value]

/-! ## Pixels in rows -/

section
variable {α : Type} {f : Nat → List α} {m n i j : Nat}

theorem length_flatMap_range (hf : ∀ i, (f i).length = m) :
    ((List.range n).flatMap f).length = n * m := by
  simp [List.length_flatMap, hf, List.map_const', List.sum_replicate]

/-- In a row of blocks of one length, the `j`-th entry of the `i`-th block. -/
theorem getElem?_flatMap_range (hf : ∀ i, (f i).length = m) (hi : i < n) (hj : j < m) :
    ((List.range n).flatMap f)[i * m + j]? = (f i)[j]? := by
  induction n with
  | zero => omega
  | succ n ih =>
    rw [List.range_succ, List.flatMap_append, List.flatMap_singleton]
    rcases Nat.lt_succ_iff_lt_or_eq.1 hi with hlt | rfl
    · have hin : i * m + j < n * m := by
        have : (i + 1) * m ≤ n * m := Nat.mul_le_mul_right m hlt
        rw [Nat.succ_mul] at this
        omega
      rw [List.getElem?_append_left (by rwa [length_flatMap_range hf]), ih hlt]
    · rw [List.getElem?_append_right (by simp [length_flatMap_range hf]),
        length_flatMap_range hf, Nat.add_sub_cancel_left]

end

namespace Raster

variable {r : Raster} {x y : Nat}

theorem length_rowBytes (r : Raster) (y : Nat) : (r.rowBytes y).length = r.width * 4 :=
  length_flatMap_range fun _ => rfl

theorem length_pixels (r : Raster) : r.pixels.length = 4 * r.width * r.height := by
  rw [pixels, length_flatMap_range (length_rowBytes r), Nat.mul_comm, Nat.mul_comm r.width]

/-- The bytes of a pixel stand where its place in the rows says. -/
theorem getElem?_pixels {k : Nat} (hx : x < r.width) (hy : y < r.height) (hk : k < 4) :
    r.pixels[4 * (y * r.width + x) + k]? = (r.pixel x y).bytes[k]? := by
  have place : 4 * (y * r.width + x) + k = y * (r.width * 4) + (x * 4 + k) := by
    rw [← Nat.mul_assoc]
    omega
  rw [place, pixels, getElem?_flatMap_range (length_rowBytes r) hy (by omega)]
  exact getElem?_flatMap_range (f := fun x => (r.pixel x y).bytes) (fun _ => rfl) hx hk

/-- Two images have the same size and the same pixels. -/
structure Same (r r' : Raster) : Prop where
  width : r.width = r'.width
  height : r.height = r'.height
  pixel : ∀ x y, x < r'.width → y < r'.height → r.pixel x y = r'.pixel x y

theorem ofPixels_same (r : Raster) : (ofPixels r.width r.height r.pixels).Same r := by
  refine ⟨rfl, rfl, fun x y hx hy => ?_⟩
  have byte (k : Nat) (hk : k < 4) :
      r.pixels.toArray.getD (4 * (y * r.width + x) + k) 0 = ((r.pixel x y).bytes[k]?).getD 0 := by
    rw [← getElem?_pixels hx hy hk]
    simp [Array.getD_eq_getD_getElem?]
  have red := byte 0 (by decide)
  have green := byte 1 (by decide)
  have blue := byte 2 (by decide)
  have alpha := byte 3 (by decide)
  simp only [ofPixels]
  rw [← Nat.add_zero (4 * (y * r.width + x)), red, green, blue, alpha]
  rfl

/-! ## Reading what has been written -/

/-- What stands before the first `c`, and what stands behind it. -/
theorem takeWhile_front {front : Bytes} {c : UInt8} (rest : Bytes) (h : ∀ b ∈ front, b ≠ c) :
    (front ++ c :: rest).takeWhile (· != c) = front ∧
      ((front ++ c :: rest).dropWhile (· != c)).drop 1 = rest := by
  have pass : ∀ b ∈ front, (b != c) = true := fun b hb => by simpa using h b hb
  rw [List.takeWhile_append_of_pos pass, List.dropWhile_append_of_pos pass]
  simp

theorem encode_eq (r : Raster) :
    r.encode = utf8 (toString r.width) ++ 120 :: (utf8 (toString r.height) ++ 10 :: r.pixels) := by
  have cross : utf8 "x" = [120] := by decide
  have line : utf8 "\n" = [10] := by decide
  rw [encode, utf8_append, utf8_append, utf8_append, cross, line]
  simp

/-- **An image is read as it was written.** -/
theorem decode?_encode (r : Raster) : ∃ r', decode? r.encode = some r' ∧ r'.Same r := by
  have digits {n : Nat} {c : UInt8} (hc : c < 48 ∨ 57 < c) : ∀ b ∈ utf8 (toString n), b ≠ c := by
    rintro b hb rfl
    have := digit_of_mem_toString hb
    simp only [UInt8.le_iff_toNat_le, UInt8.lt_iff_toNat_lt] at this hc
    omega
  obtain ⟨width, behind⟩ := takeWhile_front (utf8 (toString r.height) ++ 10 :: r.pixels)
    (digits (n := r.width) (c := 120) (.inr (by decide)))
  obtain ⟨height, pixels⟩ := takeWhile_front r.pixels
    (digits (n := r.height) (c := 10) (.inl (by decide)))
  refine ⟨_, ?_, ofPixels_same r⟩
  rw [decode?, encode_eq, width, readNumber_toString]
  simp only [behind, height, pixels, readNumber_toString, Option.bind_eq_bind, Option.bind_some,
    length_pixels, guard, if_true]
  rfl

end Raster

/-! ## Libraries -/

/-- What a library reads of what it has written is what it was given to write. -/
def Library.Lossless (library : Library) : Prop :=
  ∀ image content path read, library.encode image = .ok content →
    library.decode path content = .ok read → read.Same image

theorem Library.plain_decode (image : Raster) (path : String) :
    ∃ read, plain.decode path image.encode = .ok read ∧ read.Same image := by
  obtain ⟨read, hread, same⟩ := Raster.decode?_encode image
  exact ⟨read, by simp [plain, hread], same⟩

theorem Library.plain_lossless : plain.Lossless := by
  intro image content path read hencode hdecode
  obtain ⟨read', hread', same⟩ := plain_decode image path
  cases hencode
  cases hread'.symm.trans hdecode
  exact same

end Spriting.Image
