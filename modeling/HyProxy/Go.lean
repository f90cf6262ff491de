import Mathlib.Data.List.Basic
import Mathlib.Data.Nat.Bitwise

/-!
# The Go the proxy is written in, as far as its code needs it

The decoders and the packet reader index and slice byte slices, copy between them, and read
little-endian integers out of them. Go checks every index and every slice expression at run
time and PANICS when one is out of range; a model that clamped instead would make every
decoder safe by construction. So each operation is here with its check:

- `Go.index s i` is `s[i]` and `Go.slice s lo hi` is `s[lo:hi]`; `none` is the panic;
- `Go.copyAt dst off src` is `copy(dst[off:], src)`: Go's `copy` moves `min` of the two
  lengths and reads its source before it writes, so a value model needs no aliasing care;
- `Go.uint32LE` is `binary.LittleEndian.Uint32`, whose `_ = b[3]` bound check is the pattern
  match, and `Go.putUint32LE` is `PutUint32`;
- `Go.shl32 x s` is Go's `x << s` on a `uint32`: ZERO once `s ≥ 32`, where Lean's `<<<` would
  take the shift modulo 32;
- `Go.StrMap` is a `map[string]string`, or a `sync.Map` that only ever holds strings, by its
  lookup function: `load` is `m[k]` with its `ok`, `store` and `delete` are the assignments.

A slice is modelled with its capacity equal to its length. Every slice the modelled code cuts
was made by `make` (the packet reader's buffer), or is cut within its length by a check the code
makes first (`p[:n]` in the DCID tracker).

Code that can panic returns `Option`. The packet reader also loops on its transport, so its
functions run on fuel and stop in `Except Halt`: `Halt.panic`, or `Halt.fuel` when the loop has
not exited within the fuel it was given.

## What is proved

Length and prefix laws of `copyAt`, and the `Nat` value of each bit operation the decoders
perform. Every later module states its arithmetic over these.
-/

set_option autoImplicit false

namespace HyProxy

/-- The error values the modelled code returns or receives.

`eof` and `unexpectedEOF` are `io.EOF` and `io.ErrUnexpectedEOF`; the next five are the
sentinels `protohytale` declares and returns (`ErrInvalidUTF8` and `ErrInvalidHeader` are
declared but returned by no function, and left out). `other` is any error a transport reports
that the package does not declare itself (a reset stream, a deadline). -/
inductive GoError
  | eof
  | unexpectedEOF
  | varIntTooLong
  | stringTooLong
  | packetTooLarge
  | connectTooShort
  | invalidPacketID
  | other (code : Nat)
  deriving DecidableEq, Repr

/-- How a call of the modelled code stops WITHOUT returning: a runtime panic, or the fuel of the
model running out while a loop of the code is still looping. -/
inductive Halt
  | panic
  | fuel
  deriving DecidableEq, Repr

/-- Results of the model can be compared, so that its runs on fixed inputs are decided. -/
instance instDecidableEqExcept {ε α : Type} [DecidableEq ε] [DecidableEq α] :
    DecidableEq (Except ε α)
  | .error a, .error b =>
    if h : a = b then isTrue (h ▸ rfl) else isFalse fun h' => h (Except.error.inj h')
  | .ok a, .ok b => if h : a = b then isTrue (h ▸ rfl) else isFalse fun h' => h (Except.ok.inj h')
  | .error _, .ok _ => isFalse nofun
  | .ok _, .error _ => isFalse nofun

namespace Go

variable {α : Type}

/-- `s[i]`. -/
def index (s : List α) (i : Nat) : Option α := s[i]?

/-- `s[lo:hi]`, with the capacity of `s` its length. -/
def slice (s : List α) (lo hi : Nat) : Option (List α) :=
  if lo ≤ hi ∧ hi ≤ s.length then some ((s.take hi).drop lo) else none

/-- `s[lo:]`. -/
def sliceFrom (s : List α) (lo : Nat) : Option (List α) := slice s lo s.length

/-- `copy(dst[off:], src)`, as the value `dst` holds afterwards. -/
def copyAt (dst : List α) (off : Nat) (src : List α) : List α :=
  dst.take off ++ src.take (dst.length - off) ++ dst.drop (off + src.length)

/-- `make([]byte, n)`. -/
def make (n : Nat) : List UInt8 := List.replicate n 0

/-- `x << s` on a `uint32`, with Go's rule for shifts past the width. -/
def shl32 (x : UInt32) (s : Nat) : UInt32 := if s < 32 then x <<< s.toUInt32 else 0

/-- `binary.LittleEndian.Uint16(b)`. -/
def uint16LE : List UInt8 → Option UInt16
  | b0 :: b1 :: _ => some (b0.toUInt16 ||| b1.toUInt16 <<< 8)
  | _ => none

/-- `binary.LittleEndian.Uint32(b)`. -/
def uint32LE : List UInt8 → Option UInt32
  | b0 :: b1 :: b2 :: b3 :: _ =>
    some (b0.toUInt32 ||| b1.toUInt32 <<< 8 ||| b2.toUInt32 <<< 16 ||| b3.toUInt32 <<< 24)
  | _ => none

/-- `binary.LittleEndian.PutUint32(b, v)`, as the four bytes it writes. -/
def putUint32LE (v : UInt32) : List UInt8 :=
  [v.toUInt8, (v >>> 8).toUInt8, (v >>> 16).toUInt8, (v >>> 24).toUInt8]

/-- Lifts code that can panic into code that also runs on fuel. -/
def orPanic : Option α → Except Halt α
  | some a => pure a
  | none => throw .panic

/-! ## Indexing and slicing -/

@[simp] theorem orPanic_some (a : α) : orPanic (some a) = pure a := rfl

/-- A step that succeeded hands its value to the rest of the computation. -/
@[simp] theorem ok_bind {ε β : Type} (a : α) (f : α → Except ε β) :
    (Except.ok a >>= f) = f a := rfl

@[simp] theorem index_of_lt {s : List α} {i : Nat} (h : i < s.length) : index s i = some s[i] :=
  List.getElem?_eq_getElem h

theorem slice_of_le {s : List α} {lo hi : Nat} (h₁ : lo ≤ hi) (h₂ : hi ≤ s.length) :
    slice s lo hi = some ((s.take hi).drop lo) := if_pos ⟨h₁, h₂⟩

theorem sliceFrom_of_le {s : List α} {lo : Nat} (h : lo ≤ s.length) :
    sliceFrom s lo = some (s.drop lo) := by
  rw [sliceFrom, slice_of_le h le_rfl, List.take_length]

theorem length_of_slice {s r : List α} {lo hi : Nat} (h : slice s lo hi = some r) :
    r.length = hi - lo := by
  unfold slice at h
  split at h
  · cases h
    simp only [List.length_drop, List.length_take]
    omega
  · cases h

theorem slice_isSome_iff {s : List α} {lo hi : Nat} :
    (slice s lo hi).isSome ↔ lo ≤ hi ∧ hi ≤ s.length := by
  unfold slice; split <;> simp_all

/-! ## `copy` -/

theorem length_copyAt (dst src : List α) {off : Nat} (h : off ≤ dst.length) :
    (copyAt dst off src).length = dst.length := by
  simp only [copyAt, List.length_append, List.length_take, List.length_drop]
  omega

/-- Copying `src` in at `off` puts exactly `src` after the first `off` elements, when it fits. -/
theorem take_copyAt (dst src : List α) {off : Nat} (h : off + src.length ≤ dst.length) :
    (copyAt dst off src).take (off + src.length) = dst.take off ++ src := by
  have hA : (dst.take off).length = off := by simp only [List.length_take]; omega
  rw [copyAt, List.take_of_length_le (show src.length ≤ dst.length - off by omega),
    List.append_assoc, List.take_append_eq_append_take, hA, Nat.add_sub_cancel_left,
    List.take_left' rfl, List.take_of_length_le (by omega)]

/-- The same law read at the start of the slice. -/
theorem take_copyAt_zero (dst src : List α) (h : src.length ≤ dst.length) :
    (copyAt dst 0 src).take src.length = src := by
  simpa using take_copyAt dst src (show 0 + src.length ≤ dst.length by omega)

/-- Copying a source that fits: it replaces the elements from `off` on, and nothing else. -/
theorem copyAt_of_le (dst src : List α) {off : Nat} (h : off + src.length ≤ dst.length) :
    copyAt dst off src = dst.take off ++ src ++ dst.drop (off + src.length) := by
  rw [copyAt, List.take_of_length_le (l := src) (by omega)]

/-- Copying a source that exactly fills the rest of `dst` from `off` on. -/
theorem copyAt_of_length_eq (dst src : List α) {off : Nat} (h : off + src.length = dst.length) :
    copyAt dst off src = dst.take off ++ src := by
  rw [copyAt_of_le _ _ h.le, List.drop_of_length_le (by omega), List.append_nil]

/-- `make` then `copy` of a source of the same length is the source. -/
theorem copyAt_make {src : List UInt8} {n : Nat} (h : src.length = n) : copyAt (make n) 0 src = src := by
  rw [copyAt_of_length_eq _ _ (by simp [make, h]), List.take_zero, List.nil_append]

/-- A Go array `[n]byte`: a byte list that cannot have another length. -/
@[ext] structure FixedBytes (n : Nat) where
  bytes : List UInt8
  length_eq : bytes.length = n
  deriving DecidableEq

/-- `var a [n]byte; copy(a[:], src)`. -/
def copyArray (n : Nat) (src : List UInt8) : FixedBytes n :=
  ⟨copyAt (make n) 0 src, by rw [length_copyAt _ _ (Nat.zero_le _)]; simp [make]⟩

/-- Copying exactly `n` bytes into a `[n]byte` gives those bytes. -/
theorem copyArray_of_length {src : List UInt8} {n : Nat} (h : src.length = n) :
    copyArray n src = ⟨src, h⟩ :=
  FixedBytes.ext (copyAt_make h)

/-! ## Bits, as numbers -/

/-- An OR of bit ranges that do not overlap is their sum. -/
theorem or_eq_add {a b s : Nat} (h : b < 2 ^ s) : 2 ^ s * a ||| b = 2 ^ s * a + b := by
  apply Nat.eq_of_testBit_eq
  intro j
  rw [Nat.testBit_or, Nat.testBit_mul_pow_two_add a h, Nat.testBit_mul_pow_two]
  by_cases hj : j < s
  · simp [hj]
  · have : b < 2 ^ j := lt_of_lt_of_le h (Nat.pow_le_pow_right (by decide) (by omega))
    simp [hj, Nat.testBit_lt_two_pow this]
    omega

theorem toNat_or (a b : UInt32) : (a ||| b).toNat = a.toNat ||| b.toNat := BitVec.toNat_or ..

theorem toNat_shl {a s : UInt32} (hs : s.toNat < 32) :
    (a <<< s).toNat = a.toNat * 2 ^ s.toNat % 2 ^ 32 := by
  show (a.toBitVec <<< (s % 32).toBitVec).toNat = _
  rw [BitVec.shiftLeft_eq', BitVec.toNat_shiftLeft, Nat.shiftLeft_eq]
  have : (s % 32).toNat = s.toNat := by rw [UInt32.toNat_mod]; exact Nat.mod_eq_of_lt hs
  rw [← this]
  rfl

theorem toNat_shr {a s : UInt32} (hs : s.toNat < 32) : (a >>> s).toNat = a.toNat / 2 ^ s.toNat := by
  show (a.toBitVec >>> (s % 32).toBitVec).toNat = _
  rw [BitVec.ushiftRight_eq', BitVec.toNat_ushiftRight, Nat.shiftRight_eq_div_pow]
  have : (s % 32).toNat = s.toNat := by rw [UInt32.toNat_mod]; exact Nat.mod_eq_of_lt hs
  rw [← this]
  rfl

@[simp] theorem toNat_toUInt32 (s : Nat) (hs : s < 32) : s.toUInt32.toNat = s :=
  UInt32.toNat_ofNat_of_lt (by simp only [UInt32.size]; omega)

/-- OR-ing a value in above an accumulator that fits below the shift ADDS it, modulo `2^32`. -/
theorem toNat_or_shl {acc x s : UInt32} (hs : s.toNat < 32) (hacc : acc.toNat < 2 ^ s.toNat) :
    (acc ||| x <<< s).toNat = acc.toNat + x.toNat * 2 ^ s.toNat % 2 ^ 32 := by
  have hdvd : x.toNat * 2 ^ s.toNat % 2 ^ 32 = 2 ^ s.toNat * (x.toNat % 2 ^ (32 - s.toNat)) := by
    rw [show 2 ^ 32 = 2 ^ s.toNat * 2 ^ (32 - s.toNat) by rw [← Nat.pow_add]; congr 1; omega,
      Nat.mul_comm, Nat.mul_mod_mul_left]
  rw [toNat_or, toNat_shl hs, hdvd, Nat.lor_comm, or_eq_add hacc, Nat.add_comm]

theorem shl32_of_lt (x : UInt32) {s : Nat} (hs : s < 32) : shl32 x s = x <<< s.toUInt32 :=
  if_pos hs

@[simp] theorem ofNat_toNat32 (v : UInt32) : UInt32.ofNat v.toNat = v :=
  UInt32.toNat.inj (UInt32.toNat_ofNat_of_lt v.toNat_lt_size)

@[simp] theorem toNat_u8_toUInt32 (b : UInt8) : b.toUInt32.toNat = b.toNat := rfl

@[simp] theorem toNat_u32_toUInt8 (v : UInt32) : v.toUInt8.toNat = v.toNat % 256 := by
  simp [UInt32.toUInt8, Nat.toUInt8, UInt8.ofNat, UInt8.toNat]

/-- The payload bits of a VarInt byte. -/
theorem toNat_and_0x7F (b : UInt8) : (b &&& 0x7F).toNat = b.toNat % 128 := by
  rw [UInt8.and_toNat]
  exact Nat.and_pow_two_sub_one_eq_mod b.toNat 7

/-- Setting the continuation bit of a byte that does not have it. -/
theorem toNat_or_0x80 {b : UInt8} (hb : b.toNat < 128) : (b ||| 0x80).toNat = b.toNat + 128 := by
  show (b.toBitVec ||| (0x80 : UInt8).toBitVec).toNat = _
  rw [BitVec.toNat_or, show (0x80 : UInt8).toBitVec.toNat = 2 ^ 7 * 1 from rfl, Nat.lor_comm,
    or_eq_add (show b.toBitVec.toNat < 2 ^ 7 from hb)]
  exact Nat.add_comm _ _

/-- The low seven bits of a `uint32`, as the byte `byte(value & 0x7F)`. -/
theorem toNat_low7 (v : UInt32) : (v &&& 0x7F).toUInt8.toNat = v.toNat % 128 := by
  rw [toNat_u32_toUInt8, UInt32.and_toNat, show (0x7F : UInt32).toNat = 2 ^ 7 - 1 from rfl,
    Nat.and_pow_two_sub_one_eq_mod]
  omega

/-- The continuation bit of a VarInt byte, and the long-header bit of a QUIC first byte. -/
theorem and_0x80_eq_zero (b : UInt8) : b &&& 0x80 = 0 ↔ b.toNat < 128 := by
  have hb := b.toNat_lt_size
  have hbit : b.toNat / 2 ^ 7 % 2 = if b.toNat < 128 then 0 else 1 := by
    simp only [UInt8.size] at hb; split <;> omega
  have h : (b &&& 0x80).toNat = if b.toNat < 128 then 0 else 128 := by
    rw [UInt8.and_toNat, Nat.land_comm, show (0x80 : UInt8).toNat = 2 ^ 7 from rfl,
      Nat.two_pow_and, Nat.testBit_to_div_mod, hbit]
    split <;> rfl
  constructor
  · intro h0; rw [h0] at h; split at h <;> simp_all
  · intro hlt; apply UInt8.toNat.inj; rw [h, if_pos hlt]; rfl

/-- One byte OR-ed in above an accumulator that fits below it. -/
theorem toNat_or_byte (acc s : UInt32) (b : UInt8) (hs : s.toNat + 8 ≤ 32)
    (hacc : acc.toNat < 2 ^ s.toNat) :
    (acc ||| b.toUInt32 <<< s).toNat = acc.toNat + 2 ^ s.toNat * b.toNat := by
  have hb : b.toNat < 2 ^ 8 := b.toNat_lt_size
  have hlt : b.toNat * 2 ^ s.toNat < 2 ^ 32 :=
    calc b.toNat * 2 ^ s.toNat
        < 2 ^ 8 * 2 ^ s.toNat := Nat.mul_lt_mul_of_pos_right hb (Nat.two_pow_pos _)
      _ = 2 ^ (s.toNat + 8) := by rw [← Nat.pow_add, Nat.add_comm]
      _ ≤ 2 ^ 32 := Nat.pow_le_pow_right (by decide) hs
  rw [toNat_or_shl (by omega) hacc, toNat_u8_toUInt32, Nat.mod_eq_of_lt hlt, Nat.mul_comm]

/-- `binary.LittleEndian.Uint32`, as the number its four bytes spell. -/
theorem toNat_uint32LE (b0 b1 b2 b3 : UInt8) (r : List UInt8) :
    (uint32LE (b0 :: b1 :: b2 :: b3 :: r)).map UInt32.toNat =
      some (b0.toNat + 2 ^ 8 * b1.toNat + 2 ^ 16 * b2.toNat + 2 ^ 24 * b3.toNat) := by
  have h0 : b0.toNat < 2 ^ 8 := b0.toNat_lt_size
  have h1 : b1.toNat < 2 ^ 8 := b1.toNat_lt_size
  have h2 : b2.toNat < 2 ^ 8 := b2.toNat_lt_size
  have e1 := toNat_or_byte b0.toUInt32 8 b1 (by decide) h0
  rw [show (8 : UInt32).toNat = 8 from rfl, toNat_u8_toUInt32] at e1
  have e2 := toNat_or_byte (b0.toUInt32 ||| b1.toUInt32 <<< 8) 16 b2 (by decide)
    (by rw [show (16 : UInt32).toNat = 16 from rfl, e1]; omega)
  rw [show (16 : UInt32).toNat = 16 from rfl, e1] at e2
  have e3 := toNat_or_byte (b0.toUInt32 ||| b1.toUInt32 <<< 8 ||| b2.toUInt32 <<< 16) 24 b3
    (by decide)
    (by rw [show (24 : UInt32).toNat = 24 from rfl, e2]; omega)
  rw [show (24 : UInt32).toNat = 24 from rfl, e2] at e3
  simp only [uint32LE, Option.map_some', e3]

/-- `binary.LittleEndian.Uint16`, as the number its two bytes spell. -/
theorem toNat_uint16LE (b0 b1 : UInt8) (r : List UInt8) :
    (uint16LE (b0 :: b1 :: r)).map UInt16.toNat = some (b0.toNat + 2 ^ 8 * b1.toNat) := by
  have h0 : b0.toNat < 2 ^ 8 := b0.toNat_lt_size
  have h1 : b1.toNat < 2 ^ 8 := b1.toNat_lt_size
  show some ((b0.toUInt16.toBitVec ||| b1.toUInt16.toBitVec <<< ((8 : UInt16) % 16).toBitVec).toNat) = _
  rw [BitVec.toNat_or, BitVec.shiftLeft_eq', BitVec.toNat_shiftLeft, Nat.shiftLeft_eq,
    show ((8 : UInt16) % 16).toBitVec.toNat = 8 from rfl,
    show b0.toUInt16.toBitVec.toNat = b0.toNat from rfl,
    show b1.toUInt16.toBitVec.toNat = b1.toNat from rfl, Nat.mod_eq_of_lt (by omega),
    Nat.lor_comm, Nat.mul_comm, or_eq_add h0, Nat.add_comm]

/-- `binary.LittleEndian` round trip: `Uint32` reads back what `PutUint32` wrote. -/
theorem uint32LE_putUint32LE (v : UInt32) (rest : List UInt8) :
    uint32LE (putUint32LE v ++ rest) = some v := by
  have hv : v.toNat < 2 ^ 32 := v.toNat_lt_size
  have h := toNat_uint32LE v.toUInt8 (v >>> 8).toUInt8 (v >>> 16).toUInt8 (v >>> 24).toUInt8 rest
  simp only [toNat_u32_toUInt8, toNat_shr (show (8 : UInt32).toNat < 32 by decide),
    toNat_shr (show (16 : UInt32).toNat < 32 by decide),
    toNat_shr (show (24 : UInt32).toNat < 32 by decide), show (8 : UInt32).toNat = 8 from rfl,
    show (16 : UInt32).toNat = 16 from rfl, show (24 : UInt32).toNat = 24 from rfl] at h
  obtain ⟨w, hw, hwv⟩ := Option.map_eq_some'.mp h
  have : v = w := UInt32.toNat.inj (by rw [hwv]; omega)
  exact hw.trans (by rw [this])

/-! ## String maps -/

/-- A `map[string]string`, by its lookup. -/
structure StrMap where
  load : String → Option String

/-- The empty map. -/
def StrMap.empty : StrMap := ⟨fun _ => none⟩

/-- `m[k] = v`, or `sync.Map.Store(k, v)`. -/
def StrMap.store (m : StrMap) (k v : String) : StrMap := ⟨fun a => if a = k then some v else m.load a⟩

/-- `delete(m, k)`, or `sync.Map.Delete(k)`. -/
def StrMap.delete (m : StrMap) (k : String) : StrMap := ⟨fun a => if a = k then none else m.load a⟩

@[simp] theorem StrMap.load_empty (a : String) : StrMap.empty.load a = none := rfl

@[simp] theorem StrMap.load_store (m : StrMap) (k v a : String) :
    (m.store k v).load a = if a = k then some v else m.load a := rfl

@[simp] theorem StrMap.load_delete (m : StrMap) (k a : String) :
    (m.delete k).load a = if a = k then none else m.load a := rfl

end Go

end HyProxy
