import HyProxy.Go
import Mathlib.Algebra.Order.Field.Rat
import Mathlib.Tactic.FieldSimp
import Mathlib.Tactic.Ring

/-!
# The fixed-width readers, and the half-precision conversion

The codec's fixed-width readers each take a number of bytes from the front of a slice, or answer
`io.ErrUnexpectedEOF` when the slice is shorter: one definition, `readFixed`, with each reader
under its own name applied to its width, zero value and decoder. `ReadFloat16` is the one that
does more: it converts the half-precision bits to single precision with `float16ToFloat32`,
whose subnormal case runs a loop. The loop has no bound in Go; the model runs it on fuel, as it
does the packet reader's, and stops in `Halt.fuel` when the fuel is spent.

The floats are their bits: `math.Float32frombits` reinterprets a `uint32` and changes nothing, so
`ReadFloat32LE` and `float16ToFloat32` return the `UInt32` the float32 is made of. What the bits
MEAN is given by `decodeFloat`, IEEE 754's decoding of a binary format into a signed rational, an
infinity or a NaN, for any widths of the exponent and fraction fields.

## What is proved

- `normalizeSubnormal_spec`: the loop shifts a non-zero fraction up until its bit 10 is set,
  taking the shift off the exponent, within eleven turns;
- `float16ToFloat32_zero`, `_subnormal`, `_infNaN`, `_normal`: what the conversion makes of each
  field, in each of Go's four cases;
- `float16ToFloat32_exact`: the conversion is EXACT. Every one of the 65536 half-precision bit
  patterns decodes to the same value as the single-precision pattern it is converted to: the
  same signed rational (so `-0` stays `-0`), the same infinity, or a NaN with the same sign and
  payload;
- `readFloat16_exact`: `ReadFloat16` on two bytes or more returns that exact float32 of the
  half-precision number its first two bytes spell, little-endian;
- `codec_readers_safe`: no reader here panics on any input, but `ReadBytes` with a negative
  count, which the length check lets through to `make`.
-/

set_option autoImplicit false

namespace HyProxy.Protohytale

open Go

/-! ## The code -/

/-- The fixed-width readers of the codec: with at least `n` bytes, the value `decode` reads from
the front and `n` bytes consumed; with fewer, the zero value, nothing consumed and
`io.ErrUnexpectedEOF`. -/
def readFixed {α : Type} (n : Nat) (zero : α) (decode : List UInt8 → Option α)
    (data : List UInt8) : Option (α × Nat × Option GoError) :=
  if data.length < n then some (zero, 0, some .unexpectedEOF)
  else do
    let v ← decode data
    some (v, n, none)

/-- `binary.LittleEndian.Uint64(b)`. -/
def uint64LE (b : List UInt8) : Option UInt64 := do
  let lo ← uint32LE b
  let hi ← uint32LE (b.drop 4)
  some (lo.toUInt64 ||| hi.toUInt64 <<< 32)

/-- `int32(u)`: the two's complement reading of a `uint32`. -/
def toInt32 (u : UInt32) : Int := if u.toNat < 2 ^ 31 then u.toNat else (u.toNat : Int) - 2 ^ 32

/-- `ReadUUID(data)`: the first 16 bytes, copied into a `[16]byte`. -/
def readUUID : List UInt8 → Option (FixedBytes 16 × Nat × Option GoError) :=
  readFixed 16 (copyArray 16 []) fun data => (slice data 0 16).map (copyArray 16)

/-- `ReadUint8(data)`. -/
def readUint8 : List UInt8 → Option (UInt8 × Nat × Option GoError) :=
  readFixed 1 0 fun data => index data 0

/-- `ReadUint16LE(data)`. -/
def readUint16LE : List UInt8 → Option (UInt16 × Nat × Option GoError) :=
  readFixed 2 0 uint16LE

/-- `ReadUint32LE(data)`. -/
def readUint32LE : List UInt8 → Option (UInt32 × Nat × Option GoError) :=
  readFixed 4 0 uint32LE

/-- `ReadUint64LE(data)`. -/
def readUint64LE : List UInt8 → Option (UInt64 × Nat × Option GoError) :=
  readFixed 8 0 uint64LE

/-- `ReadInt32LE(data)`. -/
def readInt32LE : List UInt8 → Option (Int × Nat × Option GoError) :=
  readFixed 4 0 fun data => (uint32LE data).map toInt32

/-- `ReadFloat32LE(data)`, the float as its bits. -/
def readFloat32LE : List UInt8 → Option (UInt32 × Nat × Option GoError) :=
  readFixed 4 0 uint32LE

/-- `ReadBytes(data, n)`: a copy of the first `n` bytes. `make([]byte, n)` panics for a negative
`n`, which the length check lets through. -/
def readBytes (data : List UInt8) (n : Int) : Option (List UInt8 × Nat × Option GoError) :=
  if (data.length : Int) < n then some ([], 0, some .unexpectedEOF)
  else if n < 0 then none
  else do
    let src ← slice data 0 n.toNat
    some (copyAt (make n.toNat) 0 src, n.toNat, none)

/-- The loop of `float16ToFloat32`'s subnormal case, `for mant&0x400 == 0 { mant <<= 1; exp-- }`,
on `fuel` turns. -/
def normalizeSubnormal : Nat → UInt32 → UInt32 → Except Halt (UInt32 × UInt32)
  | 0, _, _ => throw .fuel
  | fuel + 1, mant, exp =>
    if mant &&& 0x400 = 0 then normalizeSubnormal fuel (mant <<< 1) (exp - 1)
    else pure (mant, exp)

/-- `float16ToFloat32(h)`, as the bits `math.Float32frombits` reinterprets. -/
def float16ToFloat32 (fuel : Nat) (h : UInt16) : Except Halt UInt32 :=
  let sign := (h >>> 15).toUInt32 &&& 1
  let exp := (h >>> 10).toUInt32 &&& 0x1F
  let mant := h.toUInt32 &&& 0x3FF
  if exp = 0 then
    if mant = 0 then pure (sign <<< 31)
    else do
      let (mant, exp) ← normalizeSubnormal fuel mant (127 - 14)
      let mant := mant &&& 0x3FF
      pure (sign <<< 31 ||| exp <<< 23 ||| mant <<< 13)
  else if exp = 31 then pure (sign <<< 31 ||| (0xFF : UInt32) <<< 23 ||| mant <<< 13)
  else pure (sign <<< 31 ||| (exp + 127 - 15) <<< 23 ||| mant <<< 13)

/-- `ReadFloat16(data)`, the float as its bits. -/
def readFloat16 (fuel : Nat) (data : List UInt8) : Except Halt (UInt32 × Nat × Option GoError) :=
  if data.length < 2 then pure (0, 0, some .unexpectedEOF)
  else do
    let bits ← orPanic (uint16LE data)
    let f ← float16ToFloat32 fuel bits
    pure (f, 2, none)

/-! ## No reader panics -/

/-- A fixed-width reader never panics when its decoder reads every input of its width. -/
theorem readFixed_isSome {α : Type} {n : Nat} {zero : α} {decode : List UInt8 → Option α}
    (hdec : ∀ data : List UInt8, n ≤ data.length → (decode data).isSome) (data : List UInt8) :
    (readFixed n zero decode data).isSome := by
  unfold readFixed
  split
  · rfl
  · obtain ⟨v, hv⟩ := Option.isSome_iff_exists.mp (hdec data (by omega))
    rw [hv]; rfl

theorem uint16LE_isSome : ∀ data : List UInt8, 2 ≤ data.length → (uint16LE data).isSome
  | _ :: _ :: _, _ => rfl

theorem uint32LE_isSome : ∀ data : List UInt8, 4 ≤ data.length → (uint32LE data).isSome
  | _ :: _ :: _ :: _ :: _, _ => rfl

/-- `ReadBytes` panics exactly for a negative count: the length check lets it through, and
`make([]byte, n)` refuses it. -/
theorem readBytes_isSome_iff (data : List UInt8) (n : Int) : (readBytes data n).isSome ↔ 0 ≤ n := by
  unfold readBytes
  split
  · exact iff_of_true rfl (by omega)
  · split
    · exact iff_of_false (by simp) (by omega)
    · rw [slice_of_le (Nat.zero_le _) (by omega)]
      exact iff_of_true rfl (by omega)

/-! ## The bits as numbers -/

theorem toNat_shr16 (h : UInt16) {k : UInt16} (hk : k.toNat < 16) :
    (h >>> k).toNat = h.toNat / 2 ^ k.toNat := by
  show (h.toBitVec >>> (k % 16).toBitVec).toNat = _
  rw [BitVec.ushiftRight_eq', BitVec.toNat_ushiftRight, Nat.shiftRight_eq_div_pow]
  have : (k % 16).toNat = k.toNat := by rw [UInt16.toNat_mod]; exact Nat.mod_eq_of_lt hk
  rw [← this]
  rfl

/-- The three fields of a half-precision pattern, as `float16ToFloat32` extracts them. -/
theorem toNat_fields16 (h : UInt16) :
    ((h >>> 15).toUInt32 &&& 1).toNat = h.toNat / 2 ^ 15 ∧
    ((h >>> 10).toUInt32 &&& 0x1F).toNat = h.toNat / 2 ^ 10 % 2 ^ 5 ∧
    (h.toUInt32 &&& 0x3FF).toNat = h.toNat % 2 ^ 10 := by
  have hh : h.toNat < 2 ^ 16 := h.toNat_lt_size
  refine ⟨?_, ?_, ?_⟩
  · rw [UInt32.and_toNat, show (1 : UInt32).toNat = 2 ^ 1 - 1 from rfl,
      Nat.and_pow_two_sub_one_eq_mod, show (h >>> 15).toUInt32.toNat = (h >>> 15).toNat from rfl,
      toNat_shr16 h (by decide)]
    exact Nat.mod_eq_of_lt (by show h.toNat / 2 ^ 15 < 2; omega)
  · rw [UInt32.and_toNat, show (0x1F : UInt32).toNat = 2 ^ 5 - 1 from rfl,
      Nat.and_pow_two_sub_one_eq_mod, show (h >>> 10).toUInt32.toNat = (h >>> 10).toNat from rfl,
      toNat_shr16 h (by decide)]
    rfl
  · rw [UInt32.and_toNat, show (0x3FF : UInt32).toNat = 2 ^ 10 - 1 from rfl,
      Nat.and_pow_two_sub_one_eq_mod]
    rfl

/-- A float32 assembled from a sign bit, an exponent field and a 10-bit fraction moved up 13
bits: the fields ADD, as they do not overlap. -/
theorem toNat_pack32 {s e f : UInt32} (hs : s.toNat < 2) (he : e.toNat < 2 ^ 8)
    (hf : f.toNat < 2 ^ 10) :
    (s <<< 31 ||| e <<< 23 ||| f <<< 13).toNat = 2 ^ 31 * s.toNat + (2 ^ 23 * e.toNat + 2 ^ 13 * f.toNat) := by
  rw [toNat_or, toNat_or, toNat_shl (by decide), toNat_shl (by decide), toNat_shl (by decide),
    show (31 : UInt32).toNat = 31 from rfl, show (23 : UInt32).toNat = 23 from rfl,
    show (13 : UInt32).toNat = 13 from rfl, Nat.mod_eq_of_lt (by omega),
    Nat.mod_eq_of_lt (by omega), Nat.mod_eq_of_lt (by omega), Nat.lor_assoc, Nat.mul_comm s.toNat,
    Nat.mul_comm e.toNat, Nat.mul_comm f.toNat, or_eq_add (by omega : 2 ^ 13 * f.toNat < 2 ^ 23),
    or_eq_add (by omega)]

/-- Bit 10 of a fraction below `2^11` is its implicit one. -/
theorem and_0x400_eq_zero {x : UInt32} (hx : x.toNat < 2 ^ 11) :
    x &&& 0x400 = 0 ↔ x.toNat < 2 ^ 10 := by
  have h : (x &&& 0x400).toNat = if x.toNat < 2 ^ 10 then 0 else 2 ^ 10 := by
    rw [UInt32.and_toNat, Nat.land_comm, show (0x400 : UInt32).toNat = 2 ^ 10 from rfl,
      Nat.two_pow_and, Nat.testBit_to_div_mod]
    split <;> rename_i hlt
    · rw [Nat.div_eq_of_lt hlt]; rfl
    · rw [show x.toNat / 2 ^ 10 % 2 = 1 by omega]; rfl
  constructor
  · intro h0
    rw [h0] at h
    split at h
    · assumption
    · cases h
  · intro hlt
    apply UInt32.toNat.inj
    rw [h, if_pos hlt]
    rfl

/-! ## The subnormal loop -/

/-- The subnormal loop, on a fraction below `2^11` that the fuel and the exponent leave room to
shift up to `2^10`: it returns the fraction shifted up by some `k` into `[2^10, 2^11)`, and the
exponent less `k`. -/
theorem normalizeSubnormal_spec : ∀ (fuel : Nat) (mant exp : UInt32), mant.toNat < 2 ^ 11 →
    2 ^ 11 ≤ mant.toNat * 2 ^ fuel → 2 ^ 10 ≤ mant.toNat * 2 ^ exp.toNat →
    ∃ k mant' exp', normalizeSubnormal fuel mant exp = .ok (mant', exp') ∧
      mant'.toNat = mant.toNat * 2 ^ k ∧ 2 ^ 10 ≤ mant'.toNat ∧ mant'.toNat < 2 ^ 11 ∧
      exp'.toNat + k = exp.toNat
  | 0, mant, _, h11, hfuel, _ => absurd hfuel (by rw [pow_zero, Nat.mul_one]; omega)
  | fuel + 1, mant, exp, h11, hfuel, hexp => by
    by_cases hlow : mant.toNat < 2 ^ 10
    · -- bit 10 is clear: one more shift
      have he : 1 ≤ exp.toNat := Nat.pos_of_ne_zero fun h0 => by
        rw [h0, pow_zero, Nat.mul_one] at hexp; omega
      have hm2 : (mant <<< 1).toNat = mant.toNat * 2 := by
        rw [toNat_shl (by decide), show (1 : UInt32).toNat = 1 from rfl, pow_one,
          Nat.mod_eq_of_lt (by omega)]
      have he1 : (exp - 1).toNat = exp.toNat - 1 := UInt32.toNat_sub_of_le _ _ he
      obtain ⟨k, mant', exp', h, hm', hlo, hhi, hk⟩ := normalizeSubnormal_spec fuel (mant <<< 1)
        (exp - 1) (by omega)
        (by rwa [hm2, Nat.mul_assoc, ← pow_succ'])
        (by rwa [hm2, he1, Nat.mul_assoc, ← pow_succ', Nat.sub_add_cancel he])
      refine ⟨k + 1, mant', exp', ?_, by rw [hm', hm2, Nat.pow_succ', Nat.mul_assoc], hlo, hhi,
        by omega⟩
      rw [normalizeSubnormal, if_pos ((and_0x400_eq_zero h11).mpr hlow)]
      exact h
    · -- bit 10 is set: the loop ends
      refine ⟨0, mant, exp, ?_, by rw [pow_zero, Nat.mul_one], by omega, h11, rfl⟩
      rw [normalizeSubnormal, if_neg (mt (and_0x400_eq_zero h11).mp hlow)]
      rfl

/-! ## The conversion, case by case

One lemma for each case of Go's `switch exp`, saying what the conversion makes of the fields `s`,
`e`, `m` of `h`: the sign always moves to bit 31 and the fraction up 13 bits. -/

theorem toNat_sign32 (h : UInt16) :
    (((h >>> 15).toUInt32 &&& 1) <<< 31).toNat = 2 ^ 31 * (h.toNat / 2 ^ 15) := by
  have hh : h.toNat < 2 ^ 16 := h.toNat_lt_size
  rw [toNat_shl (by decide), (toNat_fields16 h).1, show (31 : UInt32).toNat = 31 from rfl,
    Nat.mod_eq_of_lt (by omega), Nat.mul_comm]

section Cases

variable (h : UInt16) (fuel : Nat)

/-- Zero keeps only its sign. -/
theorem float16ToFloat32_zero (hE : h.toNat / 2 ^ 10 % 2 ^ 5 = 0) (hM : h.toNat % 2 ^ 10 = 0) :
    ∃ f : UInt32, float16ToFloat32 fuel h = .ok f ∧ f.toNat = 2 ^ 31 * (h.toNat / 2 ^ 15) := by
  obtain ⟨-, he, hm⟩ := toNat_fields16 h
  simp only [float16ToFloat32]
  rw [if_pos (UInt32.toNat.inj (by rw [he, hE]; rfl)), if_pos (UInt32.toNat.inj (by rw [hm, hM]; rfl))]
  exact ⟨_, rfl, toNat_sign32 h⟩

/-- A subnormal's fraction is shifted up by some `k` until its implicit one shows, and the
exponent field is `127 - 14 - k`: with eleven turns of fuel the loop always gets there. -/
theorem float16ToFloat32_subnormal (hfuel : 11 ≤ fuel) (hE : h.toNat / 2 ^ 10 % 2 ^ 5 = 0)
    (hM : 0 < h.toNat % 2 ^ 10) :
    ∃ (f : UInt32) (k : ℕ), float16ToFloat32 fuel h = .ok f ∧ k ≤ 10 ∧
      2 ^ 10 ≤ h.toNat % 2 ^ 10 * 2 ^ k ∧ h.toNat % 2 ^ 10 * 2 ^ k < 2 ^ 11 ∧
      f.toNat = 2 ^ 31 * (h.toNat / 2 ^ 15) +
        (2 ^ 23 * (113 - k) + 2 ^ 13 * (h.toNat % 2 ^ 10 * 2 ^ k - 2 ^ 10)) := by
  obtain ⟨hs, he, hm⟩ := toNat_fields16 h
  have hh : h.toNat < 2 ^ 16 := h.toNat_lt_size
  simp only [float16ToFloat32]
  rw [if_pos (UInt32.toNat.inj (by rw [he, hE]; rfl)), if_neg fun h0 => by
    rw [← hm, h0] at hM; exact absurd hM (by decide)]
  obtain ⟨k, mant', exp', hloop, hm', hlo, hhi, hk⟩ :=
    normalizeSubnormal_spec fuel (h.toUInt32 &&& 0x3FF) (127 - 14) (by rw [hm]; omega)
      (by rw [hm]; exact le_mul_of_one_le_of_le hM (Nat.pow_le_pow_right (by decide) hfuel))
      (le_mul_of_one_le_of_le (by rw [hm]; exact hM) (Nat.pow_le_pow_right (by decide)
        (by decide)))
  rw [hm] at hm'
  rw [hm'] at hlo hhi
  have hk10 : k ≤ 10 := by
    have : 2 ^ k < 2 ^ 11 := lt_of_le_of_lt (Nat.le_mul_of_pos_left _ hM) hhi
    have := (Nat.pow_lt_pow_iff_right (by decide)).mp this
    omega
  have hexp' : exp'.toNat = 113 - k := by
    have : (127 - 14 : UInt32).toNat = 113 := rfl
    omega
  have hmant : (mant' &&& 0x3FF).toNat = h.toNat % 2 ^ 10 * 2 ^ k - 2 ^ 10 := by
    rw [UInt32.and_toNat, show (0x3FF : UInt32).toNat = 2 ^ 10 - 1 from rfl,
      Nat.and_pow_two_sub_one_eq_mod, hm']
    omega
  simp only [hloop, ok_bind]
  refine ⟨_, k, rfl, hk10, hlo, hhi, ?_⟩
  rw [toNat_pack32 (by rw [hs]; omega) (by omega) (by omega), hs, hexp', hmant]

/-- The all-ones exponent becomes all ones: an infinity stays one, a NaN keeps its payload. -/
theorem float16ToFloat32_infNaN (hE : h.toNat / 2 ^ 10 % 2 ^ 5 = 2 ^ 5 - 1) :
    ∃ f : UInt32, float16ToFloat32 fuel h = .ok f ∧
      f.toNat = 2 ^ 31 * (h.toNat / 2 ^ 15) + (2 ^ 23 * (2 ^ 8 - 1) + 2 ^ 13 * (h.toNat % 2 ^ 10)) := by
  obtain ⟨hs, he, hm⟩ := toNat_fields16 h
  have hh : h.toNat < 2 ^ 16 := h.toNat_lt_size
  simp only [float16ToFloat32]
  rw [if_neg fun h0 => absurd (by rw [← he, h0]; rfl : h.toNat / 2 ^ 10 % 2 ^ 5 = 0) (by omega),
    if_pos (UInt32.toNat.inj (by rw [he, hE]; rfl))]
  refine ⟨_, rfl, ?_⟩
  rw [toNat_pack32 (by rw [hs]; omega) (by decide) (by rw [hm]; omega), hs, hm]
  rfl

/-- A normal exponent is rebiased by `127 - 15`. -/
theorem float16ToFloat32_normal (hE0 : 0 < h.toNat / 2 ^ 10 % 2 ^ 5)
    (hE31 : h.toNat / 2 ^ 10 % 2 ^ 5 < 2 ^ 5 - 1) :
    ∃ f : UInt32, float16ToFloat32 fuel h = .ok f ∧
      f.toNat = 2 ^ 31 * (h.toNat / 2 ^ 15) +
        (2 ^ 23 * (h.toNat / 2 ^ 10 % 2 ^ 5 + 112) + 2 ^ 13 * (h.toNat % 2 ^ 10)) := by
  obtain ⟨hs, he, hm⟩ := toNat_fields16 h
  have hh : h.toNat < 2 ^ 16 := h.toNat_lt_size
  simp only [float16ToFloat32]
  rw [if_neg fun h0 => absurd (by rw [← he, h0]; rfl : h.toNat / 2 ^ 10 % 2 ^ 5 = 0) (by omega),
    if_neg fun h0 => absurd (by rw [← he, h0]; rfl : h.toNat / 2 ^ 10 % 2 ^ 5 = 31) (by omega)]
  have h127 : (((h >>> 10).toUInt32 &&& 0x1F) + 127).toNat = h.toNat / 2 ^ 10 % 2 ^ 5 + 127 := by
    show (((h >>> 10).toUInt32 &&& 0x1F).toNat + 127) % 2 ^ 32 = _
    rw [he]; omega
  have h15 : (15 : UInt32) ≤ ((h >>> 10).toUInt32 &&& 0x1F) + 127 := by
    show 15 ≤ (((h >>> 10).toUInt32 &&& 0x1F) + 127).toNat
    rw [h127]; omega
  have hE : (((h >>> 10).toUInt32 &&& 0x1F) + 127 - 15).toNat = h.toNat / 2 ^ 10 % 2 ^ 5 + 112 := by
    rw [UInt32.toNat_sub_of_le _ _ h15, h127]; rfl
  refine ⟨_, rfl, ?_⟩
  rw [toNat_pack32 (by rw [hs]; omega) (by rw [hE]; omega) (by rw [hm]; omega), hs, hE, hm]

end Cases

/-! ## What the bits mean -/

/-- What the bits of a binary floating-point number stand for: a signed rational (a zero keeps its
sign), a signed infinity, or a NaN with its sign and payload, the fraction field read as a
fraction of one. -/
inductive FloatValue
  | finite (neg : Bool) (mag : ℚ)
  | inf (neg : Bool)
  | nan (neg : Bool) (payload : ℚ)
  deriving DecidableEq, Repr

/-- IEEE 754's decoding of the fields of a binary format with an `e`-bit exponent and an `m`-bit
fraction, with bias `2 ^ (e - 1) - 1`: the all-ones exponent is an infinity or a NaN, the zero
exponent a subnormal, and any other a normal number with its implicit one. -/
def decodeFields (e m : Nat) (neg : Bool) (exp frac : Nat) : FloatValue :=
  let bias : Int := 2 ^ (e - 1) - 1
  let fraction : ℚ := frac / 2 ^ m
  if exp = 2 ^ e - 1 then if frac = 0 then .inf neg else .nan neg fraction
  else if exp = 0 then .finite neg (fraction * 2 ^ (1 - bias))
  else .finite neg ((1 + fraction) * 2 ^ ((exp : Int) - bias))

/-- The value of the pattern `b` of the binary format with an `e`-bit exponent and an `m`-bit
fraction: the sign bit on top, then the exponent, then the fraction. -/
def decodeFloat (e m b : Nat) : FloatValue :=
  decodeFields e m (b / 2 ^ (e + m) % 2 = 1) (b / 2 ^ m % 2 ^ e) (b % 2 ^ m)

/-- A pattern assembled from a sign bit, an exponent field and a fraction field decodes as those
fields. -/
theorem decodeFloat_pack {e m b s E F : Nat} (hs : s < 2) (hE : E < 2 ^ e) (hF : F < 2 ^ m)
    (hb : b = 2 ^ (e + m) * s + (2 ^ m * E + F)) : decodeFloat e m b = decodeFields e m (s = 1) E F := by
  have hlow : 2 ^ m * E + F < 2 ^ (e + m) :=
    calc 2 ^ m * E + F < 2 ^ m * (E + 1) := by rw [Nat.mul_succ]; omega
      _ ≤ 2 ^ m * 2 ^ e := Nat.mul_le_mul_left _ hE
      _ = 2 ^ (e + m) := by rw [pow_add, Nat.mul_comm]
  have hsplit : b = 2 ^ m * (2 ^ e * s + E) + F := by rw [hb, pow_add]; ring
  unfold decodeFloat
  rw [hb, Nat.mul_add_div (Nat.two_pow_pos _), Nat.div_eq_of_lt hlow, Nat.add_zero,
    Nat.mod_eq_of_lt hs, ← hb, hsplit, Nat.mul_add_div (Nat.two_pow_pos _), Nat.div_eq_of_lt hF,
    Nat.add_zero, Nat.mul_add_mod, Nat.mod_eq_of_lt hE, Nat.mul_add_mod, Nat.mod_eq_of_lt hF]

/-- `float16ToFloat32` is exact: with eleven turns of fuel or more, every half-precision pattern
is converted to a single-precision pattern of the same value, the same signed rational, the same
infinity or a NaN of the same sign and payload. -/
theorem float16ToFloat32_exact (h : UInt16) {fuel : Nat} (hfuel : 11 ≤ fuel) :
    ∃ f, float16ToFloat32 fuel h = .ok f ∧ decodeFloat 8 23 f.toNat = decodeFloat 5 10 h.toNat := by
  have hh : h.toNat < 2 ^ 16 := h.toNat_lt_size
  have hs2 : h.toNat / 2 ^ 15 < 2 := by omega
  have h16 : decodeFloat 5 10 h.toNat =
      decodeFields 5 10 (h.toNat / 2 ^ 15 = 1) (h.toNat / 2 ^ 10 % 2 ^ 5) (h.toNat % 2 ^ 10) := by
    show decodeFields 5 10 (h.toNat / 2 ^ 15 % 2 = 1) _ _ = _
    rw [Nat.mod_eq_of_lt hs2]
  have hfrac : ((2 ^ 13 * (h.toNat % 2 ^ 10) : ℕ) : ℚ) / 2 ^ 23 = (h.toNat % 2 ^ 10 : ℕ) / 2 ^ 10 := by
    push_cast; field_simp; ring
  rw [h16]
  rcases Nat.eq_zero_or_pos (h.toNat / 2 ^ 10 % 2 ^ 5) with hE | hE0
  · rcases Nat.eq_zero_or_pos (h.toNat % 2 ^ 10) with hM | hM
    · -- zero
      obtain ⟨f, hok, hf⟩ := float16ToFloat32_zero h fuel hE hM
      refine ⟨f, hok, ?_⟩
      rw [decodeFloat_pack (e := 8) (m := 23) (E := 0) (F := 0) hs2 (by decide) (by decide)
        (by rw [hf]; rfl), hE, hM]
      simp [decodeFields]
    · -- subnormal: a normal float32, with the fraction's implicit one shifted into place
      obtain ⟨f, k, hok, hk, hlo, hhi, hf⟩ := float16ToFloat32_subnormal h fuel hfuel hE hM
      refine ⟨f, hok, ?_⟩
      rw [decodeFloat_pack (e := 8) (m := 23) hs2 (by omega) (by omega) hf, hE]
      simp only [decodeFields, if_true]
      rw [if_neg (by omega), if_neg (by omega)]
      have hx : ((113 - k : ℕ) : ℤ) - (2 ^ (8 - 1) - 1) = -14 - k := by
        rw [Nat.cast_sub (by omega)]; norm_num; ring
      rw [hx, zpow_sub₀ two_ne_zero, zpow_natCast, Nat.cast_mul, Nat.cast_sub hlo]
      push_cast
      field_simp
      ring
  · by_cases hE31 : h.toNat / 2 ^ 10 % 2 ^ 5 = 2 ^ 5 - 1
    · -- infinity or NaN: the payload moves up with the fraction
      obtain ⟨f, hok, hf⟩ := float16ToFloat32_infNaN h fuel hE31
      refine ⟨f, hok, ?_⟩
      rw [decodeFloat_pack (e := 8) (m := 23) hs2 (by omega) (by omega) hf, hE31]
      simp only [decodeFields, if_true]
      by_cases hM : h.toNat % 2 ^ 10 = 0
      · rw [if_pos (by omega), if_pos hM]
      · rw [if_neg (by omega), if_neg hM, hfrac]
    · -- normal: the exponent is rebiased
      obtain ⟨f, hok, hf⟩ := float16ToFloat32_normal h fuel hE0 (by omega)
      refine ⟨f, hok, ?_⟩
      rw [decodeFloat_pack (e := 8) (m := 23) hs2 (by omega) (by omega) hf]
      simp only [decodeFields]
      rw [if_neg (by omega), if_neg (by omega), if_neg (by omega), if_neg (by omega), hfrac]
      have hx : ((h.toNat / 2 ^ 10 % 2 ^ 5 + 112 : ℕ) : ℤ) - (2 ^ (8 - 1) - 1) =
          (h.toNat / 2 ^ 10 % 2 ^ 5 : ℕ) - (2 ^ (5 - 1) - 1) := by
        push_cast; ring
      rw [hx]

/-! ## The reader -/

/-- `ReadFloat16` reads the half-precision number whose little-endian bytes begin the slice, and
returns, with two bytes consumed and no error, a float32 of exactly its value. -/
theorem readFloat16_exact (b0 b1 : UInt8) (rest : List UInt8) {fuel : Nat} (hfuel : 11 ≤ fuel) :
    ∃ f, readFloat16 fuel (b0 :: b1 :: rest) = .ok (f, 2, none) ∧
      decodeFloat 8 23 f.toNat = decodeFloat 5 10 (b0.toNat + 2 ^ 8 * b1.toNat) := by
  obtain ⟨bits, hbits, hval⟩ := Option.map_eq_some'.mp (toNat_uint16LE b0 b1 rest)
  obtain ⟨f, hf, hexact⟩ := float16ToFloat32_exact bits hfuel
  refine ⟨f, ?_, hval ▸ hexact⟩
  rw [readFloat16, if_neg (by simp), hbits]
  simp only [orPanic_some, pure_bind, hf, ok_bind]
  rfl

/-- NO CODEC READER PANICS, BUT ONE: on every input the fixed-width readers answer a value or
`io.ErrUnexpectedEOF`, and `ReadFloat16` returns, with eleven turns of fuel for its loop;
`ReadBytes` panics exactly when its count is negative. -/
theorem codec_readers_safe (data : List UInt8) (n : Int) {fuel : Nat} (hfuel : 11 ≤ fuel) :
    (readUUID data).isSome ∧ (readUint8 data).isSome ∧ (readUint16LE data).isSome ∧
    (readUint32LE data).isSome ∧ (readUint64LE data).isSome ∧ (readInt32LE data).isSome ∧
    (readFloat32LE data).isSome ∧ (∃ r, readFloat16 fuel data = .ok r) ∧
    ((readBytes data n).isSome ↔ 0 ≤ n) := by
  refine ⟨readFixed_isSome (fun d hd => by rw [slice_of_le (by omega) hd]; rfl) data,
    readFixed_isSome (fun d hd => by rw [index_of_lt (by omega)]; rfl) data,
    readFixed_isSome uint16LE_isSome data, readFixed_isSome uint32LE_isSome data,
    readFixed_isSome (fun d hd => ?_) data,
    readFixed_isSome (fun d hd => by
      obtain ⟨v, hv⟩ := Option.isSome_iff_exists.mp (uint32LE_isSome d hd); rw [hv]; rfl) data,
    readFixed_isSome uint32LE_isSome data, ?_, readBytes_isSome_iff data n⟩
  · obtain ⟨lo, hlo⟩ := Option.isSome_iff_exists.mp (uint32LE_isSome d (by omega))
    obtain ⟨hi, hhi⟩ := Option.isSome_iff_exists.mp (uint32LE_isSome (d.drop 4) (by simp; omega))
    simp [uint64LE, hlo, hhi]
  · match data with
    | [] | [_] => exact ⟨_, rfl⟩
    | b0 :: b1 :: rest =>
      obtain ⟨f, hf, -⟩ := readFloat16_exact b0 b1 rest hfuel
      exact ⟨_, hf⟩

/-- Sixteen bytes, enough for every reader, the first two the half-precision `1.0`. -/
theorem codec_readers_safe_sixteen : 11 ≤ 11 ∧
    (readUUID [0x00, 0x3C, 1, 2, 3, 4, 5, 6, 7, 8, 9, 10, 11, 12, 13, 14]).isSome ∧
    (readUint8 [0x00, 0x3C, 1, 2, 3, 4, 5, 6, 7, 8, 9, 10, 11, 12, 13, 14]).isSome ∧
    (readUint16LE [0x00, 0x3C, 1, 2, 3, 4, 5, 6, 7, 8, 9, 10, 11, 12, 13, 14]).isSome ∧
    (readUint32LE [0x00, 0x3C, 1, 2, 3, 4, 5, 6, 7, 8, 9, 10, 11, 12, 13, 14]).isSome ∧
    (readUint64LE [0x00, 0x3C, 1, 2, 3, 4, 5, 6, 7, 8, 9, 10, 11, 12, 13, 14]).isSome ∧
    (readInt32LE [0x00, 0x3C, 1, 2, 3, 4, 5, 6, 7, 8, 9, 10, 11, 12, 13, 14]).isSome ∧
    (readFloat32LE [0x00, 0x3C, 1, 2, 3, 4, 5, 6, 7, 8, 9, 10, 11, 12, 13, 14]).isSome ∧
    (∃ r, readFloat16 11 [0x00, 0x3C, 1, 2, 3, 4, 5, 6, 7, 8, 9, 10, 11, 12, 13, 14] = .ok r) ∧
    ((readBytes [0x00, 0x3C, 1, 2, 3, 4, 5, 6, 7, 8, 9, 10, 11, 12, 13, 14] 4).isSome ↔
      0 ≤ (4 : Int)) :=
  ⟨le_rfl, codec_readers_safe _ 4 le_rfl⟩

end HyProxy.Protohytale
