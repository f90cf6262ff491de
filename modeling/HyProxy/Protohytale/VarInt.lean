import HyProxy.Go
import Mathlib.Tactic.IntervalCases
import Mathlib.Tactic.Ring

/-!
# The Hytale VarInt

`ReadVarInt`, `WriteVarInt` and `VarIntSize` of `protohytale`: seven payload bits a byte, least
significant group first, the top bit set on every byte but the last, at most five bytes.

The reader ORs group `i` in at shift `7 i` into a `uint32`. The fifth group lands at shift 28,
so only its low four bits fit: a fifth byte above `0x0F` is TRUNCATED, not refused. That is the
design of the accumulator, and `readVarInt_value` states the reader's value as the exact
payload modulo `2^32` (`payload` is the exact sum, on `Nat`).

## What is proved

- `readVarInt_value`: a successful read of `n` bytes returns the payload of those `n` bytes
  modulo `2^32`, with `1 ≤ n ≤ 5` and `n ≤ len(data)`;
- `readVarInt_writeVarInt`: the reader reads back the writer's bytes for every `uint32` and any
  trailing bytes, consuming exactly `VarIntSize(v)`, and that size is the least `k` with
  `v < 2^(7k)`;
- `readVarInt_truncates`: a five-byte encoding whose last byte is `0x10` reads as zero.
-/

set_option autoImplicit false

namespace HyProxy.Protohytale

open Go

/-! ## The code -/

/-- The loop of `ReadVarInt` from iteration `i` on, `k = 5 - i` iterations left, with the
`result` and `shift` the earlier iterations left. -/
def readVarIntLoop (data : List UInt8) : Nat → Nat → UInt32 → Nat → Option (UInt32 × Nat × Option GoError)
  | 0, _, _, _ => some (0, 0, some .varIntTooLong)
  | k + 1, i, result, shift =>
    if i ≥ data.length then some (0, 0, some .unexpectedEOF)
    else do
      let b ← index data i
      let result := result ||| shl32 (b &&& 0x7F).toUInt32 shift
      if b &&& 0x80 = 0 then some (result, i + 1, none)
      else readVarIntLoop data k (i + 1) result (shift + 7)

/-- `ReadVarInt(data)`: the value, the bytes read, and the error. -/
def readVarInt (data : List UInt8) : Option (UInt32 × Nat × Option GoError) :=
  readVarIntLoop data 5 0 0 0

/-- The loop of `WriteVarInt`: `buf` holds the bytes written so far and `k` of the five slots
of the array are left; writing a sixth would index past it. -/
def writeVarIntLoop : Nat → UInt32 → List UInt8 → Option (List UInt8)
  | 0, _, _ => none
  | k + 1, value, buf =>
    let b := (value &&& 0x7F).toUInt8
    let value := value >>> 7
    let b := if value ≠ 0 then b ||| 0x80 else b
    let buf := buf ++ [b]
    if value = 0 then some buf else writeVarIntLoop k value buf

/-- `WriteVarInt(value)`, as the slice `buf[:n]` it returns. -/
def writeVarInt (value : UInt32) : Option (List UInt8) := writeVarIntLoop 5 value []

/-- `VarIntSize(value)`. -/
def varIntSize (value : UInt32) : Nat :=
  if value.toNat < 2 ^ 7 then 1
  else if value.toNat < 2 ^ 14 then 2
  else if value.toNat < 2 ^ 21 then 3
  else if value.toNat < 2 ^ 28 then 4
  else 5

/-! ## The payload, on `Nat` -/

/-- The exact value of VarInt bytes: the sum of `(b & 0x7F) * 2^(7 i)`, with no truncation. -/
def payload : List UInt8 → Nat
  | [] => 0
  | b :: bs => b.toNat % 128 + 128 * payload bs

/-- A complete VarInt, read as the reader reads it: a byte without the continuation bit ends it. -/
def Terminated : List UInt8 → Prop
  | [] => False
  | b :: bs => if b.toNat < 128 then bs = [] else Terminated bs

theorem payload_lt (bs : List UInt8) : payload bs < 2 ^ (7 * bs.length) := by
  induction bs with
  | nil => simp [payload]
  | cons b bs ih =>
    rw [payload, List.length_cons, Nat.mul_succ, Nat.pow_add]
    have : b.toNat % 128 < 128 := Nat.mod_lt _ (by decide)
    have h128 : (2 : Nat) ^ 7 = 128 := rfl
    rw [h128]
    omega

theorem payload_take_succ (data : List UInt8) {i : Nat} (hi : i < data.length) :
    payload (data.take (i + 1)) = payload (data.take i) + 2 ^ (7 * i) * (data[i].toNat % 128) := by
  induction data generalizing i with
  | nil => simp at hi
  | cons b bs ih =>
    cases i with
    | zero => simp [payload]
    | succ i =>
      simp only [List.take_succ_cons, payload, List.getElem_cons_succ]
      rw [ih (by simpa using hi), Nat.mul_succ, Nat.pow_add]
      ring

/-! ## Reading -/

/-- One iteration's arithmetic: OR-ing group `i` in at shift `7 i` adds it, modulo `2^32`. -/
theorem or_group_toNat {result : UInt32} {i p : Nat} (b : UInt8) (hi : i < 5)
    (hp : p < 2 ^ (7 * i)) (hres : result.toNat = p) :
    (result ||| shl32 (b &&& 0x7F).toUInt32 (7 * i)).toNat = (p + 2 ^ (7 * i) * (b.toNat % 128)) % 2 ^ 32 := by
  have hs : 7 * i < 32 := by omega
  rw [shl32_of_lt _ hs, toNat_or_shl (by rwa [toNat_toUInt32 _ hs]) (by rwa [toNat_toUInt32 _ hs, hres]),
    toNat_toUInt32 _ hs, hres, toNat_u8_toUInt32, toNat_and_0x7F]
  have hx : b.toNat % 128 < 128 := Nat.mod_lt _ (by decide)
  interval_cases i <;> omega

/-- One iteration on `data`: OR-ing in byte `i` turns the payload of the first `i` bytes into
that of the first `i + 1`, modulo `2^32`. -/
theorem or_group_take (data : List UInt8) {i : Nat} {result : UInt32} (hi5 : i < 5)
    (hi : i < data.length) (hres : result.toNat = payload (data.take i)) :
    (result ||| shl32 (data[i] &&& 0x7F).toUInt32 (7 * i)).toNat =
      payload (data.take (i + 1)) % 2 ^ 32 := by
  have hp : payload (data.take i) < 2 ^ (7 * i) :=
    lt_of_lt_of_le (payload_lt _) (Nat.pow_le_pow_right (by decide) (by simp))
  rw [or_group_toNat data[i] hi5 hp hres, payload_take_succ data hi]

/-- Four groups fit in 32 bits. -/
theorem payload_take_lt (data : List UInt8) {n : Nat} (hn : n ≤ 4) :
    payload (data.take n) < 2 ^ 32 :=
  lt_of_lt_of_le (payload_lt _) (Nat.pow_le_pow_right (by decide) (by simp; omega))

/-- What a successful read of the loop from iteration `i` returns. -/
theorem readVarIntLoop_value (data : List UInt8) :
    ∀ (k i : Nat) (result : UInt32) (v : UInt32) (n : Nat), i + k = 5 →
      result.toNat = payload (data.take i) →
      readVarIntLoop data k i result (7 * i) = some (v, n, none) →
      v.toNat = payload (data.take n) % 2 ^ 32 ∧ i < n ∧ n ≤ 5 ∧ n ≤ data.length := by
  intro k
  induction k with
  | zero => intro i result v n _ _ h; simp [readVarIntLoop] at h
  | succ k ih =>
    intro i result v n hik hres h
    simp only [readVarIntLoop] at h
    split at h
    · simp at h
    · rename_i hlt
      have hi : i < data.length := by omega
      have hstep := or_group_take data (by omega) hi hres
      simp only [index_of_lt hi, Option.bind_eq_bind, Option.some_bind] at h
      split at h
      · simp only [Option.some.injEq, Prod.mk.injEq] at h
        obtain ⟨rfl, rfl, -⟩ := h
        exact ⟨hstep, by omega, by omega, by omega⟩
      · cases k with
        | zero => simp [readVarIntLoop] at h
        | succ k =>
          rw [show 7 * i + 7 = 7 * (i + 1) by ring] at h
          obtain ⟨h1, h2, h3, h4⟩ := ih (i + 1) _ v n (by omega)
            (by rw [hstep, Nat.mod_eq_of_lt (payload_take_lt data (by omega))]) h
          exact ⟨h1, by omega, h3, h4⟩

/-- `ReadVarInt`'s value is the payload of the bytes it read, modulo `2^32`. -/
theorem readVarInt_value {data : List UInt8} {v : UInt32} {n : Nat}
    (h : readVarInt data = some (v, n, none)) :
    v.toNat = payload (data.take n) % 2 ^ 32 ∧ 1 ≤ n ∧ n ≤ 5 ∧ n ≤ data.length :=
  readVarIntLoop_value data 5 0 0 v n rfl rfl h

/-- `300` in two groups. -/
theorem readVarInt_value_300 :
    readVarInt [0xAC, 0x02] = some (300, 2, none) ∧
      (300 : UInt32).toNat = payload ([0xAC, 0x02].take 2) % 2 ^ 32 ∧ 1 ≤ 2 ∧ 2 ≤ 5 ∧
      2 ≤ [(0xAC : UInt8), 0x02].length :=
  have h : readVarInt [0xAC, 0x02] = some (300, 2, none) := by decide
  ⟨h, readVarInt_value h⟩

/-- A successful `ReadVarInt` consumed between one byte and the whole input. -/
theorem readVarInt_consumed {data : List UInt8} {v : UInt32} {n : Nat}
    (h : readVarInt data = some (v, n, none)) : 1 ≤ n ∧ n ≤ data.length :=
  have h' := readVarIntLoop_value data 5 0 0 v n rfl rfl h
  ⟨h'.2.1, h'.2.2.2⟩

/-- A read never panics: every `data[i]` is behind the `i >= len(data)` check. -/
theorem readVarIntLoop_isSome (data : List UInt8) :
    ∀ (k i : Nat) (result : UInt32) (shift : Nat), (readVarIntLoop data k i result shift).isSome
  | 0, _, _, _ => rfl
  | k + 1, i, result, shift => by
    simp only [readVarIntLoop]
    split
    · rfl
    · rw [index_of_lt (by omega), Option.bind_eq_bind, Option.some_bind]
      split
      · rfl
      · exact readVarIntLoop_isSome data k _ _ _

/-- Reading a complete VarInt that starts at iteration `i`. -/
theorem readVarIntLoop_terminated (data : List UInt8) :
    ∀ (k i : Nat) (result : UInt32) (bs rest : List UInt8), i + k = 5 →
      data.drop i = bs ++ rest → Terminated bs → bs.length ≤ k →
      result.toNat = payload (data.take i) →
      ∃ v, readVarIntLoop data k i result (7 * i) = some (v, i + bs.length, none) ∧
        v.toNat = payload (data.take (i + bs.length)) % 2 ^ 32 := by
  intro k
  induction k with
  | zero => intro i result bs rest _ _ ht hlen _; cases bs <;> simp_all [Terminated]
  | succ k ih =>
    intro i result bs rest hik hdrop ht hlen hres
    obtain _ | ⟨b, bs⟩ := bs
    · exact absurd ht id
    have hi : i < data.length := by
      have := congrArg List.length hdrop; simp at this; omega
    have hb : data[i] = b := by
      have := congrArg (·[0]?) hdrop
      simp only [List.getElem?_drop, Nat.add_zero, List.cons_append, List.getElem?_cons_zero] at this
      exact Option.some.inj ((List.getElem?_eq_getElem hi).symm.trans this)
    have hstep := or_group_take data (by omega) hi hres
    rw [hb] at hstep
    simp only [readVarIntLoop, if_neg (show ¬ i ≥ data.length by omega), index_of_lt hi, hb,
      Option.bind_eq_bind, Option.some_bind]
    simp only [Terminated] at ht
    by_cases hb128 : b.toNat < 128
    · rw [if_pos ((and_0x80_eq_zero b).mpr hb128)]
      rw [if_pos hb128] at ht
      subst ht
      exact ⟨_, rfl, hstep⟩
    · rw [if_neg (mt (and_0x80_eq_zero b).mp hb128)]
      rw [if_neg hb128] at ht
      obtain _ | ⟨c, cs⟩ := bs
      · exact absurd ht id
      have hk : 1 ≤ k := by simp at hlen; omega
      rw [show 7 * i + 7 = 7 * (i + 1) by ring]
      obtain ⟨v, hv, hvv⟩ := ih (i + 1) _ (c :: cs) rest (by omega)
        (by rw [← List.drop_drop, hdrop]; rfl) ht (by simp at hlen ⊢; omega)
        (by rw [hstep, Nat.mod_eq_of_lt (payload_take_lt data (by omega))])
      have e : i + 1 + (c :: cs).length = i + (b :: c :: cs).length := by
        simp only [List.length_cons]; omega
      rw [e] at hv hvv
      exact ⟨v, hv, hvv⟩

/-! ## Writing -/

/-- `value >> 7` on the value. -/
theorem toNat_shr_seven (value : UInt32) : (value >>> 7).toNat = value.toNat / 2 ^ 7 := by
  have hs := toNat_shr (a := value) (show (7 : UInt32).toNat < 32 by decide)
  rwa [show (7 : UInt32).toNat = 7 from rfl] at hs

/-- Dropping the low group takes one byte off the size. -/
theorem varIntSize_shr (value : UInt32) (h : 128 ≤ value.toNat) :
    varIntSize value = varIntSize (value >>> 7) + 1 := by
  have hv : value.toNat < 2 ^ 32 := value.toNat_lt_size
  unfold varIntSize
  rw [toNat_shr_seven, if_neg (show ¬ value.toNat < 2 ^ 7 by omega)]
  -- one threshold at a time: `value` crosses it exactly when `value / 2^7` crosses the one below
  by_cases h14 : value.toNat < 2 ^ 14
  · rw [if_pos h14, if_pos (show value.toNat / 2 ^ 7 < 2 ^ 7 by omega)]
  rw [if_neg h14, if_neg (show ¬ value.toNat / 2 ^ 7 < 2 ^ 7 by omega)]
  by_cases h21 : value.toNat < 2 ^ 21
  · rw [if_pos h21, if_pos (show value.toNat / 2 ^ 7 < 2 ^ 14 by omega)]
  rw [if_neg h21, if_neg (show ¬ value.toNat / 2 ^ 7 < 2 ^ 14 by omega)]
  by_cases h28 : value.toNat < 2 ^ 28
  · rw [if_pos h28, if_pos (show value.toNat / 2 ^ 7 < 2 ^ 21 by omega)]
  rw [if_neg h28, if_neg (show ¬ value.toNat / 2 ^ 7 < 2 ^ 21 by omega),
    if_pos (show value.toNat / 2 ^ 7 < 2 ^ 28 by omega)]

/-- A value below `128` is written as one byte, whatever slots are left. -/
theorem writeVarIntLoop_small {k : Nat} {value : UInt32} (buf : List UInt8)
    (hv : value.toNat < 128) :
    ∃ out, writeVarIntLoop (k + 1) value buf = some (buf ++ out) ∧ Terminated out ∧
      payload out = value.toNat ∧ out.length = varIntSize value := by
  have h0 : value >>> 7 = 0 :=
    UInt32.toNat.inj (by rw [toNat_shr_seven, UInt32.toNat_zero]; omega)
  refine ⟨[(value &&& 0x7F).toUInt8], by simp [writeVarIntLoop, h0], ?_, ?_, ?_⟩
  · simp only [Terminated, toNat_low7, Nat.mod_lt _ (show 128 > 0 by decide), if_true]
  · simp only [payload, toNat_low7]; omega
  · simp [varIntSize, hv]

/-- What the writer's loop appends: a complete VarInt whose payload is the value, in
`VarIntSize` bytes, when the value fits the slots left. -/
theorem writeVarIntLoop_spec :
    ∀ (k : Nat) (value : UInt32) (buf : List UInt8), value.toNat < 2 ^ (7 * (k + 1)) →
      ∃ out, writeVarIntLoop (k + 1) value buf = some (buf ++ out) ∧ Terminated out ∧
        payload out = value.toNat ∧ out.length = varIntSize value := by
  intro k
  induction k with
  | zero => intro value buf hv; exact writeVarIntLoop_small buf (by simpa using hv)
  | succ k ih =>
    intro value buf hv
    by_cases hlt : value.toNat < 128
    · exact writeVarIntLoop_small buf hlt
    -- a continuation byte, then the rest of the value in the slots left
    have hs := toNat_shr_seven value
    have h0 : value >>> 7 ≠ 0 := fun h => by
      have := congrArg UInt32.toNat h; rw [hs] at this; simp at this; omega
    have hv' : (value >>> 7).toNat < 2 ^ (7 * (k + 1)) := by
      rw [hs, Nat.div_lt_iff_lt_mul (by decide)]
      rw [show 7 * (k + 1 + 1) = 7 * (k + 1) + 7 by ring, Nat.pow_add] at hv
      exact hv
    have hlow : (value &&& 0x7F).toUInt8.toNat < 128 := by rw [toNat_low7]; omega
    obtain ⟨out, hout, hterm, hpay, hlen⟩ :=
      ih (value >>> 7) (buf ++ [(value &&& 0x7F).toUInt8 ||| 0x80]) hv'
    refine ⟨((value &&& 0x7F).toUInt8 ||| 0x80) :: out, ?_, ?_, ?_, ?_⟩
    · rw [writeVarIntLoop.eq_2]
      simp only [if_pos h0, if_neg h0]
      rw [hout, List.append_assoc, List.singleton_append]
    · simp only [Terminated, toNat_or_0x80 hlow]; rw [if_neg (by omega)]; exact hterm
    · simp only [payload, toNat_or_0x80 hlow, toNat_low7, hpay, hs]; omega
    · rw [List.length_cons, hlen, varIntSize_shr value (by omega)]

/-- `VarIntSize` is the least `k` in `1..5` with `v < 2^(7k)`. -/
theorem varIntSize_least (v : UInt32) :
    1 ≤ varIntSize v ∧ varIntSize v ≤ 5 ∧ v.toNat < 2 ^ (7 * varIntSize v) ∧
      ∀ k, 1 ≤ k → k < varIntSize v → 2 ^ (7 * k) ≤ v.toNat := by
  have hv : v.toNat < 2 ^ 32 := v.toNat_lt_size
  unfold varIntSize
  split_ifs <;> refine ⟨by omega, by omega, by omega, fun k hk hlt => ?_⟩ <;>
    interval_cases k <;> omega

/-- The writer's bytes are `VarIntSize(v)` long, and the reader reads them back in front of any
trailing bytes. -/
theorem writeVarInt_spec (v : UInt32) :
    ∃ bs, writeVarInt v = some bs ∧ bs.length = varIntSize v ∧
      ∀ rest, readVarInt (bs ++ rest) = some (v, varIntSize v, none) := by
  have hv : v.toNat < 2 ^ 32 := v.toNat_lt_size
  obtain ⟨bs, hw, hterm, hpay, hlen⟩ := writeVarIntLoop_spec 4 v [] (lt_trans hv (by decide))
  refine ⟨bs, hw, hlen, fun rest => ?_⟩
  obtain ⟨w, hr, hwv⟩ := readVarIntLoop_terminated (bs ++ rest) 5 0 0 bs rest rfl rfl hterm
    (by rw [hlen]; exact (varIntSize_least v).2.1) rfl
  rw [Nat.zero_add, List.take_left' rfl, hpay, Nat.mod_eq_of_lt hv] at hwv
  simpa [readVarInt, hlen, UInt32.toNat.inj hwv] using hr

/-- THE VARINT ROUND TRIP: `WriteVarInt(v)` is `VarIntSize(v)` bytes, the least number of
groups that holds `v`, and `ReadVarInt` reads them back in front of any trailing bytes. -/
theorem readVarInt_writeVarInt (v : UInt32) :
    ∃ bs, writeVarInt v = some bs ∧ bs.length = varIntSize v ∧
      (∀ rest, readVarInt (bs ++ rest) = some (v, varIntSize v, none)) ∧
      1 ≤ varIntSize v ∧ varIntSize v ≤ 5 ∧ v.toNat < 2 ^ (7 * varIntSize v) ∧
      ∀ k, 1 ≤ k → k < varIntSize v → 2 ^ (7 * k) ≤ v.toNat := by
  obtain ⟨bs, hw, hlen, hread⟩ := writeVarInt_spec v
  exact ⟨bs, hw, hlen, hread, varIntSize_least v⟩

/-- THE TRUNCATION: the five-byte encoding of `2^32` (group `0x10` at shift 28) reads as `0`. -/
theorem readVarInt_truncates :
    readVarInt [0x80, 0x80, 0x80, 0x80, 0x10] = some (0, 5, none) ∧
      payload [0x80, 0x80, 0x80, 0x80, 0x10] = 2 ^ 32 := by
  decide

end HyProxy.Protohytale
