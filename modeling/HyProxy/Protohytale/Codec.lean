import HyProxy.Protohytale.VarInt

/-!
# Length-prefixed strings and host addresses

`ReadString`, `WriteString` and `ReadHostAddress` of `protohytale`. A string is a VarInt
length `L` and `L` bytes; `L > MaxStringLength` is refused before the bytes are looked at. Go's
`string(data[n:end])` keeps the bytes as they are (nothing here validates UTF-8), so a string is
its byte list.

## What is proved

- `readString_writeString`: for every string of at most 256 bytes and any trailing bytes the
  reader returns the string and `VarIntSize(len) + len`; a longer one (below `2^32`) is refused
  with `ErrStringTooLong`; `readString_written_mod`: one of `2^32` bytes or more is read back cut
  to `len mod 2^32` bytes, since `WriteString` writes `uint32(len(s))`;
- `readString_consumed`, `readHostAddress_consumed`: a successful read reports a count `n`
  with `1 ≤ n ≤ len(data)`, and the string it returns is a piece of `data`;
- `readHostAddress_writeString`: a host written by `WriteString` and two port bytes read back
  as that host and the little-endian port; one port byte short is `io.ErrUnexpectedEOF`;
- neither reader panics, whatever the bytes.
-/

set_option autoImplicit false

namespace HyProxy.Protohytale

open Go

/-- `MaxStringLength`. -/
def maxStringLength : Nat := 256

/-- `ReadString(data)`: the string, the bytes read, and the error. -/
def readString (data : List UInt8) : Option (List UInt8 × Nat × Option GoError) := do
  let (length, n, err) ← readVarInt data
  match err with
  | some e => some ([], 0, some e)
  | none =>
    if length.toNat > maxStringLength then some ([], 0, some .stringTooLong)
    else
      let end_ := n + length.toNat
      if end_ > data.length then some ([], 0, some .unexpectedEOF)
      else do
        let s ← slice data n end_
        some (s, end_, none)

/-- `WriteString(s)`. -/
def writeString (s : List UInt8) : Option (List UInt8) := do
  let lenBytes ← writeVarInt (UInt32.ofNat s.length)
  let result := make (lenBytes.length + s.length)
  let result := copyAt result 0 lenBytes
  let result := copyAt result lenBytes.length s
  some result

/-- `ReadHostAddress(data)`: the host, the port, the bytes read, and the error. -/
def readHostAddress (data : List UInt8) : Option (List UInt8 × UInt16 × Nat × Option GoError) := do
  let (host, n, err) ← readString data
  match err with
  | some e => some ([], 0, 0, some e)
  | none =>
    if data.length < n + 2 then some ([], 0, 0, some .unexpectedEOF)
    else do
      let rest ← sliceFrom data n
      let port ← uint16LE rest
      some (host, port, n + 2, none)

/-! ## Writing -/

/-- `WriteString(s)` is the VarInt of the length followed by the bytes. -/
theorem writeString_eq {s lb : List UInt8} (h : writeVarInt (UInt32.ofNat s.length) = some lb) :
    writeString s = some (lb ++ s) := by
  have hmake : copyAt (make (lb.length + s.length)) 0 lb = lb ++ make s.length := by
    rw [copyAt_of_le _ _ (by simp [make]), List.take_zero, List.nil_append, Nat.zero_add, make,
      List.drop_replicate, Nat.add_sub_cancel_left]
    rfl
  simp only [writeString, h, Option.bind_eq_bind, Option.some_bind, hmake]
  rw [copyAt_of_length_eq _ _ (by simp [make]), List.take_left' rfl]

/-- `WriteString(s)` never panics; it is `VarIntSize(len(s)) + len(s)` bytes. -/
theorem writeString_spec (s : List UInt8) :
    ∃ lb, writeString s = some (lb ++ s) ∧ lb.length = varIntSize (UInt32.ofNat s.length) ∧
      ∀ rest, readVarInt (lb ++ rest) = some (UInt32.ofNat s.length, lb.length, none) := by
  obtain ⟨lb, hw, hlen, hread⟩ := writeVarInt_spec (UInt32.ofNat s.length)
  exact ⟨lb, writeString_eq hw, hlen, fun rest => by rw [hlen]; exact hread rest⟩

/-! ## Reading -/

/-- `ReadString` never panics: its one slice is behind the `end > len(data)` check. -/
theorem readString_isSome (data : List UInt8) : (readString data).isSome := by
  obtain ⟨⟨length, n, err⟩, hr⟩ := Option.isSome_iff_exists.mp (readVarIntLoop_isSome data 5 0 0 0)
  simp only [readString, readVarInt, hr, Option.bind_eq_bind, Option.some_bind]
  split
  · rfl
  · split
    · rfl
    · split
      · rfl
      · rw [slice_of_le (by omega) (by omega)]; rfl

/-- A successful `ReadString` consumed between one and `len(data)` bytes, and the string it
returns is the piece of `data` after the length prefix. -/
theorem readString_consumed {data s : List UInt8} {m : Nat}
    (h : readString data = some (s, m, none)) :
    1 ≤ m ∧ m ≤ data.length ∧ s <:+: data := by
  obtain ⟨⟨length, n, err⟩, hr⟩ := Option.isSome_iff_exists.mp (readVarIntLoop_isSome data 5 0 0 0)
  simp only [readString, readVarInt, hr, Option.bind_eq_bind, Option.some_bind] at h
  split at h
  · simp at h
  · obtain ⟨-, hn, -, -⟩ := readVarIntLoop_value data 5 0 0 length n rfl rfl hr
    split at h
    · simp at h
    · split at h
      · simp at h
      · rw [slice_of_le (by omega) (by omega)] at h
        simp only [Option.some_bind, Option.some.injEq, Prod.mk.injEq] at h
        obtain ⟨rfl, rfl, -⟩ := h
        refine ⟨by omega, by omega, ?_⟩
        exact (List.drop_suffix _ _).isInfix.trans (List.take_prefix _ _).isInfix

/-- What `ReadString` does with ANY written string in front of any trailing bytes. `WriteString`
writes `uint32(len(s))` as the length, so the string reads back as its first `len(s) mod 2^32`
bytes, or is refused when that number is above `MaxStringLength`. -/
theorem readString_written_mod (s rest : List UInt8) :
    ∃ ws, writeString s = some ws ∧ ws.length = varIntSize (UInt32.ofNat s.length) + s.length ∧
      readString (ws ++ rest) =
        if s.length % 2 ^ 32 > maxStringLength then some ([], 0, some .stringTooLong)
        else some (s.take (s.length % 2 ^ 32),
          varIntSize (UInt32.ofNat s.length) + s.length % 2 ^ 32, none) := by
  obtain ⟨lb, hw, hlen, hread⟩ := writeString_spec s
  have hofNat : (UInt32.ofNat s.length).toNat = s.length % 2 ^ 32 := rfl
  have hL : s.length % 2 ^ 32 ≤ s.length := Nat.mod_le _ _
  refine ⟨lb ++ s, hw, by rw [List.length_append, hlen], ?_⟩
  simp only [readString, List.append_assoc, hread, Option.bind_eq_bind, Option.some_bind, hofNat]
  split
  · rfl
  · have hend : lb.length + s.length % 2 ^ 32 ≤ (lb ++ (s ++ rest)).length := by
      simp only [List.length_append]
      omega
    rw [if_neg (by omega), slice_of_le (by omega) hend, List.take_append, List.drop_left,
      List.take_append_of_le_length hL, hlen]
    rfl

/-- What `ReadString` does with a written string of fewer than `2^32` bytes in front of any
trailing bytes: it is decided by the length alone. -/
theorem readString_written (s rest : List UInt8) (hs : s.length < 2 ^ 32) :
    ∃ ws, writeString s = some ws ∧ ws.length = varIntSize (UInt32.ofNat s.length) + s.length ∧
      readString (ws ++ rest) =
        if s.length > maxStringLength then some ([], 0, some .stringTooLong)
        else some (s, ws.length, none) := by
  obtain ⟨ws, hw, hlen, hr⟩ := readString_written_mod s rest
  rw [Nat.mod_eq_of_lt hs, List.take_length, ← hlen] at hr
  exact ⟨ws, hw, hlen, hr⟩

/-- THE STRING ROUND TRIP: a string of at most `MaxStringLength` bytes reads back whole, with
`VarIntSize(len) + len` bytes consumed; a longer one is refused with `ErrStringTooLong`. -/
theorem readString_writeString :
    (∀ s rest : List UInt8, s.length ≤ maxStringLength → ∃ ws, writeString s = some ws ∧
      readString (ws ++ rest) =
        some (s, varIntSize (UInt32.ofNat s.length) + s.length, none)) ∧
    (∀ s rest : List UInt8, maxStringLength < s.length → s.length < 2 ^ 32 →
      ∃ ws, writeString s = some ws ∧ readString (ws ++ rest) = some ([], 0, some .stringTooLong)) := by
  refine ⟨fun s rest hs => ?_, fun s rest hs hlt => ?_⟩
  · obtain ⟨ws, hw, hlen, hr⟩ := readString_written s rest (by unfold maxStringLength at hs; omega)
    exact ⟨ws, hw, by rw [hr, if_neg (by omega), hlen]⟩
  · obtain ⟨ws, hw, -, hr⟩ := readString_written s rest hlt
    exact ⟨ws, hw, by rw [hr, if_pos hs]⟩

/-- The string `ab` before one more byte, and a string of 300 bytes. -/
theorem readString_writeString_ab :
    ([97, 98] : List UInt8).length ≤ maxStringLength ∧
    (∃ ws, writeString [97, 98] = some ws ∧ readString (ws ++ [0]) =
      some ([97, 98], varIntSize (UInt32.ofNat ([97, 98] : List UInt8).length) +
        ([97, 98] : List UInt8).length, none)) ∧
    maxStringLength < (make 300).length ∧ (make 300).length < 2 ^ 32 ∧
    ∃ ws, writeString (make 300) = some ws ∧
      readString (ws ++ []) = some ([], 0, some .stringTooLong) := by
  have h300 : (make 300).length = 300 := List.length_replicate _ _
  have hlong : maxStringLength < (make 300).length := by rw [h300]; decide
  have hlt : (make 300).length < 2 ^ 32 := by rw [h300]; decide
  exact ⟨by decide, readString_writeString.1 _ _ (by decide), hlong, hlt,
    readString_writeString.2 _ _ hlong hlt⟩

/-- `ReadHostAddress` never panics: the port is read behind the `len(data) < n+2` check. -/
theorem readHostAddress_isSome (data : List UInt8) : (readHostAddress data).isSome := by
  obtain ⟨⟨host, n, err⟩, hr⟩ := Option.isSome_iff_exists.mp (readString_isSome data)
  simp only [readHostAddress, hr, Option.bind_eq_bind, Option.some_bind]
  split
  · rfl
  · split
    · rfl
    · rename_i hlen
      rw [sliceFrom_of_le (by omega)]
      obtain ⟨b0, b1, t, ht⟩ : ∃ b0 b1 t, data.drop n = b0 :: b1 :: t := by
        match h : data.drop n with
        | [] => have := congrArg List.length h; simp at this; omega
        | [_] => have := congrArg List.length h; simp at this; omega
        | b0 :: b1 :: t => exact ⟨b0, b1, t, rfl⟩
      simp [ht, uint16LE]

/-- A successful `ReadHostAddress` consumed between one and `len(data)` bytes, and its host is
a piece of `data`. -/
theorem readHostAddress_consumed {data host : List UInt8} {port : UInt16} {m : Nat}
    (h : readHostAddress data = some (host, port, m, none)) :
    1 ≤ m ∧ m ≤ data.length ∧ host <:+: data := by
  obtain ⟨⟨host', n, err⟩, hr⟩ := Option.isSome_iff_exists.mp (readString_isSome data)
  simp only [readHostAddress, hr, Option.bind_eq_bind, Option.some_bind] at h
  split at h
  · simp at h
  · obtain ⟨-, -, hinf⟩ := readString_consumed hr
    split at h
    · simp at h
    · rw [sliceFrom_of_le (by omega), Option.some_bind] at h
      cases hp : uint16LE (data.drop n) with
      | none => simp [hp] at h
      | some p =>
        simp only [hp, Option.some_bind, Option.some.injEq, Prod.mk.injEq] at h
        obtain ⟨rfl, -, rfl, -⟩ := h
        exact ⟨by omega, by omega, hinf⟩

/-- THE HOST ADDRESS ROUND TRIP: after a host of at most `MaxStringLength` bytes written by
`WriteString`, `ReadHostAddress` reads back the host and the port its next two bytes spell,
little-endian, with `len(WriteString(host)) + 2` bytes consumed; with fewer than two bytes
after the host it answers `io.ErrUnexpectedEOF`. -/
theorem readHostAddress_writeString (host : List UInt8) (hs : host.length ≤ maxStringLength) :
    ∃ ws, writeString host = some ws ∧
      (∀ b0 b1 rest, ∃ port : UInt16,
        readHostAddress (ws ++ b0 :: b1 :: rest) = some (host, port, ws.length + 2, none) ∧
        port.toNat = b0.toNat + 2 ^ 8 * b1.toNat) ∧
      ∀ tail : List UInt8, tail.length < 2 →
        readHostAddress (ws ++ tail) = some ([], 0, 0, some .unexpectedEOF) := by
  have hlt : host.length < 2 ^ 32 := by unfold maxStringLength at hs; omega
  obtain ⟨ws, hw, -⟩ := readString_written host [] hlt
  -- the host reads back whatever follows it
  have hread : ∀ tail, readString (ws ++ tail) = some (host, ws.length, none) := fun tail => by
    obtain ⟨ws', hw', -, hr⟩ := readString_written host tail hlt
    rw [Option.some.inj (hw.symm.trans hw'), hr, if_neg (by omega)]
  refine ⟨ws, hw, fun b0 b1 rest => ?_, fun tail ht => ?_⟩
  · obtain ⟨port, hport, hval⟩ := Option.map_eq_some'.mp (toNat_uint16LE b0 b1 rest)
    refine ⟨port, ?_, hval⟩
    simp only [readHostAddress, hread, Option.bind_eq_bind, Option.some_bind]
    rw [if_neg (by simp), sliceFrom_of_le (by simp), List.drop_left' rfl, Option.some_bind, hport]
    rfl
  · simp only [readHostAddress, hread, Option.bind_eq_bind, Option.some_bind]
    rw [if_pos (by simp; omega)]

/-- The one-byte host `a`, with its port bytes or without them. -/
theorem readHostAddress_writeString_a : [(97 : UInt8)].length ≤ maxStringLength ∧
    ∃ ws, writeString [97] = some ws ∧
      (∀ b0 b1 rest, ∃ port : UInt16,
        readHostAddress (ws ++ b0 :: b1 :: rest) = some ([97], port, ws.length + 2, none) ∧
        port.toNat = b0.toNat + 2 ^ 8 * b1.toNat) ∧
      ∀ tail : List UInt8, tail.length < 2 →
        readHostAddress (ws ++ tail) = some ([], 0, 0, some .unexpectedEOF) :=
  ⟨by decide, readHostAddress_writeString [97] (by decide)⟩

end HyProxy.Protohytale
