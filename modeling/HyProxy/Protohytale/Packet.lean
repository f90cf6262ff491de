import HyProxy.Go
import Mathlib.Tactic.Ring

/-!
# Packets and the frame format

A `Packet` of `protohytale` is an id and a payload; on a terminated stream it travels as a
FRAME: the little-endian `u32` payload length, the little-endian `u32` id, then the payload.
`PacketWriter.Write` emits a frame with two writes, the header and then the payload (none when
the payload is empty), and `PacketReader` (next module) reads frames back off a stream.

`parseFrames` is the format itself, written from its definition and not from the reader: it is
what the reader is proved against. Its numbers are read with `leValue`, the number the bytes
spell, and not with the code's `binary.LittleEndian`, so agreeing with it is a fact about the
reader's decoding too.

## What is proved

`parseFrames_written`: every sequence of frames the writer emits, with payloads of at most
`MaxPacketSize` bytes, parses back to exactly those packets, then end-of-stream;
`parseFrames_written_oversized`: the writer does not check that bound, and a frame it writes for
a longer payload ends the stream in `ErrPacketTooLarge`, the packets after it lost.
-/

set_option autoImplicit false

namespace HyProxy.Protohytale

open Go

/-- `HeaderSize`: four bytes of length and four of packet id. -/
def headerSize : Nat := 8

/-- `MaxPacketSize`, 16 MiB. -/
def maxPacketSize : Nat := 16 * 1024 * 1024

/-- `DefaultBufSize`, 64 KiB. -/
def defaultBufSize : Nat := 64 * 1024

/-- `Packet`: the packet type identifier and the payload (which may be Zstd compressed). -/
structure Packet where
  id : UInt32
  data : List UInt8
  deriving DecidableEq, Repr

/-- `zstdMagic`. -/
def zstdMagic : List UInt8 := [0x28, 0xB5, 0x2F, 0xFD]

/-- `Packet.IsCompressed`: the payload starts with the Zstd frame magic. The `&&` chain is Go's,
so each index is evaluated only after the ones before it matched; `zstdMagic[i]` is a constant
index into a `[4]byte`, checked when the code is compiled. -/
def Packet.isCompressed (p : Packet) : Option Bool :=
  if p.data.length ≥ 4 then do
    let b0 ← index p.data 0
    if b0 = zstdMagic.getD 0 0 then do
      let b1 ← index p.data 1
      if b1 = zstdMagic.getD 1 0 then do
        let b2 ← index p.data 2
        if b2 = zstdMagic.getD 2 0 then do
          let b3 ← index p.data 3
          some (b3 = zstdMagic.getD 3 0)
        else some false
      else some false
    else some false
  else some false

/-- `Packet.IsCompressed` never panics, and it answers whether the payload starts with the magic. -/
theorem isCompressed_eq (p : Packet) :
    p.isCompressed = some (decide (p.data.take 4 = zstdMagic)) := by
  unfold Packet.isCompressed
  match p.data with
  | b0 :: b1 :: b2 :: b3 :: t =>
    simp only [index, zstdMagic, List.length_cons, List.getElem?_cons_zero, List.getElem?_cons_succ,
      List.getD_cons_zero, List.getD_cons_succ, Option.bind_eq_bind, Option.some_bind,
      List.take_succ_cons, List.take_zero, List.cons.injEq, and_true]
    rw [if_pos (by omega)]
    by_cases h0 : b0 = 0x28 <;> by_cases h1 : b1 = 0xB5 <;> by_cases h2 : b2 = 0x2F <;>
      simp [h0, h1, h2]
  | [] | [_] | [_, _] | [_, _, _] => simp [zstdMagic]

/-! ## The frame format -/

/-- The number little-endian bytes spell. -/
def leValue : List UInt8 → Nat
  | [] => 0
  | b :: bs => b.toNat + 256 * leValue bs

/-- `binary.LittleEndian.Uint32` of at least four bytes is the number the first four spell. -/
theorem uint32LE_leValue {l : List UInt8} (h : 4 ≤ l.length) :
    ∃ v, uint32LE l = some v ∧ v.toNat = leValue (l.take 4) := by
  match l, h with
  | b0 :: b1 :: b2 :: b3 :: r, _ =>
    have hv := toNat_uint32LE b0 b1 b2 b3 r
    obtain ⟨v, hv, hvn⟩ := Option.map_eq_some'.mp hv
    exact ⟨v, hv, by rw [hvn]; simp only [List.take_succ_cons, List.take_zero, leValue]; omega⟩

/-- The first answer of the frame format on the bytes `S`: the first frame and the bytes after
it, or the error that ends the stream there. -/
def parseFrame (S : List UInt8) : Except GoError (Packet × List UInt8) :=
  if S = [] then .error .eof
  else if S.length < headerSize then .error .unexpectedEOF
  else
    let length := leValue (S.take 4)
    let id := UInt32.ofNat (leValue ((S.drop 4).take 4))
    if length > maxPacketSize then .error .packetTooLarge
    else if S.length < headerSize + length then .error .unexpectedEOF
    else .ok (⟨id, (S.drop headerSize).take length⟩, S.drop (headerSize + length))

/-- A frame is never empty, so what follows it is shorter than the stream. -/
theorem parseFrame_rest_length {S rest : List UInt8} {p : Packet}
    (h : parseFrame S = .ok (p, rest)) : rest.length < S.length := by
  simp only [parseFrame] at h
  split_ifs at h with h0 h1
  cases h
  simp only [List.length_drop, headerSize] at h1 ⊢
  omega

/-- The format's only errors: end-of-stream, a truncation, and an oversized frame. -/
theorem parseFrame_error {S : List UInt8} {e : GoError} (h : parseFrame S = .error e) :
    e = .eof ∨ e = .unexpectedEOF ∨ e = .packetTooLarge := by
  simp only [parseFrame] at h
  split_ifs at h <;> cases h <;> simp

/-- A stream shorter than a header ends in end-of-stream when empty, else in a truncation. -/
theorem parseFrame_of_short {S : List UInt8} (h : S.length < headerSize) :
    parseFrame S = .error (if S = [] then .eof else .unexpectedEOF) := by
  unfold parseFrame
  split <;> simp_all

/-- A header announcing more than `MaxPacketSize` bytes is refused. -/
theorem parseFrame_of_tooLarge {S : List UInt8} (h : headerSize ≤ S.length)
    (hl : maxPacketSize < leValue (S.take 4)) : parseFrame S = .error .packetTooLarge := by
  have hne : S ≠ [] := List.ne_nil_of_length_pos (by unfold headerSize at h; omega)
  simp only [parseFrame, if_neg hne, if_neg (Nat.not_lt.mpr h), if_pos hl]

/-- A frame whose payload runs past the end of the stream is a truncation. -/
theorem parseFrame_of_truncated {S : List UInt8} (h : headerSize ≤ S.length)
    (hl : leValue (S.take 4) ≤ maxPacketSize) (hs : S.length < headerSize + leValue (S.take 4)) :
    parseFrame S = .error .unexpectedEOF := by
  have hne : S ≠ [] := List.ne_nil_of_length_pos (by unfold headerSize at h; omega)
  simp only [parseFrame, if_neg hne, if_neg (Nat.not_lt.mpr h), if_neg (Nat.not_lt.mpr hl),
    if_pos hs]

/-- A complete frame: the id and payload its header and bytes spell, and the bytes after it. -/
theorem parseFrame_of_complete {S : List UInt8} (hl : leValue (S.take 4) ≤ maxPacketSize)
    (hs : headerSize + leValue (S.take 4) ≤ S.length) :
    parseFrame S = .ok (⟨UInt32.ofNat (leValue ((S.drop 4).take 4)),
      (S.drop headerSize).take (leValue (S.take 4))⟩, S.drop (headerSize + leValue (S.take 4))) := by
  have hne : S ≠ [] := List.ne_nil_of_length_pos (by unfold headerSize at hs; omega)
  simp only [parseFrame, if_neg hne, if_neg (show ¬ S.length < headerSize by omega),
    if_neg (Nat.not_lt.mpr hl), if_neg (Nat.not_lt.mpr hs)]

/-- The frame format: the frames of `S` in order, ended by the error that stops it. -/
def parseFrames (S : List UInt8) : List (Except GoError Packet) :=
  match h : parseFrame S with
  | .error e => [.error e]
  | .ok (p, rest) =>
    have : rest.length < S.length := parseFrame_rest_length h
    .ok p :: parseFrames rest
termination_by S.length

theorem parseFrames_of_error {S : List UInt8} {e : GoError} (h : parseFrame S = .error e) :
    parseFrames S = [.error e] := by
  rw [parseFrames]; split <;> simp_all

theorem parseFrames_of_ok {S rest : List UInt8} {p : Packet} (h : parseFrame S = .ok (p, rest)) :
    parseFrames S = .ok p :: parseFrames rest := by
  rw [parseFrames]; split <;> simp_all

/-! ## The writer -/

/-- `PacketWriter.Write(id, data)`, as the writes it makes on the `io.Writer`: the header from
`pw.buf`, then the payload unless it is empty. -/
def PacketWriter.write (id : UInt32) (data : List UInt8) : List (List UInt8) :=
  let buf := putUint32LE (UInt32.ofNat data.length) ++ putUint32LE id
  [buf] ++ (if data.length > 0 then [data] else [])

/-- `PacketWriter.WritePacket(p)`. -/
def PacketWriter.writePacket (p : Packet) : List (List UInt8) := PacketWriter.write p.id p.data

/-- The bytes a stream carries once the writer has written `ps`, in order. -/
def written (ps : List Packet) : List UInt8 :=
  ps.flatMap fun p => (PacketWriter.writePacket p).flatten

theorem leValue_putUint32LE (v : UInt32) (rest : List UInt8) :
    leValue ((putUint32LE v ++ rest).take 4) = v.toNat := by
  have h := toNat_uint32LE v.toUInt8 (v >>> 8).toUInt8 (v >>> 16).toUInt8 (v >>> 24).toUInt8 rest
  have h' : (uint32LE (putUint32LE v ++ rest)).map UInt32.toNat = some v.toNat := by
    rw [uint32LE_putUint32LE]; rfl
  simp only [putUint32LE, List.cons_append, List.nil_append] at h'
  rw [h'] at h
  simp only [putUint32LE, List.cons_append, List.nil_append, List.take_succ_cons, List.take_zero,
    leValue, Option.some.injEq] at h ⊢
  omega

theorem written_cons (p : Packet) (ps : List Packet) :
    written (p :: ps) = (PacketWriter.writePacket p).flatten ++ written ps := by
  rw [written, List.flatMap_cons, ← written]

/-- The bytes of one written frame: the header, then the payload. -/
theorem writePacket_flatten (p : Packet) :
    (PacketWriter.writePacket p).flatten =
      putUint32LE (UInt32.ofNat p.data.length) ++ putUint32LE p.id ++ p.data := by
  simp only [PacketWriter.writePacket, PacketWriter.write]
  split <;> simp_all

theorem length_writePacket_flatten (p : Packet) :
    (PacketWriter.writePacket p).flatten.length = headerSize + p.data.length := by
  rw [writePacket_flatten, List.length_append, List.length_append]
  rfl

theorem length_written_cons (p : Packet) (ps : List Packet) :
    (written (p :: ps)).length = headerSize + p.data.length + (written ps).length := by
  rw [written_cons, List.length_append, length_writePacket_flatten]

/-- The header of a written frame spells `uint32(len(data))`: the payload's length modulo
`2 ^ 32`. -/
theorem leValue_writePacket (p : Packet) (rest : List UInt8) :
    leValue (((PacketWriter.writePacket p).flatten ++ rest).take 4) = p.data.length % 2 ^ 32 := by
  rw [writePacket_flatten, List.append_assoc, List.append_assoc, leValue_putUint32LE]
  rfl

/-- The header of a written frame spells its payload's length, when that length fits a `u32`. -/
theorem leValue_written_cons (p : Packet) (ps : List Packet) (hp : p.data.length < 2 ^ 32) :
    leValue ((written (p :: ps)).take 4) = p.data.length := by
  rw [written_cons, leValue_writePacket, Nat.mod_eq_of_lt hp]

/-- A written frame whose header announces at most `MaxPacketSize` bytes parses to its id and
the first `uint32(len(data))` bytes of its payload, and leaves the payload's other bytes in front
of what follows. -/
theorem parseFrame_writePacket_of_le (p : Packet) (rest : List UInt8)
    (hp : p.data.length % 2 ^ 32 ≤ maxPacketSize) :
    parseFrame ((PacketWriter.writePacket p).flatten ++ rest) =
      .ok (⟨p.id, p.data.take (p.data.length % 2 ^ 32)⟩,
        p.data.drop (p.data.length % 2 ^ 32) ++ rest) := by
  have hL : p.data.length % 2 ^ 32 ≤ p.data.length := Nat.mod_le _ _
  have hlen := length_writePacket_flatten p
  rw [parseFrame_of_complete (by rwa [leValue_writePacket])
    (by rw [leValue_writePacket, List.length_append]; omega), leValue_writePacket]
  have h4 : (putUint32LE (UInt32.ofNat p.data.length)).length = 4 := rfl
  have h8 : (putUint32LE (UInt32.ofNat p.data.length) ++ putUint32LE p.id).length = headerSize :=
    rfl
  rw [writePacket_flatten, List.append_assoc _ p.data, ← h8, List.drop_append, List.drop_left,
    List.take_append_of_le_length hL, List.drop_append_of_le_length hL, List.append_assoc,
    List.drop_left' h4, leValue_putUint32LE, ofNat_toNat32]

/-- One written frame, in front of anything, parses to its packet and leaves the rest. -/
theorem parseFrame_write (p : Packet) (rest : List UInt8) (hp : p.data.length ≤ maxPacketSize) :
    parseFrame ((PacketWriter.writePacket p).flatten ++ rest) = .ok (p, rest) := by
  have hmod : p.data.length % 2 ^ 32 = p.data.length :=
    Nat.mod_eq_of_lt (by unfold maxPacketSize at hp; omega)
  rw [parseFrame_writePacket_of_le p rest (by rwa [hmod]), hmod, List.take_length, List.drop_length,
    List.nil_append]

/-- EVERY FRAME THE WRITER WRITES, PARSED. `Write` puts `uint32(len(data))` in the header and
checks no bound: a payload whose length, cut to 32 bits, is above `MaxPacketSize` is refused
with `ErrPacketTooLarge`; any other is read as a packet of its first `len(data) mod 2^32` bytes,
so a payload of `2^32` bytes or more leaves its tail to be read as the frames that follow. -/
theorem parseFrame_writePacket (p : Packet) (rest : List UInt8) :
    parseFrame ((PacketWriter.writePacket p).flatten ++ rest) =
      if maxPacketSize < p.data.length % 2 ^ 32 then .error .packetTooLarge
      else .ok (⟨p.id, p.data.take (p.data.length % 2 ^ 32)⟩,
        p.data.drop (p.data.length % 2 ^ 32) ++ rest) := by
  split_ifs with hbig
  · refine parseFrame_of_tooLarge ?_ (by rwa [leValue_writePacket])
    rw [List.length_append, length_writePacket_flatten]
    omega
  · exact parseFrame_writePacket_of_le p rest (Nat.not_lt.mp hbig)

/-- THE WRITER'S FRAMES PARSE BACK: whatever packets the writer wrote, with payloads of at most
`MaxPacketSize` bytes, the format reads exactly them, then end-of-stream. -/
theorem parseFrames_written (ps : List Packet) (hps : ∀ p ∈ ps, p.data.length ≤ maxPacketSize) :
    parseFrames (written ps) = ps.map .ok ++ [.error .eof] := by
  induction ps with
  | nil => exact parseFrames_of_error (by simp [parseFrame, written])
  | cons p ps ih =>
    rw [written_cons, parseFrames_of_ok (parseFrame_write p _ (hps p (List.mem_cons_self _ _))),
      ih (fun q hq => hps q (List.mem_cons_of_mem _ hq))]
    rfl

/-- A written frame whose header announces more than `MaxPacketSize` bytes is refused. -/
theorem parseFrame_written_oversized {p : Packet} (qs : List Packet)
    (hp : maxPacketSize < p.data.length % 2 ^ 32) :
    parseFrame (written (p :: qs)) = .error .packetTooLarge := by
  rw [written_cons]
  refine parseFrame_of_tooLarge ?_ (by rwa [leValue_writePacket])
  rw [List.length_append, length_writePacket_flatten]
  omega

/-- THE WRITER IS NOT BOUNDED, THE FORMAT IS. `Write` puts a frame on the stream for a payload of
any length; one whose header, `uint32(len(data))`, announces more than `MaxPacketSize` is refused,
and the format stops there: the packets written before it parse, none written after it. -/
theorem parseFrames_written_oversized {ps : List Packet} {p : Packet} (qs : List Packet)
    (hps : ∀ q ∈ ps, q.data.length ≤ maxPacketSize)
    (hp : maxPacketSize < p.data.length % 2 ^ 32) :
    parseFrames (written (ps ++ p :: qs)) = ps.map .ok ++ [.error .packetTooLarge] := by
  induction ps with
  | nil => exact parseFrames_of_error (parseFrame_written_oversized qs hp)
  | cons q ps ih =>
    rw [List.cons_append, written_cons,
      parseFrames_of_ok (parseFrame_write q _ (hps q (List.mem_cons_self _ _))),
      ih (fun q hq => hps q (List.mem_cons_of_mem _ hq))]
    rfl

end HyProxy.Protohytale
