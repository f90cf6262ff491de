import HyProxy.Protohytale.Packet

/-!
# `PacketReader`

The framed reader of `protohytale`: a growable buffer, the count of bytes in it (`buffered`)
and the read offset (`offset`). `ensureBytes n` makes `n` bytes available from the offset: it
COMPACTS (moves the unread bytes to the front), GROWS the buffer (to twice its size, or to `n`),
then reads from the transport until `n` bytes are there. `ReadPacket` asks for the header, then
for the whole frame, and advances the offset past it.

The transport is an `io.Reader`, modelled as a state machine (`Transport`) whose `read` answers
one `Read(p)` call from `len(p)`; the reader's state and the transport's state travel together.
The read loop runs on FUEL: a transport that answers `0, nil` forever keeps the Go loop looping,
and the model then stops with `Halt.fuel`.

What a transport may answer is a rule on the bytes it still holds (`ReadRule`):
`chunked` delivers the next `1 ≤ k ≤ len(p)` bytes with no error while bytes remain and then
`0, io.EOF`; `chunkedEOF` may also hand over the last bytes together with `io.EOF`, as
`io.Reader` allows; `flaky transient` may also fail at any call, with or without bytes, with an
error that `transient` admits and that is not `io.EOF`. Each only ever hands over the bytes it
holds, in order (`ReadRule.Delivers`).

## What is proved

The reader's ABSTRACTION is `pending ++ rem s`: the bytes buffered and not consumed, followed by
the bytes the transport still holds.

- `ensureBytes_stream`: `ensureBytes` never changes that sequence, and keeps the representation
  invariant `offset ≤ buffered ≤ len(buf)` (`Valid`), under any rule that delivers in order;
- `ensureBytes_flaky`: under `flaky` (so under `chunked` too), with fuel past the stream's
  length, it returns, and what it returns is decided by the length of the sequence alone
  (`ensureOutcome`), unless a call failed with a transient error; `ensureBytes_spec` puts the
  two together, as `ReadPacket` uses them.
-/

set_option autoImplicit false

namespace HyProxy.Protohytale

open Go

/-! ## The code -/

/-- `PacketReader`, without its `io.Reader`. -/
structure PacketReader where
  buf : List UInt8
  buffered : Nat
  offset : Nat
  deriving DecidableEq, Repr

/-- `NewPacketReader(r)`. -/
def newPacketReader : PacketReader := ⟨make defaultBufSize, 0, 0⟩

/-- `NewPacketReaderSize(r, size)`: a size below the header falls back to the default. -/
def newPacketReaderSize (size : Int) : PacketReader :=
  ⟨make (if size < headerSize then defaultBufSize else size.toNat), 0, 0⟩

/-- `PacketReader.Reset(r)`: the buffer is kept, its contents dropped. -/
def PacketReader.reset (pr : PacketReader) : PacketReader := { pr with buffered := 0, offset := 0 }

/-- `PacketReader.Buffered()`. -/
def PacketReader.bufferedCount (pr : PacketReader) : Nat := pr.buffered - pr.offset

/-- The answer to one `Read(p)` call: the bytes it wrote into `p`, and its error. -/
structure ReadResult where
  data : List UInt8
  err : Option GoError

/-- An `io.Reader`, as a state machine: `read s m` answers `Read(p)` with `len(p) = m`. -/
structure Transport (σ : Type) where
  read : σ → Nat → ReadResult × σ

/-- The reader after a `Read(pr.buf[pr.buffered:])` wrote `data` and `pr.buffered += nr` ran. -/
def PacketReader.afterRead (pr : PacketReader) (data : List UInt8) : PacketReader :=
  { pr with buf := copyAt pr.buf pr.buffered data, buffered := pr.buffered + data.length }

section Code

variable {σ : Type} (t : Transport σ)

/-- The read loop of `ensureBytes`: `for pr.buffered < n`, on `fuel` iterations. -/
def fill (n : Nat) : Nat → PacketReader → σ → Except Halt (PacketReader × σ × Option GoError)
  | 0, _, _ => throw .fuel
  | fuel + 1, pr, s =>
    if pr.buffered < n then do
      let p ← orPanic (sliceFrom pr.buf pr.buffered)
      let (r, s) := t.read s p.length
      let pr := pr.afterRead r.data
      match r.err with
      | some e =>
        pure (pr, s, some (if e = .eof ∧ pr.buffered > 0 ∧ pr.buffered < n then .unexpectedEOF else e))
      | none => fill n fuel pr s
    else pure (pr, s, none)

/-- The compaction step of `ensureBytes`: move the unread bytes to the start. -/
def PacketReader.compact (pr : PacketReader) : Except Halt PacketReader :=
  if pr.offset > 0 then do
    let src ← orPanic (slice pr.buf pr.offset pr.buffered)
    pure { pr with buf := copyAt pr.buf 0 src, buffered := pr.buffered - pr.offset, offset := 0 }
  else pure pr

/-- The growth step of `ensureBytes`: double the buffer, or make it `n` long if that is more. -/
def PacketReader.grow (n : Nat) (pr : PacketReader) : Except Halt PacketReader :=
  if n > pr.buf.length then do
    let newSize := if pr.buf.length * 2 < n then n else pr.buf.length * 2
    let src ← orPanic (slice pr.buf 0 pr.buffered)
    pure { pr with buf := copyAt (make newSize) 0 src }
  else pure pr

/-- `ensureBytes(n)`. -/
def ensureBytes (n fuel : Nat) (pr : PacketReader) (s : σ) :
    Except Halt (PacketReader × σ × Option GoError) :=
  if pr.buffered - pr.offset ≥ n then pure (pr, s, none)
  else do
    let pr ← pr.compact
    let pr ← pr.grow n
    fill t n fuel pr s

/-- `ReadPacket()`: the packet or the error, and the reader's and the transport's new states. -/
def readPacket (fuel : Nat) (pr : PacketReader) (s : σ) :
    Except Halt (Except GoError Packet × PacketReader × σ) := do
  let (pr, s, err) ← ensureBytes t headerSize fuel pr s
  match err with
  | some e => pure (.error e, pr, s)
  | none =>
    let length ← orPanic (sliceFrom pr.buf pr.offset >>= uint32LE)
    let packetID ← orPanic (sliceFrom pr.buf (pr.offset + 4) >>= uint32LE)
    if length.toNat > maxPacketSize then pure (.error .packetTooLarge, pr, s)
    else
      let totalSize := headerSize + length.toNat
      let (pr, s, err) ← ensureBytes t totalSize fuel pr s
      match err with
      | some e => pure (.error e, pr, s)
      | none => do
        let src ← orPanic (slice pr.buf (pr.offset + headerSize) (pr.offset + totalSize))
        let data := copyAt (make length.toNat) 0 src
        pure (.ok ⟨packetID, data⟩, { pr with offset := pr.offset + totalSize }, s)

/-- `ReadPacketNoCopy()`: the id, the payload as a slice of the buffer, and the error. -/
def readPacketNoCopy (fuel : Nat) (pr : PacketReader) (s : σ) :
    Except Halt ((UInt32 × List UInt8 × Option GoError) × PacketReader × σ) := do
  let (pr, s, err) ← ensureBytes t headerSize fuel pr s
  match err with
  | some e => pure ((0, [], some e), pr, s)
  | none =>
    let length ← orPanic (sliceFrom pr.buf pr.offset >>= uint32LE)
    let id ← orPanic (sliceFrom pr.buf (pr.offset + 4) >>= uint32LE)
    if length.toNat > maxPacketSize then pure ((0, [], some .packetTooLarge), pr, s)
    else
      let totalSize := headerSize + length.toNat
      let (pr, s, err) ← ensureBytes t totalSize fuel pr s
      match err with
      | some e => pure ((0, [], some e), pr, s)
      | none => do
        let data ← orPanic (slice pr.buf (pr.offset + headerSize) (pr.offset + totalSize))
        pure ((id, data, none), { pr with offset := pr.offset + totalSize }, s)

/-- `k` successive `ReadPacket` calls, up to and including the first error. -/
def readPackets (fuel : Nat) : Nat → PacketReader → σ → Except Halt (List (Except GoError Packet))
  | 0, _, _ => pure []
  | k + 1, pr, s => do
    let (r, pr, s) ← readPacket t fuel pr s
    match r with
    | .ok p => List.cons (.ok p) <$> readPackets fuel k pr s
    | .error e => pure [.error e]

end Code

/-! ## What a transport may answer -/

/-- A rule on one `Read(p)` call with `len(p) = m`: the bytes `rest` the transport holds before
the call, its answer, and the bytes `rest'` it holds after. -/
def ReadRule : Type := List UInt8 → Nat → ReadResult → List UInt8 → Prop

/-- The rule hands over only bytes the transport holds, in order, and no more than `p` takes. -/
def ReadRule.Delivers (rule : ReadRule) : Prop :=
  ∀ rest m r rest', rule rest m r rest' → r.data.length ≤ m ∧ r.data ++ rest' = rest

/-- The transport obeys `rule` on every call with a non-empty `p`, `rem s` being what it holds
in state `s`. -/
def Transport.Obeys {σ : Type} (t : Transport σ) (rem : σ → List UInt8) (rule : ReadRule) : Prop :=
  ∀ s m, 0 < m → rule (rem s) m (t.read s m).1 (rem (t.read s m).2)

/-- The next `1 ≤ k ≤ len(p)` bytes and no error while bytes remain, then `0, io.EOF`. -/
def chunked : ReadRule := fun rest m r rest' =>
  (rest = [] ∧ r.data = [] ∧ r.err = some .eof ∧ rest' = []) ∨
    (rest ≠ [] ∧ r.err = none ∧ 0 < r.data.length ∧ r.data.length ≤ m ∧ r.data ++ rest' = rest)

/-- As `chunked`, and the last bytes may come together with `io.EOF`. -/
def chunkedEOF : ReadRule := fun rest m r rest' =>
  chunked rest m r rest' ∨
    (rest ≠ [] ∧ rest.length ≤ m ∧ r.data = rest ∧ r.err = some .eof ∧ rest' = [])

/-- As `chunked`, and any call may fail with an error that `transient` accepts and that is not
`io.EOF`, with or without bytes. -/
def flaky (transient : GoError → Bool) : ReadRule := fun rest m r rest' =>
  chunked rest m r rest' ∨
    (∃ e, r.err = some e ∧ transient e ∧ e ≠ .eof ∧ r.data.length ≤ m ∧ r.data ++ rest' = rest)

theorem chunked_delivers : chunked.Delivers := by
  rintro rest m r rest' (⟨rfl, hd, -, rfl⟩ | ⟨-, -, -, hm, hr⟩)
  · simp [hd]
  · exact ⟨hm, hr⟩

theorem chunkedEOF_delivers : chunkedEOF.Delivers := by
  rintro rest m r rest' (h | ⟨-, hm, hd, -, rfl⟩)
  · exact chunked_delivers rest m r rest' h
  · simp [hd, hm]

theorem flaky_delivers (transient : GoError → Bool) : (flaky transient).Delivers := by
  rintro rest m r rest' (h | ⟨-, -, -, -, hm, hr⟩)
  · exact chunked_delivers rest m r rest' h
  · exact ⟨hm, hr⟩

/-- A transport that never fails is a flaky one whatever counts as transient. -/
theorem Transport.Obeys.flaky_of_chunked {σ : Type} {t : Transport σ} {rem : σ → List UInt8}
    (h : t.Obeys rem chunked) (transient : GoError → Bool) : t.Obeys rem (flaky transient) :=
  fun s m hm => .inl (h s m hm)

/-! ## Transports that obey the rules -/

/-- A transport holding the bytes `rest` that hands over at most `k` of them per call: the stream
cut into `k`-byte pieces. With `eofWithLast` the call that hands over the last bytes also answers
`io.EOF`, as a QUIC stream does when its FIN comes with the final data. -/
def pieces (k : Nat) (eofWithLast : Bool) : Transport (List UInt8) where
  read rest m :=
    if rest = [] then (⟨[], some .eof⟩, [])
    else (⟨rest.take (min k m), if eofWithLast ∧ rest.length ≤ min k m then some .eof else none⟩,
      rest.drop (min k m))

theorem pieces_read_of_ne {k m : Nat} {eofWithLast : Bool} {rest : List UInt8} (h : rest ≠ []) :
    (pieces k eofWithLast).read rest m = (⟨rest.take (min k m),
      if eofWithLast ∧ rest.length ≤ min k m then some .eof else none⟩, rest.drop (min k m)) :=
  if_neg h

theorem pieces_obeys {k : Nat} (hk : 0 < k) : (pieces k false).Obeys id chunked := by
  intro rest m hm
  by_cases h : rest = []
  · subst h; exact .inl ⟨rfl, rfl, rfl, rfl⟩
  · have : 0 < rest.length := List.length_pos.mpr h
    dsimp only [id]
    rw [pieces_read_of_ne h]
    exact .inr ⟨h, rfl, by rw [List.length_take]; omega, by rw [List.length_take]; omega,
      List.take_append_drop _ _⟩

theorem pieces_obeys_eof {k : Nat} (hk : 0 < k) : (pieces k true).Obeys id chunkedEOF := by
  intro rest m hm
  by_cases h : rest = []
  · subst h; exact .inl (.inl ⟨rfl, rfl, rfl, rfl⟩)
  · have : 0 < rest.length := List.length_pos.mpr h
    dsimp only [id]
    rw [pieces_read_of_ne h]
    by_cases hl : rest.length ≤ min k m
    · -- the last piece comes with io.EOF
      exact .inr ⟨h, by omega, List.take_of_length_le hl, if_pos ⟨rfl, hl⟩,
        List.drop_of_length_le hl⟩
    · exact .inl (.inr ⟨h, if_neg fun h' => hl h'.2, by rw [List.length_take]; omega,
        by rw [List.length_take]; omega, List.take_append_drop _ _⟩)

/-- The representation invariant: `offset ≤ buffered ≤ len(buf)`. -/
structure PacketReader.Valid (pr : PacketReader) : Prop where
  offset_le : pr.offset ≤ pr.buffered
  buffered_le : pr.buffered ≤ pr.buf.length

/-- `buf[offset:buffered]`: the bytes buffered and not yet consumed. -/
def PacketReader.pending (pr : PacketReader) : List UInt8 := (pr.buf.take pr.buffered).drop pr.offset

theorem PacketReader.length_pending {pr : PacketReader} (hv : pr.Valid) :
    pr.pending.length = pr.buffered - pr.offset := by
  simp only [pending, List.length_drop, List.length_take, Nat.min_eq_left hv.buffered_le]

theorem PacketReader.reset_valid (pr : PacketReader) : pr.reset.Valid :=
  ⟨Nat.le_refl 0, Nat.zero_le _⟩

@[simp] theorem PacketReader.reset_pending (pr : PacketReader) : pr.reset.pending = [] := by
  simp [reset, pending]

/-- Bytes `k` to `k + j` of the stream, while they are pending, are the buffer's bytes from
`offset + k` on. -/
theorem PacketReader.window {pr : PacketReader} (hv : pr.Valid) {k j : Nat}
    (h : k + j ≤ pr.pending.length) (rest : List UInt8) :
    ((pr.pending ++ rest).drop k).take j = (pr.buf.drop (pr.offset + k)).take j := by
  have hlen := pr.length_pending hv
  rw [List.drop_append_of_le_length (by omega), List.take_append_of_le_length (by simp; omega)]
  simp only [pending, List.drop_drop, List.drop_take, List.take_take]
  rw [Nat.add_comm, Nat.min_eq_left (by omega)]

/-- `pr.offset += k` consumes the first `k` pending bytes. -/
theorem PacketReader.pending_advance (pr : PacketReader) (k : Nat) :
    ({ pr with offset := pr.offset + k } : PacketReader).pending = pr.pending.drop k := by
  simp only [PacketReader.pending, List.drop_drop, Nat.add_comm]

/-- `binary.LittleEndian.Uint32(pr.buf[offset + k:])`, with `k + 4` bytes pending, reads the
number that bytes `k` to `k + 4` of the stream spell. -/
theorem uint32LE_window {pr : PacketReader} (hv : pr.Valid) {k i : Nat} (hi : i = pr.offset + k)
    (h : k + 4 ≤ pr.pending.length) (rest : List UInt8) :
    ∃ v, (sliceFrom pr.buf i >>= uint32LE) = some v ∧
      v.toNat = leValue (((pr.pending ++ rest).drop k).take 4) := by
  have hlen := pr.length_pending hv
  have hb := hv.buffered_le
  obtain ⟨v, hv', hvn⟩ := uint32LE_leValue (l := pr.buf.drop i) (by simp; omega)
  refine ⟨v, by rw [sliceFrom_of_le (by omega), Option.bind_eq_bind, Option.some_bind, hv'], ?_⟩
  rw [hvn, pr.window hv h, hi]

/-- `pr.buf[offset + k : offset + k + j]`, with `k + j` bytes pending, is bytes `k` to `k + j`
of the stream. -/
theorem PacketReader.slice_window {pr : PacketReader} (hv : pr.Valid) {k j : Nat}
    (h : k + j ≤ pr.pending.length) (rest : List UInt8) :
    slice pr.buf (pr.offset + k) (pr.offset + (k + j)) = some (((pr.pending ++ rest).drop k).take j) := by
  have hlen := pr.length_pending hv
  have hb := hv.buffered_le
  have ho := hv.offset_le
  rw [slice_of_le (by omega) (by omega), List.drop_take, pr.window hv h,
    show pr.offset + (k + j) - (pr.offset + k) = j by omega]

/-- A fresh reader is a reset one: the laws stated from `reset` cover both. -/
theorem newPacketReaderSize_reset (size : Int) :
    (newPacketReaderSize size).reset = newPacketReaderSize size := rfl

@[simp] theorem PacketReader.afterRead_buffered (pr : PacketReader) (d : List UInt8) :
    (pr.afterRead d).buffered = pr.buffered + d.length := rfl

@[simp] theorem PacketReader.afterRead_offset (pr : PacketReader) (d : List UInt8) :
    (pr.afterRead d).offset = pr.offset := rfl

/-! ## `ensureBytes` keeps the stream -/

section Laws

variable {σ : Type} {t : Transport σ} {rem : σ → List UInt8} {rule : ReadRule}

/-- One turn of the read loop once its condition holds: the `Read` into `buf[buffered:]`, then
the error, reclassified, or the next turn. -/
theorem fill_succ {n fuel : Nat} {pr : PacketReader} {s s' : σ} {r : ReadResult}
    (hlt : pr.buffered < n) (hb : pr.buffered ≤ pr.buf.length)
    (hr : t.read s (pr.buf.drop pr.buffered).length = (r, s')) :
    fill t n (fuel + 1) pr s = match r.err with
      | some e => pure (pr.afterRead r.data, s', some (if e = .eof ∧
          (pr.afterRead r.data).buffered > 0 ∧ (pr.afterRead r.data).buffered < n
          then .unexpectedEOF else e))
      | none => fill t n fuel (pr.afterRead r.data) s' := by
  simp only [fill, if_pos hlt, sliceFrom_of_le hb, orPanic_some, pure_bind, hr]

/-- One `Read` of the loop: the bytes read land after the buffered ones, and the stream
`pending ++ rem` is what it was. -/
theorem afterRead_stream (ht : t.Obeys rem rule) (hd : rule.Delivers) {pr : PacketReader}
    {s s' : σ} {r : ReadResult} (h0 : pr.offset = 0) (hlt : pr.buffered < pr.buf.length)
    (hr : t.read s (pr.buf.drop pr.buffered).length = (r, s')) :
    (pr.afterRead r.data).offset = 0 ∧ (pr.afterRead r.data).buf.length = pr.buf.length ∧
      (pr.afterRead r.data).buffered ≤ pr.buf.length ∧
      (pr.afterRead r.data).pending ++ rem s' = pr.pending ++ rem s := by
  have hrule := ht s (pr.buf.drop pr.buffered).length (by simp; omega)
  rw [hr] at hrule
  obtain ⟨hlen, hcat⟩ := hd _ _ _ _ hrule
  simp only [List.length_drop] at hlen
  refine ⟨h0, length_copyAt _ _ (by omega), by simp only [PacketReader.afterRead]; omega, ?_⟩
  simp only [PacketReader.pending, PacketReader.afterRead, h0, List.drop_zero]
  rw [take_copyAt _ _ (by omega), List.append_assoc, hcat]

/-- The read loop keeps the stream, the offset at zero and the buffer's size; when it stops
without an error, `n` bytes are buffered. -/
theorem fill_stream (ht : t.Obeys rem rule) (hd : rule.Delivers) {n fuel : Nat}
    {pr pr' : PacketReader} {s s' : σ} {e : Option GoError}
    (h0 : pr.offset = 0) (hb : pr.buffered ≤ pr.buf.length) (hn : n ≤ pr.buf.length)
    (h : fill t n fuel pr s = .ok (pr', s', e)) :
    pr'.offset = 0 ∧ pr'.buf.length = pr.buf.length ∧ pr'.buffered ≤ pr.buf.length ∧
      pr'.pending ++ rem s' = pr.pending ++ rem s ∧ (e = none → n ≤ pr'.buffered) := by
  induction fuel generalizing pr s with
  | zero => cases h
  | succ fuel ih =>
    by_cases hlt : pr.buffered < n
    · rcases hr : t.read s (pr.buf.drop pr.buffered).length with ⟨r, s1⟩
      obtain ⟨h0', hbuf', hb', hcat'⟩ := afterRead_stream ht hd h0 (by omega) hr
      rw [fill_succ hlt hb hr] at h
      cases herr : r.err with
      | some e =>
        simp only [herr, pure, Except.pure, Except.ok.injEq, Prod.mk.injEq] at h
        obtain ⟨rfl, rfl, rfl⟩ := h
        exact ⟨h0', hbuf', hb', hcat', nofun⟩
      | none =>
        rw [herr] at h
        obtain ⟨h0'', hbuf'', hb'', hcat'', hn''⟩ := ih h0' (by omega) (by omega) h
        exact ⟨h0'', hbuf''.trans hbuf', by omega, hcat''.trans hcat', hn''⟩
    · simp only [fill, if_neg hlt] at h
      cases h
      exact ⟨h0, rfl, hb, rfl, fun _ => by omega⟩

/-- Compaction moves the pending bytes to the front of the same buffer. -/
theorem compact_spec {pr : PacketReader} (hv : pr.Valid) :
    ∃ pr', pr.compact = pure pr' ∧ pr'.offset = 0 ∧ pr'.buf.length = pr.buf.length ∧
      pr'.buffered ≤ pr'.buf.length ∧ pr'.pending = pr.pending := by
  unfold PacketReader.compact
  split
  · have hlen := pr.length_pending hv
    refine ⟨_, by rw [slice_of_le hv.offset_le hv.buffered_le, orPanic_some, pure_bind], rfl,
      length_copyAt _ _ (Nat.zero_le _), ?_, ?_⟩
    · simp only [length_copyAt _ _ (Nat.zero_le _)]
      exact (Nat.sub_le _ _).trans hv.buffered_le
    · show ((copyAt pr.buf 0 pr.pending).take (pr.buffered - pr.offset)).drop 0 = pr.pending
      rw [List.drop_zero, ← hlen, take_copyAt_zero _ _ (by
        rw [hlen]; exact (Nat.sub_le _ _).trans hv.buffered_le)]
  · exact ⟨pr, rfl, by omega, rfl, hv.buffered_le, rfl⟩

/-- Growth, once compacted, gives a buffer of at least `n` bytes holding the same pending ones. -/
theorem grow_spec (n : Nat) {pr : PacketReader} (h0 : pr.offset = 0)
    (hb : pr.buffered ≤ pr.buf.length) :
    ∃ pr', pr.grow n = pure pr' ∧ pr'.offset = 0 ∧ n ≤ pr'.buf.length ∧
      pr'.buffered ≤ pr'.buf.length ∧ pr'.pending = pr.pending := by
  unfold PacketReader.grow
  split
  · rename_i hn
    have hsize : pr.buffered ≤ (if pr.buf.length * 2 < n then n else pr.buf.length * 2) := by
      split <;> omega
    have hlen : (pr.buf.take pr.buffered).length = pr.buffered := by simp; omega
    rw [slice_of_le (Nat.zero_le _) hb, List.drop_zero, orPanic_some, pure_bind]
    refine ⟨_, rfl, h0, ?_, ?_, ?_⟩
    · simp only [length_copyAt _ _ (Nat.zero_le _), make, List.length_replicate]; split <;> omega
    · simpa only [length_copyAt _ _ (Nat.zero_le _), make, List.length_replicate] using hsize
    · simp only [PacketReader.pending, h0, List.drop_zero]
      have h := take_copyAt_zero (make (if pr.buf.length * 2 < n then n else pr.buf.length * 2))
        (pr.buf.take pr.buffered) (by simp only [make, List.length_replicate, hlen, hsize])
      rwa [hlen] at h
  · exact ⟨pr, rfl, h0, by omega, hb, rfl⟩

/-- `ensureBytes` keeps the stream and the representation invariant; when it answers without an
error, `n` bytes are pending. -/
theorem ensureBytes_stream (ht : t.Obeys rem rule) (hd : rule.Delivers) {n fuel : Nat}
    {pr pr' : PacketReader} {s s' : σ} {e : Option GoError} (hv : pr.Valid)
    (h : ensureBytes t n fuel pr s = .ok (pr', s', e)) :
    pr'.Valid ∧ pr'.pending ++ rem s' = pr.pending ++ rem s ∧ (e = none → n ≤ pr'.pending.length) := by
  unfold ensureBytes at h
  split at h
  · cases h
    exact ⟨hv, rfl, fun _ => by rw [pr.length_pending hv]; omega⟩
  · obtain ⟨pc, hc, hc0, -, hcb, hcp⟩ := compact_spec hv
    obtain ⟨pg, hg, hg0, hgn, hgb, hgp⟩ := grow_spec n hc0 hcb
    rw [hc, pure_bind, hg, pure_bind] at h
    obtain ⟨h0', hbuf', hb', hcat', hn'⟩ := fill_stream ht hd hg0 hgb hgn h
    have hv' : pr'.Valid := ⟨by omega, by omega⟩
    refine ⟨hv', by rw [hcat', hgp, hcp], fun he => ?_⟩
    rw [pr'.length_pending hv', h0']
    exact hn' he

/-! ## What `ensureBytes` answers -/

/-- What `ensureBytes(n)` answers on the stream `T` when the transport does not fail: nothing
once `n` bytes are there, else end-of-stream on an empty stream and `ErrUnexpectedEOF` on a
short one. -/
def ensureOutcome (n : Nat) (T : List UInt8) : Option GoError :=
  if n ≤ T.length then none else some (if T = [] then .eof else .unexpectedEOF)

variable {transient : GoError → Bool}

/-- The read loop RETURNS once the fuel exceeds what the transport holds, and answers
`ensureOutcome`, unless a call failed with a transient error, which it passes on. -/
theorem fill_flaky (ht : t.Obeys rem (flaky transient)) {n : Nat} :
    ∀ {fuel} {pr : PacketReader} {s : σ}, pr.offset = 0 → pr.buffered ≤ pr.buf.length →
      n ≤ pr.buf.length → (rem s).length < fuel →
      ∃ pr' s' e, fill t n fuel pr s = .ok (pr', s', e) ∧
        (e = ensureOutcome n (pr.pending ++ rem s) ∨ ∃ ε, transient ε ∧ e = some ε) := by
  intro fuel
  induction fuel with
  | zero => intro _ _ _ _ _ h; omega
  | succ fuel ih =>
    intro pr s h0 hb hn hfuel
    have hlen : pr.pending.length = pr.buffered := by
      rw [pr.length_pending ⟨by omega, hb⟩, h0, Nat.sub_zero]
    by_cases hlt : pr.buffered < n
    · rcases hr : t.read s (pr.buf.drop pr.buffered).length with ⟨r, s1⟩
      have hrule := ht s (pr.buf.drop pr.buffered).length (by simp; omega)
      rw [hr] at hrule
      dsimp only at hrule
      obtain ⟨h0', hbuf', hb', hcat'⟩ := afterRead_stream ht (flaky_delivers _) h0 (by omega) hr
      rw [fill_succ hlt hb hr]
      rcases hrule with (⟨hrem, hdata, herr, -⟩ | ⟨-, herr, hpos, -, hcat⟩) |
        ⟨ε, herr, htr, hne, -⟩
      · -- the transport is drained: `0, io.EOF`
        rw [herr]
        refine ⟨_, _, _, rfl, .inl ?_⟩
        simp only [hdata, hrem, ensureOutcome, PacketReader.afterRead_buffered,
          List.length_nil, add_zero, List.append_nil, hlen,
          if_neg (show ¬ n ≤ pr.buffered by omega), ← List.length_eq_zero]
        by_cases h : pr.buffered = 0 <;> simp [h, hlt, Nat.pos_iff_ne_zero]
      · -- bytes and no error: the next turn, on a shorter transport
        rw [herr, ← hcat']
        have := congrArg List.length hcat
        simp only [List.length_append] at this
        exact ih h0' (by omega) (by omega) (by omega)
      · -- a transient failure is passed on as it is
        rw [herr]
        exact ⟨_, _, _, rfl, .inr ⟨ε, htr, by simp only [hne, false_and, if_false]⟩⟩
    · -- `n` bytes are already there
      refine ⟨pr, s, none, by simp only [fill, if_neg hlt]; rfl, .inl ?_⟩
      rw [ensureOutcome, if_pos (by rw [List.length_append, hlen]; omega)]

/-- `ensureBytes` RETURNS once the fuel exceeds what the transport holds, and answers
`ensureOutcome` on the stream, unless a call failed with a transient error. -/
theorem ensureBytes_flaky (ht : t.Obeys rem (flaky transient)) {n fuel : Nat}
    {pr : PacketReader} {s : σ} (hv : pr.Valid) (hfuel : (rem s).length < fuel) :
    ∃ pr' s' e, ensureBytes t n fuel pr s = .ok (pr', s', e) ∧
      (e = ensureOutcome n (pr.pending ++ rem s) ∨ ∃ ε, transient ε ∧ e = some ε) := by
  unfold ensureBytes
  split
  · refine ⟨pr, s, none, rfl, .inl ?_⟩
    rw [ensureOutcome, if_pos (by rw [List.length_append, pr.length_pending hv]; omega)]
  · obtain ⟨pc, hc, hc0, -, hcb, hcp⟩ := compact_spec hv
    obtain ⟨pg, hg, hg0, hgn, hgb, hgp⟩ := grow_spec n hc0 hcb
    rw [hc, pure_bind, hg, pure_bind, ← hcp, ← hgp]
    exact fill_flaky ht hg0 hgb hgn hfuel

/-- `ensureBytes(n)` on the stream `T`, as `readPacket` uses it: it returns, keeps `T` and the
representation invariant, and fails with a transient error or answers `ensureOutcome n T`, with
`n` bytes pending when that is no error. -/
theorem ensureBytes_spec (ht : t.Obeys rem (flaky transient)) {n fuel : Nat} {pr : PacketReader}
    {s : σ} {T : List UInt8} (hv : pr.Valid) (hT : pr.pending ++ rem s = T)
    (hfuel : T.length < fuel) :
    ∃ pr' s' e, ensureBytes t n fuel pr s = .ok (pr', s', e) ∧ pr'.Valid ∧
      pr'.pending ++ rem s' = T ∧
      ((∃ ε, transient ε ∧ e = some ε) ∨ e = ensureOutcome n T) ∧
      (e = none → n ≤ pr'.pending.length) := by
  have hrem : (rem s).length < fuel := by
    have := congrArg List.length hT
    rw [List.length_append] at this
    omega
  obtain ⟨pr', s', e, h, he⟩ := ensureBytes_flaky (n := n) ht hv hrem
  obtain ⟨hv', hT', hn⟩ := ensureBytes_stream ht (flaky_delivers _) hv h
  exact ⟨pr', s', e, h, hv', hT'.trans hT, by rw [← hT]; exact he.symm, hn⟩

end Laws

end HyProxy.Protohytale
