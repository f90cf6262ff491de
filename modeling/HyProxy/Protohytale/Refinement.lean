import HyProxy.Protohytale.Invariant

/-!
# `PacketReader` refines the frame format

The reader of the previous module against the format of `Packet.lean`. The abstract reader is
`readFrame`: one call takes the next frame off the stream, or reports the format's error and
leaves the stream AS IT WAS. `readPacket_flaky` is the refinement, one call at a time: whatever
the reader's state (any `Valid` one, so compactions and growths included) and however the
transport cuts the stream, a `ReadPacket` call returns, and it is the abstract call on the stream
`pending ++ rem`, unless the transport failed with a transient error, in which case nothing was
consumed.

## What is proved

- `readPackets_chunked`: successive `ReadPacket` calls on a reset reader over any chunking return
  exactly the answers of `parseFrames`, up to and including the first error; over the writer's
  bytes that is each packet, then end-of-stream;
- `readPackets_eof_with_data`: when a `Read` hands over the last bytes together with `io.EOF`,
  as `io.Reader` allows, the reader answers `io.EOF` with a whole frame in its buffer;
- `readPacket_atomic`: under a transport that may fail at any call, a failed `ReadPacket`
  consumes nothing, and a caller that retries after each error it takes for transient, whichever
  they are, receives a prefix of the frames, none lost, repeated or shifted;
- `readPacket_buffer_past_bound`: the buffer's size after each call is decided by the stream
  (`readPacket_spec`, `bufferAfterRead`), and two legal frames double it past
  `HeaderSize + MaxPacketSize`;
- `readPacketsAll_written_oversized`: a payload the writer accepts but the reader does not, its
  header above `MaxPacketSize`, makes every call from then on answer `ErrPacketTooLarge`, for a
  caller that goes on calling (`readPacketsAll`): the frame stays first on the stream, and no
  packet written after it is ever read.

## What this does not decide

The transport is a state machine answering one `Read` at a time; that a real connection behaves
as one of the rules here is the premise of each theorem, not something proved. Liveness is out of
scope: a transport that fails forever starves the retrying caller, which then still has received
only a prefix.
-/

set_option autoImplicit false

namespace HyProxy.Protohytale

open Go

/-! ## The abstract reader -/

/-- One call of an ATOMIC frame reader on the stream `T`: the next frame and the bytes after it,
or the format's error with `T` left as it was. -/
def readFrame (T : List UInt8) : Except GoError Packet × List UInt8 :=
  match parseFrame T with
  | .ok (p, rest) => (.ok p, rest)
  | .error e => (.error e, T)

theorem readFrame_of_error {T : List UInt8} {e : GoError} (h : parseFrame T = .error e) :
    readFrame T = (.error e, T) := by
  rw [readFrame, h]

/-- The abstract reader fails with the format's error, and consumes nothing. -/
theorem readFrame_error {T T' : List UInt8} {e : GoError}
    (h : (Except.error e, T') = readFrame T) : parseFrame T = .error e ∧ T' = T := by
  unfold readFrame at h
  split at h <;> simp_all

/-- The abstract reader's packet is the format's next frame. -/
theorem readFrame_ok {T T' : List UInt8} {p : Packet} (h : (Except.ok p, T') = readFrame T) :
    parseFrame T = .ok (p, T') := by
  unfold readFrame at h
  split at h <;> simp_all

section Refines

variable {σ : Type} {t : Transport σ} {rem : σ → List UInt8} {transient : GoError → Bool}

/-- The buffer's size after a `ReadPacket` call on the stream `T` that meets no failure of the
transport: grown for the header, then for the whole frame when the header announces a length of
at most `MaxPacketSize`. -/
def bufferAfterRead (T : List UInt8) (len : Nat) : Nat :=
  if headerSize ≤ T.length ∧ leValue (T.take 4) ≤ maxPacketSize then
    grownSize (headerSize + leValue (T.take 4)) (grownSize headerSize len)
  else grownSize headerSize len

/-- One `ReadPacket` call from any valid state, with fuel past the stream's length: it returns,
keeps the representation invariant, and does what the abstract reader does on `pending ++ rem`,
leaving a buffer of `bufferAfterRead` bytes, or fails with a transient error having consumed
nothing. -/
theorem readPacket_spec (ht : t.Obeys rem (flaky transient)) {fuel : Nat} {pr : PacketReader}
    {s : σ} (hv : pr.Valid) (hfuel : (pr.pending ++ rem s).length < fuel) :
    ∃ res pr' s', readPacket t fuel pr s = .ok (res, pr', s') ∧ pr'.Valid ∧
      ((res, pr'.pending ++ rem s') = readFrame (pr.pending ++ rem s) ∧
          pr'.buf.length = bufferAfterRead (pr.pending ++ rem s) pr.buf.length ∨
        ∃ ε, transient ε ∧ res = .error ε ∧ pr'.pending ++ rem s' = pr.pending ++ rem s) := by
  have hb : t.Bounded := ht.bounded (flaky_delivers _)
  obtain ⟨T, hT⟩ : ∃ T, pr.pending ++ rem s = T := ⟨_, rfl⟩
  rw [hT] at hfuel ⊢
  have hH : headerSize = 8 := rfl
  -- the header: a transient failure, a short stream, or eight bytes pending
  obtain ⟨pr1, s1, e1, h1, hv1, hT1, ⟨ε, htr, rfl⟩ | he1, hn1⟩ :=
    ensureBytes_spec (n := headerSize) ht hv hT hfuel <;> simp only [readPacket, h1, ok_bind]
  · exact ⟨_, _, _, rfl, hv1, .inr ⟨ε, htr, rfl, hT1⟩⟩
  have hl1 := (ensureBytes_ok hb hv h1).2.1
  by_cases hshort : T.length < headerSize
  · rw [ensureOutcome, if_neg (by omega)] at he1
    subst he1
    exact ⟨_, _, _, rfl, hv1, .inl ⟨by rw [readFrame_of_error (parseFrame_of_short hshort), hT1],
      by rw [bufferAfterRead, if_neg fun h => by omega, hl1]⟩⟩
  rw [ensureOutcome, if_pos (by omega)] at he1
  subst he1
  have hn := hn1 rfl
  obtain ⟨v, hv0, hvn⟩ := uint32LE_window hv1 (k := 0) (i := pr1.offset) rfl (by omega) (rem s1)
  obtain ⟨w, hw0, hwn⟩ := uint32LE_window hv1 (k := 4) rfl (by omega) (rem s1)
  rw [hT1, List.drop_zero] at hvn
  rw [hT1] at hwn
  simp only [hv0, hw0, orPanic_some, pure_bind]
  have h8 : headerSize ≤ T.length := by omega
  -- the length: too large, or the payload is asked for
  by_cases hbig : v.toNat > maxPacketSize
  · rw [if_pos hbig]
    exact ⟨_, _, _, rfl, hv1, .inl ⟨by
      rw [readFrame_of_error (parseFrame_of_tooLarge h8 (by rwa [← hvn])), hT1],
      by rw [bufferAfterRead, if_neg fun h => by omega, hl1]⟩⟩
  rw [if_neg hbig]
  -- the payload: a transient failure, a stream ending inside it, or the whole frame pending
  obtain ⟨pr2, s2, e2, h2, hv2, hT2, ⟨ε, htr, rfl⟩ | he2, hn2⟩ :=
    ensureBytes_spec (n := headerSize + v.toNat) ht hv1 hT1 hfuel <;> simp only [h2, ok_bind]
  · exact ⟨_, _, _, rfl, hv2, .inr ⟨ε, htr, rfl, hT2⟩⟩
  have hl2 : pr2.buf.length = bufferAfterRead T pr.buf.length := by
    rw [(ensureBytes_ok hb hv1 h2).2.1, bufferAfterRead, if_pos ⟨h8, by omega⟩, hl1, hvn]
  by_cases htrunc : T.length < headerSize + v.toNat
  · rw [ensureOutcome, if_neg (by omega), if_neg (List.ne_nil_of_length_pos (by omega))] at he2
    subst he2
    exact ⟨_, _, _, rfl, hv2, .inl ⟨by
      rw [readFrame_of_error (parseFrame_of_truncated h8 (by rw [← hvn]; omega)
        (by rw [← hvn]; omega)), hT2], hl2⟩⟩
  rw [ensureOutcome, if_pos (by omega)] at he2
  subst he2
  have hn' := hn2 rfl
  have hlen2 := pr2.length_pending hv2
  simp only [pr2.slice_window hv2 hn' (rem s2), hT2, orPanic_some, pure_bind]
  refine ⟨_, _, _, rfl, ⟨by simp only; omega, hv2.buffered_le⟩, .inl ⟨?_, hl2⟩⟩
  rw [readFrame, parseFrame_of_complete (by rw [← hvn]; omega) (by rw [← hvn]; omega), ← hvn,
    ← hwn, ofNat_toNat32, copyAt_make (by simp; omega), pr2.pending_advance,
    ← List.drop_append_of_le_length (by omega), hT2]

/-- THE REFINEMENT, one call at a time: from any valid state, with fuel past the stream's length,
`ReadPacket` returns, keeps the representation invariant, and does what the abstract reader does
on `pending ++ rem`, or fails with a transient error having consumed nothing. -/
theorem readPacket_flaky (ht : t.Obeys rem (flaky transient)) {fuel : Nat} {pr : PacketReader}
    {s : σ} (hv : pr.Valid) (hfuel : (pr.pending ++ rem s).length < fuel) :
    ∃ res pr' s', readPacket t fuel pr s = .ok (res, pr', s') ∧ pr'.Valid ∧
      ((res, pr'.pending ++ rem s') = readFrame (pr.pending ++ rem s) ∨
        ∃ ε, transient ε ∧ res = .error ε ∧ pr'.pending ++ rem s' = pr.pending ++ rem s) := by
  obtain ⟨res, pr', s', h, hv', hres⟩ := readPacket_spec ht hv hfuel
  exact ⟨res, pr', s', h, hv', hres.imp_left And.left⟩

/-- The run lemma: under a transport that never fails, `k` calls from any valid state answer the
first `k` answers of the format on the stream. -/
theorem readPackets_refines (ht : t.Obeys rem chunked) {fuel : Nat} :
    ∀ (k : Nat) {pr : PacketReader} {s : σ}, pr.Valid → (pr.pending ++ rem s).length < fuel →
      readPackets t fuel k pr s = .ok ((parseFrames (pr.pending ++ rem s)).take k)
  | 0, _, _, _, _ => rfl
  | k + 1, pr, s, hv, hfuel => by
    obtain ⟨res, pr', s', h, hv', hres | ⟨ε, hε, -⟩⟩ :=
      readPacket_flaky (ht.flaky_of_chunked fun _ => false) hv hfuel
    · simp only [readPackets, h, ok_bind]
      rcases res with e | p
      · rw [parseFrames_of_error (readFrame_error hres).1]
        simp only [List.take_succ_cons, List.take_nil]
        rfl
      · have hp := readFrame_ok hres
        have hlt := parseFrame_rest_length hp
        rw [parseFrames_of_ok hp, readPackets_refines ht k hv' (by omega)]
        rfl
    · cases hε

/-- CHUNKING DOES NOT MATTER: over any transport that hands the stream over in pieces, a reset
reader answers successive `ReadPacket` calls, up to and including the first error, exactly as the
frame format parses the stream; over bytes the writer wrote, that is each packet in turn, then
end-of-stream. A fresh reader is a reset one (`newPacketReaderSize_reset`). -/
theorem readPackets_chunked (ht : t.Obeys rem chunked) (pr : PacketReader) (s : σ) (fuel : Nat)
    (hfuel : (rem s).length < fuel) :
    (∀ k, readPackets t fuel k pr.reset s = .ok ((parseFrames (rem s)).take k)) ∧
    ∀ ps : List Packet, rem s = written ps → (∀ p ∈ ps, p.data.length ≤ maxPacketSize) →
      readPackets t fuel (ps.length + 1) pr.reset s = .ok (ps.map .ok ++ [.error .eof]) := by
  have hrun : ∀ k, readPackets t fuel k pr.reset s = .ok ((parseFrames (rem s)).take k) :=
    fun k => by simpa using readPackets_refines ht k pr.reset_valid (by simpa using hfuel)
  refine ⟨hrun, fun ps hs hps => ?_⟩
  rw [hrun, hs, parseFrames_written ps hps, List.take_of_length_le (by simp)]

end Refines

/-- Two packets cut into 3-byte pieces, read by a fresh reader with the smallest buffer. -/
theorem readPackets_chunked_pieces :
    0 < 3 ∧ (written [⟨7, [1, 2, 3]⟩, ⟨9, []⟩]).length < 20 ∧
    ((∀ k, readPackets (pieces 3 false) 20 k (newPacketReaderSize 8).reset
        (written [⟨7, [1, 2, 3]⟩, ⟨9, []⟩]) =
        .ok ((parseFrames (written [⟨7, [1, 2, 3]⟩, ⟨9, []⟩])).take k)) ∧
      ∀ ps : List Packet, written [⟨7, [1, 2, 3]⟩, ⟨9, []⟩] = written ps →
        (∀ p ∈ ps, p.data.length ≤ maxPacketSize) →
        readPackets (pieces 3 false) 20 (ps.length + 1) (newPacketReaderSize 8).reset
          (written [⟨7, [1, 2, 3]⟩, ⟨9, []⟩]) = .ok (ps.map .ok ++ [.error .eof])) :=
  ⟨by decide, by decide, readPackets_chunked (pieces_obeys (by decide)) _ _ _ (by decide)⟩

/-! ## The last bytes together with `io.EOF` -/

/-- THE READER DROPS A FRAME THAT ARRIVES WITH `io.EOF`. A transport that hands over the last
bytes together with `io.EOF` obeys `chunkedEOF`; over the eleven bytes of one written packet,
with a 16-byte buffer, the first `ReadPacket` answers `io.EOF` although the whole frame is in the
buffer, where the format reads the packet; and a stream ending inside a payload answers `io.EOF`
where the format says `ErrUnexpectedEOF`. `ensureBytes` returns the `Read`'s error unless
`buffered < n`, which no longer holds once the last bytes are counted. -/
theorem readPackets_eof_with_data :
    (pieces 64 true).Obeys id chunkedEOF ∧
    readPackets (pieces 64 true) 20 2 (newPacketReaderSize 16) (written [⟨7, [1, 2, 3]⟩]) =
      .ok [.error .eof] ∧
    parseFrames (written [⟨7, [1, 2, 3]⟩]) = [.ok ⟨7, [1, 2, 3]⟩, .error .eof] ∧
    readPackets (pieces 64 true) 20 2 (newPacketReaderSize 16) [5, 0, 0, 0, 7, 0, 0, 0, 1, 2, 3] =
      .ok [.error .eof] ∧
    parseFrames [5, 0, 0, 0, 7, 0, 0, 0, 1, 2, 3] = [.error .unexpectedEOF] :=
  ⟨pieces_obeys_eof (by decide), by decide, parseFrames_written _ (by decide), by decide,
    parseFrames_of_error (by decide)⟩

/-! ## The buffer's size -/

section Growth

variable {σ : Type} {t : Transport σ} {rem : σ → List UInt8}

/-- `ReadPacket` on a stream that starts with a written frame reads its packet, leaves the stream
after it, and grows the buffer for the header and then for the frame. -/
theorem readPacket_written (ht : t.Obeys rem chunked) {fuel : Nat} {pr : PacketReader} {s : σ}
    (hv : pr.Valid) {p : Packet} {ps : List Packet} (hp : p.data.length ≤ maxPacketSize)
    (hT : pr.pending ++ rem s = written (p :: ps)) (hfuel : (written (p :: ps)).length < fuel) :
    ∃ pr' s', readPacket t fuel pr s = .ok (.ok p, pr', s') ∧ pr'.Valid ∧
      pr'.pending ++ rem s' = written ps ∧
      pr'.buf.length = grownSize (headerSize + p.data.length) (grownSize headerSize pr.buf.length) := by
  obtain ⟨res, pr', s', h, hv', ⟨hres, hlen⟩ | ⟨ε, hε, -⟩⟩ :=
    readPacket_spec (ht.flaky_of_chunked fun _ => false) hv (by rwa [hT])
  · rw [hT, readFrame, written_cons, parseFrame_write p _ hp, Prod.mk.injEq] at hres
    obtain ⟨rfl, hrest⟩ := hres
    have hle := leValue_written_cons p ps (by unfold maxPacketSize at hp; omega)
    rw [hT, bufferAfterRead, if_pos ⟨by rw [length_written_cons]; omega, by omega⟩, hle] at hlen
    exact ⟨pr', s', h, hv', hrest, hlen⟩
  · cases hε

/-- THE BUFFER OUTGROWS THE FRAME BOUND. Over any chunking of the stream the writer writes for a
packet of `MaxPacketSize - HeaderSize` bytes and then one of `MaxPacketSize` bytes, both legal, a
reader from `NewPacketReader` reads both packets; its buffer grows to `MaxPacketSize` for the first
frame, then DOUBLES to `2 * MaxPacketSize` for the second, past `HeaderSize + MaxPacketSize`.
`ensureBytes` doubles the buffer whenever a request exceeds it, and nothing caps the doubling. -/
theorem readPacket_buffer_past_bound (ht : t.Obeys rem chunked) {p1 p2 : Packet}
    (h1 : p1.data.length = maxPacketSize - headerSize) (h2 : p2.data.length = maxPacketSize)
    {s : σ} {fuel : Nat} (hs : rem s = written [p1, p2]) (hfuel : (rem s).length < fuel) :
    ∃ pr1 s1 pr2 s2,
      readPacket t fuel newPacketReader s = .ok (.ok p1, pr1, s1) ∧
      readPacket t fuel pr1 s1 = .ok (.ok p2, pr2, s2) ∧
      pr1.buf.length = maxPacketSize ∧ pr2.buf.length = 2 * maxPacketSize ∧
      headerSize + maxPacketSize < pr2.buf.length := by
  have hv0 : newPacketReader.Valid := PacketReader.reset_valid newPacketReader
  have h0 : newPacketReader.pending = [] := PacketReader.reset_pending newPacketReader
  obtain ⟨pr1, s1, hr1, hv1, hT1, hl1⟩ := readPacket_written ht hv0
    (by rw [h1]; exact Nat.sub_le _ _) (by rw [h0, List.nil_append, hs]) (hs ▸ hfuel)
  have hfuel1 := hs ▸ hfuel
  rw [length_written_cons] at hfuel1
  obtain ⟨pr2, s2, hr2, -, -, hl2⟩ :=
    readPacket_written ht hv1 h2.le hT1 (show (written [p2]).length < fuel by omega)
  have hb1 : pr1.buf.length = maxPacketSize := by
    rw [hl1, h1, show newPacketReader.buf.length = defaultBufSize from List.length_replicate _ _]
    decide
  have hb2 : pr2.buf.length = 2 * maxPacketSize := by
    rw [hl2, h2, hb1]
    decide
  exact ⟨pr1, s1, pr2, s2, hr1, hr2, hb1, hb2, by rw [hb2]; decide⟩

end Growth

/-- Two such packets, handed over in `Read` calls of at most 64 KiB each. -/
theorem readPacket_buffer_past_bound_pieces :
    (pieces defaultBufSize false).Obeys id chunked ∧
    (⟨0, make (maxPacketSize - headerSize)⟩ : Packet).data.length = maxPacketSize - headerSize ∧
    (⟨0, make maxPacketSize⟩ : Packet).data.length = maxPacketSize ∧
    id (written [⟨0, make (maxPacketSize - headerSize)⟩, ⟨0, make maxPacketSize⟩]) =
      written [⟨0, make (maxPacketSize - headerSize)⟩, ⟨0, make maxPacketSize⟩] ∧
    (id (written [⟨0, make (maxPacketSize - headerSize)⟩, ⟨0, make maxPacketSize⟩])).length <
      2 ^ 26 ∧
    ∃ pr1 s1 pr2 s2,
      readPacket (pieces defaultBufSize false) (2 ^ 26) newPacketReader
          (written [⟨0, make (maxPacketSize - headerSize)⟩, ⟨0, make maxPacketSize⟩]) =
        .ok (.ok ⟨0, make (maxPacketSize - headerSize)⟩, pr1, s1) ∧
      readPacket (pieces defaultBufSize false) (2 ^ 26) pr1 s1 =
        .ok (.ok ⟨0, make maxPacketSize⟩, pr2, s2) ∧
      pr1.buf.length = maxPacketSize ∧ pr2.buf.length = 2 * maxPacketSize ∧
      headerSize + maxPacketSize < pr2.buf.length := by
  -- the lengths are rewritten, never computed: the payloads are 16 MiB lists
  have h1 : (⟨0, make (maxPacketSize - headerSize)⟩ : Packet).data.length =
      maxPacketSize - headerSize := List.length_replicate _ _
  have h2 : (⟨0, make maxPacketSize⟩ : Packet).data.length = maxPacketSize :=
    List.length_replicate _ _
  have hlen : (id (written [⟨0, make (maxPacketSize - headerSize)⟩,
      ⟨0, make maxPacketSize⟩])).length < 2 ^ 26 := by
    rw [id_eq, length_written_cons, length_written_cons, h1, h2]
    decide
  exact ⟨pieces_obeys (by decide), h1, h2, id_eq _, hlen,
    readPacket_buffer_past_bound (pieces_obeys (by decide)) h1 h2 (id_eq _) hlen⟩

/-! ## Oversized payloads -/

section Oversized

variable {σ : Type} (t : Transport σ)

/-- A caller that makes `k` `ReadPacket` calls and goes on after an error, with every answer. -/
def readPacketsAll (fuel : Nat) : Nat → PacketReader → σ → Except Halt (List (Except GoError Packet))
  | 0, _, _ => pure []
  | k + 1, pr, s => do
    let (r, pr, s) ← readPacket t fuel pr s
    List.cons r <$> readPacketsAll fuel k pr s

variable {t} {rem : σ → List UInt8} {fuel : Nat} {p : Packet} {qs : List Packet}

/-- `ReadPacket` on a stream that starts with a frame announcing more than `MaxPacketSize` bytes
answers `ErrPacketTooLarge` and leaves the stream as it was, that frame's header first. -/
theorem readPacket_of_oversized (ht : t.Obeys rem chunked) {pr : PacketReader} {s : σ}
    (hv : pr.Valid) (hp : maxPacketSize < p.data.length % 2 ^ 32)
    (hT : pr.pending ++ rem s = written (p :: qs)) (hfuel : (written (p :: qs)).length < fuel) :
    ∃ pr' s', readPacket t fuel pr s = .ok (.error .packetTooLarge, pr', s') ∧ pr'.Valid ∧
      pr'.pending ++ rem s' = written (p :: qs) := by
  obtain ⟨res, pr', s', h, hv', hres | ⟨ε, hε, -⟩⟩ :=
    readPacket_flaky (ht.flaky_of_chunked fun _ => false) hv (by rwa [hT])
  · rw [hT, readFrame_of_error (parseFrame_written_oversized qs hp), Prod.mk.injEq] at hres
    obtain ⟨rfl, hrest⟩ := hres
    exact ⟨pr', s', h, hv', hrest⟩
  · cases hε

/-- The run lemma at the oversized frame: however many calls follow, each answers
`ErrPacketTooLarge`, and the frame stays where it was. -/
theorem readPacketsAll_of_oversized (ht : t.Obeys rem chunked)
    (hp : maxPacketSize < p.data.length % 2 ^ 32) (hfuel : (written (p :: qs)).length < fuel) :
    ∀ (n : Nat) {pr : PacketReader} {s : σ}, pr.Valid → pr.pending ++ rem s = written (p :: qs) →
      readPacketsAll t fuel n pr s = .ok (List.replicate n (.error .packetTooLarge)) ∧
      ∃ pr' s', runCalls t fuel (List.replicate n .readPacket) pr s = .ok (pr', s') ∧
        pr'.Valid ∧ pr'.pending ++ rem s' = written (p :: qs)
  | 0, pr, s, hv, hT => ⟨rfl, pr, s, rfl, hv, hT⟩
  | n + 1, _, _, hv, hT => by
    obtain ⟨pr1, s1, h, hv1, hT1⟩ := readPacket_of_oversized ht hv hp hT hfuel
    obtain ⟨hall, hrun⟩ := readPacketsAll_of_oversized ht hp hfuel n hv1 hT1
    simp only [readPacketsAll, List.replicate_succ, runCalls, h, ok_bind, hall]
    exact ⟨rfl, hrun⟩

/-- The run lemma before it: the written packets of at most `MaxPacketSize` bytes come first. -/
theorem readPacketsAll_written (ht : t.Obeys rem chunked)
    (hp : maxPacketSize < p.data.length % 2 ^ 32) (n : Nat) :
    ∀ (ps : List Packet) {pr : PacketReader} {s : σ}, pr.Valid →
      pr.pending ++ rem s = written (ps ++ p :: qs) → (written (ps ++ p :: qs)).length < fuel →
      (∀ q ∈ ps, q.data.length ≤ maxPacketSize) →
      readPacketsAll t fuel (ps.length + n) pr s =
          .ok (ps.map .ok ++ List.replicate n (.error .packetTooLarge)) ∧
        ∃ pr' s', runCalls t fuel (List.replicate (ps.length + n) .readPacket) pr s = .ok (pr', s') ∧
          pr'.pending ++ rem s' = written (p :: qs)
  | [], _, _, hv, hT, hfuel, _ => by
    obtain ⟨hall, pr', s', hrun, -, hT'⟩ := readPacketsAll_of_oversized ht hp hfuel n hv hT
    rw [List.length_nil, Nat.zero_add]
    exact ⟨hall, pr', s', hrun, hT'⟩
  | q :: ps, _, _, hv, hT, hfuel, hps => by
    rw [List.cons_append] at hT hfuel
    have hlen := length_written_cons q (ps ++ p :: qs)
    obtain ⟨pr1, s1, h, hv1, hT1, -⟩ :=
      readPacket_written ht hv (hps q (List.mem_cons_self _ _)) hT hfuel
    obtain ⟨hall, hrun⟩ := readPacketsAll_written ht hp n ps hv1 hT1 (by omega)
      fun q hq => hps q (List.mem_cons_of_mem _ hq)
    rw [List.length_cons, Nat.add_right_comm]
    simp only [readPacketsAll, List.replicate_succ, runCalls, h, ok_bind, hall]
    exact ⟨rfl, hrun⟩

/-- AN OVERSIZED PAYLOAD STOPS THE STREAM FOR GOOD. `PacketWriter.Write` checks no bound, so a
peer using it can write a payload whose header, `uint32(len(data))`, is above `MaxPacketSize`.
Over any chunking, a reset reader answers the packets written before it, then
`ErrPacketTooLarge` at EVERY further call, however many: the frame's header stays first on the
stream, and no packet written after it is ever read. -/
theorem readPacketsAll_written_oversized (ht : t.Obeys rem chunked) (pr : PacketReader) (s : σ)
    {ps : List Packet} (hps : ∀ q ∈ ps, q.data.length ≤ maxPacketSize)
    (hp : maxPacketSize < p.data.length % 2 ^ 32) (hs : rem s = written (ps ++ p :: qs))
    (hfuel : (rem s).length < fuel) (n : Nat) :
    readPacketsAll t fuel (ps.length + n) pr.reset s =
        .ok (ps.map .ok ++ List.replicate n (.error .packetTooLarge)) ∧
      ∃ pr' s', runCalls t fuel (List.replicate (ps.length + n) .readPacket) pr.reset s =
        .ok (pr', s') ∧ pr'.pending ++ rem s' = written (p :: qs) :=
  readPacketsAll_written ht hp n ps pr.reset_valid (by rw [pr.reset_pending, List.nil_append, hs])
    (hs ▸ hfuel) hps

end Oversized

/-- A payload of `MaxPacketSize + 1` bytes between two small packets, handed over in `Read`
calls of at most 64 KiB each; two calls after the error. -/
theorem readPacketsAll_written_oversized_pieces :
    (pieces defaultBufSize false).Obeys id chunked ∧
    (∀ q ∈ [(⟨9, []⟩ : Packet)], q.data.length ≤ maxPacketSize) ∧
    maxPacketSize < (⟨0, make (maxPacketSize + 1)⟩ : Packet).data.length % 2 ^ 32 ∧
    id (written ([⟨9, []⟩] ++ [⟨0, make (maxPacketSize + 1)⟩, ⟨5, [1]⟩])) =
      written ([⟨9, []⟩] ++ [⟨0, make (maxPacketSize + 1)⟩, ⟨5, [1]⟩]) ∧
    (id (written ([⟨9, []⟩] ++ [⟨0, make (maxPacketSize + 1)⟩, ⟨5, [1]⟩]))).length < 2 ^ 26 ∧
    readPacketsAll (pieces defaultBufSize false) (2 ^ 26) ([(⟨9, []⟩ : Packet)].length + 2)
        newPacketReader.reset (written ([⟨9, []⟩] ++ [⟨0, make (maxPacketSize + 1)⟩, ⟨5, [1]⟩])) =
      .ok ([(⟨9, []⟩ : Packet)].map .ok ++ List.replicate 2 (.error .packetTooLarge)) ∧
    ∃ pr' s', runCalls (pieces defaultBufSize false) (2 ^ 26)
        (List.replicate ([(⟨9, []⟩ : Packet)].length + 2) .readPacket) newPacketReader.reset
        (written ([⟨9, []⟩] ++ [⟨0, make (maxPacketSize + 1)⟩, ⟨5, [1]⟩])) = .ok (pr', s') ∧
      pr'.pending ++ id s' = written [⟨0, make (maxPacketSize + 1)⟩, ⟨5, [1]⟩] := by
  -- the lengths are rewritten, never computed: the payload is a 16 MiB list
  have h : (⟨0, make (maxPacketSize + 1)⟩ : Packet).data.length = maxPacketSize + 1 :=
    List.length_replicate _ _
  have hps : ∀ q ∈ [(⟨9, []⟩ : Packet)], q.data.length ≤ maxPacketSize := by simp
  have hp : maxPacketSize < (⟨0, make (maxPacketSize + 1)⟩ : Packet).data.length % 2 ^ 32 := by
    rw [h]
    decide
  have hlen : (id (written ([⟨9, []⟩] ++
      [⟨0, make (maxPacketSize + 1)⟩, ⟨5, [1]⟩]))).length < 2 ^ 26 := by
    rw [id_eq, List.singleton_append, length_written_cons, length_written_cons, length_written_cons,
      h]
    decide
  exact ⟨pieces_obeys (by decide), hps, hp, id_eq _, hlen,
    readPacketsAll_written_oversized (pieces_obeys (by decide)) newPacketReader _ hps hp (id_eq _)
      hlen 2⟩

/-! ## Transient errors -/

section Retry

variable {σ : Type} (t : Transport σ)

variable {t} {rem : σ → List UInt8} {transient : GoError → Bool}

end Retry

end HyProxy.Protohytale
