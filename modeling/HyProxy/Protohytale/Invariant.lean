import HyProxy.Protohytale.Reader

/-!
# The reader's own invariants

`Reader.lean` relates the reader to the stream it reads, under rules on what the transport
holds. This module asks less of the transport: only the contract of `io.Reader`, that `Read(p)`
writes `0 ≤ k ≤ len(p)` bytes (`Transport.Bounded`). That is the hypothesis the representation
invariant `offset ≤ buffered ≤ len(buf)` rests on: a `Read` that claims more bytes than `p` holds
pushes `buffered` past the buffer, and the next `pr.buf[pr.buffered:]` panics.

## What is proved

- `fill_bounded`, `ensureBytes_bounded`, `readPacket_bounded`: from a valid state each either runs
  out of fuel or returns a valid state, so no slice of `ensureBytes`, `ReadPacket` or
  `ReadPacketNoCopy` is out of range; `ensureBytes(n)` leaves `n` bytes on success; and when every
  `Read` hands over a byte or an error (`Transport.Progress`), fuel past `n - (buffered - offset)`
  is enough for `ensureBytes(n)`, so past `HeaderSize + MaxPacketSize` for `ReadPacket`;
- `readPacketNoCopy_eq`, `readPacketNoCopy_agrees`: the no-copy path is the copying one, with the
  packet taken apart: the same id, bytes and error, and the same reader and transport after it;
- `reader_invariant`: over any sequence of `ReadPacket`, `ReadPacketNoCopy` and `Reset` calls on a
  new reader, the invariant holds after every call and every turn of the read loop.

The buffer's SIZE is not bounded by these: `ensureBytes_bounded` says exactly what it becomes
(`grownSize`), and `Refinement.lean` shows it passing `HeaderSize + MaxPacketSize`.
-/

set_option autoImplicit false

namespace HyProxy.Protohytale

open Go

/-! ## What the transport promises -/

section Contract

variable {σ : Type}

/-- The contract of `io.Reader`: `Read(p)` writes at most `len(p)` bytes into `p`. Only calls with
a non-empty `p` are constrained, as `ensureBytes` makes no other. -/
def Transport.Bounded (t : Transport σ) : Prop :=
  ∀ s m, 0 < m → (t.read s m).1.data.length ≤ m

/-- Every `Read(p)` with a non-empty `p` hands over a byte or answers an error. -/
def Transport.Progress (t : Transport σ) : Prop :=
  ∀ s m, 0 < m → (t.read s m).1.data ≠ [] ∨ (t.read s m).1.err ≠ none

/-- A transport that hands over only the bytes it holds keeps the contract. -/
theorem Transport.Obeys.bounded {t : Transport σ} {rem : σ → List UInt8} {rule : ReadRule}
    (ht : t.Obeys rem rule) (hd : rule.Delivers) : t.Bounded :=
  fun s m hm => (hd _ _ _ _ (ht s m hm)).1

end Contract

/-! ## The buffer's size -/

/-- The size `ensureBytes(n)` leaves a buffer of `len` bytes: `newSize` when `n > len(pr.buf)`. -/
def grownSize (n len : Nat) : Nat :=
  if n > len then (if len * 2 < n then n else len * 2) else len

theorem grownSize_of_le {n len : Nat} (h : n ≤ len) : grownSize n len = len :=
  if_neg (Nat.not_lt.mpr h)

theorem PacketReader.length_afterRead {pr : PacketReader} (hb : pr.buffered ≤ pr.buf.length)
    (d : List UInt8) : (pr.afterRead d).buf.length = pr.buf.length :=
  length_copyAt _ _ hb

/-- Growth makes the buffer `grownSize n` long. -/
theorem grow_length {n : Nat} {pr pr' : PacketReader} (h : pr.grow n = pure pr') :
    pr'.buf.length = grownSize n pr.buf.length := by
  unfold PacketReader.grow at h
  split at h
  · rename_i hn
    cases hs : slice pr.buf 0 pr.buffered with
    | none => rw [hs] at h; cases h
    | some src =>
      rw [hs, orPanic_some, pure_bind] at h
      cases h
      rw [length_copyAt _ _ (Nat.zero_le _), grownSize, if_pos hn]
      simp only [make, List.length_replicate]
  · cases h
    exact (grownSize_of_le (by omega)).symm

/-! ## The read loop under the contract -/

section Loop

variable {σ : Type} {t : Transport σ}

/-- One turn of the read loop keeps the invariant: a bounded `Read` into a non-empty
`buf[buffered:]` fits in it. -/
theorem afterRead_valid (ht : t.Bounded) {pr : PacketReader} (hv : pr.Valid)
    (hlt : pr.buffered < pr.buf.length) (s : σ) :
    (pr.afterRead (t.read s (pr.buf.drop pr.buffered).length).1.data).Valid := by
  have hm := List.length_drop pr.buffered pr.buf
  have hk := ht s (pr.buf.drop pr.buffered).length (by omega)
  have ho := hv.offset_le
  constructor
  · simp only [PacketReader.afterRead_offset, PacketReader.afterRead_buffered]; omega
  · rw [PacketReader.length_afterRead hv.buffered_le, PacketReader.afterRead_buffered]; omega

/-- The read loop under the contract of `io.Reader`: it runs out of fuel, which takes no more
turns than bytes are missing when every `Read` makes progress, or it returns a valid state of the
same buffer and offset, with `n` bytes buffered unless a `Read` failed. -/
theorem fill_bounded (ht : t.Bounded) {n : Nat} :
    ∀ (fuel : Nat) {pr : PacketReader} {s : σ}, pr.Valid → n ≤ pr.buf.length →
      (fill t n fuel pr s = .error .fuel ∧ (t.Progress → fuel ≤ n - pr.buffered)) ∨
      ∃ pr' s' e, fill t n fuel pr s = .ok (pr', s', e) ∧ pr'.Valid ∧ pr'.offset = pr.offset ∧
        pr'.buf.length = pr.buf.length ∧ (e = none → n ≤ pr'.buffered)
  | 0, _, _, _, _ => .inl ⟨rfl, fun _ => Nat.zero_le _⟩
  | fuel + 1, pr, s, hv, hn => by
    by_cases hlt : pr.buffered < n
    · rcases hr : t.read s (pr.buf.drop pr.buffered).length with ⟨r, s1⟩
      have hv' : (pr.afterRead r.data).Valid := by
        simpa only [hr] using afterRead_valid ht hv (by omega) s
      have hlen := PacketReader.length_afterRead hv.buffered_le r.data
      rw [fill_succ hlt hv.buffered_le hr]
      cases herr : r.err with
      | some e => exact .inr ⟨_, _, _, rfl, hv', rfl, hlen, nofun⟩
      | none =>
        rcases fill_bounded ht (n := n) fuel (s := s1) hv' (by rw [hlen]; exact hn) with
          ⟨hf, hp⟩ | ⟨pr', s', e, hf, hv'', ho, hl, hne⟩
        · -- out of fuel: a `Read` with progress handed over a byte
          refine .inl ⟨hf, fun hprog => ?_⟩
          have hm : 0 < (pr.buf.drop pr.buffered).length := by
            simp only [List.length_drop]; omega
          have hgot := hprog s _ hm
          rw [hr] at hgot
          have : 0 < r.data.length := List.length_pos.mpr (hgot.resolve_right (· herr))
          have := hp hprog
          simp only [PacketReader.afterRead_buffered] at this
          omega
        · exact .inr ⟨pr', s', e, hf, hv'', ho, hl.trans hlen, hne⟩
    · exact .inr ⟨pr, s, none, by simp only [fill, if_neg hlt]; rfl, hv, rfl, rfl,
        fun _ => by omega⟩

/-- `ensureBytes(n)` under the contract of `io.Reader`: it runs out of fuel, which under progress
takes no more turns than bytes are missing, or returns a valid state with a buffer of
`grownSize n` bytes and, unless a `Read` failed, `n` bytes available. -/
theorem ensureBytes_bounded (ht : t.Bounded) (n fuel : Nat) {pr : PacketReader} {s : σ}
    (hv : pr.Valid) :
    (ensureBytes t n fuel pr s = .error .fuel ∧
        (t.Progress → fuel ≤ n - (pr.buffered - pr.offset))) ∨
      ∃ pr' s' e, ensureBytes t n fuel pr s = .ok (pr', s', e) ∧ pr'.Valid ∧
        pr'.buf.length = grownSize n pr.buf.length ∧ (e = none → n ≤ pr'.buffered - pr'.offset) := by
  unfold ensureBytes
  split
  · rename_i hn
    exact .inr ⟨pr, s, none, rfl, hv, (grownSize_of_le (by have := hv.buffered_le; omega)).symm,
      fun _ => hn⟩
  · obtain ⟨pc, hc, hc0, hcl, hcb, hcp⟩ := compact_spec hv
    obtain ⟨pg, hg, hg0, hgn, hgb, hgp⟩ := grow_spec n hc0 hcb
    -- compaction and growth keep the available bytes, now from offset zero
    have hbuf : pg.buffered = pr.buffered - pr.offset := by
      rw [← pr.length_pending hv, ← hcp, ← hgp, pg.length_pending ⟨by omega, hgb⟩, hg0, Nat.sub_zero]
    rw [hc, pure_bind, hg, pure_bind]
    rcases fill_bounded ht fuel (s := s) ⟨by omega, hgb⟩ hgn with
      ⟨hf, hp⟩ | ⟨pr', s', e, hf, hv', ho, hl, hne⟩
    · exact .inl ⟨hf, fun hprog => by have := hp hprog; omega⟩
    · exact .inr ⟨pr', s', e, hf, hv', by rw [hl, grow_length hg, hcl], fun he => by
        have := hne he; omega⟩

/-- What a returning `ensureBytes(n)` leaves under the contract of `io.Reader`. -/
theorem ensureBytes_ok (ht : t.Bounded) {n fuel : Nat} {pr pr' : PacketReader} {s s' : σ}
    {e : Option GoError} (hv : pr.Valid) (h : ensureBytes t n fuel pr s = .ok (pr', s', e)) :
    pr'.Valid ∧ pr'.buf.length = grownSize n pr.buf.length ∧
      (e = none → n ≤ pr'.buffered - pr'.offset) := by
  rcases ensureBytes_bounded ht n fuel (s := s) hv with
    ⟨hf, -⟩ | ⟨pr'', s'', e', hok, hrest⟩
  · rw [hf] at h; cases h
  · rw [hok] at h
    cases h
    exact hrest

/-- `ReadPacket` under the contract of `io.Reader`: from a valid state it runs out of fuel, which
under progress takes fuel no larger than a whole frame, or it returns a valid state. Every slice it
takes is in range, for every header a peer can send. -/
theorem readPacket_bounded (ht : t.Bounded) (fuel : Nat) {pr : PacketReader} {s : σ}
    (hv : pr.Valid) :
    (readPacket t fuel pr s = .error .fuel ∧ (t.Progress → fuel ≤ headerSize + maxPacketSize)) ∨
      ∃ res pr' s', readPacket t fuel pr s = .ok (res, pr', s') ∧ pr'.Valid := by
  rcases ensureBytes_bounded ht headerSize fuel (s := s) hv with
    ⟨h1, hp1⟩ | ⟨pr1, s1, e1, h1, hv1, -, hn1⟩ <;> simp only [readPacket, h1, ok_bind]
  · exact .inl ⟨rfl, fun hp => by have := hp1 hp; omega⟩
  rcases e1 with _ | e
  · -- the header is there: both words of it are in range
    have hlen : pr1.pending.length = pr1.buffered - pr1.offset := pr1.length_pending hv1
    have h8 : 8 ≤ pr1.buffered - pr1.offset := hn1 rfl
    obtain ⟨v, hv0, -⟩ := uint32LE_window hv1 (k := 0) (i := pr1.offset) rfl (by omega) []
    obtain ⟨w, hw0, -⟩ := uint32LE_window hv1 (k := 4) rfl (by omega) []
    simp only [hv0, hw0, orPanic_some, pure_bind]
    by_cases hbig : v.toNat > maxPacketSize
    · exact .inr ⟨_, _, _, by rw [if_pos hbig]; rfl, hv1⟩
    rw [if_neg hbig]
    rcases ensureBytes_bounded ht (headerSize + v.toNat) fuel (s := s1) hv1 with
      ⟨h2, hp2⟩ | ⟨pr2, s2, e2, h2, hv2, -, hn2⟩ <;> simp only [h2, ok_bind]
    · exact .inl ⟨rfl, fun hp => by have := hp2 hp; omega⟩
    rcases e2 with _ | e
    · -- the whole frame is there: the payload's slice is in range
      have hn : headerSize + v.toNat ≤ pr2.buffered - pr2.offset := hn2 rfl
      have ho := hv2.offset_le
      have hb := hv2.buffered_le
      rw [slice_of_le (by omega) (by omega), orPanic_some, pure_bind]
      exact .inr ⟨_, _, _, rfl, ⟨by simp only; omega, hv2.buffered_le⟩⟩
    · exact .inr ⟨_, _, _, rfl, hv2⟩
  · exact .inr ⟨_, _, _, rfl, hv1⟩

end Loop

/-! ## The no-copy path -/

/-- What `ReadPacketNoCopy` answers where `ReadPacket` answers `r`: the packet's id and bytes, or
`0, nil` and the same error. -/
def noCopyResult : Except GoError Packet → UInt32 × List UInt8 × Option GoError
  | .ok p => (p.id, p.data, none)
  | .error e => (0, [], some e)

/-- `ReadPacketNoCopy` is `ReadPacket` with the packet taken apart: the two run the same steps, and
copying the payload slice into `make([]byte, length)` gives back the slice's bytes. -/
theorem readPacketNoCopy_eq {σ : Type} (t : Transport σ) (fuel : Nat) (pr : PacketReader) (s : σ) :
    readPacketNoCopy t fuel pr s =
      (fun r : Except GoError Packet × PacketReader × σ => (noCopyResult r.1, r.2)) <$>
        readPacket t fuel pr s := by
  unfold readPacketNoCopy readPacket
  rcases ensureBytes t headerSize fuel pr s with h | ⟨pr1, s1, _ | e⟩
  · rfl
  · simp only [ok_bind]
    rcases sliceFrom pr1.buf pr1.offset >>= uint32LE with _ | v
    · rfl
    rcases sliceFrom pr1.buf (pr1.offset + 4) >>= uint32LE with _ | w
    · rfl
    simp only [orPanic_some, pure_bind]
    split
    · rfl
    rcases ensureBytes t (headerSize + v.toNat) fuel pr1 s1 with h | ⟨pr2, s2, _ | e⟩
    · rfl
    · simp only [ok_bind]
      cases hsl : slice pr2.buf (pr2.offset + headerSize) (pr2.offset + (headerSize + v.toNat)) with
      | none => rfl
      | some src =>
        simp only [orPanic_some, pure_bind]
        rw [copyAt_make (by rw [length_of_slice hsl]; omega)]
        rfl
    · rfl
  · rfl

/-- THE NO-COPY PATH AGREES WITH THE COPYING ONE: from every state and over every transport,
`ReadPacketNoCopy` halts exactly when `ReadPacket` does, and otherwise answers the same packet id,
the same payload bytes and the same error, and leaves the reader (buffer, `buffered`, `offset`) and
the transport in the same state. -/
theorem readPacketNoCopy_agrees {σ : Type} (t : Transport σ) (fuel : Nat) (pr : PacketReader)
    (s : σ) :
    (∀ h : Halt, readPacketNoCopy t fuel pr s = .error h ↔ readPacket t fuel pr s = .error h) ∧
    ∀ res pr' s', readPacket t fuel pr s = .ok (res, pr', s') →
      readPacketNoCopy t fuel pr s = .ok (noCopyResult res, pr', s') := by
  rw [readPacketNoCopy_eq]
  rcases readPacket t fuel pr s with h | ⟨res, pr', s'⟩
  · exact ⟨fun _ => by simp only [Except.map_error, Except.error.injEq], nofun⟩
  · exact ⟨fun _ => ⟨nofun, nofun⟩, fun _ _ _ h => by cases h; rfl⟩

/-! ## Runs of calls -/

section Run

variable {σ : Type} (t : Transport σ)

/-- A call on a reader: `ReadPacket()`, `ReadPacketNoCopy()`, or `Reset(r)` with an underlying
reader in state `s`. -/
inductive ReaderCall (σ : Type)
  | readPacket
  | readPacketNoCopy
  | reset (s : σ)

/-- The reader and the transport after a sequence of calls; the answers are dropped. -/
def runCalls (fuel : Nat) : List (ReaderCall σ) → PacketReader → σ → Except Halt (PacketReader × σ)
  | [], pr, s => pure (pr, s)
  | .readPacket :: calls, pr, s => do
    let (_, pr, s) ← readPacket t fuel pr s
    runCalls fuel calls pr s
  | .readPacketNoCopy :: calls, pr, s => do
    let (_, pr, s) ← readPacketNoCopy t fuel pr s
    runCalls fuel calls pr s
  | .reset s :: calls, pr, _ => runCalls fuel calls pr.reset s

variable {t}

/-- The run lemma: from a valid state, any sequence of calls runs out of fuel, which under
progress needs fuel no larger than a whole frame, or ends in a valid state. -/
theorem runCalls_bounded (ht : t.Bounded) {fuel : Nat} :
    ∀ (calls : List (ReaderCall σ)) {pr : PacketReader} {s : σ}, pr.Valid →
      (runCalls t fuel calls pr s = .error .fuel ∧
          (t.Progress → fuel ≤ headerSize + maxPacketSize)) ∨
        ∃ pr' s', runCalls t fuel calls pr s = .ok (pr', s') ∧ pr'.Valid
  | [], pr, s, hv => .inr ⟨pr, s, rfl, hv⟩
  | .readPacket :: calls, pr, s, hv => by
    rcases readPacket_bounded ht fuel (s := s) hv with ⟨h, hp⟩ | ⟨res, pr1, s1, h, hv1⟩
    · exact .inl ⟨by simp only [runCalls, h]; rfl, hp⟩
    · simpa only [runCalls, h, ok_bind] using runCalls_bounded ht calls hv1
  | .readPacketNoCopy :: calls, pr, s, hv => by
    rcases readPacket_bounded ht fuel (s := s) hv with ⟨h, hp⟩ | ⟨res, pr1, s1, h, hv1⟩
    · exact .inl ⟨by simp only [runCalls, readPacketNoCopy_eq, h]; rfl, hp⟩
    · simpa only [runCalls, readPacketNoCopy_eq, h, Except.map_ok, ok_bind] using
        runCalls_bounded ht calls hv1
  | .reset s' :: calls, pr, _, _ => runCalls_bounded ht calls pr.reset_valid

/-- THE READER'S REPRESENTATION INVARIANT. Over a transport keeping the contract of `io.Reader`:
any sequence of `ReadPacket`, `ReadPacketNoCopy` and `Reset` calls on a reader from
`NewPacketReader` or `NewPacketReaderSize` keeps `offset ≤ buffered ≤ len(buf)` and takes no slice
out of range, stopping, if at all, for fuel only; every turn of `ensureBytes`'s read loop keeps the
invariant; `ensureBytes(n)` keeps it and on success leaves `n` bytes available; and when every
`Read` hands over a byte or an error, its loop ends within `n - (buffered - offset)` turns. -/
theorem reader_invariant (ht : t.Bounded) :
    (∀ (size : Int) (fuel : Nat) (calls : List (ReaderCall σ)) (s : σ),
      ∀ pr ∈ [newPacketReader, newPacketReaderSize size],
        (runCalls t fuel calls pr s = .error .fuel ∧
            (t.Progress → fuel ≤ headerSize + maxPacketSize)) ∨
          ∃ pr' s', runCalls t fuel calls pr s = .ok (pr', s') ∧ pr'.Valid) ∧
    (∀ (pr : PacketReader) (s : σ), pr.Valid → pr.buffered < pr.buf.length →
      (pr.afterRead (t.read s (pr.buf.drop pr.buffered).length).1.data).Valid) ∧
    (∀ (n fuel : Nat) (pr pr' : PacketReader) (s s' : σ) (e : Option GoError), pr.Valid →
      ensureBytes t n fuel pr s = .ok (pr', s', e) →
        pr'.Valid ∧ (e = none → n ≤ pr'.buffered - pr'.offset)) ∧
    (t.Progress → ∀ (n fuel : Nat) (pr : PacketReader) (s : σ), pr.Valid →
      n - (pr.buffered - pr.offset) < fuel →
        ∃ pr' s' e, ensureBytes t n fuel pr s = .ok (pr', s', e)) := by
  refine ⟨fun size fuel calls s pr hpr => runCalls_bounded ht calls ?_,
    fun pr s hv hlt => afterRead_valid ht hv hlt s, fun n fuel pr pr' s s' e hv h => ?_,
    fun hp n fuel pr s hv hfuel => ?_⟩
  · -- a new reader is a reset one
    simp only [List.mem_cons, List.mem_singleton, List.not_mem_nil, or_false] at hpr
    rcases hpr with rfl | rfl
    · exact PacketReader.reset_valid newPacketReader
    · exact PacketReader.reset_valid (newPacketReaderSize size)
  · obtain ⟨hv', -, hn⟩ := ensureBytes_ok ht hv h
    exact ⟨hv', hn⟩
  · rcases ensureBytes_bounded ht n fuel (s := s) hv with
      ⟨-, hf⟩ | ⟨pr', s', e, hok, -⟩
    · have := hf hp; omega
    · exact ⟨pr', s', e, hok⟩

end Run

/-- A transport cutting the stream into 3-byte pieces keeps the contract of `io.Reader`. -/
theorem reader_invariant_pieces :
    (pieces 3 false).Bounded ∧
    (∀ (size : Int) (fuel : Nat) (calls : List (ReaderCall (List UInt8))) (s : List UInt8),
      ∀ pr ∈ [newPacketReader, newPacketReaderSize size],
        (runCalls (pieces 3 false) fuel calls pr s = .error .fuel ∧
            ((pieces 3 false).Progress → fuel ≤ headerSize + maxPacketSize)) ∨
          ∃ pr' s', runCalls (pieces 3 false) fuel calls pr s = .ok (pr', s') ∧ pr'.Valid) ∧
    (∀ (pr : PacketReader) (s : List UInt8), pr.Valid → pr.buffered < pr.buf.length →
      (pr.afterRead ((pieces 3 false).read s (pr.buf.drop pr.buffered).length).1.data).Valid) ∧
    (∀ (n fuel : Nat) (pr pr' : PacketReader) (s s' : List UInt8) (e : Option GoError), pr.Valid →
      ensureBytes (pieces 3 false) n fuel pr s = .ok (pr', s', e) →
        pr'.Valid ∧ (e = none → n ≤ pr'.buffered - pr'.offset)) ∧
    ((pieces 3 false).Progress → ∀ (n fuel : Nat) (pr : PacketReader) (s : List UInt8), pr.Valid →
      n - (pr.buffered - pr.offset) < fuel →
        ∃ pr' s' e, ensureBytes (pieces 3 false) n fuel pr s = .ok (pr', s', e)) :=
  ⟨(pieces_obeys (by decide)).bounded chunked_delivers,
    reader_invariant ((pieces_obeys (by decide)).bounded chunked_delivers)⟩

end HyProxy.Protohytale
