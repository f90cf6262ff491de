import HyProxy.Go

/-!
# The QUIC DCID and the DCID tracker

`parseQUICDCID` reads the Destination Connection ID out of a QUIC long-header packet and
returns it hex-encoded, or `""` when the packet has none it can read: shorter than six bytes, a
short header, a zero length, or a length running past the packet. The terminator keys its
backend registry by that string.

The DCID tracker sits under the terminator's internal QUIC listener. Each datagram the listener
reads passes through `dcidTracker.ReadFrom`, which LATCHES the first DCID seen from each remote
address and never overwrites it; `GetDCID` reads the latch and `Delete` clears it. Nothing else
clears it: `cleanupLoop` is a placeholder that removes no entry.

## What is proved

- `parseQUICDCID_isSome`: no packet makes `parseQUICDCID` index or slice out of range;
- `parseQUICDCID_length`: a packet with a non-empty DCID is longer than six bytes, so the
  tracker's `n > 6` test never hides it;
- `parseQUICDCID_key_iff`: the hex keys identify the DCIDs, as `hex.EncodeToString` is
  injective (`encodeToString_injective`): two packets share a key exactly when they carry the
  same DCID bytes;
- `readFrom_load`: what `ReadFrom` leaves at each address: a new latch only at the datagram's
  own address, only when none was there, and only for a non-empty DCID;
- `tracker_first_write_wins`: over any sequence of `ReadFrom`, `Delete` and `GetDCID` calls,
  the tracker is the first-write-wins store `firstDcid` describes, from one step lemma per
  call (`TrackerCall.apply_spec`) and the run lemma `trackerRun_spec`.
-/

set_option autoImplicit false

namespace HyProxy.Handlers

open Go

/-! ## `parseQUICDCID` -/

/-- The lower-case hexadecimal digit of `n < 16`, as `encoding/hex` writes it. -/
def hexDigit (n : Nat) : Char := if n < 10 then Char.ofNat (48 + n) else Char.ofNat (87 + n)

/-- `hex.EncodeToString(src)`: two digits per byte, high nibble first. -/
def encodeToString (src : List UInt8) : String :=
  ⟨src.flatMap fun b => [hexDigit (b.toNat / 16), hexDigit (b.toNat % 16)]⟩

/-- `parseQUICDCID(packet)`: the hex DCID of a long-header packet, or `""`. -/
def parseQUICDCID (packet : List UInt8) : Option String :=
  if packet.length < 6 then some ""
  else do
    let b0 ← index packet 0
    if b0 &&& 0x80 = 0 then some ""
    else do
      let dcidLen := (← index packet 5).toNat
      if dcidLen = 0 ∨ packet.length < 6 + dcidLen then some ""
      else encodeToString <$> slice packet 6 (6 + dcidLen)

/-- `parseQUICDCID` never panics: `packet[0]` and `packet[5]` are behind the length check, and
the slice behind `len(packet) < 6+dcidLen`. -/
theorem parseQUICDCID_isSome (packet : List UInt8) : (parseQUICDCID packet).isSome := by
  unfold parseQUICDCID
  split
  · rfl
  · rw [index_of_lt (by omega), Option.bind_eq_bind, Option.some_bind]
    split
    · rfl
    · rw [index_of_lt (by omega), Option.some_bind]
      dsimp only
      split
      · rfl
      · rw [slice_of_le (by omega) (by omega)]; rfl

/-- A non-empty DCID comes from a packet of more than six bytes. -/
theorem parseQUICDCID_length {packet : List UInt8} {d : String}
    (h : parseQUICDCID packet = some d) (hd : d ≠ "") : 6 < packet.length := by
  unfold parseQUICDCID at h
  split at h
  · cases h; exact absurd rfl hd
  · rw [index_of_lt (by omega), Option.bind_eq_bind, Option.some_bind] at h
    split at h
    · cases h; exact absurd rfl hd
    · rw [index_of_lt (by omega), Option.some_bind] at h
      dsimp only at h
      split at h
      · cases h; exact absurd rfl hd
      · omega

/-! ## The keys identify the DCIDs -/

/-- The Destination Connection ID of a long-header packet as the QUIC header lays it out: the
bytes after the length byte at offset 5, as many as it says. -/
def dcidBytes (packet : List UInt8) : List UInt8 := (packet.drop 6).take (packet.getD 5 0).toNat

theorem toNat_charOfNat {m : Nat} (h : m < 0xd800) : (Char.ofNat m).toNat = m := by
  rw [Char.ofNat, dif_pos (Or.inl h)]; rfl

theorem hexDigit_toNat {n : Nat} (h : n < 16) :
    (hexDigit n).toNat = if n < 10 then 48 + n else 87 + n := by
  unfold hexDigit
  split <;> exact toNat_charOfNat (by omega)

/-- Sixteen distinct digits: `0`-`9` and `a`-`f`. -/
theorem hexDigit_inj {a b : Nat} (ha : a < 16) (hb : b < 16) (h : hexDigit a = hexDigit b) :
    a = b := by
  have := congrArg Char.toNat h
  rw [hexDigit_toNat ha, hexDigit_toNat hb] at this
  split_ifs at this <;> omega

/-- A byte's two digits give the byte back. -/
theorem hexPair_inj {a b : UInt8}
    (h : [hexDigit (a.toNat / 16), hexDigit (a.toNat % 16)] =
      [hexDigit (b.toNat / 16), hexDigit (b.toNat % 16)]) : a = b := by
  have ha : a.toNat < 256 := a.toNat_lt_size
  have hb : b.toNat < 256 := b.toNat_lt_size
  simp only [List.cons.injEq, and_true] at h
  have hhi := hexDigit_inj (by omega) (by omega) h.1
  have hlo := hexDigit_inj (by omega) (by omega) h.2
  exact UInt8.toNat.inj (by omega)

/-- `hex.EncodeToString` loses nothing: two byte strings with the same encoding are equal. -/
theorem encodeToString_injective : Function.Injective encodeToString := by
  intro x y h
  replace h := congrArg String.data h
  simp only [encodeToString] at h
  induction x generalizing y with
  | nil => cases y with
    | nil => rfl
    | cons b ys => simp at h
  | cons a xs ih => cases y with
    | nil => simp at h
    | cons b ys =>
      rw [List.flatMap_cons, List.flatMap_cons] at h
      obtain ⟨hab, hrest⟩ := List.append_inj h rfl
      rw [hexPair_inj hab, ih hrest]

/-- A non-empty key is the encoding of the packet's DCID. -/
theorem parseQUICDCID_eq_encode {packet : List UInt8} {d : String}
    (h : parseQUICDCID packet = some d) (hd : d ≠ "") : d = encodeToString (dcidBytes packet) := by
  unfold parseQUICDCID at h
  split at h
  · cases h; exact absurd rfl hd
  · rw [index_of_lt (by omega), Option.bind_eq_bind, Option.some_bind] at h
    split at h
    · cases h; exact absurd rfl hd
    · rw [index_of_lt (by omega), Option.some_bind] at h
      dsimp only at h
      split at h
      · cases h; exact absurd rfl hd
      · rw [slice_of_le (by omega) (by omega), Option.map_eq_map, Option.map_some'] at h
        rw [← Option.some.inj h, dcidBytes, List.getD_eq_getElem _ _ (by omega), List.drop_take,
          Nat.add_sub_cancel_left]

/-- THE REGISTRY'S KEYS IDENTIFY THE DCIDs: two packets from which `parseQUICDCID` reads a
non-empty key get the same key exactly when they carry the same Destination Connection ID. -/
theorem parseQUICDCID_key_iff {p q : List UInt8} {d e : String} (hp : parseQUICDCID p = some d)
    (hq : parseQUICDCID q = some e) (hd : d ≠ "") (he : e ≠ "") :
    d = e ↔ dcidBytes p = dcidBytes q := by
  rw [parseQUICDCID_eq_encode hp hd, parseQUICDCID_eq_encode hq he]
  exact encodeToString_injective.eq_iff

/-- The same DCID `ab cd` in two different packets. -/
theorem parseQUICDCID_key_iff_abcd :
    parseQUICDCID [0xC0, 0, 0, 0, 1, 2, 0xAB, 0xCD] = some "abcd" ∧
    parseQUICDCID [0xC0, 0, 0, 0, 1, 2, 0xAB, 0xCD, 0, 0x45] = some "abcd" ∧ "abcd" ≠ "" ∧
    ("abcd" = "abcd" ↔ dcidBytes [0xC0, 0, 0, 0, 1, 2, 0xAB, 0xCD] =
      dcidBytes [0xC0, 0, 0, 0, 1, 2, 0xAB, 0xCD, 0, 0x45]) :=
  ⟨by decide, by decide, by decide, parseQUICDCID_key_iff (by decide) (by decide) (by decide) (by decide)⟩

/-! ## The tracker -/

/-- `dcidTracker.ReadFrom`, once the wrapped connection's `ReadFrom` returned the datagram `p`
(its `n` bytes, so `p[:n]` is `p`) from `addr` with no error: the tracker's map afterwards. -/
def readFrom (byAddr : StrMap) (addr : String) (p : List UInt8) : Option StrMap :=
  if p.length > 6 then do
    let dcid ← parseQUICDCID p
    if dcid ≠ "" then
      match byAddr.load addr with
      | some _ => some byAddr
      | none => some (byAddr.store addr dcid)
    else some byAddr
  else some byAddr

/-- `dcidTracker.GetDCID(addr)`: the latched DCID, or `""`. -/
def getDCID (byAddr : StrMap) (addr : String) : String := (byAddr.load addr).getD ""

/-- What `ReadFrom` does, for every datagram: it never panics, and it sets the entry of the
datagram's address to the datagram's DCID when that entry was empty and the DCID is not; every
other entry, and a set one, stays. -/
theorem readFrom_load (byAddr : StrMap) (addr : String) (p : List UInt8) :
    ∃ d, parseQUICDCID p = some d ∧ ∃ m, readFrom byAddr addr p = some m ∧ ∀ a,
      m.load a = if a = addr ∧ byAddr.load addr = none ∧ d ≠ "" then some d else byAddr.load a := by
  obtain ⟨d, hd⟩ := Option.isSome_iff_exists.mp (parseQUICDCID_isSome p)
  refine ⟨d, hd, ?_⟩
  unfold readFrom
  by_cases hne : d = ""
  · subst hne
    refine ⟨byAddr, ?_, fun a => by simp⟩
    split <;> simp [hd]
  · rw [if_pos (parseQUICDCID_length hd hne), Option.bind_eq_bind, hd, Option.some_bind,
      if_pos hne]
    cases hl : byAddr.load addr with
    | some v => exact ⟨byAddr, rfl, fun a => by simp⟩
    | none =>
      refine ⟨_, rfl, fun a => ?_⟩
      by_cases ha : a = addr
      · subst ha; simp [hne, hl]
      · simp [ha]

/-! ## The tracker as a store -/

/-- `dcidTracker.Delete(addr)`. -/
def delete (byAddr : StrMap) (addr : String) : StrMap := byAddr.delete addr

/-- A call on the tracker, each atomic under `t.mu`: `ReadFrom` returning the datagram `p` from
`addr` with no error, `Delete(addr)`, or `GetDCID(addr)`. -/
inductive TrackerCall
  | readFrom (addr : String) (p : List UInt8)
  | delete (addr : String)
  | getDCID (addr : String)
  deriving DecidableEq

/-- One call: the map afterwards, and what `GetDCID` answered. -/
def TrackerCall.apply (byAddr : StrMap) : TrackerCall → Option (StrMap × List String)
  | .readFrom addr p => (fun m => (m, [])) <$> Handlers.readFrom byAddr addr p
  | .delete addr => some (Handlers.delete byAddr addr, [])
  | .getDCID addr => some (byAddr, [Handlers.getDCID byAddr addr])

/-- A sequence of calls: the map afterwards, and the answers of its `GetDCID` calls, in order. -/
def trackerRun (byAddr : StrMap) : List TrackerCall → Option (StrMap × List String)
  | [] => some (byAddr, [])
  | c :: cs => do
    let (m, out) ← c.apply byAddr
    let (m, outs) ← trackerRun m cs
    some (m, out ++ outs)

/-! ## What the tracker is for -/

/-- The calls after the last `Delete(a)`, or all of them when there is none. -/
def sinceDelete (a : String) (calls : List TrackerCall) : List TrackerCall :=
  (calls.reverse.takeWhile (fun c => c != .delete a)).reverse

/-- The DCID a call latches at `a`: that of a datagram from `a`, when it is not empty. -/
def TrackerCall.dcidAt (a : String) : TrackerCall → Option String
  | .readFrom addr p => if addr = a then (parseQUICDCID p).filter (fun d => d != "") else none
  | _ => none

/-- FIRST WRITE WINS: the DCID of the first datagram from `a` with a non-empty DCID since the
last `Delete(a)`, if there is one. -/
def firstDcid (a : String) (calls : List TrackerCall) : Option String :=
  (sinceDelete a calls).findSome? (TrackerCall.dcidAt a)

/-- What the `GetDCID` calls of `calls` must answer, after the calls `hist`. -/
def expectedAnswers (hist : List TrackerCall) : List TrackerCall → List String
  | [] => []
  | c :: cs =>
    (match c with
      | .getDCID a => [(firstDcid a hist).getD ""]
      | _ => []) ++ expectedAnswers (hist ++ [c]) cs

theorem firstDcid_append (a : String) (calls : List TrackerCall) (c : TrackerCall) :
    firstDcid a (calls ++ [c]) =
      if c = .delete a then none else (firstDcid a calls).or (c.dcidAt a) := by
  unfold firstDcid sinceDelete
  rw [List.reverse_append, List.reverse_singleton, List.singleton_append, List.takeWhile_cons]
  by_cases hc : c = .delete a
  · simp [hc]
  · rw [if_pos (by simpa using hc), if_neg hc, List.reverse_cons, List.findSome?_append]
    simp only [List.findSome?_cons, List.findSome?_nil]
    cases c.dcidAt a <;> rfl

/-- One call keeps the map equal to the store the spec describes. -/
theorem TrackerCall.apply_spec {m : StrMap} {hist : List TrackerCall}
    (hm : ∀ a, m.load a = firstDcid a hist) (c : TrackerCall) :
    ∃ m', c.apply m = some (m', match c with
        | .getDCID a => [(firstDcid a hist).getD ""]
        | _ => []) ∧
      ∀ a, m'.load a = firstDcid a (hist ++ [c]) := by
  cases c with
  | readFrom addr p =>
    obtain ⟨d, hd, m', hr, hload⟩ := readFrom_load m addr p
    refine ⟨m', by simp [TrackerCall.apply, hr], fun a => ?_⟩
    rw [hload, firstDcid_append, if_neg (show ¬TrackerCall.readFrom addr p = .delete a from nofun),
      ← hm]
    by_cases ha : a = addr
    · subst ha
      cases hma : m.load a <;> by_cases hne : d = "" <;>
        simp [hma, hne, TrackerCall.dcidAt, hd, Option.filter]
    · simp [ha, TrackerCall.dcidAt, Ne.symm ha]
  | delete addr =>
    refine ⟨_, rfl, fun a => ?_⟩
    rw [firstDcid_append]
    by_cases ha : a = addr
    · subst ha; simp [Handlers.delete]
    · simp [Handlers.delete, ha, hm, TrackerCall.dcidAt, Ne.symm ha]
  | getDCID addr =>
    refine ⟨m, by simp [TrackerCall.apply, Handlers.getDCID, hm], fun a => ?_⟩
    simp [firstDcid_append, hm, TrackerCall.dcidAt]

/-- The RUN LEMMA: from a map that is the store of the calls `hist`, any further calls answer
what the spec says and leave the store of all the calls. -/
theorem trackerRun_spec :
    ∀ (calls : List TrackerCall) {m : StrMap} {hist : List TrackerCall},
      (∀ a, m.load a = firstDcid a hist) →
      ∃ m', trackerRun m calls = some (m', expectedAnswers hist calls) ∧
        ∀ a, m'.load a = firstDcid a (hist ++ calls)
  | [], m, hist, hm => ⟨m, rfl, by simpa using hm⟩
  | c :: cs, m, hist, hm => by
    obtain ⟨m1, h1, hm1⟩ := c.apply_spec hm
    obtain ⟨m2, h2, hm2⟩ := trackerRun_spec cs hm1
    refine ⟨m2, by simp [trackerRun, h1, h2, expectedAnswers], by simpa using hm2⟩

/-- THE TRACKER IS A FIRST-WRITE-WINS STORE: over any sequence of calls from a new tracker,
every `GetDCID(a)` answers the DCID of the first datagram from `a` with a non-empty DCID since
the last `Delete(a)`, and `""` when there is none; so does the map at the end; and a later
datagram from `a` never changes a latched answer. -/
theorem tracker_first_write_wins (calls : List TrackerCall) :
    ∃ m, trackerRun StrMap.empty calls = some (m, expectedAnswers [] calls) ∧
      (∀ a, getDCID m a = (firstDcid a calls).getD "") ∧
      ∀ a p d, firstDcid a calls = some d → firstDcid a (calls ++ [.readFrom a p]) = some d := by
  obtain ⟨m, hrun, hm⟩ := trackerRun_spec calls
    (show ∀ a, StrMap.empty.load a = firstDcid a [] by simp [firstDcid, sinceDelete])
  refine ⟨m, hrun, fun a => by simp [getDCID, hm], fun a p d hd => ?_⟩
  rw [firstDcid_append, if_neg nofun, hd]
  rfl

end HyProxy.Handlers
