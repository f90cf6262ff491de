import HyProxy.Protohytale.Codec
import HyProxy.Protohytale.Packet

/-!
# The Connect and Disconnect packets

`ParseConnect` reads the first packet a client sends: a 32-byte protocol hash, a client-type
byte, a 16-byte UUID, then three length-prefixed strings (language, identity token, username),
and whatever follows as referral data. Below `ConnectPacketMinSize` bytes it refuses the packet;
from there on it NEVER fails: a string that does not read stops the parse, and the packet is
returned with the fields read so far ("partial parse OK"). The three string fields are read by
one step, `connectString`, which the code writes out three times.

## What is proved

- `parseConnect_layout`: a packet laid out as the format says, with strings of at most
  `MaxStringLength` bytes, parses to exactly its fields;
- `parseConnect_fields`: from `ConnectPacketMinSize` bytes on, the parse returns a packet, never
  panics, and its strings and referral data are pieces of the data; below, it refuses;
- `parseDisconnect_isSome`: `ParseDisconnect` never panics;
- `parseDisconnect_writeString`: for every reason, it reads back what `WriteString` wrote: the
  reason cut to `len mod 2^32` bytes, as the `uint32` length prefix says, or the empty reason when
  that is longer than `MaxStringLength`, the error being silently dropped.
-/

set_option autoImplicit false

namespace HyProxy.Protohytale

open Go

/-- `PacketConnect`. -/
def packetConnect : UInt32 := 0x00000000

/-- `PacketDisconnect`. -/
def packetDisconnect : UInt32 := 0x00000001

/-- `ConnectPacketMinSize`. -/
def connectPacketMinSize : Nat := 82

/-- `ConnectPacket`: Go's strings are their bytes, `[n]byte` arrays are `FixedBytes n`. -/
structure ConnectPacket where
  protocolHash : FixedBytes 32
  clientType : UInt8
  uuid : FixedBytes 16
  language : List UInt8
  identityToken : List UInt8
  username : List UInt8
  referralData : List UInt8
  deriving DecidableEq

/-- One string field of `ParseConnect` at `offset`: `none` when the parse stops there (no byte
left, or `ReadString` failed), else the string and the offset past it. -/
def connectString (data : List UInt8) (offset : Nat) : Option (Option (List UInt8 × Nat)) :=
  if offset ≥ data.length then some none
  else do
    let (s, n, err) ← sliceFrom data offset >>= readString
    match err with
    | some _ => some none
    | none => some (some (s, offset + n))

/-- The second half of `ParseConnect`: the three strings from offset 49 on, then the referral
data, read into `cp`. -/
def connectFields (data : List UInt8) (cp : ConnectPacket) : Option ConnectPacket := do
  match ← connectString data 49 with
  | none => some cp
  | some (language, offset) =>
    let cp := { cp with language }
    match ← connectString data offset with
    | none => some cp
    | some (identityToken, offset) =>
      let cp := { cp with identityToken }
      match ← connectString data offset with
      | none => some cp
      | some (username, offset) =>
        let cp := { cp with username }
        if offset < data.length then do
          let rest ← sliceFrom data offset
          some { cp with referralData := copyAt (make (data.length - offset)) 0 rest }
        else some cp

/-- `ParseConnect(data)`: the fixed fields, then `connectFields`. -/
def parseConnect (data : List UInt8) : Option (Except GoError ConnectPacket) :=
  if data.length < connectPacketMinSize then some (.error .connectTooShort)
  else do
    let hash ← slice data 0 32
    let clientType ← index data 32
    let uuid ← slice data 33 (33 + 16)
    let cp : ConnectPacket := ⟨copyArray 32 hash, clientType, copyArray 16 uuid, [], [], [], []⟩
    Except.ok <$> connectFields data cp

/-- `ParseConnectPacket(p)`. -/
def parseConnectPacket (p : Packet) : Option (Except GoError ConnectPacket) :=
  if p.id ≠ packetConnect then some (.error .invalidPacketID) else parseConnect p.data

/-- `DisconnectPacket`. -/
structure DisconnectPacket where
  reason : List UInt8
  deriving DecidableEq

/-- `ParseDisconnect(data)`: the reason when one reads; it never answers an error. -/
def parseDisconnect (data : List UInt8) : Option (Except GoError DisconnectPacket) :=
  if data.length > 0 then do
    let (reason, _, err) ← readString data
    match err with
    | none => some (.ok ⟨reason⟩)
    | some _ => some (.ok ⟨[]⟩)
  else some (.ok ⟨[]⟩)

/-- `ParseDisconnectPacket(p)`. -/
def parseDisconnectPacket (p : Packet) : Option (Except GoError DisconnectPacket) :=
  if p.id ≠ packetDisconnect then some (.error .invalidPacketID) else parseDisconnect p.data

/-! ## One string field -/

/-- What one string field does: the parse stops, or it reads a piece of the data and moves the
offset forward, never past the end. It never panics. -/
theorem connectString_cases (data : List UInt8) (offset : Nat) :
    connectString data offset = some none ∨
      ∃ s offset', connectString data offset = some (some (s, offset')) ∧ offset < offset' ∧
        offset' ≤ data.length ∧ s <:+: data := by
  unfold connectString
  split
  · exact .inl rfl
  · rename_i hlt
    obtain ⟨⟨s, n, err⟩, hr⟩ := Option.isSome_iff_exists.mp (readString_isSome (data.drop offset))
    simp only [sliceFrom_of_le (Nat.le_of_not_le hlt), Option.bind_eq_bind, Option.some_bind, hr]
    cases err with
    | some _ => exact .inl rfl
    | none =>
      obtain ⟨h1, h2, hinf⟩ := readString_consumed hr
      simp only [List.length_drop] at h2
      exact .inr ⟨s, _, rfl, by omega, by omega, hinf.trans (List.drop_suffix _ _).isInfix⟩

/-- A written string of at most `MaxStringLength` bytes, at `offset`, reads back whole. -/
theorem connectString_written {s ws : List UInt8} (pre rest : List UInt8)
    (hs : s.length ≤ maxStringLength) (hws : writeString s = some ws) :
    connectString (pre ++ ws ++ rest) pre.length = some (some (s, pre.length + ws.length)) := by
  obtain ⟨ws', hws', -, hread⟩ := readString_written s rest (by unfold maxStringLength at hs; omega)
  rw [Option.some.inj (hws'.symm.trans hws)] at hread
  have hne : ws ≠ [] := by
    obtain ⟨lb, hlb, hlen, -⟩ := writeString_spec s
    rw [hws, Option.some.injEq] at hlb
    rw [hlb]
    exact List.append_ne_nil_of_left_ne_nil (List.ne_nil_of_length_pos (by
      rw [hlen]; unfold varIntSize; split_ifs <;> omega)) _
  have hlen : pre.length < (pre ++ ws ++ rest).length := by
    simp only [List.length_append]; have := List.length_pos.mpr hne; omega
  rw [connectString, if_neg (by omega), sliceFrom_of_le hlen.le, List.append_assoc,
    List.drop_left]
  simp only [Option.bind_eq_bind, Option.some_bind, hread, if_neg (show ¬ s.length > maxStringLength
    by omega)]

/-! ## The parse -/

/-- The string and referral fields are pieces of the data, in the sense `FieldsIn` fixes. -/
structure FieldsIn (data : List UInt8) (cp : ConnectPacket) : Prop where
  language : cp.language <:+: data
  identityToken : cp.identityToken <:+: data
  username : cp.username <:+: data
  referralData : cp.referralData <:+ data

/-- `connectFields` never panics, keeps the fixed fields, and only ever puts pieces of the data
into the others. -/
theorem connectFields_pieces {data : List UInt8} {cp : ConnectPacket} (hcp : FieldsIn data cp) :
    ∃ cp', connectFields data cp = some cp' ∧ FieldsIn data cp' ∧
      cp'.protocolHash = cp.protocolHash ∧ cp'.clientType = cp.clientType ∧ cp'.uuid = cp.uuid := by
  unfold connectFields
  rcases connectString_cases data 49 with h1 | ⟨l, o1, h1, -, -, hl⟩ <;>
    simp only [h1, Option.bind_eq_bind, Option.some_bind]
  · exact ⟨cp, rfl, hcp, rfl, rfl, rfl⟩
  rcases connectString_cases data o1 with h2 | ⟨tk, o2, h2, -, -, htk⟩ <;> simp only [h2, Option.some_bind]
  · exact ⟨_, rfl, { hcp with language := hl }, rfl, rfl, rfl⟩
  rcases connectString_cases data o2 with h3 | ⟨u, o3, h3, -, -, hu⟩ <;> simp only [h3, Option.some_bind]
  · exact ⟨_, rfl, { hcp with language := hl, identityToken := htk }, rfl, rfl, rfl⟩
  split
  · rename_i ho
    rw [sliceFrom_of_le ho.le, Option.some_bind, copyAt_make (by simp)]
    exact ⟨_, rfl, ⟨hl, htk, hu, List.drop_suffix _ _⟩, rfl, rfl, rfl⟩
  · exact ⟨_, rfl, { hcp with language := hl, identityToken := htk, username := hu }, rfl, rfl, rfl⟩

/-- Below `ConnectPacketMinSize` bytes the packet is refused. -/
theorem parseConnect_short {data : List UInt8} (h : data.length < connectPacketMinSize) :
    parseConnect data = some (.error .connectTooShort) := if_pos h

/-- From `ConnectPacketMinSize` bytes on, the fixed fields read without a panic, as the bytes
they stand on, and the rest is `connectFields`. -/
theorem parseConnect_of_le {data : List UInt8} (h : connectPacketMinSize ≤ data.length) :
    ∃ cp, parseConnect data = Except.ok <$> connectFields data cp ∧
      cp.protocolHash.bytes = data.take 32 ∧ index data 32 = some cp.clientType ∧
      cp.uuid.bytes = (data.drop 33).take 16 ∧ cp.language = [] ∧ cp.identityToken = [] ∧
      cp.username = [] ∧ cp.referralData = [] := by
  unfold connectPacketMinSize at h
  obtain ⟨ct, hct⟩ : ∃ ct, index data 32 = some ct := ⟨_, index_of_lt (by omega)⟩
  rw [parseConnect, if_neg (by unfold connectPacketMinSize; omega), slice_of_le (by omega)
    (by omega), List.drop_zero, hct, slice_of_le (by omega) (by omega)]
  refine ⟨_, rfl, ?_, rfl, ?_, rfl, rfl, rfl, rfl⟩
  · rw [copyArray_of_length (by simp; omega)]
  · show (copyArray 16 ((data.take (33 + 16)).drop 33)).bytes = _
    rw [copyArray_of_length (by simp; omega)]
    show List.drop 33 (List.take (33 + 16) data) = _
    rw [List.drop_take]

/-- `ParseConnect` never panics, answers a packet exactly from `ConnectPacketMinSize` bytes on,
and the packet's strings and referral data are pieces of the data. -/
theorem parseConnect_fields (data : List UInt8) :
    (parseConnect data).isSome ∧
      ((∃ cp, parseConnect data = some (.ok cp)) ↔ connectPacketMinSize ≤ data.length) ∧
      ∀ cp, parseConnect data = some (.ok cp) → FieldsIn data cp := by
  by_cases h : connectPacketMinSize ≤ data.length
  · obtain ⟨cp, hp, -, -, -, h1, h2, h3, h4⟩ := parseConnect_of_le h
    have hcp : FieldsIn data cp := ⟨by simp [h1], by simp [h2], by simp [h3], by simp [h4]⟩
    obtain ⟨cp', hf, hin, -⟩ := connectFields_pieces hcp
    rw [hp, hf]
    exact ⟨rfl, ⟨fun _ => h, fun _ => ⟨cp', rfl⟩⟩, fun c hc => by cases hc; exact hin⟩
  · rw [parseConnect_short (by omega)]
    exact ⟨rfl, ⟨fun ⟨_, hc⟩ => (by cases hc), fun h' => absurd h' h⟩, fun _ hc => by cases hc⟩

/-- The three written strings after 49 bytes of fixed fields read back, and what follows them is
the referral data. -/
theorem connectFields_layout {pre lang token user wl wt wu : List UInt8} (r : List UInt8)
    {cp : ConnectPacket} (hcp : cp.referralData = []) (hpre : pre.length = 49)
    (hlang : lang.length ≤ maxStringLength) (htoken : token.length ≤ maxStringLength)
    (huser : user.length ≤ maxStringLength) (hwl : writeString lang = some wl)
    (hwt : writeString token = some wt) (hwu : writeString user = some wu) :
    connectFields (pre ++ wl ++ wt ++ wu ++ r) cp = some
      { cp with language := lang, identityToken := token, username := user, referralData := r } := by
  have e1 := connectString_written pre (wt ++ wu ++ r) hlang hwl
  have e2 := connectString_written (pre ++ wl) (wu ++ r) htoken hwt
  have e3 := connectString_written (pre ++ wl ++ wt) r huser hwu
  simp only [List.length_append, hpre, List.append_assoc, Nat.add_assoc] at e1 e2 e3
  unfold connectFields
  simp only [List.append_assoc, e1, e2, e3, Option.bind_eq_bind, Option.some_bind]
  split
  · rename_i hlt
    have hdrop : (pre ++ (wl ++ (wt ++ (wu ++ r)))).drop (49 + (wl.length + (wt.length +
        wu.length))) = r := by
      simp only [← List.append_assoc]
      exact List.drop_left' (by simp [hpre, Nat.add_assoc])
    rw [sliceFrom_of_le hlt.le, Option.some_bind, hdrop, copyAt_make (by simp [hpre]; omega)]
  · rename_i hge
    simp only [List.length_append, hpre] at hge
    rw [hcp, List.eq_nil_of_length_eq_zero (by omega : r.length = 0)]

/-- THE CONNECT LAYOUT READS BACK: a protocol hash, a client type, a UUID, three written strings
of at most `MaxStringLength` bytes and any referral bytes, once there are `ConnectPacketMinSize`
of them, parse to exactly those fields, without an error. -/
theorem parseConnect_layout (h : FixedBytes 32) (ct : UInt8) (u : FixedBytes 16)
    (lang token user r : List UInt8) (hlang : lang.length ≤ maxStringLength)
    (htoken : token.length ≤ maxStringLength) (huser : user.length ≤ maxStringLength) :
    ∃ wl wt wu, writeString lang = some wl ∧ writeString token = some wt ∧
      writeString user = some wu ∧
      (connectPacketMinSize ≤ (h.bytes ++ [ct] ++ u.bytes ++ wl ++ wt ++ wu ++ r).length →
        parseConnect (h.bytes ++ [ct] ++ u.bytes ++ wl ++ wt ++ wu ++ r) =
          some (.ok ⟨h, ct, u, lang, token, user, r⟩)) := by
  obtain ⟨ll, hwl, -⟩ := writeString_spec lang
  obtain ⟨lt, hwt, -⟩ := writeString_spec token
  obtain ⟨lu, hwu, -⟩ := writeString_spec user
  refine ⟨_, _, _, hwl, hwt, hwu, fun hmin => ?_⟩
  have hh := h.length_eq
  have hu := u.length_eq
  obtain ⟨cp, hp, hhash, hct, huuid, -, -, -, hr⟩ := parseConnect_of_le hmin
  have hpre : (h.bytes ++ [ct] ++ u.bytes).length = 49 := by simp [hh, hu]
  rw [hp, connectFields_layout r hr hpre hlang htoken huser hwl hwt hwu]
  simp only [List.append_assoc] at hhash hct huuid
  have e1 : cp.protocolHash = h := FixedBytes.ext (by rw [hhash, List.take_left' hh])
  have e2 : cp.clientType = ct := by
    rw [index, List.getElem?_append_right (by omega), hh] at hct
    simpa using hct.symm
  have e3 : cp.uuid = u := FixedBytes.ext (by
    rw [huuid, ← List.append_assoc, List.drop_left' (by simp [hh]), List.take_left' hu])
  rw [← e1, ← e2, ← e3]
  rfl

/-- A Connect packet with language `en`, an empty token, username `bob` and 30 referral bytes:
87 bytes, past `ConnectPacketMinSize`. -/
theorem parseConnect_layout_en :
    ([0x65, 0x6E] : List UInt8).length ≤ maxStringLength ∧
    ([] : List UInt8).length ≤ maxStringLength ∧
    ([0x62, 0x6F, 0x62] : List UInt8).length ≤ maxStringLength ∧
    ∃ wl wt wu, writeString [0x65, 0x6E] = some wl ∧ writeString [] = some wt ∧
      writeString [0x62, 0x6F, 0x62] = some wu ∧
      connectPacketMinSize ≤ ((copyArray 32 []).bytes ++ [1] ++ (copyArray 16 []).bytes ++ wl ++
          wt ++ wu ++ List.replicate 30 7).length ∧
      parseConnect ((copyArray 32 []).bytes ++ [1] ++ (copyArray 16 []).bytes ++ wl ++ wt ++ wu ++
          List.replicate 30 7) = some (.ok ⟨copyArray 32 [], 1, copyArray 16 [], [0x65, 0x6E], [],
            [0x62, 0x6F, 0x62], List.replicate 30 7⟩) := by
  obtain ⟨wl, wt, wu, hl, ht, hu, hparse⟩ := parseConnect_layout (copyArray 32 []) 1
    (copyArray 16 []) [0x65, 0x6E] [] [0x62, 0x6F, 0x62] (List.replicate 30 7) (by decide)
    (by decide) (by decide)
  -- the three written strings, as the writer makes them
  obtain rfl : wl = [2, 0x65, 0x6E] := Option.some.inj (hl.symm.trans (by decide))
  obtain rfl : wt = [0] := Option.some.inj (ht.symm.trans (by decide))
  obtain rfl : wu = [3, 0x62, 0x6F, 0x62] := Option.some.inj (hu.symm.trans (by decide))
  have hmin : connectPacketMinSize ≤ ((copyArray 32 []).bytes ++ [1] ++ (copyArray 16 []).bytes ++
      [2, 0x65, 0x6E] ++ [0] ++ [3, 0x62, 0x6F, 0x62] ++ List.replicate 30 7).length := by decide
  exact ⟨by decide, by decide, by decide, _, _, _, hl, ht, hu, hmin, hparse hmin⟩

/-- `ParseDisconnect` never panics. -/
theorem parseDisconnect_isSome (data : List UInt8) : (parseDisconnect data).isSome := by
  unfold parseDisconnect
  split
  · obtain ⟨⟨r, n, err⟩, hr⟩ := Option.isSome_iff_exists.mp (readString_isSome data)
    rw [hr, Option.bind_eq_bind, Option.some_bind]
    cases err <;> rfl
  · rfl

/-- THE DISCONNECT ROUND TRIP, for every reason and whatever follows it. `WriteString` writes
`uint32(len(reason))` as the length, so the reason comes back as its first `len(reason) mod 2^32`
bytes (all of it, below `2^32` bytes) when that number is at most `MaxStringLength`; otherwise
`ReadString`'s `ErrStringTooLong` is SWALLOWED, and the packet has the empty reason. -/
theorem parseDisconnect_writeString (reason rest : List UInt8) :
    ∃ ws, writeString reason = some ws ∧ parseDisconnect (ws ++ rest) =
      some (.ok ⟨if reason.length % 2 ^ 32 ≤ maxStringLength
        then reason.take (reason.length % 2 ^ 32) else []⟩) := by
  obtain ⟨ws, hw, hlen, hr⟩ := readString_written_mod reason rest
  refine ⟨ws, hw, ?_⟩
  have hpos : (ws ++ rest).length > 0 := by
    rw [List.length_append, hlen]
    have := (varIntSize_least (UInt32.ofNat reason.length)).1
    omega
  rw [parseDisconnect, if_pos hpos, hr]
  split_ifs <;> first | rfl | omega

end HyProxy.Protohytale
