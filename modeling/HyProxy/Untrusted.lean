import HyProxy.Protohytale.Connect
import HyProxy.Handlers.Dcid

/-!
# Decoding untrusted bytes

Every decoder the proxy runs on bytes a client chose, in one place: the protocol's readers
(`ReadVarInt`, `ReadString`, `ReadHostAddress`), the parsers of the first packets
(`ParseConnect`, `ParseDisconnect`), the compression test on a payload (`Packet.IsCompressed`),
and the terminator's `parseQUICDCID` on a datagram. In the model an index or a slice out of
range is `none`, the panic Go would raise.

## What is proved

`decoders_safe`: on every byte string none of them panics; each reader that succeeds consumed
between one byte and the whole input; and `ParseConnect` answers a packet exactly from
`ConnectPacketMinSize` bytes on, with strings and referral data that are pieces of the input.
Each part is the spec lemma of its decoder, proved beside the decoder.
-/

set_option autoImplicit false

namespace HyProxy

open Protohytale Handlers

/-- No byte string makes a decoder panic, a reader that succeeds consumed at least one byte and
at most the input, and `ParseConnect` succeeds exactly on inputs of `ConnectPacketMinSize` bytes
or more, with fields taken from the input. -/
theorem decoders_safe (data : List UInt8) :
    (readVarInt data).isSome ∧ (readString data).isSome ∧ (readHostAddress data).isSome ∧
    (parseConnect data).isSome ∧ (parseDisconnect data).isSome ∧ (parseQUICDCID data).isSome ∧
    (∀ id, (Packet.isCompressed ⟨id, data⟩).isSome) ∧
    (∀ v n, readVarInt data = some (v, n, none) → 1 ≤ n ∧ n ≤ data.length) ∧
    (∀ s n, readString data = some (s, n, none) → 1 ≤ n ∧ n ≤ data.length) ∧
    (∀ host port n, readHostAddress data = some (host, port, n, none) →
      1 ≤ n ∧ n ≤ data.length) ∧
    ((∃ cp, parseConnect data = some (.ok cp)) ↔ connectPacketMinSize ≤ data.length) ∧
    ∀ cp, parseConnect data = some (.ok cp) → FieldsIn data cp :=
  have hconnect := parseConnect_fields data
  ⟨readVarIntLoop_isSome data 5 0 0 0, readString_isSome data, readHostAddress_isSome data,
    hconnect.1, parseDisconnect_isSome data, parseQUICDCID_isSome data,
    fun id => by rw [isCompressed_eq]; rfl, fun _ _ => readVarInt_consumed,
    fun _ _ h => ⟨(readString_consumed h).1, (readString_consumed h).2.1⟩,
    fun _ _ _ h => ⟨(readHostAddress_consumed h).1, (readHostAddress_consumed h).2.1⟩,
    hconnect.2⟩

end HyProxy
