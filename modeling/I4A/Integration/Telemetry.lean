import I4A.Core.JsonWrite
import I4A.Core.Utf8
import I4A.Integration.InfoManager

/-! # Telemetry of a node

The payload that `im_client_task` writes from the ring, and `info_server.py`, which receives it as
a datagram and makes a record of every row.
-/

namespace I4A

namespace InfoManager

/-! ## info_manager.c -/

/-- `MAX_PAYLOAD_BUFFER`. -/
abbrev maxPayloadBuffer : Nat := 1400

/-- `orientation_names`. -/
def orientationNames : Vector String maxOrientations := #v["N", "S", "E", "W", "C"]

/-- The bytes of a literal. -/
def literal (s : String) : List UInt8 := ascii s.toList

/-- `%d`, `%" PRIu64 "` and `%" PRId64 "`. -/
def decimal (n : Int) : List UInt8 := ascii (Json.intText n)

/-- `htonl` on a machine that stores the lowest byte first. -/
def htonl (hostlong : BitVec 32) : BitVec 32 := (takeWord (putWord hostlong).reverse).1

/-- `inet_ntoa_r`: the four bytes of the address as they lie in memory. The text has at most
fifteen characters, so that the buffer of sixteen holds it. -/
def inetNtoaR (addr : BitVec 32) : List UInt8 :=
  (((putWord addr).map fun b => decimal b.toNat).intersperse (literal ".")).flatten

/-- `payload`, `offset`, and whether `snprintf` has cut a text short. -/
structure Payload where
  buffer : List UInt8
  offset : Nat
  truncated : Bool
  deriving DecidableEq

/-- `sizeof(payload) - offset` as a `size_t`. -/
def sizeLeft (offset : Nat) : Nat := (((maxPayloadBuffer : Int) - offset) % 2 ^ 32).toNat

/-- `offset += snprintf(payload + offset, sizeof(payload) - offset, ...)` for a text; a write that
ends behind the buffer is out of bounds. -/
def Payload.snprintf (payload : Payload) (text : List UInt8) : Checked Payload :=
  let size := sizeLeft payload.offset
  let written := if size = 0 then [] else text.take (size - 1) ++ [0]
  let stop := payload.offset + written.length
  if maxPayloadBuffer < stop then .error ⟨stop - 1, maxPayloadBuffer⟩
  else
    .ok
      { buffer := payload.buffer.take payload.offset ++ written ++ payload.buffer.drop stop
        offset := payload.offset + text.length
        truncated := payload.truncated || decide (size ≤ text.length) }

/-- The start of the payload. -/
def header : List UInt8 :=
  literal "\x7b\"fields\":[\"orientation\",\"uuid\",\"link\"," ++
    literal "\"subnet\",\"mask\",\"channel\",\"rssi\"," ++
    literal "\"rx_bytes\",\"tx_bytes\"],\"data\":["

/-- The row of an entry of the ring. -/
def row (pkt : ImRingPacket) : List UInt8 :=
  let orientation := pkt.orientation.toNat % maxOrientations
  literal "[\"" ++ literal (orientationNames.toList.getD orientation "") ++
    literal "\",\"" ++ cString pkt.uuid.toList ++
    literal "\",\"" ++ cString pkt.link.toList ++
    literal "\",\"" ++ inetNtoaR (htonl pkt.subnet) ++
    literal "\",\"" ++ inetNtoaR (htonl pkt.mask) ++
    literal "\"," ++ decimal pkt.channel.toNat ++
    literal "," ++ decimal pkt.rssi.toInt ++
    literal "," ++ decimal pkt.rxBytes.toNat ++
    literal "," ++ decimal pkt.txBytes.toNat ++ literal "]"

/-- The uptime and the end of the payload. -/
def footer (uptime : Int64) : List UInt8 :=
  literal "],\"uptime_mins\":" ++ decimal uptime.toInt ++ literal "\x7d"

/-- The comma in front of all rows but the first. -/
def Payload.comma (payload : Payload) (first : Bool) : Checked Payload :=
  if first then .ok payload else payload.snprintf (literal ",")

/-- The loop over the ring, and whether it stopped early. -/
def writeRows (payload : Payload) (first : Bool) : List ImRingPacket → Checked (Payload × Bool)
  | [] => .ok (payload, false)
  | pkt :: rest => do
      let payload ← payload.comma first
      let payload ← payload.snprintf (row pkt)
      if maxPayloadBuffer - 50 ≤ payload.offset then return (payload, true)
      else writeRows payload false rest

/-- One turn of `im_client_task`, with what the turns before have left in the buffer. -/
def imClientTask (buffer : Vector UInt8 maxPayloadBuffer) (ring : Ring) (uptime : Int64) :
    Checked (Payload × Bool) := do
  let payload ← Payload.snprintf ⟨buffer.toList, 0, false⟩ header
  let rows ← writeRows payload true ring.toList
  let payload ← rows.1.snprintf (footer uptime)
  return (payload, rows.2)

/-- The bytes that `sendto` is given, `strlen(payload)` of them. -/
def Payload.sent (payload : Payload) : List UInt8 := cString payload.buffer

end InfoManager

/-! ## info_server.py -/

namespace InfoServer

open Json

/-- A string of the program. -/
def key (s : String) : JsonText := codes s.toList

/-- `node` of the loop. -/
abbrev Node := List (JsonText × Json)

structure Result where
  nodes : List Node
  count : Nat
  uptimeMins : Option Json

/-- `iter(value)`: the elements of a list, the characters of a string, the keys of a dictionary. -/
def iter : Json → Option (List Json)
  | .arr xs => some xs
  | .str s => some (s.map fun code => .str [code])
  | .obj entries => some (entries.map fun entry => .str entry.1)
  | _ => none

/-- A pair whose key is a string. Other keys raise a `TypeError` or make no field of a record. -/
def field : Json × Json → Option (JsonText × Json)
  | (.str name, value) => some (name, value)
  | _ => none

/-- `dict(zip(fields, row))`. -/
def node (fields row : Json) : Option Node := do
  let names ← iter fields
  let values ← iter row
  let pairs ← (names.zip values).mapM field
  return dict pairs

/-- The loop's work on a datagram, up to the printing of `result`; `none` where an exception is
raised. -/
def receive (datagram : List UInt8) : Option Result := do
  let text ← decodeUtf8 (datagram.take 4096)
  let payload ← loads text
  match payload with
  | .obj entries =>
      let fields := (get? entries (key "fields")).getD (.arr [])
      let rows ← iter ((get? entries (key "data")).getD (.arr []))
      let nodes ← rows.mapM (node fields)
      return ⟨nodes, nodes.length, get? entries (key "uptime_mins")⟩
  | _ => none

end InfoServer

/-! ## The round trip -/

namespace InfoManager

open InfoServer Json

/-- An address in dotted notation, its highest byte first. -/
def dotted (addr : BitVec 32) : List Char :=
  Nat.toDigits 10 (addr.toNat / 2 ^ 24) ++ '.' ::
    (Nat.toDigits 10 (addr.toNat / 2 ^ 16 % 2 ^ 8) ++ '.' ::
      (Nat.toDigits 10 (addr.toNat / 2 ^ 8 % 2 ^ 8) ++ '.' ::
        Nat.toDigits 10 (addr.toNat % 2 ^ 8)))

/-- The record of an entry of the ring: what it has stored, under the names of the fields. -/
def ImRingPacket.node (pkt : ImRingPacket) : Option Node := do
  let uuid ← decodeUtf8 (cString pkt.uuid.toList)
  let link ← decodeUtf8 (cString pkt.link.toList)
  let orientation := pkt.orientation.toNat % maxOrientations
  return [(key "orientation", .str (key (orientationNames.toList.getD orientation ""))),
    (key "uuid", .str (codes uuid)), (key "link", .str (codes link)),
    (key "subnet", .str (codes (dotted pkt.subnet))),
    (key "mask", .str (codes (dotted pkt.mask))), (key "channel", .int pkt.channel.toNat),
    (key "rssi", .int pkt.rssi.toInt), (key "rx_bytes", .int pkt.rxBytes.toNat),
    (key "tx_bytes", .int pkt.txBytes.toNat)]

/-- The result the server is to print. -/
def result (ring : Ring) (uptime : Int64) : Option Result := do
  let nodes ← ring.toList.mapM ImRingPacket.node
  return ⟨nodes, maxOrientations, some (.int uptime.toInt)⟩

/-- The payload is written whole, without an early end, and the server makes of it what the ring
holds. -/
def RoundTrip (buffer : Vector UInt8 maxPayloadBuffer) (ring : Ring) (uptime : Int64) : Prop :=
  ∃ payload, imClientTask buffer ring uptime = .ok (payload, false) ∧ payload.truncated = false ∧
    ∃ r, result ring uptime = some r ∧ receive payload.sent = some r

/-- Text in UTF-8 without quotes, backslashes or control characters. -/
def PlainText (bytes : List UInt8) : Prop :=
  ∃ text, decodeUtf8 bytes = some text ∧ ∀ c ∈ text, Plain c.toNat

/-- The texts of an entry need no escape. -/
def ImRingPacket.PlainTexts (pkt : ImRingPacket) : Prop :=
  PlainText (cString pkt.uuid.toList) ∧ PlainText (cString pkt.link.toList)

/-- The texts of a ring need no escape. -/
def Ring.PlainTexts (ring : Ring) : Prop := ∀ pkt ∈ ring, pkt.PlainTexts

end InfoManager

end I4A
