/-
  THE WIRE FORMAT, read — what `ParseFromArray` does with the messages the code receives.

  `Protobuf.lean` writes the messages the code sends; this is the other direction, for the runs on
  concrete frames.  A message is a sequence of fields, each a tag (its number and wire type) and a
  value.  The parser takes field after field into the message it builds; at the first that it cannot
  read it stops and returns false, and the message keeps what was read before (`parseFields`).

  Fields the code does not know are read and dropped, except those of a header, which are kept.
  Groups, a wire type no message here uses, are refused.

  What a parsed message holds was in the bytes it was parsed from (`length_of_parseFields`).
-/
import SteamMin.Messages.Protobuf

namespace SteamMin.Messages

/-! ## Fields -/

/-- What stands behind a tag. -/
inductive FieldValue
  | varint (n : Nat)
  | fixed64 (v : UInt64)
  | bytes (data : Bytes)
  | fixed32 (v : UInt32)

/-- One field of a message on the wire: its number and its value, with the wire type already
    decoded. -/
structure Field where
  number : Nat
  value : FieldValue
  /-- the field as it was received -/
  raw : Bytes

/-- Seven bits at a time, the low ones first. -/
def readVarint : Nat → Bytes → Option (Nat × Bytes)
  | 0, _ => none
  | _ + 1, [] => none
  | fuel + 1, b :: rest =>
    if b < 128 then some (b.toNat, rest)
    else (readVarint fuel rest).map fun next => (b.toNat - 128 + 128 * next.1, next.2)

/-- The first `n` bytes and those behind them. -/
def splitBytes (n : Nat) (data : Bytes) : Option (Bytes × Bytes) :=
  if n ≤ data.length then some (data.take n, data.drop n) else none

/-- The value behind a tag, by its wire type; groups and the two unused types are refused. -/
def readFieldValue (wireType : Nat) (data : Bytes) : Option (FieldValue × Bytes) :=
  match wireType with
  | 0 => do
    let (n, rest) ← readVarint 10 data
    pure (.varint n, rest)
  | 1 => do
    let (v, rest) ← splitBytes 8 data
    pure (.fixed64 (LittleEndian.word64 v), rest)
  | 2 => do
    let (n, rest) ← readVarint 10 data
    let (v, rest) ← splitBytes n rest
    pure (.bytes v, rest)
  | 5 => do
    let (v, rest) ← splitBytes 4 data
    pure (.fixed32 (LittleEndian.word32 v), rest)
  | _ => none

/-- A tag and its value.  Field number 0 is refused, as the runtime does. -/
def readField (data : Bytes) : Option (Field × Bytes) := do
  let (tag, rest) ← readVarint 5 data
  if tag / 8 = 0 then none
  else do
    let (value, rest) ← readFieldValue (tag % 8) rest
    pure ({ number := tag / 8, value, raw := data.take (data.length - rest.length) }, rest)

/-! ## Messages -/

/-- Field after field is merged into `m`, until one cannot be read or merged. -/
def parseFields {M : Type} (merge : M → Field → Bool × M) : Nat → Bytes → M → Bool × M
  | 0, data, m => (data.isEmpty, m)
  | fuel + 1, data, m =>
    if data.isEmpty then (true, m)
    else
      match readField data with
      | none => (false, m)
      | some (field, rest) =>
        match merge m field with
        | (false, m) => (false, m)
        | (true, m) => parseFields merge fuel rest m

/-- `ParseFromArray`; every field takes at least one byte. -/
def parseMessage {M : Type} (merge : M → Field → Bool × M) (new : M) (data : Bytes) : Bool × M :=
  parseFields merge data.length data new

/-- What one field does to the header: the last value of a repeated number wins, others are kept
    aside. -/
def CMsgProtoBufHeader.merge (m : CMsgProtoBufHeader) (field : Field) : Bool × CMsgProtoBufHeader :=
  match field.number, field.value with
  | 1, .fixed64 v => (true, { m with steamid := some v })
  | 2, .varint n => (true, { m with clientSessionid := some (UInt32.ofNat n).toInt32 })
  | 10, .fixed64 v => (true, { m with jobidSource := some v })
  | 11, .fixed64 v => (true, { m with jobidTarget := some v })
  | _, _ => (true, { m with otherFields := m.otherFields ++ field.raw })

/-- What one field does to a batch. -/
def CMsgMulti.merge (m : CMsgMulti) (field : Field) : Bool × CMsgMulti :=
  match field.number, field.value with
  | 1, .varint n => (true, { m with sizeUnzipped := some (UInt32.ofNat n) })
  | 2, .bytes data => (true, { m with messageBody := some data })
  | _, _ => (true, m)

/-- What one field does to a logon message. -/
def CMsgClientLogon.merge (m : CMsgClientLogon) (field : Field) : Bool × CMsgClientLogon :=
  match field.number, field.value with
  | 1, .varint n => (true, { m with protocolVersion := some (UInt32.ofNat n) })
  | 5, .varint n => (true, { m with clientPackageVersion := some (UInt32.ofNat n) })
  | _, _ => (true, m)

/-- What one field does to the answer to a logon. -/
def CMsgClientLogonResponse.merge (m : CMsgClientLogonResponse) (field : Field) :
    Bool × CMsgClientLogonResponse :=
  match field.number, field.value with
  | 1, .varint n => (true, { m with eresult := some (UInt32.ofNat n).toInt32 })
  | 20, .fixed64 v => (true, { m with clientSuppliedSteamid := some v })
  | _, _ => (true, m)

/-- What one field does to an entry of a product request. -/
def AppInfoRequest.merge (m : AppInfoRequest) (field : Field) : Bool × AppInfoRequest :=
  match field.number, field.value with
  | 1, .varint n => (true, { m with appid := some (UInt32.ofNat n) })
  | 2, .varint n => (true, { m with accessToken := some (UInt64.ofNat n) })
  | _, _ => (true, m)

/-- A nested message that cannot be parsed stays in the list as far as it was read. -/
def CMsgClientPICSProductInfoRequest.merge (m : CMsgClientPICSProductInfoRequest) (field : Field) :
    Bool × CMsgClientPICSProductInfoRequest :=
  match field.number, field.value with
  | 2, .bytes data =>
    let (ok, app) := parseMessage AppInfoRequest.merge ⟨none, none⟩ data
    (ok, { m with apps := m.apps ++ [app] })
  | _, _ => (true, m)

/-- What one field does to an entry of a product response. -/
def ProductInfo.merge (m : ProductInfo) (field : Field) : Bool × ProductInfo :=
  match field.number, field.value with
  | 1, .varint n => (true, { m with id := some (UInt32.ofNat n) })
  | 4, .bytes data => (true, { m with sha := some data })
  | 5, .bytes data => (true, { m with buffer := some data })
  | _, _ => (true, m)

/-- What one field does to a product response: entries accumulate in the order of the wire. -/
def CMsgClientPICSProductInfoResponse.merge (m : CMsgClientPICSProductInfoResponse)
    (field : Field) : Bool × CMsgClientPICSProductInfoResponse :=
  match field.number, field.value with
  | 1, .bytes data =>
    let (ok, app) := parseMessage ProductInfo.merge ⟨none, none, none⟩ data
    (ok, { m with apps := m.apps ++ [app] })
  | 3, .bytes data =>
    let (ok, package) := parseMessage ProductInfo.merge ⟨none, none, none⟩ data
    (ok, { m with packages := m.packages ++ [package] })
  | _, _ => (true, m)

/-! ## Codecs -/

def optionalBytesField (number : Nat) (data : Option Bytes) : Bytes :=
  match data with
  | none => []
  | some data => bytesField number data

def CMsgMulti.wire (m : CMsgMulti) : Bytes :=
  varintField 1 (m.sizeUnzipped.map UInt32.toNat) ++ optionalBytesField 2 m.messageBody

def CMsgClientLogonResponse.wire (m : CMsgClientLogonResponse) : Bytes :=
  varintField 1 (m.eresult.map fun i => i.toInt64.toUInt64.toNat) ++
    fixed64Field 20 m.clientSuppliedSteamid

def ProductInfo.wire (m : ProductInfo) : Bytes :=
  varintField 1 (m.id.map UInt32.toNat) ++ optionalBytesField 4 m.sha ++
    optionalBytesField 5 m.buffer

def CMsgClientPICSProductInfoResponse.wire (m : CMsgClientPICSProductInfoResponse) : Bytes :=
  m.apps.flatMap (fun app => bytesField 1 app.wire) ++
    m.packages.flatMap fun package => bytesField 3 package.wire

/-- The codecs of the wire format, on the fields the code knows. -/
def Protobuf.wireFormat : Protobuf where
  header := ⟨fun m => some m.wire, parseMessage CMsgProtoBufHeader.merge .new⟩
  multi := ⟨fun m => some m.wire, parseMessage CMsgMulti.merge ⟨none, none⟩⟩
  clientLogon := ⟨fun m => some m.wire, parseMessage CMsgClientLogon.merge .new⟩
  clientLogonResponse :=
    ⟨fun m => some m.wire, parseMessage CMsgClientLogonResponse.merge ⟨none, none⟩⟩
  productInfoRequest :=
    ⟨fun m => some m.wire, parseMessage CMsgClientPICSProductInfoRequest.merge .new⟩
  productInfoResponse :=
    ⟨fun m => some m.wire, parseMessage CMsgClientPICSProductInfoResponse.merge ⟨[], []⟩⟩

/-! ## What was read is no longer than what it was read from -/

/-- A varint takes at least one byte: what is left is strictly shorter, so the parser's
    loop ends. -/
theorem length_of_readVarint {fuel n : Nat} {data rest : Bytes}
    (h : readVarint fuel data = some (n, rest)) : rest.length < data.length := by
  induction fuel generalizing data n with
  | zero => cases h
  | succ fuel ih =>
    cases data with
    | nil => cases h
    | cons b behind =>
      rw [readVarint] at h
      split at h
      · cases h
        simp
      · obtain ⟨⟨n', rest'⟩, hnext, heq⟩ := Option.map_eq_some_iff.mp h
        cases heq
        have hshorter : rest'.length < behind.length := ih hnext
        simp only [List.length_cons]
        omega

/-- Cutting a payload loses no byte. -/
theorem length_of_splitBytes {n : Nat} {data v rest : Bytes}
    (h : splitBytes n data = some (v, rest)) : v.length + rest.length = data.length := by
  unfold splitBytes at h
  split at h
  · cases h
    rw [List.length_take, List.length_drop]
    omega
  · cases h

/-- The length of a value, if it is a sequence of bytes. -/
def FieldValue.length : FieldValue → Nat
  | .bytes data => data.length
  | _ => 0

/-- A value and what follows it fit in what was there. -/
theorem length_of_readFieldValue {wireType : Nat} {data rest : Bytes} {value : FieldValue}
    (h : readFieldValue wireType data = some (value, rest)) :
    value.length + rest.length ≤ data.length := by
  unfold readFieldValue at h
  split at h
  -- the wire types in turn: a varint, eight bytes, a payload with its length, four bytes
  · obtain ⟨⟨n, rest'⟩, hn, h⟩ := Option.bind_eq_some_iff.mp h
    cases h
    have hvarint := length_of_readVarint hn
    simp only [FieldValue.length]
    omega
  · obtain ⟨⟨v, rest'⟩, hv, h⟩ := Option.bind_eq_some_iff.mp h
    cases h
    have hfixed := length_of_splitBytes hv
    simp only [FieldValue.length]
    omega
  · obtain ⟨⟨n, rest'⟩, hn, h⟩ := Option.bind_eq_some_iff.mp h
    obtain ⟨⟨v, rest''⟩, hv, h⟩ := Option.bind_eq_some_iff.mp h
    cases h
    have hvarint := length_of_readVarint hn
    have hbytes := length_of_splitBytes hv
    simp only [FieldValue.length]
    omega
  · obtain ⟨⟨v, rest'⟩, hv, h⟩ := Option.bind_eq_some_iff.mp h
    cases h
    have hfixed := length_of_splitBytes hv
    simp only [FieldValue.length]
    omega
  · cases h

/-- The same for a whole field, whose tag comes on top. -/
theorem length_of_readField {data rest : Bytes} {field : Field}
    (h : readField data = some (field, rest)) :
    field.value.length + rest.length ≤ data.length := by
  obtain ⟨⟨tag, behind⟩, htag, h⟩ := Option.bind_eq_some_iff.mp h
  dsimp only at h
  split at h
  · cases h
  · obtain ⟨⟨value, rest'⟩, hvalue, h⟩ := Option.bind_eq_some_iff.mp h
    cases h
    have hvarint := length_of_readVarint htag
    have hfield := length_of_readFieldValue hvalue
    dsimp only
    omega

/-- A part of a message that only comes out of one field is no longer than all of them. -/
theorem length_of_parseFields {M : Type} {merge : M → Field → Bool × M} (part : M → Bytes)
    (hmerge : ∀ m field, (part (merge m field).2).length ≤ (part m).length ∨
      (part (merge m field).2).length ≤ field.value.length) {n : Nat} (fuel : Nat) :
    ∀ data m, data.length ≤ n → (part m).length ≤ n →
      (part (parseFields merge fuel data m).2).length ≤ n := by
  induction fuel with
  | zero => exact fun data m _ hm => hm
  | succ fuel ih =>
    intro data m hdata hm
    rw [parseFields]
    split
    · exact hm
    · split
      · exact hm
      · rename_i field rest hread
        have hfield := length_of_readField hread
        have hnext : (part (merge m field).2).length ≤ n := by
          -- the part was kept, or it came out of the field that was just read
          rcases hmerge m field with hkept | hread
          · omega
          · omega
        split
        · rename_i m' hm'
          rw [hm'] at hnext
          exact hnext
        · rename_i m' hm'
          rw [hm'] at hnext
          exact ih rest m' (by omega) hnext

/-- So it is with the body of a batch. -/
theorem CMsgMulti.length_messageBody (data : Bytes) :
    (Protobuf.wireFormat.multi.parseFromArray data).2.getMessageBody.length ≤ data.length := by
  refine length_of_parseFields CMsgMulti.getMessageBody ?_ data.length data ⟨none, none⟩
    (Nat.le_refl _) (Nat.zero_le _)
  intro m field
  unfold merge
  split
  · exact .inl (Nat.le_refl _)
  · rename_i body hnumber hvalue
    rw [hvalue]
    exact .inr (Nat.le_refl _)
  · exact .inl (Nat.le_refl _)

end SteamMin.Messages
