/-
  THE WIRE FORMAT, BOTH WAYS.

  What `Protobuf.lean` writes, `WireFormat.lean` reads.  A number is read back from seven bits at a
  time (`readVarint_varintLoop`), a field from its tag and its value (`readField_encode`), and a
  message, field after field, into what its fields make of it (`parseMessage_encode`).

  So the headers the client sends are read back (`CMsgProtoBufHeader.readsBack_wire`), and the
  requests for product information, with the messages nested in them
  (`CMsgClientPICSProductInfoRequest.readsBack_wire`).
-/
import SteamMin.Messages.WireFormat
import SteamMin.Messages.Reencoding

namespace SteamMin.Messages

/-! ## Numbers

  A number is written in groups of seven bits, the lowest first; all but the last group have the
  top bit set. -/

/-- A number below 256 survives the byte it is put in. -/
theorem toNat_byte {n : Nat} (h : n < 256) : (UInt8.ofNat n).toNat = n := UInt8.toNat_ofNat_of_lt' h

/-- The last byte of a varint has no continuation bit. -/
theorem byte_lt {n : Nat} (h : n < 128) : UInt8.ofNat n < 128 := by
  rw [UInt8.lt_iff_toNat_lt, toNat_byte (by omega)]
  exact h

/-- A number is read back if both loops go round often enough. -/
theorem readVarint_varintLoop (rest : Bytes) (fuel : Nat) : ∀ fuel' n, n < 128 ^ (fuel + 1) →
    n < 128 ^ (fuel' + 1) →
    readVarint (fuel' + 1) (varintLoop (fuel + 1) n ++ rest) = some (n, rest) := by
  induction fuel with
  | zero =>
    intro fuel' n hn _
    have hlast : n < 128 := by omega
    rw [varintLoop, if_pos hlast, List.singleton_append, readVarint, if_pos (byte_lt hlast),
      toNat_byte (by omega)]
  | succ fuel ih =>
    intro fuel' n hn hn'
    rw [varintLoop]
    by_cases hlast : n < 128
    · rw [if_pos hlast, List.singleton_append, readVarint, if_pos (byte_lt hlast),
        toNat_byte (by omega)]
    -- the continuation bit is the 128 that the reader takes off again
    · have hbyte : (UInt8.ofNat (n % 128 + 128)).toNat = n % 128 + 128 :=
        toNat_byte (by omega)
      have hmore : ¬ UInt8.ofNat (n % 128 + 128) < 128 := by
        rw [UInt8.lt_iff_toNat_lt, hbyte]
        show ¬ n % 128 + 128 < 128
        omega
      cases fuel' with
      | zero => omega
      | succ fuel' =>
        have hdiv : n / 128 < 128 ^ (fuel + 1) := by
          rw [Nat.div_lt_iff_lt_mul (by omega), ← Nat.pow_succ]
          exact hn
        have hdiv' : n / 128 < 128 ^ (fuel' + 1) := by
          rw [Nat.div_lt_iff_lt_mul (by omega), ← Nat.pow_succ]
          exact hn'
        rw [if_neg hlast, List.cons_append, readVarint, if_neg hmore, ih fuel' (n / 128) hdiv hdiv',
          Option.map_some, hbyte]
        -- seven bits and the rest make up the number
        have hvalue : n % 128 + 128 - 128 + 128 * (n / 128) = n := by omega
        dsimp only
        rw [hvalue]

/-- The varint of a 64-bit number is read back in front of any bytes: ten rounds are always
    enough. -/
theorem readVarint_varint (rest : Bytes) {n : Nat} (hn : n < 2 ^ 64) :
    readVarint 10 (varint n ++ rest) = some (n, rest) :=
  readVarint_varintLoop rest 9 9 n (by omega) (by omega)

/-- The payload of a length-delimited field is cut exactly where it ends. -/
theorem splitBytes_append (v rest : Bytes) : splitBytes v.length (v ++ rest) = some (v, rest) := by
  rw [splitBytes, if_pos (by rw [List.length_append]; omega), List.take_left, List.drop_left]

/-! ## Fields

  A tag is a number as well: that of the field and its wire type, in one varint. -/

namespace FieldValue

def wireType : FieldValue → Nat
  | varint _ => 0
  | fixed64 _ => 1
  | bytes _ => 2
  | fixed32 _ => 5

/-- What stands behind the tag. -/
def wire : FieldValue → Bytes
  | varint n => Messages.varint n
  | fixed64 v => LittleEndian.bytes 8 v.toNat
  | bytes data => Messages.varint data.length ++ data
  | fixed32 v => LittleEndian.bytes 4 v.toNat

/-- The number, or the length, has 64 bits. -/
def Fits : FieldValue → Prop
  | varint n => n < 2 ^ 64
  | bytes data => data.length < 2 ^ 64
  | _ => True

end FieldValue

/-- One value of each wire type is read back in front of any bytes. -/
theorem readFieldValue_wire (value : FieldValue) (rest : Bytes) (hfits : value.Fits) :
    readFieldValue value.wireType (value.wire ++ rest) = some (value, rest) := by
  cases value with
  | varint n =>
    exact Option.bind_eq_some_iff.mpr ⟨(n, rest), readVarint_varint rest hfits, rfl⟩
  | fixed64 v =>
    have hsplit := splitBytes_append (LittleEndian.bytes 8 v.toNat) rest
    rw [LittleEndian.length_bytes] at hsplit
    have hread : readFieldValue 1 (LittleEndian.bytes 8 v.toNat ++ rest)
        = (splitBytes 8 (LittleEndian.bytes 8 v.toNat ++ rest)).bind fun next =>
          some (.fixed64 (LittleEndian.word64 next.1), next.2) := rfl
    show readFieldValue 1 (LittleEndian.bytes 8 v.toNat ++ rest) = _
    rw [hread, hsplit, Option.bind_some, LittleEndian.word64_bytes]
  | bytes data =>
    have hlength : readVarint 10 (varint data.length ++ data ++ rest)
        = some (data.length, data ++ rest) := by
      rw [List.append_assoc]
      exact readVarint_varint (data ++ rest) hfits
    refine Option.bind_eq_some_iff.mpr ⟨(data.length, data ++ rest), hlength, ?_⟩
    exact Option.bind_eq_some_iff.mpr ⟨(data, rest), splitBytes_append data rest, rfl⟩
  | fixed32 v =>
    have hsplit := splitBytes_append (LittleEndian.bytes 4 v.toNat) rest
    rw [LittleEndian.length_bytes] at hsplit
    have hread : readFieldValue 5 (LittleEndian.bytes 4 v.toNat ++ rest)
        = (splitBytes 4 (LittleEndian.bytes 4 v.toNat ++ rest)).bind fun next =>
          some (.fixed32 (LittleEndian.word32 next.1), next.2) := rfl
    show readFieldValue 5 (LittleEndian.bytes 4 v.toNat ++ rest) = _
    rw [hread, hsplit, Option.bind_some, LittleEndian.word32_bytes]

/-- The wire type fits the three bits the tag keeps for it. -/
theorem FieldValue.wireType_lt (value : FieldValue) : value.wireType < 8 := by
  cases value <;> simp [wireType]

/-- A field, as it is sent. -/
def encodeField (number : Nat) (value : FieldValue) : Bytes :=
  varint (8 * number + value.wireType) ++ value.wire

/-- The field a parser should see for a number and a value. -/
def encodedField (number : Nat) (value : FieldValue) : Field :=
  { number, value, raw := encodeField number value }

/-- **A field is read back.** -/
theorem readField_encode {number : Nat} (value : FieldValue) (rest : Bytes) (hpos : 0 < number)
    (hnumber : number < 2 ^ 29) (hfits : value.Fits) :
    readField (encodeField number value ++ rest) = some (encodedField number value, rest) := by
  have htype := value.wireType_lt
  have htag : readVarint 5 (varint (8 * number + value.wireType) ++ (value.wire ++ rest))
      = some (8 * number + value.wireType, value.wire ++ rest) :=
    readVarint_varintLoop _ 9 4 _ (by omega) (by omega)
  -- the tag holds the wire type in its low three bits
  have hdiv : (8 * number + value.wireType) / 8 = number := by omega
  have hmod : (8 * number + value.wireType) % 8 = value.wireType := by omega
  -- the raw bytes of the field are what was consumed
  have hlength : (encodeField number value ++ rest).length - rest.length
      = (encodeField number value).length := by
    rw [List.length_append]
    omega
  have hraw : (encodeField number value ++ rest).take
      ((encodeField number value ++ rest).length - rest.length) = encodeField number value := by
    rw [hlength, List.take_left]
  refine Option.bind_eq_some_iff.mpr ⟨(8 * number + value.wireType, value.wire ++ rest), ?_, ?_⟩
  · rw [encodeField, List.append_assoc]
    exact htag
  · dsimp only
    rw [hdiv, hmod, if_neg (by omega)]
    refine Option.bind_eq_some_iff.mpr ⟨(value, rest), readFieldValue_wire value rest hfits, ?_⟩
    dsimp only
    rw [hraw]
    rfl

/-! ## Messages

  A message that is written field by field is read back if each of its fields, merged into what
  was read before, does what it should (`MergesTo`). -/

section
variable {M : Type} {merge : M → Field → Bool × M}

/-- The fields can be read and are merged into `m`, one after the other. -/
inductive MergesTo (merge : M → Field → Bool × M) : List (Nat × FieldValue) → M → M → Prop
  | nil (m : M) : MergesTo merge [] m m
  | cons {number : Nat} {value : FieldValue} {fields : List (Nat × FieldValue)} {m m₁ m' : M}
      (hpos : 0 < number) (hnumber : number < 2 ^ 29) (hfits : value.Fits)
      (hmerge : merge m (encodedField number value) = (true, m₁)) (h : MergesTo merge fields m₁ m') :
      MergesTo merge ((number, value) :: fields) m m'

/-- Merging runs through a concatenation in two stretches. -/
theorem MergesTo.append {fields fields' : List (Nat × FieldValue)} {m m₁ m' : M}
    (h : MergesTo merge fields m m₁) (h' : MergesTo merge fields' m₁ m') :
    MergesTo merge (fields ++ fields') m m' := by
  induction h with
  | nil m => exact h'
  | cons hpos hnumber hfits hmerge _ ih => exact .cons hpos hnumber hfits hmerge (ih h')

def encodeFields (fields : List (Nat × FieldValue)) : Bytes :=
  fields.flatMap fun field => encodeField field.1 field.2

/-- The bytes of two lists of fields stand one behind the other. -/
theorem encodeFields_append (fields fields' : List (Nat × FieldValue)) :
    encodeFields (fields ++ fields') = encodeFields fields ++ encodeFields fields' :=
  List.flatMap_append

/-- A tag takes at least one byte. -/
theorem length_encodeField (number : Nat) (value : FieldValue) :
    0 < (encodeField number value).length := by
  have htag : ∀ n, 0 < (varint n).length := by
    intro n
    rw [varint, varintLoop]
    split <;> exact Nat.succ_pos _
  have hfirst := htag (8 * number + value.wireType)
  rw [encodeField, List.length_append]
  omega

/-- The induction behind every read-back below: on the derivation of `MergesTo`, one field a step,
    with fuel for every byte still to read. -/
theorem parseFields_encode {fields : List (Nat × FieldValue)} {m m' : M}
    (h : MergesTo merge fields m m') :
    ∀ fuel, (encodeFields fields).length ≤ fuel →
      parseFields merge fuel (encodeFields fields) m = (true, m') := by
  induction h with
  | nil m =>
    intro fuel _
    cases fuel <;> rfl
  | @cons number value fields m m₁ m' hpos hnumber hfits hmerge _ ih =>
    intro fuel hfuel
    have hsplit : encodeFields ((number, value) :: fields)
        = encodeField number value ++ encodeFields fields := rfl
    have hfield := length_encodeField number value
    rw [hsplit, List.length_append] at hfuel
    cases fuel with
    | zero => omega
    | succ fuel =>
      -- a field has at least its tag, so the loop does not stop in front of it
      have hnonempty : ¬ (encodeField number value ++ encodeFields fields).isEmpty = true := by
        intro hempty
        have hlength := congrArg List.length (List.isEmpty_iff.mp hempty)
        rw [List.length_append, List.length_nil] at hlength
        omega
      rw [hsplit, parseFields, if_neg hnonempty, readField_encode value _ hpos hnumber hfits]
      dsimp only
      rw [hmerge]
      exact ih fuel (by omega)

/-- **A message is read back**, into what its fields make of a new one. -/
theorem parseMessage_encode {fields : List (Nat × FieldValue)} {new m : M}
    (h : MergesTo merge fields new m) : parseMessage merge new (encodeFields fields) = (true, m) :=
  parseFields_encode h _ (Nat.le_refl _)

end

/-! ## Lengths

  The header of a message has its length in front, as an `int32`.  So it has to be bounded, and a
  generous bound will do. -/

/-- A varint has at most as many bytes as the loop has rounds. -/
theorem length_varintLoop (fuel : Nat) : ∀ n, (varintLoop fuel n).length ≤ fuel := by
  induction fuel with
  | zero => exact fun n => Nat.le_refl 0
  | succ fuel ih =>
    intro n
    rw [varintLoop]
    split
    · simp
    · have hrest := ih (n / 128)
      rw [List.length_cons]
      omega

/-- Tag of ten bytes at most, then eight: a job id adds at most eighteen bytes. -/
theorem length_fixed64Field (number : Nat) (v : Option UInt64) :
    (fixed64Field number v).length ≤ 18 := by
  cases v with
  | none => exact Nat.zero_le _
  | some v =>
    have htag := length_varintLoop 10 (8 * number + 1)
    rw [fixed64Field, List.length_append, LittleEndian.length_bytes, varint]
    omega

/-- Tag and value of ten bytes each at most. -/
theorem length_varintField (number : Nat) (n : Option Nat) : (varintField number n).length ≤ 20 := by
  cases n with
  | none => exact Nat.zero_le _
  | some n =>
    have htag := length_varintLoop 10 (8 * number)
    have hvalue := length_varintLoop 10 n
    rw [varintField, List.length_append, varint, varint]
    omega

/-! ## The messages the client sends

  For each message its fields as a list; that the bytes of the message are those of the list; and
  that merging the list rebuilds the message. -/

/-- An optional field. -/
def optionalField (number : Nat) (value : Option FieldValue) : List (Nat × FieldValue) :=
  (value.map fun v => (number, v)).toList

/-- An optional number is one field or none, in the general encoding. -/
theorem varintField_eq (number : Nat) (n : Option Nat) :
    varintField number n = encodeFields (optionalField number (n.map .varint)) := by
  cases n with
  | none => rfl
  | some n => exact (List.append_nil _).symm

/-- An optional job id is one field or none, in the general encoding. -/
theorem fixed64Field_eq (number : Nat) (v : Option UInt64) :
    fixed64Field number v = encodeFields (optionalField number (v.map .fixed64)) := by
  cases v with
  | none => rfl
  | some v => exact (List.append_nil _).symm

/-- A byte string is one field, in the general encoding. -/
theorem bytesField_eq (number : Nat) (data : Bytes) :
    bytesField number data = encodeField number (.bytes data) := List.append_assoc _ _ _

/-- Sixty-four bits of an `int32` are as good as thirty-two. -/
theorem toInt32_varint (i : Int32) :
    (UInt32.ofNat i.toInt64.toUInt64.toNat).toInt32 = i := by
  apply Int32.toBitVec_inj.mp
  show BitVec.ofNat 32 (i.toBitVec.signExtend 64).toNat = i.toBitVec
  rw [BitVec.ofNat_toNat]
  ext k hk
  rw [BitVec.getElem_setWidth, BitVec.getLsbD_signExtend]
  simp [hk]
  omega

namespace CMsgProtoBufHeader

def fields (m : CMsgProtoBufHeader) : List (Nat × FieldValue) :=
  optionalField 1 (m.steamid.map .fixed64) ++
    optionalField 2 ((m.clientSessionid.map fun i => i.toInt64.toUInt64.toNat).map .varint) ++
    optionalField 10 (m.jobidSource.map .fixed64) ++ optionalField 11 (m.jobidTarget.map .fixed64)

/-- Parsing the header's own fields in order rebuilds it from the default one: no field is written
    twice. -/
theorem mergesTo_fields (m : CMsgProtoBufHeader) (h : m.otherFields = []) :
    MergesTo merge m.fields .new m := by
  obtain ⟨steamid, clientSessionid, jobidSource, jobidTarget, otherFields⟩ := m
  obtain rfl : otherFields = [] := h
  -- field by field, each of them present or absent
  have hsteamid : MergesTo merge (optionalField 1 (steamid.map .fixed64)) .new
      ⟨steamid, none, none, none, []⟩ := by
    cases steamid with
    | none => exact .nil _
    | some v => exact .cons (by omega) (by omega) trivial rfl (.nil _)
  have hsession : MergesTo merge (optionalField 2
      ((clientSessionid.map fun i => i.toInt64.toUInt64.toNat).map .varint))
      ⟨steamid, none, none, none, []⟩ ⟨steamid, clientSessionid, none, none, []⟩ := by
    cases clientSessionid with
    | none => exact .nil _
    | some i =>
      refine .cons (by omega) (by omega) (UInt64.toNat_lt _) ?_ (.nil _)
      show (true, CMsgProtoBufHeader.mk steamid (some _) none none []) = _
      rw [toInt32_varint]
  have hsource : MergesTo merge (optionalField 10 (jobidSource.map .fixed64))
      ⟨steamid, clientSessionid, none, none, []⟩
      ⟨steamid, clientSessionid, jobidSource, none, []⟩ := by
    cases jobidSource with
    | none => exact .nil _
    | some v => exact .cons (by omega) (by omega) trivial rfl (.nil _)
  have htarget : MergesTo merge (optionalField 11 (jobidTarget.map .fixed64))
      ⟨steamid, clientSessionid, jobidSource, none, []⟩
      ⟨steamid, clientSessionid, jobidSource, jobidTarget, []⟩ := by
    cases jobidTarget with
    | none => exact .nil _
    | some v => exact .cons (by omega) (by omega) trivial rfl (.nil _)
  exact ((hsteamid.append hsession).append hsource).append htarget

/-- The header's bytes are the encoding of its fields, so `parseFields_encode` speaks of them. -/
theorem wire_eq (m : CMsgProtoBufHeader) (h : m.otherFields = []) :
    m.wire = encodeFields m.fields := by
  rw [wire, h, List.append_nil, fixed64Field_eq, varintField_eq, fixed64Field_eq, fixed64Field_eq,
    fields, encodeFields_append, encodeFields_append, encodeFields_append]

/-- They are short. -/
theorem length_wire (m : CMsgProtoBufHeader) (h : m.otherFields = []) : m.wire.length ≤ 74 := by
  have hsteamid := length_fixed64Field 1 m.steamid
  have hsession := length_varintField 2 (m.clientSessionid.map fun i => i.toInt64.toUInt64.toNat)
  have hsource := length_fixed64Field 10 m.jobidSource
  have htarget := length_fixed64Field 11 m.jobidTarget
  rw [wire, h, List.append_nil, List.length_append, List.length_append, List.length_append]
  omega

/-- **The headers the client writes are read back.** -/
theorem readsBack_wire (m : CMsgProtoBufHeader) (h : m.otherFields = []) :
    Protobuf.wireFormat.header.ReadsBack m := by
  intro data hdata
  obtain rfl := Option.some.inj hdata
  rw [m.wire_eq h]
  exact parseMessage_encode (m.mergesTo_fields h)

end CMsgProtoBufHeader

namespace AppInfoRequest

/-- Both optional numbers of a request entry, in every combination of present and absent. -/
theorem mergesTo_fields (m : AppInfoRequest) :
    MergesTo merge (optionalField 1 ((m.appid.map UInt32.toNat).map .varint) ++
      optionalField 2 ((m.accessToken.map UInt64.toNat).map .varint)) ⟨none, none⟩ m := by
  obtain ⟨appid, accessToken⟩ := m
  have happid : MergesTo merge (optionalField 1 ((appid.map UInt32.toNat).map .varint))
      ⟨none, none⟩ ⟨appid, none⟩ := by
    cases appid with
    | none => exact .nil _
    | some v =>
      have hlt := v.toNat_lt
      refine .cons (by omega) (by omega) (show v.toNat < 2 ^ 64 by omega) ?_ (.nil _)
      show (true, AppInfoRequest.mk (some (UInt32.ofNat v.toNat)) none) = _
      rw [UInt32.ofNat_toNat]
  have htoken : MergesTo merge (optionalField 2 ((accessToken.map UInt64.toNat).map .varint))
      ⟨appid, none⟩ ⟨appid, accessToken⟩ := by
    cases accessToken with
    | none => exact .nil _
    | some v =>
      refine .cons (by omega) (by omega) v.toNat_lt ?_ (.nil _)
      show (true, AppInfoRequest.mk appid (some (UInt64.ofNat v.toNat))) = _
      rw [UInt64.ofNat_toNat]
  exact happid.append htoken

/-- The entry stays far below the bound of a length-delimited field. -/
theorem length_wire (m : AppInfoRequest) : m.wire.length ≤ 40 := by
  have happid := length_varintField 1 (m.appid.map UInt32.toNat)
  have htoken := length_varintField 2 (m.accessToken.map UInt64.toNat)
  rw [wire, List.length_append]
  omega

/-- The entry is read back whole. -/
theorem parse_wire (m : AppInfoRequest) : parseMessage merge ⟨none, none⟩ m.wire = (true, m) := by
  rw [wire, varintField_eq, varintField_eq, ← encodeFields_append]
  exact parseMessage_encode m.mergesTo_fields

end AppInfoRequest

namespace CMsgClientPICSProductInfoRequest

/-- **So are the requests.** -/
theorem readsBack_wire (m : CMsgClientPICSProductInfoRequest) :
    Protobuf.wireFormat.productInfoRequest.ReadsBack m := by
  -- the apps accumulate in order, each parsed from its own payload
  have hmerges : ∀ apps read,
      MergesTo merge (apps.map fun app => (2, .bytes app.wire)) ⟨read⟩ ⟨read ++ apps⟩ := by
    intro apps
    induction apps with
    | nil =>
      intro read
      rw [List.append_nil]
      exact .nil _
    | cons app apps ih =>
      intro read
      have hlength := app.length_wire
      rw [List.append_cons]
      refine .cons (by omega) (by omega) (show app.wire.length < 2 ^ 64 by omega) ?_ (ih _)
      show ((parseMessage AppInfoRequest.merge ⟨none, none⟩ app.wire).1,
        CMsgClientPICSProductInfoRequest.mk
          (read ++ [(parseMessage AppInfoRequest.merge ⟨none, none⟩ app.wire).2])) = _
      rw [app.parse_wire]
  intro data hdata
  obtain rfl := Option.some.inj hdata
  have hwire : m.wire = encodeFields (m.apps.map fun app => (2, .bytes app.wire)) := by
    rw [wire, encodeFields, List.flatMap_map]
    exact congrArg (fun f => m.apps.flatMap f) (funext fun app => bytesField_eq 2 app.wire)
  rw [hwire]
  exact parseMessage_encode (hmerges m.apps [])

end CMsgClientPICSProductInfoRequest

end SteamMin.Messages
