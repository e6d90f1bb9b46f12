/-
  TYPED VALUES — the templates of `stream.hpp` and the helpers of `msgbase.hpp`.

  Two codecs for the same wire format: `Stream` shifts the bytes of an integer out and in, `MsgBase`
  copies the memory of the host, whose byte order is a parameter.  `Stream.lean` and `Message.lean`
  have what the handshake needs of them; here are the templates, for every integer type, and the
  operations it shares with them are theirs (`readInt32_eq`, `writeInt32_eq`).

  An `Item` is one thing that is written to a stream, and its `Shape` is what the reader must know of
  it; a `MsgItem` is the same for a message.

  The reading side does not know what was written; it is told the shapes.  `typedValues_readBack`
  is stated for a reader that starts at any boundary between two items, with everything that was
  written before and behind it, and it says where the cursor ends.
-/
import SteamMin.Messages.Message
import SteamMin.Lib.MachineInt
import SteamMin.Lib.ReadBack

namespace SteamMin.Messages

open MachineInt ReadBack

/-! ## `Stream`

  Its writers and readers shift the bytes of a value, the low ones first, so they are the same on
  every host. -/

namespace Stream

/-- `Length()` -/
def length (s : Stream) : Nat :=
  match s.readBuffer with
  | some input => input.length
  | none => s.buffer.length

/-- `Write<T>(value)` -/
def write (t : IntType) (value : t.Value) : Streaming Unit := append (t.shiftBytes value)

/-- `Read<T>()` -/
def read (t : IntType) : Streaming t.Value := do
  let field ← readRange t.size
  pure (t.assemble field)

/-- `ReadBytes(size)` -/
def readBytes (size : Nat) : Streaming Bytes := readRange size

/-- The bytes a vector may have.  A real one never has more than `PTRDIFF_MAX`; where the lists of
    the model are longer, what lies in them still fits. -/
def maxSize (input : Bytes) : Nat := max (2 ^ 63 - 1) input.length

/-- `ReadArray<T>(count)`, whose own guard comes before those of the reads, and `reserve` between
    them. -/
def readArray (t : IntType) (count : Nat) : Streaming (List t.Value) := do
  let s ← get
  match s.readBuffer with
  | none => raise "Stream is in write mode"
  | some input =>
    if input.length < sizeT (s.position + t.size * count) then raise "Stream underflow"
    else if maxSize input < t.size * count then throw (.throws (.lengthError "vector::reserve"))
    else times count (read t)

end Stream

/-- What is written to a stream. -/
inductive Item
  /-- `Write<T>`, `Read<T>` -/
  | value (t : IntType) (v : t.Value)
  /-- `Write<T>` for each, `ReadArray<T>` -/
  | array (t : IntType) (vs : List t.Value)
  /-- `Write` of bytes, `ReadBytes` -/
  | blob (data : Bytes)

/-- What the reader is told. -/
inductive Shape
  | value (t : IntType)
  | array (t : IntType) (count : Nat)
  | blob (size : Nat)

/-- The reader asks for the type, the number or the size that was written. -/
def Item.shape : Item → Shape
  | .value t _ => .value t
  | .array t vs => .array t vs.length
  | .blob data => .blob data.length

/-- The call of the writer. -/
def Stream.writeItem : Item → Streaming Unit
  | .value t v => Stream.write t v
  | .array t vs => forM vs (Stream.write t)
  | .blob data => Stream.writeBytes data

/-- The call of the reader. -/
def Stream.readItem : Shape → Streaming Item
  | .value t => do pure (.value t (← Stream.read t))
  | .array t count => do pure (.array t (← Stream.readArray t count))
  | .blob size => do pure (.blob (← Stream.readBytes size))

/-! ## `MsgBase`

  The second codec copies the memory of a value, so the byte order of the host is a parameter. -/

namespace MsgBase

/-- `WriteByte(b)` -/
def writeByte (b : Byte) (m : MsgBase) : MsgBase := { m with payload := m.payload ++ [b] }

/-- `WriteValue<T>(value)` -/
def writeValue (order : ByteOrder) (t : IntType) (value : t.Value) (m : MsgBase) : MsgBase :=
  { m with payload := m.payload ++ t.memory order value }

/-- `WriteString(str)`: the characters alone, without a terminator. -/
def writeString (str : Bytes) (m : MsgBase) : MsgBase := { m with payload := m.payload ++ str }

/-- `WriteNullTermString(str)`: the characters and a terminator. -/
def writeNullTermString (str : Bytes) (m : MsgBase) : MsgBase :=
  let m := m.writeString str
  { m with payload := m.payload ++ [0] }

/-- `throw std::out_of_range("Read past end")` -/
def readPastEnd {α : Type} : EStateM Fault MsgBase α :=
  throw (.throws (.outOfRange "Read past end"))

/-- `ReadByte()` -/
def readByte : EStateM Fault MsgBase Byte := do
  let m ← get
  match m.payload[m.readPos]? with
  | none => readPastEnd
  | some b =>
    set { m with readPos := m.readPos + 1 }
    pure b

/-- `ReadValue<T>()` -/
def readValue (order : ByteOrder) (t : IntType) : EStateM Fault MsgBase t.Value := do
  let m ← get
  if m.payload.length < sizeT (m.readPos + t.size) then readPastEnd
  else if m.readPos + t.size ≤ m.payload.length then
    set { m with readPos := m.readPos + t.size }
    pure (t.ofMemory order ((m.payload.drop m.readPos).take t.size))
  else throw .undefined

/-- A string ends at its zero byte, which is skipped, or at the end of the payload.  The loop and the
    increment behind it ask whether the cursor is in the payload: from behind it no byte is looked
    at, the string is empty, and the cursor stays. -/
def readNullTermString : EStateM Fault MsgBase Bytes := do
  let m ← get
  let result := (m.payload.drop m.readPos).takeWhile (· ≠ 0)
  let stop := m.readPos + result.length
  set { m with readPos := if stop < m.payload.length then stop + 1 else stop }
  pure result

/-- `Seek(pos)`, unchecked: a position behind the payload is taken as it is. -/
def seek (pos : Nat) (m : MsgBase) : MsgBase := { m with readPos := pos }

/-- `Tell()` -/
def tell (m : MsgBase) : Nat := m.readPos

end MsgBase

/-- A string without a zero byte. -/
abbrev NulFree : Type := { str : Bytes // (0 : Byte) ∉ str }

/-- What is written to a message; bytes are read one by one. -/
inductive MsgItem
  | byte (b : Byte)
  | bytes (data : Bytes)
  | value (t : IntType) (v : t.Value)
  | string (str : NulFree)

/-- What the reader of a message is told. -/
inductive MsgShape
  | byte
  | bytes (size : Nat)
  | value (t : IntType)
  | string

/-- The reader asks for what was written. -/
def MsgItem.shape : MsgItem → MsgShape
  | .byte _ => .byte
  | .bytes data => .bytes data.length
  | .value t _ => .value t
  | .string _ => .string

/-- The call of the writer. -/
def MsgBase.writeItem (order : ByteOrder) (m : MsgBase) : MsgItem → MsgBase
  | .byte b => m.writeByte b
  | .bytes data => m.writeBytes data
  | .value t v => m.writeValue order t v
  | .string str => m.writeNullTermString str.1

/-- The items as they come out, a string as its bytes. -/
inductive MsgValue
  | byte (b : Byte)
  | bytes (data : Bytes)
  | value (t : IntType) (v : t.Value)
  | string (str : Bytes)

/-- What the reader should return. -/
def MsgItem.result : MsgItem → MsgValue
  | .byte b => .byte b
  | .bytes data => .bytes data
  | .value t v => .value t v
  | .string str => .string str.1

/-- The call of the reader; a run of bytes is read one by one. -/
def MsgBase.readItem (order : ByteOrder) : MsgShape → EStateM Fault MsgBase MsgValue
  | .byte => do pure (.byte (← MsgBase.readByte))
  | .bytes size => do pure (.bytes (← times size MsgBase.readByte))
  | .value t => do pure (.value t (← MsgBase.readValue order t))
  | .string => do pure (.string (← MsgBase.readNullTermString))

/-! ## What the operations of a stream do

  Each reader takes its bytes from the front of what is left, whatever comes behind; sequences
  follow by the library. -/

namespace Stream

variable {t : IntType}

/-- The bytes of an item. -/
def encode : Item → Bytes
  | .value t v => t.shiftBytes v
  | .array t vs => vs.flatMap t.shiftBytes
  | .blob data => data

/-- A range that is there is taken. -/
theorem takes_readRange {n : Nat} {data : Bytes} (h : data.length = n) :
    Takes reading (readRange n) data data := by
  intro before behind
  have hinside : before.length + n ≤ (before ++ data ++ behind).length := by
    simp only [List.length_append]
    omega
  rw [readRange_reading hinside, List.append_assoc, List.drop_left, ← h, List.take_left]

/-- A value of any type is taken from its bytes. -/
theorem takes_read (v : t.Value) : Takes reading (read t) (t.shiftBytes v) v := by
  have htakes := (takes_readRange (IntType.length_shiftBytes v)).map t.assemble
  rwa [IntType.assemble_shiftBytes] at htakes

/-- The guard of `ReadArray` lets through what the reads will find. -/
theorem takes_readArray (vs : List t.Value) :
    Takes reading (readArray t vs.length) (vs.flatMap t.shiftBytes) vs := by
  have hreads : Takes reading (times vs.length (read t)) (vs.flatMap t.shiftBytes) vs := by
    have htimes : Takes reading (times vs.length (read t)) (vs.flatMap t.shiftBytes) (vs.map id) :=
      takes_times fun v _ => takes_read v
    rwa [List.map_id] at htimes
  intro before behind
  have hlen : (vs.flatMap t.shiftBytes).length = t.size * vs.length := by
    simp [List.length_flatMap, Nat.mul_comm]
  have hguard : ¬ (before ++ vs.flatMap t.shiftBytes ++ behind).length
      < sizeT (before.length + t.size * vs.length) := by
    have hle := sizeT_le (before.length + t.size * vs.length)
    simp only [List.length_append]
    omega
  have hreserve : ¬ maxSize (before ++ vs.flatMap t.shiftBytes ++ behind) < t.size * vs.length := by
    simp only [maxSize, List.length_append]
    omega
  rw [← hreads before behind]
  show (if _ < sizeT (before.length + t.size * vs.length) then _
    else if _ < t.size * vs.length then _ else _ : Streaming _) _ = _
  rw [if_neg hguard, if_neg hreserve]

/-- A read that returned has the size it was asked for. -/
theorem length_of_readRange {n : Nat} {s s' : Stream} {field : Bytes}
    (h : readRange n s = .ok field s') : field.length = n := by
  obtain ⟨input, -, hinside, rfl, -⟩ := readRange_eq_ok h
  rw [List.length_take, List.length_drop]
  omega

/-- A field that was read has its size, so the conversions may rely on it. -/
theorem readRange_bind_congr {α : Type} {n : Nat} {f g : Bytes → Streaming α}
    (h : ∀ field : Bytes, field.length = n → f field = g field) :
    readRange n >>= f = readRange n >>= g := by
  funext s
  cases hrun : readRange n s with
  | ok field s' => rw [Calls.bind_ok hrun, Calls.bind_ok hrun, h field (length_of_readRange hrun)]
  | error e s' => rw [Calls.bind_error hrun, Calls.bind_error hrun]

/-- `Read<int32_t>()` is the read of a 32-bit word. -/
theorem readInt32_eq : readInt32 = (do pure (UInt32.ofNat (← read .int32).toNat)) := by
  show _ = (readRange 4 >>= fun field => pure (IntType.int32.assemble field)) >>= _
  rw [bind_assoc]
  refine readRange_bind_congr fun field hfield => ?_
  rw [pure_bind, IntType.toNat_assemble (t := .int32) hfield]
  rfl

/-- A word is read where it was written. -/
theorem takes_readInt32 (w : UInt32) :
    Takes reading readInt32 (LittleEndian.bytes 4 w.toNat) w := by
  have hread := (takes_readRange (LittleEndian.length_bytes 4 w.toNat)).map LittleEndian.word32
  rwa [LittleEndian.word32_bytes] at hread

/-- The fixed 64-bit reader takes its eight bytes. -/
theorem takes_readInt64 (w : UInt64) :
    Takes reading readInt64 (LittleEndian.bytes 8 w.toNat) w := by
  have hread := (takes_readRange (LittleEndian.length_bytes 8 w.toNat)).map LittleEndian.word64
  rwa [LittleEndian.word64_bytes] at hread

/-- A word is written as one of either sign. -/
theorem writeInt32_eq (value : UInt32) :
    writeInt32 value = write .uint32 (BitVec.ofNat _ value.toNat) ∧
      writeInt32 value = write .int32 (BitVec.ofNat _ value.toNat) := by
  constructor
  · exact congrArg append (IntType.shiftBytes_ofNat (t := .uint32) value.toNat_lt).symm
  · exact congrArg append (IntType.shiftBytes_ofNat (t := .int32) value.toNat_lt).symm

/-- **A stream reads each item** where its bytes stand. -/
theorem takes_readItem (item : Item) :
    Takes reading (readItem item.shape) (encode item) item := by
  cases item with
  | value t v => exact (takes_read v).map (Item.value t)
  | array t vs => exact (takes_readArray vs).map (Item.array t)
  | blob data => exact (takes_readRange rfl).map Item.blob

/-- An item is appended as its encoding. -/
theorem appends_writeItem (item : Item) : Appends (writeItem item) (encode item) := by
  cases item with
  | value t v => exact appends_append _
  | array t vs => exact appends_forM fun v _ => appends_append _
  | blob data => exact appends_append _

/-- A sequence of items is written as their bytes. -/
theorem written_items (items : List Item) :
    Stream.written (forM items writeItem) = .ok (items.flatMap encode) :=
  (appends_forM fun item _ => appends_writeItem item).written

/-- From a boundary between two items the rest is read. -/
theorem readItems_fromBoundary (done rest : List Item) :
    (rest.map Item.shape).mapM readItem
        (reading ((done ++ rest).flatMap encode) (done.flatMap encode).length)
      = .ok rest (reading ((done ++ rest).flatMap encode) ((done ++ rest).flatMap encode).length) := by
  have hrun : (rest.map Item.shape).mapM readItem
        (reading ((done ++ rest).flatMap encode) (done.flatMap encode).length)
      = .ok (rest.map id)
          (reading ((done ++ rest).flatMap encode) ((done ++ rest).flatMap encode).length) :=
    fromBoundary fun item _ => takes_readItem item
  rwa [List.map_id] at hrun

end Stream

/-! ## What the operations of a message do

  The same for the second codec. -/

namespace MsgBase

variable {order : ByteOrder} {t : IntType}

/-- The bytes of an item. -/
def encode (order : ByteOrder) : MsgItem → Bytes
  | .byte b => [b]
  | .bytes data => data
  | .value t v => t.memory order v
  | .string str => str.1 ++ [0]

/-- A byte of the payload is taken. -/
theorem takes_readByte (b : Byte) : Takes MsgBase.mk readByte [b] b := by
  intro before behind
  have hget : (before ++ [b] ++ behind)[before.length]? = some b := by
    simp
  rw [readByte, Calls.get_bind]
  simp only [hget]
  rfl

/-- A run of bytes is taken, byte by byte. -/
theorem takes_readBytes (data : Bytes) :
    Takes MsgBase.mk (times data.length readByte) data data := by
  have htimes : Takes MsgBase.mk (times data.length readByte) (data.flatMap fun b => [b])
      (data.map id) := takes_times fun b _ => takes_readByte b
  rwa [List.map_id, List.flatMap_singleton'] at htimes

/-- A value is taken from its representation, in the byte order of the machine. -/
theorem takes_readValue (v : t.Value) :
    Takes MsgBase.mk (readValue order t) (t.memory order v) v := by
  intro before behind
  have hlen := IntType.length_memory order v
  have hinside : before.length + t.size ≤ (before ++ t.memory order v ++ behind).length := by
    simp only [List.length_append, hlen]
    omega
  have hguard : ¬ (before ++ t.memory order v ++ behind).length < sizeT (before.length + t.size) := by
    have hle := sizeT_le (before.length + t.size)
    omega
  have hfield : ((before ++ t.memory order v ++ behind).drop before.length).take t.size
      = t.memory order v := by
    rw [List.append_assoc, List.drop_left, ← hlen, List.take_left]
  show (if _ < sizeT (before.length + t.size) then readPastEnd
    else if before.length + t.size ≤ _ then _ else throw .undefined :
      EStateM Fault MsgBase t.Value) _ = _
  rw [if_neg hguard, if_pos hinside]
  show EStateM.Result.ok (t.ofMemory order (((before ++ t.memory order v ++ behind).drop
    before.length).take t.size)) _ = _
  rw [hfield, IntType.ofMemory_memory, hlen]

/-- The zero byte behind a string is the first. -/
theorem takes_readNullTermString (str : NulFree) :
    Takes MsgBase.mk readNullTermString (str.1 ++ [0]) str.1 := by
  intro before behind
  have hresult : ((before ++ (str.1 ++ [0]) ++ behind).drop before.length).takeWhile (· ≠ 0)
      = str.1 := by
    have hne : ∀ b ∈ str.1, decide (b ≠ 0) = true := by
      intro b hb
      have hb0 : b ≠ 0 := fun h => str.2 (h ▸ hb)
      simp [hb0]
    rw [List.append_assoc, List.drop_left, List.append_assoc, List.takeWhile_append_of_pos hne]
    simp
  have hstop : before.length + str.1.length < (before ++ (str.1 ++ [0]) ++ behind).length := by
    simp only [List.length_append, List.length_singleton]
    omega
  rw [readNullTermString, Calls.get_bind]
  simp only [hresult, if_pos hstop]
  rw [List.length_append, List.length_singleton, ← Nat.add_assoc]
  rfl

/-- **A message reads each item** where its bytes stand. -/
theorem takes_readItem (item : MsgItem) :
    Takes MsgBase.mk (readItem order item.shape) (encode order item) item.result := by
  cases item with
  | byte b => exact (takes_readByte b).map MsgValue.byte
  | bytes data => exact (takes_readBytes data).map MsgValue.bytes
  | value t v => exact (takes_readValue v).map (MsgValue.value t)
  | string str => exact (takes_readNullTermString str).map MsgValue.string

/-- A sequence of items is written behind what is there. -/
theorem payload_writeItems (items : List MsgItem) (m : MsgBase) :
    (items.foldl (writeItem order) m).payload = m.payload ++ items.flatMap (encode order) := by
  induction items generalizing m with
  | nil => simp
  | cons item items ih =>
    have hone : (m.writeItem order item).payload = m.payload ++ encode order item := by
      cases item with
      | string str => exact List.append_assoc _ _ _
      | _ => rfl
    rw [List.foldl_cons, ih, hone, List.flatMap_cons, List.append_assoc]

/-- From any boundary the items behind it are read back, by induction on them; what stands before
    does not matter. -/
theorem readItems_fromBoundary (order : ByteOrder) (done rest : List MsgItem) :
    (rest.map MsgItem.shape).mapM (readItem order)
        ⟨(done ++ rest).flatMap (encode order), (done.flatMap (encode order)).length⟩
      = .ok (rest.map MsgItem.result) ⟨(done ++ rest).flatMap (encode order),
          ((done ++ rest).flatMap (encode order)).length⟩ :=
  fromBoundary fun item _ => takes_readItem item

end MsgBase

/-! ## The two together

  On a little-endian host the two agree byte for byte. -/

/-- The same in a message: an array as its values. -/
def Item.inMessage : Item → List MsgItem
  | .value t v => [.value t v]
  | .array t vs => vs.map fun v => .value t v
  | .blob data => [.bytes data]

/-- On a little-endian host an item has the same bytes in both. -/
theorem encode_inMessage (item : Item) :
    item.inMessage.flatMap (MsgBase.encode .little) = Stream.encode item := by
  cases item with
  | value t v =>
    simp [Item.inMessage, MsgBase.encode, Stream.encode, IntType.memory_little]
  | array t vs =>
    simp [Item.inMessage, MsgBase.encode, Stream.encode, IntType.memory_little, List.flatMap_map]
  | blob data => simp [Item.inMessage, MsgBase.encode, Stream.encode]

/-- On a little-endian machine the two codecs write the same bytes. -/
theorem encode_flatMap_inMessage (items : List Item) :
    (items.flatMap Item.inMessage).flatMap (MsgBase.encode .little)
      = items.flatMap Stream.encode := by
  rw [List.flatMap_assoc]
  simp only [encode_inMessage]

/-- **Round trips.**  What is written to a stream is read from it, from every boundary between two
    items and up to the end; the same of a message on any host; and on a little-endian host the two
    write the same bytes, so that each reads what the other has written. -/
theorem typedValues_readBack :
    (∀ done rest : List Item, ∃ buffer front,
      Stream.written (forM (done ++ rest) Stream.writeItem) = .ok buffer ∧
      Stream.written (forM done Stream.writeItem) = .ok front ∧
      ∃ s, (rest.map Item.shape).mapM Stream.readItem (Stream.reading buffer front.length)
          = .ok rest s ∧ s.position = s.length) ∧
    (∀ (order : ByteOrder) (done rest : List MsgItem),
      ∃ m, (rest.map MsgItem.shape).mapM (MsgBase.readItem order)
          (((done ++ rest).foldl (MsgBase.writeItem order) .new).seek
            (done.foldl (MsgBase.writeItem order) .new).payload.length)
          = .ok (rest.map MsgItem.result) m ∧ m.tell = m.payload.length) ∧
    ∀ items : List Item, ∃ buffer, Stream.written (forM items Stream.writeItem) = .ok buffer ∧
      ((items.flatMap Item.inMessage).foldl (MsgBase.writeItem .little) .new).payload = buffer ∧
      (∃ s, (items.map Item.shape).mapM Stream.readItem (Stream.reading buffer 0) = .ok items s ∧
        s.position = s.length) ∧
      ∃ m, ((items.flatMap Item.inMessage).map MsgItem.shape).mapM (MsgBase.readItem .little)
          ⟨buffer, 0⟩ = .ok ((items.flatMap Item.inMessage).map MsgItem.result) m ∧
        m.tell = m.payload.length := by
  refine ⟨?_, ?_, ?_⟩
  · intro done rest
    exact ⟨_, _, Stream.written_items _, Stream.written_items _, _,
      Stream.readItems_fromBoundary done rest, rfl⟩
  · intro order done rest
    rw [MsgBase.seek, MsgBase.payload_writeItems, MsgBase.payload_writeItems]
    exact ⟨_, MsgBase.readItems_fromBoundary order done rest, rfl⟩
  · intro items
    -- both codecs have written the same buffer
    have hpayload : ((items.flatMap Item.inMessage).foldl (MsgBase.writeItem .little) .new).payload
        = items.flatMap Stream.encode := by
      rw [MsgBase.payload_writeItems, encode_flatMap_inMessage]
      rfl
    have hmessage := MsgBase.readItems_fromBoundary .little [] (items.flatMap Item.inMessage)
    rw [List.nil_append, encode_flatMap_inMessage] at hmessage
    exact ⟨_, Stream.written_items items, hpayload,
      ⟨_, Stream.readItems_fromBoundary [] items, rfl⟩, _, hmessage, rfl⟩

end SteamMin.Messages
