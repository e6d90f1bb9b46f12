/-
  BATCHES — `read_frame` and the loop of `handle_multi`.

  A batch is a sequence of sub-frames, each behind its length in four bytes.  The loop threads an
  offset through lengths it cannot trust, and every sub-frame it delivers may do anything to the
  client, so the result is stated for whatever stands in the place of `consume_frame`:

  * `BatchSplit s frames rest` — `s` is `frames`, each behind its length, and a `rest` in which no
    sub-frame can be read; it is the decomposition of a framed stream (`batchSplit_iff`), so there
    is exactly one;
  * `multiLoop_eq` — the loop is one call for each of these frames, in order;
  * `handleMulti_delivers` — so is the handler, and what one sub-frame throws keeps none of the
    others from being consumed.
-/
import SteamMin.Client.SecuredFrames
import SteamMin.Messages.WireFormat
import SteamMin.Lib.Framing

namespace SteamMin.Client

open Messages Crypto

/-! ## What a batch is

  The payload of a Multi packet as a stream in the general frame format, whose header is the
  length alone.  That there is one decomposition is a fact about the format. -/

/-- `len(f1) f1 ++ … ++ len(fk) fk` -/
def batchOf : List Bytes → Bytes
  | [] => []
  | f :: fs => LittleEndian.bytes 4 f.length ++ f ++ batchOf fs

/-- Too short for a length, or for the bytes it announces. -/
def NoSubFrame (rest : Bytes) : Prop :=
  rest.length < 4 ∨ rest.length < 4 + (LittleEndian.word32 (rest.take 4)).toNat

/-- A payload as the frames in it and a rest that holds no whole frame. -/
structure BatchSplit (s : Bytes) (frames : List Bytes) (rest : Bytes) : Prop where
  eq : s = batchOf frames ++ rest
  /-- the length of a sub-frame fits into its four bytes -/
  fits : ∀ f ∈ frames, f.length < 2 ^ 32
  rest : NoSubFrame rest

/-- Sub-frames are frames whose header is the length. -/
def subFrameFormat : Framing.Format Byte where
  headerSize := 4
  headerSize_pos := by decide
  bodySize hdr := some (LittleEndian.word32 hdr).toNat

/-- A length below four gigabytes survives the length word. -/
theorem word32_length {n : Nat} (h : n < 2 ^ 32) :
    (LittleEndian.word32 (LittleEndian.bytes 4 n)).toNat = n := by
  have hword := LittleEndian.word32_bytes (UInt32.ofNat n)
  rw [UInt32.toNat_ofNat_of_lt' h] at hword
  rw [hword, UInt32.toNat_ofNat_of_lt' h]

/-- A frame of a batch is its length and its bytes: there is no magic word. -/
theorem isFrame_iff {hdr body : Bytes} :
    Framing.IsFrame subFrameFormat hdr body
      ↔ hdr = LittleEndian.bytes 4 body.length ∧ body.length < 2 ^ 32 := by
  constructor
  · rintro ⟨hheader, hbody⟩
    have hlen : (LittleEndian.word32 hdr).toNat = body.length := Option.some.inj hbody
    rw [← hlen]
    exact ⟨(LittleEndian.bytes_word32 hheader).symm, UInt32.toNat_lt _⟩
  · rintro ⟨rfl, hlt⟩
    exact ⟨LittleEndian.length_bytes 4 _, congrArg some (word32_length hlt)⟩

/-- So a stream of frames is a batch. -/
theorem frames_iff {fs : List Bytes} {r : Bytes} :
    Framing.Frames subFrameFormat fs r ↔ r = batchOf fs ∧ ∀ f ∈ fs, f.length < 2 ^ 32 := by
  constructor
  · intro h
    induction h with
    | nil => exact ⟨rfl, by simp⟩
    | cons hframe _ ih =>
      obtain ⟨rfl, hlt⟩ := isFrame_iff.mp hframe
      obtain ⟨rfl, hfits⟩ := ih
      exact ⟨rfl, List.forall_mem_cons.mpr ⟨hlt, hfits⟩⟩
  · rintro ⟨rfl, hfits⟩
    induction fs with
    | nil => exact .nil
    | cons f fs ih =>
      obtain ⟨hlt, hfits⟩ := List.forall_mem_cons.mp hfits
      exact .cons (isFrame_iff.mpr ⟨rfl, hlt⟩) (ih hfits)

/-- Where the general format is stuck, `read_frame` finds nothing. -/
theorem stuck_iff {rest : Bytes} : Framing.Stuck subFrameFormat rest ↔ NoSubFrame rest := by
  constructor
  · intro h
    by_cases hlen : rest.length < 4
    · exact .inl hlen
    · exact .inr (h (Nat.le_of_not_lt hlen) _ rfl)
  · rintro (hlen | hlen) hle n hn
    · exact absurd hlen (Nat.not_lt.mpr hle)
    · rw [← Option.some.inj hn]
      exact hlen

/-- A split of a batch is the decomposition of a framed stream. -/
theorem batchSplit_iff {s rest : Bytes} {frames : List Bytes} :
    BatchSplit s frames rest ↔ Framing.Decomposes subFrameFormat s frames rest := by
  constructor
  · rintro ⟨rfl, hfits, hrest⟩
    exact ⟨⟨_, frames_iff.mpr ⟨rfl, hfits⟩, rfl⟩, stuck_iff.mpr hrest⟩
  · rintro ⟨⟨r, hframes, rfl⟩, hstuck⟩
    obtain ⟨rfl, hfits⟩ := frames_iff.mp hframes
    exact ⟨rfl, hfits, stuck_iff.mp hstuck⟩

/-- Every payload splits. -/
theorem exists_batchSplit (s : Bytes) : ∃ frames rest, BatchSplit s frames rest := by
  obtain ⟨frames, rest, h⟩ := Framing.exists_decomposes (F := subFrameFormat) s
  exact ⟨frames, rest, batchSplit_iff.mpr h⟩

/-- In one way only. -/
theorem BatchSplit.unique {s rest rest' : Bytes} {frames frames' : List Bytes}
    (h : BatchSplit s frames rest) (h' : BatchSplit s frames' rest') :
    frames' = frames ∧ rest' = rest :=
  (batchSplit_iff.mp h).unique (batchSplit_iff.mp h')

/-- A batch that was built from frames splits into them. -/
theorem batchSplit_batchOf {frames : List Bytes} (hfits : ∀ f ∈ frames, f.length < 2 ^ 32) :
    BatchSplit (batchOf frames) frames [] :=
  ⟨(List.append_nil _).symm, hfits, .inl (by decide)⟩

/-! ## `read_frame`

  Its two copies are checked here for the range they take; the checks cannot fail.  Then, what it
  returns is what stands at the front of the rest. -/

/-- A copy of `n` bytes from `offset` on. -/
def copyRange (payload : Bytes) (offset n : Nat) : Except Fault Bytes :=
  if offset + n ≤ payload.length then .ok ((payload.drop offset).take n) else .error .undefined

/-- `read_frame` with both of its copies checked. -/
def readFrameChecked (payload : Bytes) (offset : Nat) : Except Fault (Option (Bytes × Nat)) :=
  if payload.length < offset + 4 then .ok none
  else do
    let subSize := (LittleEndian.word32 (← copyRange payload offset 4)).toNat
    let offset := offset + 4
    if payload.length < offset + subSize then .ok none
    else do
      let out ← copyRange payload offset subSize
      .ok (some (out, offset + subSize))

/-- The checks never fail: no byte outside the payload is read. -/
theorem readFrameChecked_eq (payload : Bytes) (offset : Nat) :
    readFrameChecked payload offset = .ok (readFrame payload offset) := by
  rw [readFrameChecked, readFrame]
  by_cases hlen : payload.length < offset + 4
  · rw [if_pos hlen, if_pos hlen]
  · have hword : copyRange payload offset 4 = .ok ((payload.drop offset).take 4) :=
      if_pos (by omega)
    rw [if_neg hlen, if_neg hlen, hword]
    show (if payload.length < offset + 4
        + (LittleEndian.word32 ((payload.drop offset).take 4)).toNat then _ else _) = _
    by_cases hsub : payload.length
        < offset + 4 + (LittleEndian.word32 ((payload.drop offset).take 4)).toNat
    · rw [if_pos hsub, if_pos hsub]
    · have hframe : copyRange payload (offset + 4)
            (LittleEndian.word32 ((payload.drop offset).take 4)).toNat
          = .ok ((payload.drop (offset + 4)).take
              (LittleEndian.word32 ((payload.drop offset).take 4)).toNat) :=
        if_pos (by omega)
      rw [if_neg hsub, if_neg hsub, hframe]
      rfl

section
variable {payload t : Bytes} {offset : Nat}

/-- In front of a rest without a whole frame `read_frame` gives up. -/
theorem readFrame_none (h : NoSubFrame (payload.drop offset)) : readFrame payload offset = none := by
  rw [NoSubFrame, List.length_drop] at h
  rw [readFrame]
  by_cases hlen : payload.length < offset + 4
  · rw [if_pos hlen]
  · rw [if_neg hlen]
    exact if_pos (by omega)

/-- In front of a frame `read_frame` cuts it out and steps behind it. -/
theorem readFrame_some {f : Bytes} (hf : f.length < 2 ^ 32)
    (h : payload.drop offset = LittleEndian.bytes 4 f.length ++ f ++ t) :
    readFrame payload offset = some (f, offset + 4 + f.length) ∧
      payload.drop (offset + 4 + f.length) = t := by
  have hlen := congrArg List.length h
  rw [List.length_drop, List.length_append, List.length_append, LittleEndian.length_bytes] at hlen
  have hword : (LittleEndian.word32 ((payload.drop offset).take 4)).toNat = f.length := by
    rw [h, List.append_assoc, List.take_left' (LittleEndian.length_bytes 4 _), word32_length hf]
  have hbehind : payload.drop (offset + 4) = f ++ t := by
    rw [← List.drop_drop, h, List.append_assoc, List.drop_left' (LittleEndian.length_bytes 4 _)]
  constructor
  · rw [readFrame, if_neg (by omega), hword]
    dsimp only
    rw [if_neg (by omega), hbehind, List.take_left]
  · rw [← List.drop_drop, hbehind, List.drop_left]

/-- A frame that was read, and the offset behind it: the four bytes of its length are passed. -/
theorem readFrame_advances {f : Bytes} {offset' : Nat}
    (h : readFrame payload offset = some (f, offset')) :
    offset' = offset + 4 + f.length ∧ offset' ≤ payload.length := by
  unfold readFrame at h
  split at h
  · cases h
  · dsimp only at h
    split at h
    · cases h
    · rename_i hword hinside
      cases h
      rw [List.length_take, List.length_drop]
      omega

/-- So less of the payload is left with each frame: the fuel that was enough stays enough. -/
theorem readFrame_shorter {f : Bytes} {offset' : Nat}
    (h : readFrame payload offset = some (f, offset')) :
    (payload.drop offset').length < (payload.drop offset).length := by
  obtain ⟨hoffset, hinside⟩ := readFrame_advances h
  rw [List.length_drop, List.length_drop]
  omega

/-- The loop's offset never leaves the payload. -/
theorem LoopOffset.le (h : LoopOffset payload offset) :
    offset ≤ payload.length := by
  induction h with
  | start => exact Nat.zero_le _
  | next _ hread _ => exact (readFrame_advances hread).2

end

section
variable {s f rest : Bytes} {offset offset' : Nat} {frames : List Bytes}

/-- In front of frames and a rest, the first of the frames is read. -/
theorem readFrame_batchOf (hfits : ∀ f ∈ frames, f.length < 2 ^ 32) (hrest : NoSubFrame rest)
    (hdrop : s.drop offset = batchOf frames ++ rest)
    (hread : readFrame s offset = some (f, offset')) :
    ∃ fs, frames = f :: fs ∧ s.drop offset' = batchOf fs ++ rest := by
  cases frames with
  | nil =>
    have hnone : NoSubFrame (s.drop offset) := by
      rw [hdrop]
      exact hrest
    cases (readFrame_none hnone).symm.trans hread
  | cons g fs =>
    rw [batchOf, List.append_assoc] at hdrop
    obtain ⟨hsome, hnext⟩ := readFrame_some (hfits g List.mem_cons_self) hdrop
    cases hsome.symm.trans hread
    exact ⟨fs, rfl, hnext⟩

/-- Wherever the loop stands, there are frames of the batch and the rest in front of it. -/
theorem BatchSplit.left (h : BatchSplit s frames rest) (hoffset : LoopOffset s offset) :
    ∃ done left, frames = done ++ left ∧ (∀ f ∈ left, f.length < 2 ^ 32) ∧
      s.drop offset = batchOf left ++ rest := by
  induction hoffset with
  | start => exact ⟨[], frames, rfl, h.fits, h.eq⟩
  | @next offset offset' g _ hread ih =>
    obtain ⟨done, left, hframes, hfits, hdrop⟩ := ih
    obtain ⟨left', rfl, hdrop'⟩ := readFrame_batchOf hfits h.rest hdrop hread
    obtain ⟨-, hfits'⟩ := List.forall_mem_cons.mp hfits
    refine ⟨done ++ [g], left', ?_, hfits', hdrop'⟩
    rw [hframes, List.append_cons]

/-- What the loop reads are the frames the batch splits into. -/
theorem BatchSplit.mem (h : BatchSplit s frames rest) (hoffset : LoopOffset s offset)
    (hread : readFrame s offset = some (f, offset')) : f ∈ frames := by
  obtain ⟨done, left, hframes, hfits, hdrop⟩ := h.left hoffset
  obtain ⟨left', rfl, -⟩ := readFrame_batchOf hfits h.rest hdrop hread
  rw [hframes]
  exact List.mem_append_right done List.mem_cons_self

end

/-! ## The loop

  The loop of `handle_multi` with its fuel is a `forM` over the frames of the batch: by induction
  on these, with the offset at the boundary between two of them. -/

section
variable {C E : Type}

/-- **The loop is one call for each sub-frame**, whatever the calls do. -/
theorem multiLoop_eq (consumeFrame : Bytes → Bool → Calling C E Unit) {payload rest : Bytes}
    (hrest : NoSubFrame rest) (frames : List Bytes) (hfits : ∀ f ∈ frames, f.length < 2 ^ 32) :
    ∀ offset fuel, payload.drop offset = batchOf frames ++ rest →
      (payload.drop offset).length < fuel →
      multiLoop consumeFrame payload fuel offset = forM frames fun f => consumeFrame f false := by
  induction frames with
  | nil =>
    intro offset fuel hdrop hfuel
    obtain ⟨fuel, rfl⟩ := Nat.exists_eq_succ_of_ne_zero (Nat.ne_of_gt (Nat.zero_lt_of_lt hfuel))
    have hnone : NoSubFrame (payload.drop offset) := by
      rw [hdrop]
      exact hrest
    rw [multiLoop, readFrame_none hnone]
    rfl
  | cons f fs ih =>
    intro offset fuel hdrop hfuel
    obtain ⟨fuel, rfl⟩ := Nat.exists_eq_succ_of_ne_zero (Nat.ne_of_gt (Nat.zero_lt_of_lt hfuel))
    obtain ⟨hf, hfits⟩ := List.forall_mem_cons.mp hfits
    rw [batchOf, List.append_assoc] at hdrop
    obtain ⟨hread, hnext⟩ := readFrame_some hf hdrop
    have hshorter : (payload.drop (offset + 4 + f.length)).length < fuel :=
      Nat.lt_of_lt_of_le (readFrame_shorter hread) (Nat.le_of_lt_succ hfuel)
    rw [multiLoop, hread, List.forM_cons]
    dsimp only
    rw [ih hfits _ fuel hnext hshorter]

/-- The handler of a batch is the loop over its frames, in order, whatever `consume_frame`
    does. -/
theorem handleMulti_eq_forM {p : Platform} {packet : PacketClientMsgProtobuf} {s rest : Bytes}
    {frames : List Bytes} (hs : multiPayload p packet = .ok s) (h : BatchSplit s frames rest)
    (consumeFrame : Bytes → Bool → Calling C E Unit) :
    handleMulti p consumeFrame packet = forM frames fun f => consumeFrame f false := by
  rw [handleMulti_eq, hs]
  exact multiLoop_eq consumeFrame h.rest frames h.fits 0 (s.length + 1) h.eq (Nat.lt_succ_self _)

section
variable [IConnection C E]

/-- A sub-frame is not decrypted, and nothing its decoding or its handlers throw comes back. -/
theorem consumeFrame_clear_never_throws {p : Platform} {emit : Event → Calling C E Unit}
    {fuel : Nat} {f : Bytes} {c c' : CMClient C E} {e : Exn} :
    consumeFrame emit p fuel f false c ≠ .error (.throws e) c' := by
  cases fuel with
  | zero =>
    intro h
    cases h
  | succ fuel =>
    by_cases hlen : f.length < 4
    · rw [consumeFrame_short hlen]
      intro h
      cases h
    · exact consumeFrame_never_throws hlen rfl

/-- **A batch is delivered whole**: its payload splits into frames and a rest in exactly one way,
    nothing is read outside it, and the handler is one call of `consume_frame` for each frame, in
    order, whatever these calls do.  With the client's own `consume_frame` they are all made, each
    from the client the last one left: an exception of one is not seen by the next.  A batch made of
    frames is delivered as these frames. -/
theorem handleMulti_delivers (p : Platform) (emit : Event → Calling C E Unit) (fuel : Nat)
    (packet : PacketClientMsgProtobuf) {s : Bytes} (hs : multiPayload p packet = .ok s) :
    ∃ frames rest, BatchSplit s frames rest ∧
      (∀ frames' rest', BatchSplit s frames' rest' → frames' = frames ∧ rest' = rest) ∧
      (∀ offset, readFrameChecked s offset = .ok (readFrame s offset)) ∧
      (∀ consumeFrame : Bytes → Bool → Calling C E Unit,
        handleMulti p consumeFrame packet = forM frames fun f => consumeFrame f false) ∧
      (∀ c, handleMulti p (consumeFrame emit p fuel) packet c
          = .ok ⟨⟩ (Calls.afterEach (fun f => consumeFrame emit p fuel f false) frames c) ∨
        ∃ pre f post fault, frames = pre ++ f :: post ∧ (∀ e, fault ≠ .throws e) ∧
          consumeFrame emit p fuel f false
              (Calls.afterEach (fun f => consumeFrame emit p fuel f false) pre c)
            = .error fault
                (Calls.afterEach (fun f => consumeFrame emit p fuel f false) (pre ++ [f]) c) ∧
          handleMulti p (consumeFrame emit p fuel) packet c
            = .error fault
                (Calls.afterEach (fun f => consumeFrame emit p fuel f false) (pre ++ [f]) c)) ∧
      ∀ fs, (∀ f ∈ fs, f.length < 2 ^ 32) → s = batchOf fs → frames = fs := by
  obtain ⟨frames, rest, hsplit⟩ := exists_batchSplit s
  refine ⟨frames, rest, hsplit, fun _ _ => hsplit.unique, readFrameChecked_eq s,
    handleMulti_eq_forM hs hsplit, ?_, ?_⟩
  · intro c
    rw [handleMulti_eq_forM hs hsplit]
    -- the loop runs through, or stops at the first frame whose call does not come back
    rcases Calls.forM_cases (fun f => consumeFrame emit p fuel f false) frames c with
      hall | ⟨pre, f, post, fault, hpos, hf, hall⟩
    · exact .inl hall
    · refine .inr ⟨pre, f, post, fault, hpos, ?_, hf, hall⟩
      rintro e rfl
      -- a frame of a batch is consumed in the clear, and then nothing is thrown
      exact consumeFrame_clear_never_throws hf
  · rintro fs hfits rfl
    exact ((batchSplit_batchOf hfits).unique hsplit).1

end

/-! ## The announced size

  `handle_multi` asks whether `size_unzipped` is positive, and `gzip_decompress` ignores it.  So
  what comes out of Gunzip is consumed whatever was announced. -/

/-- The body of a Multi packet. -/
def multiBody (p : Platform) (packet : PacketClientMsgProtobuf) : CMsgMulti :=
  (p.protobuf.multi.parseFromArray (packet.payload.drop packet.bodyOffset)).2

/-- The packet changes nothing, whatever `consume_frame` would do with a sub-frame. -/
def NothingDelivered (p : Platform) (packet : PacketClientMsgProtobuf) (c : CMClient C E) : Prop :=
  ∀ consumeFrame : Bytes → Bool → Calling C E Unit,
    handleMulti p consumeFrame packet c = .ok () c ∨
      ∃ e, handleMulti p consumeFrame packet c = .error (.throws e) c

/-- Sub-frames are only consumed if Gunzip gives as many bytes as the packet announces. -/
def SizeHonoured (p : Platform) (packet : PacketClientMsgProtobuf) (c : CMClient C E) : Prop :=
  NothingDelivered p packet c ∨
    ∃ output, p.cryptoPP.gunzip (multiBody p packet).getMessageBody = .ok output ∧
      output.length = (multiBody p packet).getSizeUnzipped.toNat

section
variable {p : Platform} {packet : PacketClientMsgProtobuf} {c : CMClient C E}

/-- With an announced size the body is unzipped. -/
theorem multiPayload_eq (hsize : 0 < (multiBody p packet).getSizeUnzipped) :
    multiPayload p packet = gzipDecompress p (multiBody p packet).getMessageBody
      (multiBody p packet).getSizeUnzipped.toNat := if_pos hsize

/-- Without one it is the payload. -/
theorem multiPayload_plain (h : (multiBody p packet).getSizeUnzipped = 0) :
    multiPayload p packet = .ok (multiBody p packet).getMessageBody := by
  have hsize : ¬ 0 < (multiBody p packet).getSizeUnzipped := by
    rw [h]
    decide
  exact if_neg hsize

/-- The payload of a flagged packet is whatever Gunzip gives. -/
theorem multiPayload_gunzip (hsize : 0 < (multiBody p packet).getSizeUnzipped) {output : Bytes}
    (hgunzip : p.cryptoPP.gunzip (multiBody p packet).getMessageBody = .ok output) :
    multiPayload p packet = .ok output := by
  rw [multiPayload_eq hsize, gzipDecompress, hgunzip]

/-- A body that is no gzip stream throws what the unzipper says. -/
theorem multiPayload_badGzip (hsize : 0 < (multiBody p packet).getSizeUnzipped) {what : String}
    (hgunzip : p.cryptoPP.gunzip (multiBody p packet).getMessageBody = .error what) :
    multiPayload p packet = runtimeError what := by
  rw [multiPayload_eq hsize, gzipDecompress, hgunzip]

/-- A batch whose payload throws delivers none of its frames. -/
theorem nothingDelivered_of_throws {e : Exn} (h : multiPayload p packet = .error (.throws e)) :
    NothingDelivered p packet c := by
  intro consumeFrame
  refine .inr ⟨e, ?_⟩
  rw [handleMulti_eq, h]
  rfl

/-- Nothing is delivered of a payload exactly when no sub-frame stands at its front. -/
theorem nothingDelivered_iff {s : Bytes} (hs : multiPayload p packet = .ok s) :
    NothingDelivered p packet c ↔ NoSubFrame s := by
  obtain ⟨frames, rest, hsplit⟩ := exists_batchSplit s
  constructor
  · intro h
    cases frames with
    | nil =>
      have hrest := hsplit.rest
      rwa [show rest = s from hsplit.eq.symm] at hrest
    | cons f fs =>
      -- a `consume_frame` that does not come back would be noticed
      have hcalled : handleMulti p (fun _ _ => throw .undefined) packet c = .error .undefined c := by
        rw [handleMulti_eq_forM hs hsplit, List.forM_cons]
        rfl
      rcases h fun _ _ => throw .undefined with hok | ⟨e, hthrows⟩
      · cases hok.symm.trans hcalled
      · cases hthrows.symm.trans hcalled
  · intro h consumeFrame
    have hnone : BatchSplit s [] s := ⟨rfl, by simp, h⟩
    rw [handleMulti_eq_forM hs hnone]
    exact .inl rfl

/-- **The announced size is not looked at**: it is honoured exactly when Gunzip happens to give that
    many bytes, or fails, or gives bytes in which no sub-frame can be read. -/
theorem sizeHonoured_iff (hsize : 0 < (multiBody p packet).getSizeUnzipped) :
    SizeHonoured p packet c ↔
      ∀ output, p.cryptoPP.gunzip (multiBody p packet).getMessageBody = .ok output →
        output.length = (multiBody p packet).getSizeUnzipped.toNat ∨ NoSubFrame output := by
  constructor
  · rintro (hnothing | ⟨output', hgunzip', hlen⟩) output hgunzip
    · exact .inr ((nothingDelivered_iff (multiPayload_gunzip hsize hgunzip)).mp hnothing)
    · obtain rfl := Except.ok.inj (hgunzip'.symm.trans hgunzip)
      exact .inl hlen
  · intro h
    cases hgunzip : p.cryptoPP.gunzip (multiBody p packet).getMessageBody with
    | error what => exact .inl (nothingDelivered_of_throws (multiPayload_badGzip hsize hgunzip))
    | ok output =>
      rcases h output hgunzip with hlen | hnone
      · exact .inr ⟨output, hgunzip, hlen⟩
      · exact .inl ((nothingDelivered_iff (multiPayload_gunzip hsize hgunzip)).mpr hnone)

end

end

/-! ## Batches on the wire

  Two packets to try this on. -/

/-- A packet as it comes out of a frame: the type word, a header of no bytes, and the body. -/
def protoPacket (emsg : EMsg) (body : Bytes) : PacketClientMsgProtobuf where
  msgType := makeMsg emsg true
  header := { msg := emsg, headerLength := 0, proto := .new }
  payload := LittleEndian.bytes 4 (makeMsg emsg true).toNat ++ LittleEndian.bytes 4 0 ++ body
  bodyOffset := 8

/-- The platform of `plainPlatform`, for a peer that sends protobuf messages, and a Gunzip that
    knows one stream: eight bytes, stored. -/
def wirePlatform : Platform :=
  { plainPlatform with
    protobuf := .wireFormat
    cryptoPP := { plainPlatform.cryptoPP with
      gunzip := fun input =>
        if input = [0x1F, 0x8B, 0x08, 0, 0, 0, 0, 0, 4, 3, 1, 8, 0, 0xF7, 0xFF, 4, 0, 0, 0, 1, 2, 3,
            4, 0x42, 0xF5, 0x10, 0x76, 8, 0, 0, 0] then .ok [4, 0, 0, 0, 1, 2, 3, 4]
        else .error "Gunzip: header decoding error" } }

/-- A batch of two frames and three bytes that are none. -/
def twoFrames : PacketClientMsgProtobuf :=
  protoPacket EMsg.multi
    (CMsgMulti.wire ⟨none, some (batchOf [[1, 2, 3, 4], []] ++ [5, 0, 0])⟩)

/-- Two frames, the second one empty, and a length word with nothing behind it. -/
theorem handleMulti_delivers_twoFrames :
    ∃ frames rest, BatchSplit (batchOf [[1, 2, 3, 4], []] ++ [5, 0, 0]) frames rest ∧
      ∀ consumeFrame : Bytes → Bool → Calling Net.Connection Net.Lookup Unit,
        handleMulti wirePlatform consumeFrame twoFrames
          = forM frames fun f => consumeFrame f false := by
  obtain ⟨frames, rest, hsplit, -, -, hloop, -⟩ :=
    handleMulti_delivers (C := Net.Connection) wirePlatform (emit wirePlatform 0) 1 twoFrames rfl
  exact ⟨frames, rest, hsplit, hloop⟩

/-- A compressed batch of eight bytes that announces four. -/
def shortAnnouncement : PacketClientMsgProtobuf :=
  protoPacket EMsg.multi
    (CMsgMulti.wire ⟨some 4, some [0x1F, 0x8B, 0x08, 0, 0, 0, 0, 0, 4, 3, 1, 8, 0, 0xF7, 0xFF, 4, 0, 0,
      0, 1, 2, 3, 4, 0x42, 0xF5, 0x10, 0x76, 8, 0, 0, 0]⟩)

/-- A body that unzips to more than it announced. -/
theorem sizeHonoured_iff_shortAnnouncement :
    SizeHonoured wirePlatform shortAnnouncement System.onTcp.client ↔
      ∀ output, wirePlatform.cryptoPP.gunzip
          (multiBody wirePlatform shortAnnouncement).getMessageBody = .ok output →
        output.length = (multiBody wirePlatform shortAnnouncement).getSizeUnzipped.toNat ∨
          NoSubFrame output :=
  sizeHonoured_iff (by decide)

/-- The sub-frame in it is consumed all the same. -/
theorem sizeHonoured_announcedFour :
    ¬ ∀ (p : Platform) (packet : PacketClientMsgProtobuf) (c : CMClient Net.Connection Net.Lookup),
      0 < (multiBody p packet).getSizeUnzipped → SizeHonoured p packet c := by
  intro h
  have hs : multiPayload wirePlatform shortAnnouncement = .ok [4, 0, 0, 0, 1, 2, 3, 4] := rfl
  rcases h wirePlatform shortAnnouncement System.onTcp.client (by decide) with
    hnothing | ⟨output, hgunzip, hlen⟩
  · rcases (nothingDelivered_iff hs).mp hnothing with hshort | hshort
    · exact absurd hshort (by decide)
    · exact absurd hshort (by decide)
  · obtain rfl : [4, 0, 0, 0, 1, 2, 3, 4] = output := Except.ok.inj hgunzip
    exact absurd hlen (by decide)

end SteamMin.Client
