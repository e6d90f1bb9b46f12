/-
  THE ORDER OF THE RECORD.

  What the record shows of `channel_secured_` is always the verdict of the last ChannelEncryptResult
  before (`lastVerdict`), in whichever session it came: nothing but the handler of that message
  writes the flag.  And some entries bring others: a raw packet in the clear is dispatched at once,
  a dispatched ChannelEncryptRequest is answered at once, a dispatched ChannelEncryptResult goes into
  the flag and out as an event at once, and neither happens without it.

  `Fits` says this of one entry between what is before it and what is behind it; `InOrder` of every
  entry of a chunk.  Each step of the channel adds a chunk that is in order (`tracked_step`), so each
  record is.
-/
import SteamMin.Client.ChannelRefinement

namespace SteamMin.Client

open Messages Crypto

/-! ## Sessions, and what the peers have said

  The flag of the channel is written in one place, the handler of ChannelEncryptResult.  So it can
  be read off the record: it is what the last result that could be read has said. -/

/-- A session begins. -/
def Entry.Begins : Entry → Prop
  | .started _ => True
  | _ => False

/-- What an entry makes of the flag. -/
def Entry.secures (b : Bool) : Entry → Bool
  | .dispatchedMsg packet =>
    if packet.msgType = EMsg.channelEncryptResult then (verdict packet).getD b else b
  | _ => b

/-- Whether the last ChannelEncryptResult has accepted. -/
def lastVerdict (log : List Entry) : Bool := log.foldl Entry.secures false

/-- The verdict of a log goes on with what is appended. -/
theorem lastVerdict_append (l es : List Entry) :
    lastVerdict (l ++ es) = es.foldl Entry.secures (lastVerdict l) := List.foldl_append

/-- No other packet has a verdict. -/
theorem secures_of_ne {packet : PacketMsg} (h : packet.msgType ≠ EMsg.channelEncryptResult)
    (b : Bool) : Entry.secures b (.dispatchedMsg packet) = b := if_neg h

/-- The result has one, if it can be read. -/
theorem secures_result {packet : PacketMsg} (h : packet.msgType = EMsg.channelEncryptResult)
    (b : Bool) : Entry.secures b (.dispatchedMsg packet) = (verdict packet).getD b := if_pos h

/-! ## Entries and their places

  `Fits` is what an entry needs around it, `InOrder` the same for a chunk that is appended
  at once, and `Tracked` the invariant: all of the log is in order, and the flag is its last
  verdict. -/

section
variable (p : Platform)

/-- The entry `e` fits between `l₁` and `l₂`. -/
def Fits (l₁ : List Entry) (e : Entry) (l₂ : List Entry) : Prop :=
  match e with
  | .started b => b = lastVerdict l₁
  | .executed _ b => b = lastVerdict l₁
  | .handed _ _ b => b = lastVerdict l₁
  | .consumed frame encrypt b => b = lastVerdict l₁ ∧
      ((encrypt && b) = false → ∀ packet, IsRaw frame packet →
        ∃ rest, l₂ = .dispatchedMsg packet :: rest)
  | .dispatchedMsg packet => ∃ es b' rest,
      Dispatched p (lastVerdict l₁) packet (.dispatchedMsg packet :: es) b' ∧ l₂ = es ++ rest
  | .securedSet success b _ => ∃ l packet, l₁ = l ++ [.dispatchedMsg packet] ∧
      packet.msgType = EMsg.channelEncryptResult ∧ verdict packet = some success ∧
      b = lastVerdict l
  | .emitted event => event.IsSecured → ∃ l b connected, l₁ = l ++ [.securedSet true b connected]
  | _ => True

/-- Each entry of the chunk `es` behind `l` fits. -/
def InOrder : List Entry → List Entry → Prop
  | _, [] => True
  | l, e :: es => Fits p l e es ∧ InOrder (l ++ [e]) es

/-- The flag and the record of a channel go together. -/
structure Tracked {C : Type} (ch : Channel C) : Prop where
  secured : ch.secured = lastVerdict ch.log
  inOrder : InOrder p [] ch.log

end

variable {p : Platform}

/-- More entries behind do no harm. -/
theorem Fits.append {l₁ l₂ : List Entry} {e : Entry} (h : Fits p l₁ e l₂) (l₃ : List Entry) :
    Fits p l₁ e (l₂ ++ l₃) := by
  cases e with
  | consumed frame encrypt b =>
    refine ⟨h.1, ?_⟩
    intro hplain packet hraw
    obtain ⟨rest, rfl⟩ := h.2 hplain packet hraw
    exact ⟨rest ++ l₃, rfl⟩
  | dispatchedMsg packet =>
    obtain ⟨es, b', rest, hdispatched, rfl⟩ := h
    exact ⟨es, b', rest ++ l₃, hdispatched, List.append_assoc es rest l₃⟩
  | startCalled => exact h
  | shutdownCalled => exact h
  | started b => exact h
  | dispatchedProto packet => exact h
  | emitted event => exact h
  | securedSet success b connected => exact h
  | executed command secured => exact h
  | handed message buffer secured => exact h

/-- Entries that fit one behind the other. -/
theorem InOrder.append {l es es' : List Entry} (h : InOrder p l es)
    (h' : InOrder p (l ++ es) es') : InOrder p l (es ++ es') := by
  induction es generalizing l with
  | nil =>
    rw [List.append_nil] at h'
    exact h'
  | cons e es ih =>
    refine ⟨h.1.append es', ih h.2 ?_⟩
    rw [← List.append_cons]
    exact h'

/-- An entry of a chunk that is in order fits at its place. -/
theorem InOrder.fits {l es m r : List Entry} {e : Entry} (h : InOrder p l es)
    (hsplit : es = m ++ e :: r) : Fits p (l ++ m) e r := by
  induction m generalizing l es with
  | nil =>
    rw [hsplit] at h
    rw [List.append_nil]
    exact h.1
  | cons e' m ih =>
    rw [hsplit] at h
    rw [List.append_cons]
    exact ih h.2 rfl

/-- So every entry of a tracked log fits where it stands. -/
theorem Tracked.fits {C : Type} {ch : Channel C} (h : Tracked p ch) {l₁ l₂ : List Entry} {e : Entry}
    (hsplit : ch.log = l₁ ++ e :: l₂) : Fits p l₁ e l₂ := by
  have hfits := h.inOrder.fits hsplit
  rw [List.nil_append] at hfits
  exact hfits

/-- Behind a ChannelEncryptResult the flag is written, and the event goes out. -/
theorem Tracked.written {C : Type} {ch : Channel C} (h : Tracked p ch) {l r : List Entry}
    {packet : PacketMsg} {success : Bool} (hlog : ch.log = l ++ .dispatchedMsg packet :: r)
    (htype : packet.msgType = EMsg.channelEncryptResult) (hverdict : verdict packet = some success) :
    ∃ connected rest, r = .securedSet success (lastVerdict l) connected ::
      .emitted (resultEvent success) :: rest := by
  obtain ⟨es, b', rest, hdispatched, rfl⟩ := h.fits hlog
  cases hdispatched with
  | request hrequest hanswer => cases htype.symm.trans hrequest
  | @result _ connected hresult hverdict' =>
    obtain rfl : success = b' := Option.some.inj (hverdict.symm.trans hverdict')
    exact ⟨connected, rest, rfl⟩
  | unreadable hresult hnone => cases hverdict.symm.trans hnone
  | other hrequest hresult => exact absurd htype hresult

/-- A chunk in order goes behind a tracked record. -/
theorem Tracked.append {C : Type} {b b' : Bool} {l es : List Entry} {k k' : C}
    (h : Tracked p ⟨b, l, k⟩) (hsecured : es.foldl Entry.secures b = b') (hes : InOrder p l es) :
    Tracked p ⟨b', l ++ es, k'⟩ := by
  have hb : b = lastVerdict l := h.secured
  constructor
  · show b' = lastVerdict (l ++ es)
    rw [lastVerdict_append, ← hb, hsecured]
  · exact h.inOrder.append hes

/-! ## The chunks

  A step of the channel appends one of a few chunks.  Each of them is in order behind a tracked
  record, whatever the record is. -/

variable {b b' : Bool} {l es : List Entry} {packet : PacketMsg}

/-- The event says what it was made from. -/
theorem isSecured_resultEvent {success : Bool} (h : (resultEvent success).IsSecured) :
    success = true := by
  cases success with
  | false => cases h
  | true => rfl

/-- The entries of an answer fit, and say nothing about the channel. -/
theorem Answer.inOrder (h : Answer p (lastVerdict l) packet es) :
    InOrder p l es ∧ es.foldl Entry.secures (lastVerdict l) = lastVerdict l := by
  cases h with
  | handed hmessage hplain => exact ⟨⟨rfl, trivial⟩, rfl⟩
  | failed hfailed =>
    refine ⟨⟨?_, trivial⟩, rfl⟩
    intro hsecured
    cases hsecured
  | stuck hsecured => exact ⟨trivial, rfl⟩

/-- What the dispatch of a raw packet adds is in order, and the flag is the verdict behind it. -/
theorem Dispatched.inOrder (h : Dispatched p (lastVerdict l) packet es b') :
    InOrder p l es ∧ es.foldl Entry.secures (lastVerdict l) = b' := by
  have hhead : ∀ {es' : List Entry},
      Dispatched p (lastVerdict l) packet (.dispatchedMsg packet :: es') b' →
      Fits p l (.dispatchedMsg packet) es' := by
    intro es' h
    exact ⟨es', b', [], h, (List.append_nil es').symm⟩
  cases h with
  | request htype hanswer =>
    have hne : packet.msgType ≠ EMsg.channelEncryptResult := by
      rw [htype]
      decide
    have hlast : lastVerdict (l ++ [.dispatchedMsg packet]) = lastVerdict l := by
      rw [lastVerdict_append]
      exact secures_of_ne hne _
    have hanswer' := hanswer
    rw [← hlast] at hanswer'
    obtain ⟨hinOrder, hfold⟩ := hanswer'.inOrder
    refine ⟨⟨hhead (.request htype hanswer), hinOrder⟩, ?_⟩
    rw [List.foldl_cons, secures_of_ne hne, ← hlast]
    exact hfold
  | result htype hverdict =>
    refine ⟨⟨hhead (.result htype hverdict), ⟨l, packet, rfl, htype, hverdict, rfl⟩, ?_, trivial⟩, ?_⟩
    · intro hsecured
      obtain rfl := isSecured_resultEvent hsecured
      exact ⟨_, _, _, rfl⟩
    · show Entry.secures (lastVerdict l) (.dispatchedMsg packet) = b'
      rw [secures_result htype, hverdict]
      rfl
  | unreadable htype hverdict =>
    refine ⟨⟨hhead (.unreadable htype hverdict), trivial⟩, ?_⟩
    show Entry.secures (lastVerdict l) (.dispatchedMsg packet) = lastVerdict l
    rw [secures_result htype, hverdict]
    rfl
  | other hrequest hresult =>
    exact ⟨⟨hhead (.other hrequest hresult), trivial⟩, secures_of_ne hresult _⟩

/-- Each chunk of a dispatch starts with the packet. -/
theorem Dispatched.head (h : Dispatched p b packet es b') :
    ∃ es', es = .dispatchedMsg packet :: es' := by
  cases h with
  | request htype hanswer => exact ⟨_, rfl⟩
  | result htype hverdict => exact ⟨_, rfl⟩
  | unreadable htype hverdict => exact ⟨_, rfl⟩
  | other hrequest hresult => exact ⟨_, rfl⟩

section
variable {C E : Type} [IConnection C E] {Src : Bytes → Prop}

/-- The step lemma: the flag of the channel is the verdict of its log. -/
theorem tracked_step (ch ch' : Channel C) (h : Tracked p ch) (hstep : Channel.Step p Src ch ch') :
    Tracked p ch' := by
  have hb : ch.secured = lastVerdict ch.log := h.secured
  cases hstep with
  | startCalled net => exact h.append rfl ⟨trivial, trivial⟩
  | started => exact h.append rfl ⟨hb, trivial⟩
  | shutdownCalled => exact h.append rfl ⟨trivial, trivial⟩
  | emitted event hevent => exact h.append rfl ⟨fun hsecured => absurd hsecured hevent, trivial⟩
  | @commanded b l k command message buffer hproto hplain =>
    refine h.append rfl ⟨hb, ?_, trivial⟩
    -- the command itself leaves the verdict alone
    show b = lastVerdict (l ++ [.executed command b])
    rw [lastVerdict_append]
    exact hb
  | refused hrefused => exact h.append rfl ⟨hb, trivial⟩
  | @rawFrame b b' l es k frame encrypt packet hsrc hplain hraw hdispatched =>
    have hlast : lastVerdict (l ++ [.consumed frame encrypt b]) = b := by
      rw [lastVerdict_append]
      exact hb.symm
    have hbehind := hdispatched
    rw [← hlast] at hbehind
    obtain ⟨hinOrder, hfold⟩ := hbehind.inOrder
    rw [hlast] at hfold
    refine h.append hfold ⟨⟨hb, ?_⟩, hinOrder⟩
    intro _ packet' hraw'
    -- a frame decodes to one packet
    obtain rfl : packet = packet' := Except.ok.inj (hraw.2.symm.trans hraw'.2)
    exact hdispatched.head
  | frame hother =>
    refine h.append rfl ⟨⟨hb, ?_⟩, trivial⟩
    intro hplain packet hraw
    exact absurd hraw (hother hplain packet)
  | @dispatchedMsg b b' l es k packet hsrc hdispatched =>
    obtain rfl : b = lastVerdict l := hb
    obtain ⟨hinOrder, hfold⟩ := hdispatched.inOrder
    exact h.append hfold hinOrder
  | dispatchedProto packet hsrc => exact h.append rfl ⟨trivial, trivial⟩

end

/-! ## Runs

  The channel's steps are all that a run does to the record, so the step lemma carries over. -/

section
variable {C E M : Type} [Transport C E M]

/-- **The record is in order** in every state of every run of a new client. -/
theorem tracked_run (p : Platform) (fuel : Nat) (connection : C) (crypto : EncryptionManager)
    (acts : List (Act E M)) :
    Runs.EveryState (step p fuel) (fun s => Tracked p s.client.channel)
      (System.initial connection crypto) acts := by
  have hempty : Tracked p (System.initial (E := E) connection crypto).client.channel := ⟨rfl, trivial⟩
  refine everyState_of_channel p fuel tracked_step ?_ hempty acts
  intro ch k h
  exact ⟨h.secured, h.inOrder⟩

end

end SteamMin.Client
