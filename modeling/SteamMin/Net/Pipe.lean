/-
  TWO CONNECTIONS ON ONE STREAM.

  `async_send` is one half of a protocol and the read loop the other.  Here the two meet: a
  connection at either end, and what one end's socket has accepted is what the other end's reads
  can take (`Pipe.step`).  The bytes arrive late, in pieces of any size, and the acts of the two
  ends interleave in any way; both users may send at any time, also from inside the frame callback.

  `Flows` is the invariant.  At each end the read loop (`Loop`) and the write queue (`Draining`) are
  in order, what was received is the beginning of what the other end's socket has accepted, and
  both stay CONNECTED: what is on the wire is frames, so no header is ever refused.

  * `pipe_delivers_run` — what has been delivered is the first messages the other end sent, whole
    and in order, in every state of every run;
  * `pipe_settles_run`  — carrying out what is started, in any order, comes to an end, and ends with
    everything delivered on both sides: nothing waits for the other end to send more.
-/
import SteamMin.Net.WriteOrder
import Mathlib.Logic.Function.Basic

namespace SteamMin.Net

open Runs Framing

variable {c c' : Connection}

/-! ## The two ends

  The stream between the ends is not a state of its own: what one end's socket has accepted, and
  what the other end's reads have taken of it, are records of the connections.  A step is possible
  if the end that acts takes no more than was accepted. -/

/-- The two ends of the byte stream. -/
inductive Side
  | near
  | far
  deriving DecidableEq

/-- The end that receives what this one sends. -/
def Side.other : Side → Side
  | .near => .far
  | .far => .near

/-- Two ends, so the other of the other is this one. -/
@[simp] theorem Side.other_other (side : Side) : side.other.other = side := by
  cases side <;> rfl

/-- The ends are different, so an action of one leaves the other alone. -/
@[simp] theorem Side.other_ne (side : Side) : side.other ≠ side := by
  cases side <;> exact Side.noConfusion

/-- There is no third end. -/
theorem Side.eq_or_eq_other (side x : Side) : x = side ∨ x = side.other := by
  cases side <;> cases x <;> simp [Side.other]

/-- A connection at each end. -/
abbrev Pipe := Side → Connection

/-- One end acts; a read takes what the other end's socket has accepted, in that order. -/
def Pipe.step (p : Pipe) : Side × Act → Option Pipe
  | (side, a) =>
    (Net.step (p side) a).bind fun c =>
      if c.received <+: (p side.other).sent then some (Function.update p side c) else none

/-- The inversion of a step: one end acted, and has received nothing that the other did
    not send. -/
theorem Pipe.step_cases {p p' : Pipe} {side : Side} {a : Act}
    (h : p.step (side, a) = some p') :
    ∃ c, Net.step (p side) a = some c ∧ c.received <+: (p side.other).sent ∧
      p' = Function.update p side c := by
  obtain ⟨c, hstep, hguard⟩ := Option.bind_eq_some_iff.mp h
  split at hguard
  · rename_i hreceived
    exact ⟨c, hstep, hreceived, (Option.some.inj hguard).symm⟩
  · cases hguard

/-- The same the other way round, for runs that are built action by action. -/
theorem Pipe.step_of {p : Pipe} {side : Side} {a : Act} {c : Connection}
    (hstep : Net.step (p side) a = some c) (hreceived : c.received <+: (p side.other).sent) :
    p.step (side, a) = some (Function.update p side c) := by
  show (Net.step (p side) a).bind _ = _
  rw [hstep]
  exact if_pos hreceived

/-- Calm, and what is sent fits in a frame: its length is written in four bytes. -/
structure Act.Fair (a : Act) : Prop where
  calm : a.Calm
  fits : ∀ m ∈ a.sends, m.length < 2 ^ 32

/-- What one side sends in a run. -/
def sentBy (side : Side) (acts : List (Side × Act)) : List Bytes :=
  acts.flatMap fun x => if x.1 = side then x.2.sends else []

/-- What an end is asked to send, action by action. -/
theorem sentBy_cons (x side : Side) (a : Act) (acts : List (Side × Act)) :
    sentBy x ((side, a) :: acts) = (if side = x then a.sends else []) ++ sentBy x acts := rfl

/-! ## What the handlers leave alone

  Both records grow by `transfer` only.  So whatever the handlers and the users do, the order of
  the bytes on the wire is that of the transfers. -/

/-- Bytes pass only when an operation moves them. -/
theorem handler_streams (op : Op) (ec : Outcome) (c : Connection) :
    (op.handler ec c).received = c.received ∧ (op.handler ec c).sent = c.sent := by
  -- closing does not take back what was moved
  have hclose : (networkClose c).received = c.received ∧ (networkClose c).sent = c.sent := by
    by_cases hstate : c.state = .disconnected
    · rw [networkClose_of_disconnected hstate]
      exact ⟨rfl, rfl⟩
    · rw [networkClose_of_ne hstate]
      exact ⟨rfl, rfl⟩
  cases op with
  | connect => cases ec <;> exact ⟨rfl, rfl⟩
  | readHeader =>
    cases ec with
    | failure => exact hclose
    | success =>
      by_cases hmagic : validateMagic c.headerBuffer = true
      · rw [show Op.readHeader.handler .success c
          = startReadBody (parseMessageLength c.headerBuffer) c from onReadHeader_of_magic hmagic]
        exact ⟨rfl, rfl⟩
      · rw [Bool.not_eq_true] at hmagic
        rw [show Op.readHeader.handler .success c = networkClose c
          from onReadHeader_of_not_magic hmagic]
        exact hclose
  | readBody len =>
    cases ec with
    | failure => exact hclose
    | success =>
      show (if c.onFrame then _ else afterFrame c : Connection).received = _ ∧
        (if c.onFrame then _ else afterFrame c : Connection).sent = _
      split <;> exact ⟨rfl, rfl⟩
  | write buffer =>
    cases ec with
    | failure => exact hclose
    | success =>
      -- the next write is started, and moves later
      cases htail : c.writeQueue.tail with
      | nil =>
        rw [show (Op.write buffer).handler .success c = _ from onWrite_success_of_nil htail]
        exact ⟨rfl, rfl⟩
      | cons next rest =>
        rw [show (Op.write buffer).handler .success c = _ from onWrite_success_of_cons htail]
        exact ⟨rfl, rfl⟩

/-- `async_send` itself puts nothing on the wire: the write it starts does, byte by byte. -/
theorem asyncSend_sent (data : Bytes) (c : Connection) : (asyncSend data c).sent = c.sent := by
  by_cases hqueue : c.writeQueue = []
  · rw [asyncSend_of_nil data hqueue]
    rfl
  · rw [asyncSend_of_ne data hqueue]

/-- What the socket has accepted is never taken back. -/
theorem sent_step {a : Act} (ha : a.Calm) (hstep : step c a = some c') : c.sent <+: c'.sent := by
  cases a with
  | connect lookup => exact absurd ha id
  | close => exact absurd ha id
  | raise => exact absurd ha id
  | send data =>
    obtain rfl := step_send hstep
    exact asyncSend_sent data c ▸ List.prefix_refl _
  | setOnFrame =>
    obtain rfl := step_setOnFrame hstep
    exact List.prefix_refl _
  | transfer i data =>
    obtain ⟨l₁, p, l₂, -, -, rfl⟩ := step_transfer hstep
    -- only the bytes of a write are sent
    show c.sent <+: (moveBytes p data c).sent
    cases hop : p.op with
    | connect => simp [moveBytes, hop]
    | readHeader => simp [moveBytes, hop]
    | readBody len => simp [moveBytes, hop]
    | write buffer => simp [moveBytes, hop]
  | complete i ec =>
    obtain ⟨l₁, p, l₂, -, -, rfl⟩ := step_complete hstep
    exact List.prefix_refl _
  | run i =>
    obtain ⟨-, l₁, p, l₂, ec, -, -, -, rfl⟩ := step_run hstep
    have hsent := (handler_streams p.op ec { c with pending := l₁ ++ l₂ }).2
    exact ⟨[], (List.append_nil _).trans hsent.symm⟩
  | ret =>
    obtain ⟨-, rfl⟩ := step_ret hstep
    exact List.prefix_refl _

/-! ## The invariant

  Each end is in order by itself (`Loop`, `Draining`); what ties them together is that one end has
  received a prefix of what the other has sent.  Since that is a sequence of frames, and a refused
  header is none, the reading end stays CONNECTED. -/

/-- A loop that has taken the beginning of a stream of frames has delivered the first of them, and
    the others are what it has read of the next one with what is still to come. -/
theorem Loop.split_frames {d₀ ms : List Bytes} (h : Loop d₀ c)
    (hms : ∀ m ∈ ms, m.length < 2 ^ 32) (hreceived : c.received <+: ms.flatMap frame) :
    ∃ gs gs' tail t, ms = gs ++ gs' ∧ c.delivered = d₀ ++ gs ∧ Phase c tail ∧
      c.received ++ t = ms.flatMap frame ∧ Decomposes wire (tail ++ t) gs' [] := by
  obtain ⟨gs, r, tail, hframes, heq, hdelivered, hphase⟩ := h.progress
  obtain ⟨t, ht⟩ := hreceived
  have hdec := decomposes_stream hms
  rw [← ht, heq, List.append_assoc] at hdec
  obtain ⟨gs', rfl, htail⟩ := hframes.split hdec
  exact ⟨gs, gs', tail, t, rfl, hdelivered, hphase, ht, htail⟩

/-- It refused no header. -/
theorem Loop.connected {d₀ ms : List Bytes} (h : Loop d₀ c) (hms : ∀ m ∈ ms, m.length < 2 ^ 32)
    (hreceived : c.received <+: ms.flatMap frame) : c.state = .connected := by
  obtain ⟨gs, gs', tail, t, -, -, hphase, -, htail⟩ := h.split_frames hms hreceived
  cases hphase with
  | header hlive => exact hlive.state
  | body hlive => exact hlive.state
  | callback hlive => exact hlive.state
  | closed _ _ _ _ hhdr hsize =>
    -- a refused header would be left over, and nothing is
    have hbad : BadHeader wire (tail ++ t) := by
      refine ⟨?_, by rw [take_header hhdr]; exact hsize⟩
      show 8 ≤ (tail ++ t).length
      rw [List.length_append]
      omega
    obtain ⟨-, hrest⟩ := hbad.stuck.decomposes htail
    have hlen := congrArg List.length hrest
    rw [List.length_nil, List.length_append] at hlen
    omega

/-- With all of the stream taken, and no read complete, all of its frames are delivered. -/
theorem Loop.delivered_all {d₀ ms : List Bytes} (h : Loop d₀ c)
    (hms : ∀ m ∈ ms, m.length < 2 ^ 32) (hreceived : c.received = ms.flatMap frame)
    (hcallback : c.inCallback = false) (hshort : ∀ p ∈ c.reads, p.moved < p.op.size) :
    c.delivered = d₀ ++ ms := by
  have hprefix : c.received <+: ms.flatMap frame := hreceived ▸ List.prefix_refl _
  have hstate := h.connected hms hprefix
  obtain ⟨gs, gs', tail, t, rfl, hdelivered, hphase, ht, htail⟩ := h.split_frames hms hprefix
  obtain rfl : t = [] := by
    rw [hreceived] at ht
    exact List.append_cancel_left (ht.trans (List.append_nil _).symm)
  rw [List.append_nil] at htail
  -- what is left over is less than a frame in every phase of the loop
  have hstuck : Stuck wire tail := by
    cases hphase with
    | callback _ hin => cases hcallback.symm.trans hin
    | closed hdisc => cases hstate.symm.trans hdisc
    | @header p _ _ hreads hop _ =>
      have hlt := hshort p (hreads ▸ List.mem_singleton_self p)
      rw [hop] at hlt
      apply stuck_of_length_lt
      rw [List.length_take]
      exact Nat.lt_of_le_of_lt (Nat.min_le_left _ _) hlt
    | @body p len hdr _ _ hreads hop _ hhdr hsize _ =>
      have hlt := hshort p (hreads ▸ List.mem_singleton_self p)
      rw [hop] at hlt
      apply stuck_of_short hhdr hsize
      rw [List.length_take]
      exact Nat.lt_of_le_of_lt (Nat.min_le_left _ _) hlt
  obtain ⟨rfl, -⟩ := hstuck.decomposes htail
  rw [hdelivered, List.append_nil]

/-- Both ends are in order, having sent `asked` since they had delivered `d₀`. -/
structure Flows (d₀ asked : Side → List Bytes) (p : Pipe) : Prop where
  loop : ∀ side, Loop (d₀ side) (p side)
  connected : ∀ side, (p side).state = .connected
  draining : ∀ side, Draining [] ((asked side).flatMap frame) (p side)
  link : ∀ side, (p side).received <+: (p side.other).sent
  fits : ∀ side, ∀ m ∈ asked side, m.length < 2 ^ 32

/-- What is on the wire is the beginning of what was asked for, framed. -/
theorem Draining.sent_isPrefix {stream : Bytes} (h : Draining [] stream c) : c.sent <+: stream := by
  cases h with
  | idle _ _ hsent => exact hsent ▸ List.prefix_refl _
  | busy _ _ _ _ _ hsent hrest =>
    rw [hsent, List.nil_append, ← hrest]
    exact List.prefix_append _ _

section
variable {d₀ asked asked' : Side → List Bytes} {p p' : Pipe} {side : Side} {a : Act}

/-- What one side has received is the beginning of the frames the other has sent. -/
theorem Flows.received_isPrefix (h : Flows d₀ asked p) (side : Side) :
    (p side).received <+: (asked side.other).flatMap frame :=
  (h.link side).trans (h.draining side.other).sent_isPrefix

/-- **One act of one end** keeps the invariant. -/
theorem Flows.of_step (h : Flows d₀ asked p) (ha : a.Fair) (hstep : p.step (side, a) = some p')
    (hself : asked' side = asked side ++ a.sends) (hother : asked' side.other = asked side.other) :
    Flows d₀ asked' p' := by
  obtain ⟨c, hact, hreceived, rfl⟩ := Pipe.step_cases hstep
  have hloop : Loop (d₀ side) c := loop_step (h.loop side) ha.calm hact
  -- what the other end has sent are frames, so no header of it is refused
  have hstate : c.state = .connected := by
    have hframes := hreceived.trans (h.draining side.other).sent_isPrefix
    exact hloop.connected (h.fits side.other) hframes
  have hdraining : Draining [] ((asked' side).flatMap frame) c := by
    have hnext := draining_step (h.draining side) (h.connected side) hstate hact
    rw [hself, List.flatMap_append]
    rwa [framesOf, List.flatMap_singleton] at hnext
  have hnow : Function.update p side c side = c := Function.update_self ..
  have hthere : Function.update p side c side.other = p side.other :=
    Function.update_of_ne (Side.other_ne side) ..
  -- one end has acted; at the other the invariant is the old one
  constructor
  · intro x
    rcases side.eq_or_eq_other x with rfl | rfl
    · rwa [hnow]
    · rw [hthere]
      exact h.loop _
  · intro x
    rcases side.eq_or_eq_other x with rfl | rfl
    · rwa [hnow]
    · rw [hthere]
      exact h.connected _
  · intro x
    rcases side.eq_or_eq_other x with rfl | rfl
    · rwa [hnow]
    · rw [hthere, hother]
      exact h.draining _
  · intro x
    rcases side.eq_or_eq_other x with rfl | rfl
    · rwa [hnow, hthere]
    · -- the other end may have more to take than before
      rw [hthere, Side.other_other, hnow]
      have hlink := h.link side.other
      rw [Side.other_other] at hlink
      exact hlink.trans (sent_step ha.calm hact)
  · intro x m hm
    rcases side.eq_or_eq_other x with rfl | rfl
    · rw [hself] at hm
      rcases List.mem_append.mp hm with hm | hm
      · exact h.fits _ m hm
      · exact ha.fits m hm
    · rw [hother] at hm
      exact h.fits _ m hm

/-- The run lemma: fair steps keep the flow, and the messages asked for accumulate. -/
theorem Flows.of_run {acts : List (Side × Act)} (h : Flows d₀ asked p)
    (hfair : ∀ x ∈ acts, x.2.Fair) (hrun : run Pipe.step p acts = some p') :
    Flows d₀ (fun side => asked side ++ sentBy side acts) p' := by
  induction acts generalizing p asked with
  | nil =>
    cases hrun
    simpa [sentBy] using h
  | cons x acts ih =>
    obtain ⟨side, a⟩ := x
    obtain ⟨p₁, hstep, hrun⟩ := run_cons_eq_some hrun
    let asked' : Side → List Bytes := fun x => asked x ++ if side = x then a.sends else []
    have hself : asked' side = asked side ++ a.sends := by simp [asked']
    have hother : asked' side.other = asked side.other := by
      simp [asked', (Side.other_ne side).symm]
    have hnext : Flows d₀ asked' p₁ := h.of_step (hfair _ List.mem_cons_self) hstep hself hother
    have hlast := ih hnext (fun y hy => hfair y (List.mem_cons_of_mem _ hy)) hrun
    simpa only [asked', sentBy_cons, List.append_assoc] using hlast

end

/-! ## What is delivered

  The run lemma, from two ends whose sessions have just begun. -/

/-- The two ends as both sessions begin. -/
def opened (i : Side → Idle) : Pipe := fun side => (i side).listening

/-- Two idle connections with empty queues flow: nothing sent, nothing delivered. -/
theorem flows_opened {i : Side → Idle} (hqueue : ∀ side, (i side).conn.writeQueue = []) :
    Flows (fun side => (i side).conn.delivered) (fun _ => []) (opened i) where
  loop side := loop_listening (i side)
  connected _ := rfl
  draining side := .idle (hqueue side) rfl rfl
  link _ := List.prefix_refl _
  fits _ _ hm := by cases hm

/-- **A pipe**: two ends that had nothing to write stay CONNECTED, and each has delivered the first
    messages the other sent, whole, in their order and each once.  The acts are fair: nobody closes or
    connects, no operation fails, the callbacks return, and no message has 2^32 bytes. -/
theorem pipe_delivers_run {i : Side → Idle} (hqueue : ∀ side, (i side).conn.writeQueue = [])
    {acts : List (Side × Act)} (hfair : ∀ x ∈ acts, x.2.Fair) {p : Pipe}
    (hrun : run Pipe.step (opened i) acts = some p) (side : Side) :
    (p side).state = .connected ∧ ∃ ms, ms <+: sentBy side.other acts ∧
      (p side).delivered = (i side).conn.delivered ++ ms := by
  have hflows := (flows_opened hqueue).of_run hfair hrun
  have hreceived := hflows.received_isPrefix side
  obtain ⟨ms, ms', -, -, hms, hdelivered, -⟩ :=
    (hflows.loop side).split_frames (hflows.fits side.other) hreceived
  exact ⟨hflows.connected side, ms, ⟨ms', hms.symm⟩, hdelivered⟩

/-- One message has arrived, and the other end's is on its way. -/
def exchange : List (Side × Act) :=
  [(.near, .send (ascii "a")), (.far, .send (ascii "b")), (.near, .transfer 1 (frame (ascii "a"))),
   (.far, .transfer 0 (frameHeader (ascii "a"))), (.far, .complete 0 .success), (.far, .run 0),
   (.far, .transfer 1 (ascii "a")), (.far, .complete 1 .success), (.far, .run 1)]

/-- Every action of the example is one the theorem speaks of. -/
theorem fair_exchange : ∀ x ∈ exchange, x.2.Fair := by
  intro x hx
  simp only [exchange, List.mem_cons, List.not_mem_nil, or_false] at hx
  rcases hx with rfl | rfl | rfl | rfl | rfl | rfl | rfl | rfl | rfl
  all_goals exact ⟨by simp [Act.Calm], by simp [Act.sends, ascii]⟩

/-- The example goes through, step by step. -/
theorem runs_exchange : ∃ p, run Pipe.step (opened fun _ => Idle.initial) exchange = some p :=
  Option.isSome_iff_exists.mp (by decide +kernel)

/-- At the end of the example: what the far end was given begins what the near end sent. -/
theorem pipe_delivers_exchange :
    ∃ p, run Pipe.step (opened fun _ => Idle.initial) exchange = some p ∧
      (p .far).state = .connected ∧ ∃ ms, ms <+: [ascii "a"] ∧ (p .far).delivered = [] ++ ms := by
  obtain ⟨p, hrun⟩ := runs_exchange
  exact ⟨p, hrun, pipe_delivers_run (i := fun _ => Idle.initial) (fun _ => rfl) fair_exchange hrun
    .far⟩

/-! ## Carrying out what is started

  The acts of which the environment owes some to every connection: bytes move, operations
  complete, handlers run, callbacks return.  Where none of them is possible at either end, nothing
  is under way any more. -/

/-- Bytes move, an operation succeeds, a handler runs, or the frame callback returns. -/
def Act.Works : Act → Prop
  | .transfer _ data => data ≠ []
  | .complete _ ec => ec = .success
  | .run _ | .ret => True
  | _ => False

/-- Carrying out what is started sends nothing new. -/
theorem Act.Works.sends {a : Act} (h : a.Works) : a.sends = [] := by
  cases a with
  | send data => exact absurd h id
  | _ => rfl

/-- Nor does it close anything, or fail. -/
theorem Act.Works.fair {a : Act} (h : a.Works) : a.Fair := by
  constructor
  · cases a with
    | complete i ec => exact h
    | connect lookup => exact absurd h id
    | close => exact absurd h id
    | raise => exact absurd h id
    | _ => trivial
  · intro m hm
    rw [h.sends] at hm
    cases hm

/-- Nothing can be carried out at either end. -/
def Pipe.Rests (p : Pipe) : Prop := ∀ x : Side × Act, x.2.Works → p.step x = none

section
variable {d₀ asked : Side → List Bytes} {p : Pipe} {side : Side}

/-- An end that could act would. -/
theorem Pipe.Rests.not_possible (hrest : p.Rests) {a : Act} (ha : a.Works)
    (hact : Net.step (p side) a = some c) : ¬ c.received <+: (p side.other).sent := by
  intro hreceived
  have hstep := Pipe.step_of hact hreceived
  cases (hrest (side, a) ha).symm.trans hstep

/-- At rest no callback is active, since its return is an action that can be taken. -/
theorem Flows.not_inCallback (h : Flows d₀ asked p) (hrest : p.Rests) (side : Side) :
    (p side).inCallback = false := by
  rw [← Bool.not_eq_true]
  intro hin
  have hact : Net.step (p side) .ret = some (afterFrame { p side with inCallback := false }) :=
    if_pos hin
  exact hrest.not_possible (a := .ret) trivial hact (h.link side)

/-- Every operation still has bytes to move. -/
theorem Flows.waiting (h : Flows d₀ asked p) (hrest : p.Rests) {q : Pending}
    (hq : q ∈ (p side).pending) : q.outcome = none ∧ q.moved ≠ q.op.size := by
  obtain ⟨i, hi⟩ := List.getElem?_of_mem hq
  have houtcome : q.outcome = none := by
    cases hec : q.outcome with
    | none => rfl
    | some ec =>
      have hact := step_run_of (h.not_inCallback hrest side) hi hec
      refine absurd ?_ (hrest.not_possible (a := .run i) trivial hact)
      rw [(handler_streams q.op ec _).1]
      exact h.link side
  refine ⟨houtcome, ?_⟩
  intro hmoved
  have hcomplete : q.CanComplete .success := ⟨houtcome, fun _ => hmoved⟩
  have hact := step_complete_of hi hcomplete
  exact hrest.not_possible (a := .complete i .success) rfl hact (h.link side)

/-- All that was sent is on the wire. -/
theorem Flows.sent_all (h : Flows d₀ asked p) (hrest : p.Rests) (side : Side) :
    (p side).sent = (asked side).flatMap frame := by
  cases h.draining side with
  | idle _ _ hsent => exact hsent
  | @busy front written rest q hqueue hwrites hop hsession hsound hsent hstream =>
    have hq : q ∈ (p side).pending :=
      (List.mem_filter.mp (hwrites ▸ List.mem_singleton_self q : q ∈ (p side).writeOps)).1
    obtain ⟨houtcome, hmoved⟩ := h.waiting hrest hq
    have hle := hsound.le
    rw [hop] at hmoved hle
    change q.moved ≤ front.length at hle
    change q.moved ≠ front.length at hmoved
    obtain ⟨i, hi⟩ := List.getElem?_of_mem hq
    -- the rest of the buffer could move
    have hmove : q.CanMove (front.drop q.moved) := by
      rw [Pending.CanMove, hop, List.length_drop]
      refine ⟨houtcome, ?_, List.prefix_refl _⟩
      show q.moved + (front.length - q.moved) ≤ front.length
      omega
    have hact := step_transfer_of hi hmove
    have hne : front.drop q.moved ≠ [] := by
      rw [Ne, List.drop_eq_nil_iff]
      omega
    refine absurd ?_ (hrest.not_possible (a := .transfer i _) hne hact)
    show (moveBytes q _ (p side)).received <+: _
    rw [moveBytes_write hop]
    exact h.link side

/-- A read would take what is there for it. -/
theorem Flows.received_all (h : Flows d₀ asked p) (hrest : p.Rests) {q : Pending}
    (hread : q ∈ (p side).reads) (hmoved : q.moved < q.op.size) :
    (p side).received = (p side.other).sent := by
  obtain ⟨t, ht⟩ := h.link side
  cases t with
  | nil => rw [← ht, List.append_nil]
  | cons b t =>
    obtain ⟨hq, hisRead⟩ := List.mem_filter.mp hread
    obtain ⟨houtcome, -⟩ := h.waiting hrest hq
    obtain ⟨i, hi⟩ := List.getElem?_of_mem hq
    -- with a byte under way the open read could take it, and the pipe would not be at rest
    have hmove : q.CanMove [b] := by
      refine ⟨houtcome, hmoved, ?_⟩
      cases hop : q.op with
      | write buffer => rw [hop] at hisRead; cases hisRead
      | _ => trivial
    have hact := step_transfer_of hi hmove
    have hreceived : (moveBytes q [b] (p side)).received = (p side).received ++ [b] := by
      cases hop : q.op with
      | readHeader => rw [moveBytes_readHeader hop]
      | readBody len => rw [moveBytes_readBody hop]
      | connect => rw [hop] at hisRead; cases hisRead
      | write buffer => rw [hop] at hisRead; cases hisRead
    refine absurd ?_ (hrest.not_possible (a := .transfer i [b]) (List.cons_ne_nil _ _) hact)
    show (moveBytes q [b] (p side)).received <+: _
    rw [hreceived, ← ht, List.append_cons _ b t]
    exact List.prefix_append _ _

/-- **No deadlock**: at rest everything that was sent has been delivered. -/
theorem Flows.delivered_all (h : Flows d₀ asked p) (hrest : p.Rests) (side : Side) :
    (p side).delivered = d₀ side ++ asked side.other := by
  have hcallback := h.not_inCallback hrest side
  have hstate := h.connected side
  have hone : ∃ q, (p side).reads = [q] ∧ q.Sound := by
    obtain ⟨_, _, _, -, -, -, hphase⟩ := (h.loop side).progress
    cases hphase with
    | callback _ hin => cases hcallback.symm.trans hin
    | closed hdisc => cases hstate.symm.trans hdisc
    | header _ _ hreads _ hsound => exact ⟨_, hreads, hsound⟩
    | body _ _ hreads _ hsound => exact ⟨_, hreads, hsound⟩
  obtain ⟨q, hreads, hsound⟩ := hone
  have hq : q ∈ (p side).reads := hreads ▸ List.mem_singleton_self q
  have hlt : q.moved < q.op.size := by
    obtain ⟨-, hne⟩ := h.waiting hrest (List.mem_filter.mp hq).1
    have hle := hsound.le
    omega
  have hall : (p side).received = (asked side.other).flatMap frame :=
    (h.received_all hrest hq hlt).trans (h.sent_all hrest side.other)
  refine (h.loop side).delivered_all (h.fits side.other) hall hcallback ?_
  intro q' hq'
  rw [hreads, List.mem_singleton] at hq'
  exact hq' ▸ hlt

end

/-! ## How far an end has come

  A measure that each of these acts increases, bounded by what both ends were asked to send.
  Bytes, completions, frames and finished writes all count; what an operation has counted for is
  lost when its handler runs, and what the handler does is worth more. -/

/-- How far on the way to the next frame an operation is started. -/
def Op.stage : Op → Nat
  | .readBody _ => 2
  | _ => 0

/-- How far an operation has come: what its kind counts for, and one more when it is completed. -/
def Pending.stage (p : Pending) : Nat := p.op.stage + p.outcome.isSome.toNat

/-- The same for a list of operations. -/
def stages (l : List Pending) : Nat := (l.map Pending.stage).sum

/-- Bytes taken and accepted, frames delivered, buffers written, and where the operations stand. -/
def Connection.effort (c : Connection) : Int :=
  c.received.length + c.sent.length + 5 * c.delivered.length + stages c.pending
    - 2 * c.writeQueue.length - c.inCallback.toNat

/-- The stages of a list are those of its parts. -/
@[simp] theorem stages_append (l₁ l₂ : List Pending) :
    stages (l₁ ++ l₂) = stages l₁ + stages l₂ := by
  simp [stages]

/-- The stages of a list are those of its head and its tail. -/
@[simp] theorem stages_cons (p : Pending) (l : List Pending) :
    stages (p :: l) = p.stage + stages l := by
  simp [stages]

/-- Nothing pending, nothing done. -/
@[simp] theorem stages_nil : stages [] = 0 := rfl

section
variable {a : Act} {d₀ : List Bytes} {sent₀ stream : Bytes} {l₁ l₂ : List Pending} {p : Pending}

/-- A transfer moves at least one byte, so it is progress. -/
theorem effort_transfer {data : Bytes} (hdata : data ≠ []) (hop : p.op ≠ .connect)
    (hsplit : c.pending = l₁ ++ p :: l₂) :
    c.effort < Connection.effort { moveBytes p data c with
      pending := l₁ ++ { p with moved := p.moved + data.length } :: l₂ } := by
  have hlen : 0 < data.length := List.length_pos_of_ne_nil hdata
  have hstage : Pending.stage { p with moved := p.moved + data.length } = p.stage := rfl
  have hmoved : (moveBytes p data c).received.length + (moveBytes p data c).sent.length
      = c.received.length + c.sent.length + data.length := by
    cases hkind : p.op with
    | connect => exact absurd hkind hop
    | readHeader => simp [moveBytes, hkind]; omega
    | readBody len => simp [moveBytes, hkind]; omega
    | write buffer => simp [moveBytes, hkind]; omega
  simp only [Connection.effort, hsplit, stages_append, stages_cons, hstage, moveBytes_delivered,
    moveBytes_writeQueue, moveBytes_inCallback]
  omega

/-- A completion is progress. -/
theorem effort_complete {ec : Outcome} (hopen : p.outcome = none)
    (hsplit : c.pending = l₁ ++ p :: l₂) :
    c.effort < Connection.effort { c with
      pending := l₁ ++ { p with outcome := some ec } :: l₂ } := by
  have hstage : Pending.stage { p with outcome := some ec } = p.stage + 1 := by
    simp [Pending.stage, hopen]
  simp only [Connection.effort, hsplit, stages_append, stages_cons, hstage]
  omega

/-- Starting an operation adds its stage. -/
theorem effort_startOp (op : Op) (c : Connection) :
    c.effort + op.stage ≤ (startOp op c).effort := by
  simp only [Connection.effort, startOp, stages_append, stages_cons, stages_nil, Pending.stage]
  omega

/-- The handler of a complete operation is called without it. -/
theorem effort_erase {ec : Outcome} (hsplit : c.pending = l₁ ++ p :: l₂)
    (hec : p.outcome = some ec) :
    c.effort = Connection.effort { c with pending := l₁ ++ l₂ } + p.op.stage + 1 := by
  have hstage : p.stage = p.op.stage + 1 := by
    simp [Pending.stage, hec]
  simp only [Connection.effort, hsplit, stages_append, stages_cons, hstage]
  omega

/-- A header that was read is worth its handler, since that starts the read of the body. -/
theorem effort_readHeader (hstate : (Op.readHeader.handler .success c).state = .connected) :
    c.effort + 2 ≤ (Op.readHeader.handler .success c).effort := by
  by_cases hmagic : validateMagic c.headerBuffer = true
  · have hhandler : Op.readHeader.handler .success c
        = startReadBody (parseMessageLength c.headerBuffer) c := onReadHeader_of_magic hmagic
    rw [hhandler]
    exact effort_startOp (.readBody (parseMessageLength c.headerBuffer)) { c with bodyBuffer := _ }
  · rw [Bool.not_eq_true] at hmagic
    have hhandler : Op.readHeader.handler .success c = networkClose c :=
      onReadHeader_of_not_magic hmagic
    rw [hhandler, networkClose_disconnected] at hstate
    cases hstate

/-- A body that was read is worth its handler, since a frame more is delivered. -/
theorem effort_readBody {len : UInt32} (hcallback : c.inCallback = false)
    (honFrame : c.onFrame = true) :
    c.effort + 4 ≤ ((Op.readBody len).handler .success c).effort := by
  have hhandler : (Op.readBody len).handler .success c
      = { c with delivered := c.delivered ++ [c.bodyBuffer], inCallback := true } := if_pos honFrame
  simp only [hhandler, Connection.effort, List.length_append, List.length_singleton, hcallback]
  simp
  omega

/-- A write that is done is worth its handler, since the queue is one buffer shorter. -/
theorem effort_write {buffer : Bytes} (hqueue : c.writeQueue ≠ []) :
    c.effort + 2 ≤ ((Op.write buffer).handler .success c).effort := by
  obtain ⟨front, rest, hcons⟩ := List.exists_cons_of_ne_nil hqueue
  have hpop : c.effort + 2 ≤ Connection.effort { c with writeQueue := rest } := by
    simp only [Connection.effort, hcons, List.length_cons]
    omega
  have htail : c.writeQueue.tail = rest := congrArg List.tail hcons
  cases rest with
  | nil =>
    rw [show (Op.write buffer).handler .success c = _ from onWrite_success_of_nil htail]
    exact hpop
  | cons next rest =>
    rw [show (Op.write buffer).handler .success c = _ from onWrite_success_of_cons htail]
    have hstart := effort_startOp (.write next) { c with writeQueue := next :: rest }
    omega

/-- **Each act that carries something out** brings the end further. -/
theorem effort_step (ha : a.Works) (hloop : Loop d₀ c) (hdraining : Draining sent₀ stream c)
    (hstate : c'.state = .connected) (hstep : step c a = some c') : c.effort < c'.effort := by
  cases a with
  | connect lookup => exact absurd ha id
  | close => exact absurd ha id
  | send data => exact absurd ha id
  | setOnFrame => exact absurd ha id
  | raise => exact absurd ha id
  | transfer i data =>
    obtain ⟨l₁, p, l₂, hsplit, -, rfl⟩ := step_transfer hstep
    have hop := hloop.noConnect p (hsplit ▸ List.mem_append_right _ List.mem_cons_self)
    exact effort_transfer ha hop hsplit
  | complete i ec =>
    obtain ⟨l₁, p, l₂, hsplit, ⟨hopen, -⟩, rfl⟩ := step_complete hstep
    exact effort_complete hopen hsplit
  | ret =>
    obtain ⟨hcallback, rfl⟩ := step_ret hstep
    have hstart := effort_startOp .readHeader { c with inCallback := false }
    -- the callback was worth one, the header read is started for nothing
    have hreturn : c.effort + 1 = Connection.effort { c with inCallback := false } := by
      simp only [Connection.effort, hcallback]
      simp
    show c.effort < (startOp .readHeader { c with inCallback := false }).effort
    omega
  | run i =>
    obtain ⟨hcallback, l₁, p, l₂, ec, hsplit, -, hec, rfl⟩ := step_run hstep
    have hp : p ∈ c.pending := hsplit ▸ List.mem_append_right _ List.mem_cons_self
    -- a handler gives up the stage of its operation and has to make more than that of it
    have herase := effort_erase hsplit hec
    cases hop : p.op with
    | connect => exact absurd hop (hloop.noConnect p hp)
    | readHeader =>
      rw [hop] at herase hstate
      cases ec with
      | failure => cases (networkClose_disconnected _).symm.trans hstate
      | success =>
        have hnext := effort_readHeader hstate
        simp only [Op.stage] at herase
        omega
    | readBody len =>
      rw [hop] at herase hstate
      cases ec with
      | failure => cases (networkClose_disconnected _).symm.trans hstate
      | success =>
        have hnext : Connection.effort { c with pending := l₁ ++ l₂ } + 4
            ≤ ((Op.readBody len).handler .success { c with pending := l₁ ++ l₂ }).effort :=
          effort_readBody hcallback hloop.onFrame
        simp only [Op.stage] at herase
        omega
    | write buffer =>
      rw [hop] at herase hstate
      cases ec with
      | failure => cases (networkClose_disconnected _).symm.trans hstate
      | success =>
        obtain ⟨_, rest, hqueue, -⟩ := hdraining.inFlight hsplit hop
        have hnext : Connection.effort { c with pending := l₁ ++ l₂ } + 2
            ≤ ((Op.write buffer).handler .success { c with pending := l₁ ++ l₂ }).effort :=
          effort_write (hqueue ▸ List.cons_ne_nil _ _)
        simp only [Op.stage] at herase
        omega

/-- The operations are the reads and the writes. -/
theorem stages_split {l : List Pending} (h : ∀ p ∈ l, p.op ≠ .connect) :
    stages l = stages (l.filter (·.op.isRead)) + stages (l.filter (·.op.isWrite)) := by
  induction l with
  | nil => rfl
  | cons p l ih =>
    have hrest := ih fun q hq => h q (List.mem_cons_of_mem p hq)
    rw [List.filter_cons, List.filter_cons, stages_cons, hrest]
    cases hop : p.op with
    | connect => exact absurd hop (h p List.mem_cons_self)
    | readHeader => simp [Op.isRead, Op.isWrite]; omega
    | readBody len => simp [Op.isRead, Op.isWrite]; omega
    | write buffer => simp [Op.isRead, Op.isWrite]; omega

/-- One read is outstanding at most, so the reads count for three at most. -/
theorem Loop.stages_reads (h : Loop d₀ c) : stages c.reads ≤ 3 := by
  have hone : ∀ p : Pending, p.stage ≤ 3 := by
    intro p
    have hdone : p.outcome.isSome.toNat ≤ 1 := Bool.toNat_le _
    cases hop : p.op with
    | readBody len => simp only [Pending.stage, hop, Op.stage]; omega
    | _ => simp only [Pending.stage, hop, Op.stage]; omega
  obtain ⟨_, _, _, -, -, -, hphase⟩ := h.progress
  cases hphase with
  | header _ _ hreads => simpa [hreads] using hone _
  | body _ _ hreads => simpa [hreads] using hone _
  | callback _ _ hreads => simp [hreads]
  | closed _ _ _ hreads => simp [hreads]

/-- One write is outstanding at most, so the writes count for one at most. -/
theorem Draining.stages_writeOps (h : Draining sent₀ stream c) : stages c.writeOps ≤ 1 := by
  cases h with
  | idle _ hwrites _ => simp [hwrites]
  | busy _ hwrites hop _ _ _ _ => simpa [hwrites, Pending.stage, hop, Op.stage] using Bool.toNat_le _

end

section
variable {d₀ asked : Side → List Bytes} {p p' : Pipe} {side : Side}

/-- As far as an end can come when nothing more is sent. -/
def furthest (d₀ asked : Side → List Bytes) (side : Side) : Int :=
  ((asked side.other).flatMap frame).length + ((asked side).flatMap frame).length
    + 5 * ((d₀ side).length + (asked side.other).length) + 4

/-- The effort of an end is bounded by what both ends were asked for: there is only so
    much work. -/
theorem Flows.effort_le (h : Flows d₀ asked p) (side : Side) :
    (p side).effort ≤ furthest d₀ asked side := by
  have hreceived := (h.received_isPrefix side).length_le
  have hsent := (h.draining side).sent_isPrefix.length_le
  have hdelivered : (p side).delivered.length ≤ (d₀ side).length + (asked side.other).length := by
    obtain ⟨ms, ms', _, _, hms, heq, -⟩ :=
      (h.loop side).split_frames (h.fits side.other) (h.received_isPrefix side)
    rw [heq, hms, List.length_append, List.length_append]
    omega
  have hreads := (h.loop side).stages_reads
  have hwrites := (h.draining side).stages_writeOps
  have hsplit := stages_split (h.loop side).noConnect
  change stages (p side).pending = stages (p side).reads + stages (p side).writeOps at hsplit
  rw [furthest, Connection.effort]
  omega

/-- How far the two ends have come. -/
def Pipe.effort (p : Pipe) : Int := (p .near).effort + (p .far).effort

/-- The effort of the pipe changes with that of the end that acted. -/
theorem Pipe.effort_update (p : Pipe) (side : Side) (c : Connection) :
    Pipe.effort (Function.update p side c) = p.effort - (p side).effort + c.effort := by
  cases side with
  | near =>
    simp [Pipe.effort]
    omega
  | far => simp [Pipe.effort]

/-- A run that only carries out what is started sends nothing. -/
theorem Flows.works (h : Flows d₀ asked p) {acts : List (Side × Act)}
    (hworks : ∀ x ∈ acts, x.2.Works) (hrun : run Pipe.step p acts = some p') :
    Flows d₀ asked p' ∧ p.effort + acts.length ≤ p'.effort := by
  induction acts generalizing p with
  | nil =>
    cases hrun
    refine ⟨h, ?_⟩
    simp
  | cons x acts ih =>
    obtain ⟨side, a⟩ := x
    obtain ⟨p₁, hstep, hrun⟩ := run_cons_eq_some hrun
    have ha : a.Works := hworks _ List.mem_cons_self
    have hself : asked side = asked side ++ a.sends := by
      rw [ha.sends, List.append_nil]
    have hnext : Flows d₀ asked p₁ := h.of_step ha.fair hstep hself rfl
    obtain ⟨hlast, hfurther⟩ := ih hnext (fun y hy => hworks y (List.mem_cons_of_mem _ hy)) hrun
    refine ⟨hlast, ?_⟩
    obtain ⟨c, hact, -, rfl⟩ := Pipe.step_cases hstep
    have hstate : c.state = .connected := by
      have hhere := hnext.connected side
      rwa [Function.update_self] at hhere
    -- the effort grows in every step, and that of the other end is the same
    have hone := effort_step ha (h.loop side) (h.draining side) hstate hact
    rw [Pipe.effort_update] at hfurther
    rw [List.length_cons]
    omega

end

/-- **The pipe empties**: from any state of such a run, carrying out what is started takes a bounded
    number of acts, whatever their order; some order brings both ends to rest, and wherever they
    come to rest each has delivered all the messages the other sent. -/
theorem pipe_settles_run {i : Side → Idle} (hqueue : ∀ side, (i side).conn.writeQueue = [])
    {acts : List (Side × Act)} (hfair : ∀ x ∈ acts, x.2.Fair) {p : Pipe}
    (hrun : run Pipe.step (opened i) acts = some p) :
    (∃ n, ∀ work p', (∀ x ∈ work, x.2.Works) → run Pipe.step p work = some p' →
      work.length ≤ n) ∧
    (∃ work p', (∀ x ∈ work, x.2.Works) ∧ run Pipe.step p work = some p' ∧ p'.Rests) ∧
    ∀ work p', (∀ x ∈ work, x.2.Works) → run Pipe.step p work = some p' → p'.Rests →
      ∀ side, (p' side).delivered = (i side).conn.delivered ++ sentBy side.other acts := by
  have hflows := (flows_opened hqueue).of_run hfair hrun
  -- both ends together have only so far to go
  have hbound : ∃ n, ∀ work p', (∀ x ∈ work, x.2.Works) → run Pipe.step p work = some p' →
      work.length ≤ n := by
    let ends : Side → Int :=
      furthest (fun side => (i side).conn.delivered) fun side => sentBy side acts
    refine ⟨(ends .near + ends .far - p.effort).toNat, ?_⟩
    intro work p' hworks hwork
    obtain ⟨hlast, hfurther⟩ := hflows.works hworks hwork
    have hnear : (p' .near).effort ≤ ends .near := hlast.effort_le .near
    have hfar : (p' .far).effort ≤ ends .far := hlast.effort_le .far
    have hsum : p'.effort = (p' .near).effort + (p' .far).effort := rfl
    omega
  refine ⟨hbound, ?_, ?_⟩
  · obtain ⟨n, hn⟩ := hbound
    exact exists_rest hn
  · intro work p' hworks hwork hrest side
    obtain ⟨hlast, -⟩ := hflows.works hworks hwork
    exact hlast.delivered_all hrest side

/-- The example worked off: both messages are delivered, and both ends are at rest. -/
theorem pipe_settles_exchange :
    ∃ p work p', run Pipe.step (opened fun _ => Idle.initial) exchange = some p ∧
      run Pipe.step p work = some p' ∧ p'.Rests ∧ (p' .near).delivered = [ascii "b"] ∧
      (p' .far).delivered = [ascii "a"] := by
  obtain ⟨p, hrun⟩ := runs_exchange
  obtain ⟨-, ⟨work, p', hworks, hwork, hrest⟩, hall⟩ :=
    pipe_settles_run (i := fun _ => Idle.initial) (fun _ => rfl) fair_exchange hrun
  have hdelivered := hall work p' hworks hwork hrest
  exact ⟨p, work, p', hrun, hwork, hrest, hdelivered .near, hdelivered .far⟩

end SteamMin.Net
