/-
  FRAMED STREAMS.

  A frame is a header of a fixed size and a body whose size the header announces; a format may
  refuse headers (`bodySize hdr = none`).  Cutting a stream into frames is deterministic:

  * `Frames F fs s`          — `s` is a sequence of whole frames with the bodies `fs`;
  * `Stuck F s`              — no whole frame stands at the front of `s`: the header or the body is
                               incomplete, or the header is refused;
  * `Decomposes F s fs rest` — whole frames as far as they go, and a stuck rest.

  Every stream decomposes (`exists_decomposes`), in one way only (`Decomposes.unique`).

  Both framings of the repository are instances: the TCP frames with their length and magic word,
  where a wrong word refuses the header, and the frames of a batch with a bare length, where no
  header is ever refused.  From here they get that there is one way to cut a stream, and that
  frames added at the end keep the cut.
-/
import Mathlib.Data.List.Basic

namespace Framing

variable {β : Type}

/-- Frames with a header of fixed size that announces the size of the body, or is refused. -/
structure Format (β : Type) where
  headerSize : Nat
  headerSize_pos : 0 < headerSize
  /-- the size of the body a header announces -/
  bodySize : List β → Option Nat

variable {F : Format β}

/-- A header and its body. -/
structure IsFrame (F : Format β) (hdr body : List β) : Prop where
  header : hdr.length = F.headerSize
  body : F.bodySize hdr = some body.length

/-- A stream that is made of whole frames, with their bodies in order. -/
inductive Frames (F : Format β) : List (List β) → List β → Prop
  | nil : Frames F [] []
  | cons {hdr body s : List β} {fs : List (List β)} : IsFrame F hdr body → Frames F fs s →
      Frames F (body :: fs) (hdr ++ body ++ s)

/-- No whole frame at the front. -/
def Stuck (F : Format β) (s : List β) : Prop :=
  F.headerSize ≤ s.length → ∀ n, F.bodySize (s.take F.headerSize) = some n →
    s.length < F.headerSize + n

/-- The header is complete, and refused. -/
def BadHeader (F : Format β) (s : List β) : Prop :=
  F.headerSize ≤ s.length ∧ F.bodySize (s.take F.headerSize) = none

/-- A stream as the frames in it and a rest in which no further one is complete. -/
structure Decomposes (F : Format β) (s : List β) (fs : List (List β)) (rest : List β) : Prop where
  frames : ∃ r, Frames F fs r ∧ s = r ++ rest
  stuck : Stuck F rest

/-! ## Sequences of frames -/

/-- Two streams of frames make one. -/
theorem Frames.append {fs gs : List (List β)} {r s : List β} (h₁ : Frames F fs r)
    (h₂ : Frames F gs s) : Frames F (fs ++ gs) (r ++ s) := by
  induction h₁ with
  | nil => exact h₂
  | cons hframe _ ih =>
    rw [List.append_assoc]
    exact .cons hframe ih

/-- A frame may be added at the end, which is where a reader adds it. -/
theorem Frames.snoc {fs : List (List β)} {r hdr body : List β} (h : Frames F fs r)
    (hframe : IsFrame F hdr body) : Frames F (fs ++ [body]) (r ++ (hdr ++ body)) := by
  have hone := Frames.cons hframe (Frames.nil (F := F))
  rw [List.append_nil] at hone
  exact h.append hone

/-! ## What stands at the front of a stream -/

/-- Less than a header is no frame. -/
theorem stuck_of_length_lt {s : List β} (h : s.length < F.headerSize) : Stuck F s :=
  fun hle => absurd h (by omega)

/-- A refused header is no frame, whatever follows it. -/
theorem BadHeader.stuck {s : List β} (h : BadHeader F s) : Stuck F s := by
  intro _ n hn
  nomatch h.2.symm.trans hn

/-- The header is what stands in front. -/
theorem take_header {hdr s : List β} (h : hdr.length = F.headerSize) :
    (hdr ++ s).take F.headerSize = hdr := by
  rw [← h, List.take_left]

/-- A header with too little behind it. -/
theorem stuck_of_short {hdr s : List β} {n : Nat} (hhdr : hdr.length = F.headerSize)
    (hsize : F.bodySize hdr = some n) (hs : s.length < n) : Stuck F (hdr ++ s) := by
  intro _ m hm
  rw [take_header hhdr, hsize] at hm
  obtain rfl := Option.some.inj hm
  rw [List.length_append, hhdr]
  omega

/-- In front of a frame the stream is not stuck. -/
theorem IsFrame.not_stuck {hdr body s : List β} (h : IsFrame F hdr body) :
    ¬ Stuck F (hdr ++ body ++ s) := by
  intro hstuck
  rw [List.append_assoc] at hstuck
  have hlt := hstuck (by rw [List.length_append, h.header]; omega) body.length
    (by rw [take_header h.header, h.body])
  rw [List.length_append, List.length_append, h.header] at hlt
  omega

/-- The first frame of a stream is determined by the stream. -/
theorem IsFrame.unique {hdr hdr' body body' s s' : List β} (h : IsFrame F hdr body)
    (h' : IsFrame F hdr' body') (heq : hdr ++ body ++ s = hdr' ++ body' ++ s') :
    body = body' ∧ s = s' := by
  rw [List.append_assoc, List.append_assoc] at heq
  obtain ⟨rfl, htail⟩ := List.append_inj heq (h.header.trans h'.header.symm)
  exact List.append_inj htail (Option.some.inj (h.body.symm.trans h'.body))

/-! ## Decomposition -/

/-- A stuck stream has no frames: this is why the decomposition is unique. -/
theorem Stuck.decomposes {s rest : List β} {fs : List (List β)} (hstuck : Stuck F s)
    (h : Decomposes F s fs rest) : fs = [] ∧ rest = s := by
  obtain ⟨r, hframes, rfl⟩ := h.frames
  cases hframes with
  | nil => exact ⟨rfl, rfl⟩
  | cons hframe _ =>
    rw [List.append_assoc] at hstuck
    exact absurd hstuck hframe.not_stuck

/-- Whole frames at the front of a stream are the first of its decomposition. -/
theorem Frames.split {fs gs : List (List β)} {r t rest : List β} (h : Frames F fs r)
    (h' : Decomposes F (r ++ t) gs rest) : ∃ gs', gs = fs ++ gs' ∧ Decomposes F t gs' rest := by
  induction h generalizing gs with
  | nil => exact ⟨gs, rfl, h'⟩
  | @cons hdr body r fs hframe _ ih =>
    obtain ⟨⟨s, hframes, heq⟩, hstuck⟩ := h'
    rw [List.append_assoc (hdr ++ body)] at heq
    cases hframes with
    | nil =>
      rw [List.nil_append] at heq
      rw [← heq] at hstuck
      exact absurd hstuck hframe.not_stuck
    | @cons hdr' body' s gs hframe' htail =>
      rw [List.append_assoc (hdr' ++ body')] at heq
      obtain ⟨rfl, hrest⟩ := hframe.unique hframe' heq
      obtain ⟨gs', rfl, hdec⟩ := ih ⟨⟨s, htail, hrest⟩, hstuck⟩
      exact ⟨gs', rfl, hdec⟩

/-- **One decomposition**: the bodies and the rest are determined by the stream. -/
theorem Decomposes.unique {s rest rest' : List β} {fs fs' : List (List β)}
    (h : Decomposes F s fs rest) (h' : Decomposes F s fs' rest') : fs' = fs ∧ rest' = rest := by
  obtain ⟨r, hframes, rfl⟩ := h.frames
  obtain ⟨gs, rfl, hdec⟩ := hframes.split h'
  obtain ⟨rfl, rfl⟩ := h.stuck.decomposes hdec
  exact ⟨List.append_nil fs, rfl⟩

/-- What is cut from the beginning of a stream are the first bodies of the stream. -/
theorem Decomposes.isPrefix {s s' rest rest' : List β} {fs fs' : List (List β)}
    (h : Decomposes F s fs rest) (h' : Decomposes F s' fs' rest') (hs : s <+: s') : fs <+: fs' := by
  obtain ⟨r, hframes, rfl⟩ := h.frames
  obtain ⟨t, rfl⟩ := hs
  rw [List.append_assoc] at h'
  obtain ⟨gs, rfl, -⟩ := hframes.split h'
  exact List.prefix_append fs gs

/-- A stream that is not stuck begins with a frame. -/
theorem exists_isFrame {s : List β} (h : ¬ Stuck F s) :
    ∃ hdr body t, IsFrame F hdr body ∧ s = hdr ++ body ++ t := by
  unfold Stuck at h
  push Not at h
  obtain ⟨hle, n, hsize, hlen⟩ := h
  refine ⟨s.take F.headerSize, (s.drop F.headerSize).take n, (s.drop F.headerSize).drop n,
    ⟨List.length_take_of_le hle, ?_⟩, ?_⟩
  · rw [hsize, List.length_take_of_le (by rw [List.length_drop]; omega)]
  · rw [List.append_assoc, List.take_append_drop, List.take_append_drop]

/-- Every stream decomposes. -/
theorem exists_decomposes (s : List β) : ∃ fs rest, Decomposes F s fs rest := by
  induction hn : s.length using Nat.strongRecOn generalizing s with
  | ind n ih =>
    by_cases hstuck : Stuck F s
    · exact ⟨[], s, ⟨[], .nil, rfl⟩, hstuck⟩
    · obtain ⟨hdr, body, t, hframe, rfl⟩ := exists_isFrame hstuck
      have hpos := F.headerSize_pos
      rw [List.length_append, List.length_append, hframe.header] at hn
      obtain ⟨fs, rest, ⟨r, hframes, rfl⟩, hrest⟩ := ih t.length (by omega) t rfl
      refine ⟨body :: fs, rest, ⟨hdr ++ body ++ r, .cons hframe hframes, ?_⟩, hrest⟩
      rw [List.append_assoc (hdr ++ body)]

end Framing
