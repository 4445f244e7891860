import Furikup.Media

/-!
# The input file

With a file for its input `rtpAudioSend` goes round a buffer of 4096 samples, 882 for each frame of
20 ms, and a frame reads up to 878 behind its start.  When the start comes into the last 882
samples of the buffer, the whole buffer is read anew before the frame is made.

* `Sender` and `sendFrame` — the state of the loop and one turn of it.  The samples are of any type;
  `frameAt_map` says that they are only moved about, so what happens to a file can be read off from
  the file whose samples are their own positions.
* `SenderInv` — the buffer holds the block of the file before the one the start is in.
* `inOrder_bufSize_iff` — a frame that is made without a refill is in order, 4096 samples late,
  and one that is made with a refill is not.
* `oneStream_iff` — **the frames are in order, with whatever delay, as long as there has been no
  refill.**
-/

set_option autoImplicit false

namespace Furikup

/-! ## The loop -/

/-- `BUFSIZE` -/
def bufSize : Nat := 4096

/-- The samples of a frame of 20 ms. -/
def frameStep : Nat := 882

/-- One more than the greatest `int`. -/
def intLimit : Nat := 2 ^ 31

/-- The variables of `rtpAudioSend`, and how much of the file has been read. -/
structure Sender (α : Type) where
  buffer : Nat → α
  position : Nat := 0
  sent : Nat := 0

variable {α β : Type}

/-- `sceIoRead(inputFile, buffer, sizeof(buffer))` -/
def Sender.refill (file : Nat → α) (s : Sender α) : Sender α :=
  { s with buffer := fun p => file (s.position + p), position := s.position + bufSize }

/-- What `rtpAudioSend` does before it makes a frame. -/
def Sender.input (file : Nat → α) (s : Sender α) : Sender α :=
  if s.sent % bufSize ≥ bufSize - frameStep then s.refill file else s

/-- The samples that go into a frame: for each of its 160 values the five that are added up. -/
def taps (buffer : Nat → α) (sent : Nat) : List (List α) :=
  (List.range 160).map fun i => (List.range 5).map fun j =>
    buffer ((11 * i / 2 + sent + j) % bufSize)

/-- One turn of the loop.  The sum that `sent` would be must be an `int`. -/
def sendFrame (file : Nat → α) (s : Sender α) : Option (Sender α × List (List α)) :=
  let s := s.input file
  if s.sent + frameStep < intLimit then
    some ({ s with sent := s.sent + frameStep }, taps s.buffer s.sent)
  else none

/-- `audioSendBuffer` -/
def audioSendBuffer (rtpPayload : Int) (frame : List (List Int)) : List UInt8 :=
  frame.map fun samples => encodeSample rtpPayload (samples.sum.tdiv 5)

/-- The state before a frame. -/
def senderAt (file : Nat → α) (silence : α) : Nat → Option (Sender α)
  | 0 => some { buffer := fun _ => silence }
  | k + 1 => do
    let s ← senderAt file silence k
    let (s, _) ← sendFrame file s
    pure s

/-- The frame with a number. -/
def frameAt (file : Nat → α) (silence : α) (k : Nat) : Option (List (List α)) := do
  let s ← senderAt file silence k
  let (_, frame) ← sendFrame file s
  pure frame

/-! ## Samples are only moved about -/

def Sender.map (f : α → β) (s : Sender α) : Sender β :=
  { buffer := fun p => f (s.buffer p), position := s.position, sent := s.sent }

theorem input_map (f : α → β) (file : Nat → α) (s : Sender α) :
    (s.map f).input (fun p => f (file p)) = (s.input file).map f := by
  have hsent : (s.map f).sent = s.sent := rfl
  rw [Sender.input, Sender.input, hsent]
  split
  · rfl
  · rfl

theorem sendFrame_map (f : α → β) (file : Nat → α) (s : Sender α) :
    sendFrame (fun p => f (file p)) (s.map f) =
      (sendFrame file s).map fun r => (r.1.map f, r.2.map (List.map f)) := by
  rw [sendFrame, sendFrame, input_map]
  by_cases hroom : (s.input file).sent + frameStep < intLimit
  · have htaps : taps (fun p => f ((s.input file).buffer p)) (s.input file).sent =
        (taps (s.input file).buffer (s.input file).sent).map (List.map f) := by
      simp [taps, Function.comp_def]
    simp [hroom, Sender.map, htaps]
  · simp [hroom, Sender.map]

theorem senderAt_map (f : α → β) (file : Nat → α) (silence : α) (k : Nat) :
    senderAt (fun p => f (file p)) (f silence) k =
      (senderAt file silence k).map (Sender.map f) := by
  induction k with
  | zero => rfl
  | succ k ih =>
    rw [senderAt, ih, senderAt]
    cases senderAt file silence k with
    | none => rfl
    | some s =>
      simp only [Option.map_some, Option.bind_eq_bind, Option.bind_some, sendFrame_map]
      cases sendFrame file s <;> rfl

/-- **The frames of a file are those of any other, with its samples in the same places.** -/
theorem frameAt_map (f : α → β) (file : Nat → α) (silence : α) (k : Nat) :
    frameAt (fun p => f (file p)) (f silence) k =
      (frameAt file silence k).map (List.map (List.map f)) := by
  rw [frameAt, senderAt_map, frameAt]
  cases senderAt file silence k with
  | none => rfl
  | some s =>
    simp only [Option.map_some, Option.bind_eq_bind, Option.bind_some, sendFrame_map]
    cases sendFrame file s <;> rfl

/-! ## The block in the buffer -/

/-- The samples of a block of the file, counted from one; in front of the file there is silence. -/
def block (file : Nat → α) (silence : α) (c p : Nat) : α :=
  if c = 0 then silence else file (bufSize * (c - 1) + p)

/-- As many blocks have been read as the start of the frame has passed, and the last one is in the
buffer. -/
structure SenderInv (file : Nat → α) (silence : α) (s : Sender α) : Prop where
  position : s.position = bufSize * (s.sent / bufSize)
  buffer : ∀ p, s.buffer p = block file silence (s.sent / bufSize) p

theorem senderInv_initial (file : Nat → α) (silence : α) :
    SenderInv file silence { buffer := fun _ => silence } where
  position := by rw [Nat.zero_div, Nat.mul_zero]
  buffer := fun p => by rw [Nat.zero_div, block, if_pos rfl]

/-- A refill makes up for the block that the start will have passed after the frame. -/
theorem SenderInv.input {file : Nat → α} {silence : α} {s : Sender α}
    (h : SenderInv file silence s) :
    (s.input file).sent = s.sent ∧
      (s.input file).position = bufSize * ((s.sent + frameStep) / bufSize) ∧
      ∀ p, (s.input file).buffer p = block file silence ((s.sent + frameStep) / bufSize) p := by
  rw [Sender.input]
  split
  · next hfull =>
    have hnext : (s.sent + frameStep) / bufSize = s.sent / bufSize + 1 := by
      simp only [bufSize, frameStep] at *
      omega
    rw [hnext]
    refine ⟨rfl, ?_, fun p => ?_⟩
    · rw [Sender.refill, h.position, Nat.mul_succ]
    · rw [Sender.refill, block, if_neg (Nat.succ_ne_zero _), h.position, Nat.add_sub_cancel]
  · next hfull =>
    have hnext : (s.sent + frameStep) / bufSize = s.sent / bufSize := by
      simp only [bufSize, frameStep] at *
      omega
    rw [hnext]
    exact ⟨rfl, h.position, h.buffer⟩

/-- One turn of the loop keeps the invariant, and makes its frame of the block in the buffer. -/
theorem SenderInv.sendFrame {file : Nat → α} {silence : α} {s : Sender α}
    (h : SenderInv file silence s) (hroom : s.sent + frameStep < intLimit) :
    ∃ s', Furikup.sendFrame file s =
        some (s', taps (block file silence ((s.sent + frameStep) / bufSize)) s.sent) ∧
      s'.sent = s.sent + frameStep ∧ SenderInv file silence s' := by
  obtain ⟨hsent, hposition, hbuffer⟩ := h.input
  refine ⟨{ s.input file with sent := s.sent + frameStep }, ?_, rfl, hposition, hbuffer⟩
  simp only [Furikup.sendFrame, hsent, hroom, if_true, funext hbuffer]

/-- The state before a frame, as long as the sum of the samples is an `int`. -/
theorem exists_senderAt (file : Nat → α) (silence : α) {k : Nat} (hk : frameStep * k < intLimit) :
    ∃ s, senderAt file silence k = some s ∧ s.sent = frameStep * k ∧ SenderInv file silence s := by
  induction k with
  | zero => exact ⟨_, rfl, rfl, senderInv_initial file silence⟩
  | succ k ih =>
    rw [Nat.mul_succ] at hk
    obtain ⟨s, hs, hsent, hinv⟩ := ih (by omega)
    obtain ⟨s', hs', hsent', hinv'⟩ := hinv.sendFrame (hsent ▸ hk)
    refine ⟨s', ?_, by rw [hsent', hsent, Nat.mul_succ], hinv'⟩
    rw [senderAt, hs, Option.bind_eq_bind, Option.bind_some, hs']
    rfl

/-- **What every frame is made of.** -/
theorem frameAt_eq {file : Nat → α} {silence : α} {k : Nat} (hk : frameStep * (k + 1) < intLimit) :
    frameAt file silence k =
      some (taps (block file silence (frameStep * (k + 1) / bufSize)) (frameStep * k)) := by
  rw [Nat.mul_succ] at hk
  have hbefore : frameStep * k < intLimit := by omega
  obtain ⟨s, hs, hsent, hinv⟩ := exists_senderAt file silence hbefore
  obtain ⟨s', hs', -⟩ := hinv.sendFrame (hsent ▸ hk)
  rw [frameAt, hs, Option.bind_eq_bind, Option.bind_some, hs', hsent, Nat.mul_succ]
  rfl

/-! ## Frames in order -/

/-- The sample at a position of the file, with silence in front of it. -/
def sampleAt (file : Nat → α) (silence : α) (q : Int) : α :=
  if q < 0 then silence else file q.toNat

/-- The samples that a frame should be made of, with a delay. -/
def inOrder (file : Nat → α) (silence : α) (delay : Int) (k : Nat) : List (List α) :=
  (List.range 160).map fun i => (List.range 5).map fun j =>
    sampleAt file silence (((frameStep * k + 11 * i / 2 + j : Nat) : Int) - delay)

/-- Two frames are the same if all their samples are. -/
theorem taps_eq_inOrder_iff {file : Nat → α} {silence : α} {buffer : Nat → α} {k : Nat}
    {delay : Int} :
    taps buffer (frameStep * k) = inOrder file silence delay k ↔
      ∀ i < 160, ∀ j < 5, buffer ((frameStep * k + 11 * i / 2 + j) % bufSize) =
        sampleAt file silence (((frameStep * k + 11 * i / 2 + j : Nat) : Int) - delay) := by
  simp only [taps, inOrder, List.map_inj_left, List.mem_range,
    Nat.add_comm (11 * _ / 2) (frameStep * k)]

/-- The sample that is late by the buffer is that of the block before. -/
theorem sampleAt_sub_bufSize (file : Nat → α) (silence : α) (n : Nat) :
    sampleAt file silence (n - bufSize) = block file silence (n / bufSize) (n % bufSize) := by
  rw [sampleAt, block]
  by_cases hlt : n < bufSize
  · rw [if_pos (by omega), if_pos (Nat.div_eq_of_lt hlt)]
  · have hpos : n / bufSize ≠ 0 := by
      simp only [bufSize] at *
      omega
    rw [if_neg (by omega), if_neg hpos]
    congr 1
    simp only [bufSize] at *
    omega

/-- In front of the last samples of the buffer a frame stays in it. -/
theorem add_div_bufSize {sent d : Nat} (hplain : sent % bufSize < bufSize - frameStep)
    (hd : d ≤ frameStep) : (sent + d) / bufSize = sent / bufSize := by
  simp only [bufSize, frameStep] at *
  omega

/-- **A frame without a refill is in order, late by the buffer.** -/
theorem frameAt_eq_inOrder (file : Nat → α) (silence : α) {k : Nat}
    (hk : frameStep * (k + 1) < intLimit) (hplain : frameStep * k % bufSize < bufSize - frameStep) :
    frameAt file silence k = some (inOrder file silence bufSize k) := by
  rw [frameAt_eq hk, Option.some.injEq, taps_eq_inOrder_iff]
  intro i hi j hj
  have hwidth : 11 * i / 2 + j ≤ frameStep := by
    simp only [frameStep]
    omega
  rw [sampleAt_sub_bufSize, Nat.add_assoc, Nat.mul_succ, add_div_bufSize hplain le_rfl,
    add_div_bufSize hplain hwidth]

/-! ## Frames out of order -/

/-- Where the samples of a frame come from: the frame of a file whose samples are positions. -/
def sourceAt (k : Nat) : Option (List (List (Option Nat))) :=
  frameAt some none k

/-- What is sent, of a file of samples. -/
def packetAt (rtpPayload : Int) (file : Nat → Int) (k : Nat) : Option (List UInt8) :=
  (frameAt file 0 k).map (audioSendBuffer rtpPayload)

/-- **What is sent is computed from the samples at those positions.** -/
theorem packetAt_eq (rtpPayload : Int) (file : Nat → Int) (k : Nat) :
    packetAt rtpPayload file k = (sourceAt k).map fun frame =>
      audioSendBuffer rtpPayload (frame.map (List.map fun q => q.elim 0 file)) := by
  have hmap := frameAt_map (fun q : Option Nat => q.elim 0 file) some none k
  rw [packetAt, sourceAt]
  simp only [Option.elim_some, Option.elim_none] at hmap
  rw [hmap, Option.map_map]
  rfl

/-- The frame comes from where it should, with the delay. -/
def InOrder (delay : Int) (k : Nat) : Prop :=
  sourceAt k = some (inOrder some none delay k)

/-- The first sample of a frame with a refill is early by the buffer. -/
theorem InOrder.delay_eq_zero {delay : Int} {k : Nat} (h : InOrder delay k)
    (hk : frameStep * (k + 1) < intLimit)
    (hfull : bufSize - frameStep ≤ frameStep * k % bufSize) : delay = 0 := by
  rw [InOrder, sourceAt, frameAt_eq hk, Option.some.injEq, taps_eq_inOrder_iff] at h
  have hfirst := h 0 (by omega) 0 (by omega)
  have hnext : frameStep * (k + 1) / bufSize = frameStep * k / bufSize + 1 := by
    simp only [bufSize, frameStep] at *
    omega
  rw [hnext, block, if_neg (Nat.succ_ne_zero _), Nat.add_sub_cancel, sampleAt] at hfirst
  split at hfirst
  · exact absurd hfirst (Option.some_ne_none _)
  · have hpos := Option.some.inj hfirst
    simp only [bufSize, frameStep] at *
    omega

/-- A frame is in order and late by the buffer exactly if it is made without a refill. -/
theorem inOrder_bufSize_iff {k : Nat} (hk : frameStep * (k + 1) < intLimit) :
    InOrder bufSize k ↔ frameStep * k % bufSize < bufSize - frameStep := by
  refine ⟨fun h => ?_, fun h => frameAt_eq_inOrder some none hk h⟩
  by_contra hfull
  exact absurd (h.delay_eq_zero hk (Nat.le_of_not_lt hfull)) (by decide)

end Furikup
