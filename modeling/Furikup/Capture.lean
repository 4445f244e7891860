import Furikup.ConfigFile
import Furikup.FileInput
import Furikup.Lib.Counter

/-!
# The capture buffer

`rtpAudioSend` makes its frames from a ring of 4096 samples, whatever fills the ring.  Where a frame
starts is counted in `sent`, an `int` that goes up by 882 with each frame and never comes down, and
it is the remainder by the size of the ring that the samples are looked up with.

* `SendLoop` and `sendTurn` — the loop with all its inputs: the camera, the microphone, the headset
  and the file.
* `tapIndex` — the index of one sample, and `indicesStay_iff` — for which `sent` a frame stays in
  the ring.
* `map_sent_frames` — a run of the loop numbers its frames from zero.
* `captureInRange_iff` — **how long that goes well**: until `sent` leaves the range of an `int`,
  after 2434788 frames.
* `sendTurn_file` — until then the loop is the one of the input file, without any wrapping.
-/

set_option autoImplicit false

namespace Furikup

open CText

/-! ## The loop -/

/-- What one turn of the loop is told from outside. -/
structure Device (α : Type) where
  /-- What the poll of the driver returns. -/
  pollEnd : Int32
  /-- What the driver returns when it is asked for more. -/
  input : Int32
  /-- What the driver or the file puts in the buffer. -/
  samples : Nat → α

/-- The variables of `rtpAudioSend`. -/
structure SendLoop (α : Type) where
  buffer : Nat → α
  result : Int32 := 0
  sent : Int32 := 0
  ts : Int32 := 0

/-- A frame, and the `sent` it starts at. -/
structure Frame (α : Type) where
  sent : Int32
  /-- The samples of each of its values; what is not in the buffer is `none`. -/
  taps : List (List (Option α))

/-- `sent % BUFSIZE >= (BUFSIZE-882)` -/
def RefillTest (sent : Int32) : Prop :=
  sent % Int32.ofNat bufSize ≥ Int32.ofNat bufSize - Int32.ofNat frameStep

instance (sent : Int32) : Decidable (RefillTest sent) :=
  inferInstanceAs (Decidable (_ ≥ _))

/-- `((int)(i*5.5) + sent + j) % BUFSIZE`.  The product is a whole number of halves, which a
`double` holds as it is. -/
def tapIndex (sent : Int32) (i j : Nat) : Int32 :=
  (Int32.ofNat (11 * i / 2) + sent + Int32.ofNat j) % Int32.ofNat bufSize

/-- The index is one of `buffer`. -/
def InBuffer (index : Int32) : Prop :=
  0 ≤ index.toInt ∧ index.toInt < bufSize

instance (index : Int32) : Decidable (InBuffer index) :=
  inferInstanceAs (Decidable (_ ∧ _))

variable {α : Type}

def readBuffer (buffer : Nat → α) (index : Int32) : Option α :=
  if InBuffer index then some (buffer index.toInt.toNat) else none

def frameTaps (buffer : Nat → α) (sent : Int32) : List (List (Option α)) :=
  (List.range 160).map fun i => (List.range 5).map fun j => readBuffer buffer (tapIndex sent i j)

section Loop

variable [Zero α] (vars : ConfigVars) (inputFile : Int32)

/-- What the loop does before it makes a frame.  A driver goes on filling the buffer once it has
been asked to. -/
def SendLoop.input (d : Device α) (s : SendLoop α) : SendLoop α :=
  if vars.useUsb then
    if vars.useVideo then
      { s with
        buffer := d.samples
        result := if d.pollEnd > 0 ∨ s.ts = 0 then d.input else s.result }
    else
      { s with
        buffer := d.samples
        result := if d.pollEnd = 0 ∨ s.ts = 0 then d.input else s.result }
  else if vars.useHeadset then
    { s with
      buffer := d.samples
      result := if d.pollEnd = 0 ∨ s.ts = 0 then d.input else s.result }
  else if vars.useInputFile then
    { s with
      buffer :=
        if inputFile = -1 then fun _ => 0
        else if RefillTest s.sent then d.samples
        else s.buffer
      result := 1 }
  else s

/-- One turn of the loop.  Where there is no frame it sends 160 zeros. -/
def sendTurn (d : Device α) (s : SendLoop α) : SendLoop α × Option (Frame α) :=
  let s := s.input vars inputFile d
  if s.result ≥ 0 then
    ({ s with sent := s.sent + Int32.ofNat frameStep, ts := s.ts + 160 },
      some ⟨s.sent, frameTaps s.buffer s.sent⟩)
  else ({ s with ts := s.ts + 160 }, none)

/-- The frames of a run of the loop, in order. -/
def frames : List (Device α) → SendLoop α → List (Frame α)
  | [], _ => []
  | d :: ds, s =>
    (sendTurn vars inputFile d s).2.toList ++ frames ds (sendTurn vars inputFile d s).1

theorem sent_input (d : Device α) (s : SendLoop α) : (s.input vars inputFile d).sent = s.sent := by
  fun_cases SendLoop.input vars inputFile d s <;> rfl

/-- A turn makes the frame `sent` stands at and moves on, or does neither. -/
theorem sendTurn_cases (d : Device α) (s : SendLoop α) :
    (∃ taps, (sendTurn vars inputFile d s).2 = some ⟨s.sent, taps⟩ ∧
      (sendTurn vars inputFile d s).1.sent = s.sent + Int32.ofNat frameStep) ∨
    ((sendTurn vars inputFile d s).2 = none ∧ (sendTurn vars inputFile d s).1.sent = s.sent) := by
  rw [sendTurn]
  split
  · exact Or.inl ⟨_, by rw [sent_input], by rw [sent_input]⟩
  · exact Or.inr ⟨rfl, sent_input vars inputFile d s⟩

/-- `sent` after so many frames. -/
def sentAt : Nat → Int32 :=
  Counter.after 0 (Int32.ofNat frameStep)

/-- **A run numbers its frames one after the other.** -/
theorem map_sent_frames (ds : List (Device α)) {s : SendLoop α} {m : Nat} (hs : s.sent = sentAt m) :
    (frames vars inputFile ds s).map Frame.sent =
      (List.range' m (frames vars inputFile ds s).length).map sentAt := by
  induction ds generalizing s m with
  | nil => rfl
  | cons d ds ih =>
    rw [frames]
    rcases sendTurn_cases vars inputFile d s with ⟨taps, hframe, hsent⟩ | ⟨hframe, hsent⟩
    · have hnext : (sendTurn vars inputFile d s).1.sent = sentAt (m + 1) := by rw [hsent, hs]; rfl
      rw [hframe, Option.toList_some, List.singleton_append, List.map_cons, List.length_cons,
        List.range'_succ, List.map_cons, ih hnext, hs]
    · rw [hframe, Option.toList_none, List.nil_append, ih (hsent.trans hs)]

end Loop

/-! ## Indices -/

/-- All samples of a frame are in the buffer. -/
def IndicesStay (sent : Int32) : Prop :=
  ∀ i < 160, ∀ j < 5, InBuffer (tapIndex sent i j)

/-- The index is a remainder of the wrapped sum, and has its sign. -/
theorem toInt_tapIndex (sent : Int32) {i j : Nat} (hi : i < 160) (hj : j < 5) :
    (tapIndex sent i j).toInt =
      ((sent.toInt + (11 * i / 2 + j : Nat)).bmod (2 ^ 32)).tmod bufSize := by
  have hoffset : (Int32.ofNat (11 * i / 2)).toInt = (11 * i / 2 : Nat) :=
    Int32.toInt_ofNat_of_lt (by omega)
  have htap : (Int32.ofNat j).toInt = j := Int32.toInt_ofNat_of_lt (by omega)
  have hsize : (Int32.ofNat bufSize).toInt = bufSize := by decide
  rw [tapIndex, Int32.toInt_mod, Int32.toInt_add, Int32.toInt_add, hoffset, htap, hsize,
    Int.bmod_add_bmod, Nat.cast_add, Int.add_comm (11 * i / 2 : Nat), Int.add_assoc]

theorem inBuffer_tapIndex_iff {sent : Int32} {i j : Nat} (hi : i < 160) (hj : j < 5) :
    InBuffer (tapIndex sent i j) ↔
      0 ≤ (sent.toInt + (11 * i / 2 + j : Nat)).bmod (2 ^ 32) ∨
        (bufSize : Int) ∣ (sent.toInt + (11 * i / 2 + j : Nat)).bmod (2 ^ 32) := by
  rw [InBuffer, toInt_tapIndex sent hi hj, Int.tmod_eq_emod]
  generalize (sent.toInt + (11 * i / 2 + j : Nat)).bmod (2 ^ 32) = x
  have hlow : 0 ≤ x % bufSize := Int.emod_nonneg x (by decide)
  have hhigh : x % bufSize < bufSize := Int.emod_lt_of_pos x (by decide)
  by_cases h : 0 ≤ x ∨ (bufSize : Int) ∣ x
  · rw [if_pos h, Nat.cast_zero, Int.sub_zero]
    exact iff_of_true ⟨hlow, hhigh⟩ h
  · rw [if_neg h, Int.natAbs_natCast]
    exact iff_of_false (by omega) h

/-- **A frame stays in the buffer exactly if the sum of its start and its length is an `int`.** -/
theorem indicesStay_iff (sent : Int32) :
    IndicesStay sent ↔ 0 ≤ sent.toInt ∧ sent.toInt + 878 ≤ 2 ^ 31 := by
  have hmin := sent.le_toInt
  have hmax := sent.toInt_lt
  constructor
  · intro h
    have hfirst := (inBuffer_tapIndex_iff (by omega) (by omega)).1 (h 0 (by omega) 0 (by omega))
    have hsecond := (inBuffer_tapIndex_iff (by omega) (by omega)).1 (h 0 (by omega) 1 (by omega))
    have hlast := (inBuffer_tapIndex_iff (by omega) (by omega)).1 (h 159 (by omega) 4 (by omega))
    simp only [Int.bmod_def, bufSize] at hfirst hsecond hlast
    omega
  · rintro ⟨hpos, hroom⟩ i hi j hj
    rw [inBuffer_tapIndex_iff hi hj]
    simp only [Int.bmod_def, bufSize]
    omega

/-! ## The whole run -/

/-- What a run should keep to, for the values of `sent` its frames start at: all indices are inside
the buffer, and of six frames in a row one comes with a refill. -/
structure CaptureInRange (starts : List Int32) : Prop where
  indices : ∀ sent ∈ starts, IndicesStay sent
  refills : ∀ k, k + 6 ≤ starts.length → ∃ i < 6, ∃ sent ∈ starts[k + i]?, RefillTest sent

/-- Up to here `sent` is the number of the frame times its width. -/
theorem toInt_sentAt {k : Nat} (hk : k ≤ 2434788) : (sentAt k).toInt = (frameStep * k : Nat) := by
  have hstep : (Int32.ofNat frameStep).toInt = frameStep := by decide
  have hsum : (0 : Int32).toInt + k * (Int32.ofNat frameStep).toInt = (frameStep * k : Nat) := by
    rw [hstep, Nat.mul_comm, Nat.cast_mul]
    exact Int.zero_add _
  have hlt : frameStep * k < 2 ^ 31 := by
    simp only [frameStep]
    omega
  rw [sentAt, Counter.toInt_after_of_fits (by omega) (by omega), hsum]

theorem refillTest_iff {sent : Int32} {x : Nat} (hsent : sent.toInt = x) :
    RefillTest sent ↔ bufSize - frameStep ≤ x % bufSize := by
  have hsize : (Int32.ofNat bufSize).toInt = bufSize := by decide
  have hlast : (Int32.ofNat bufSize - Int32.ofNat frameStep).toInt =
      (bufSize - frameStep : Nat) := by decide
  rw [RefillTest, ge_iff_le, Int32.le_iff_toInt_le, Int32.toInt_mod, hsize, hlast, hsent,
    Int.tmod_eq_emod_of_nonneg (Int.natCast_nonneg x), ← Int.natCast_mod, Nat.cast_le]

/-- Of five frames one comes with a refill. -/
theorem exists_refillTest {k : Nat} (hk : k + 4 ≤ 2434788) :
    ∃ i < 5, RefillTest (sentAt (k + i)) := by
  have hstep : 0 < frameStep := by decide
  have hsize : frameStep ≤ bufSize := by decide
  obtain ⟨i, hround, hi⟩ := Counter.exists_mod_ge hstep hsize (frameStep * k)
  have hlt : i < 5 := by
    simp only [bufSize, frameStep] at hround
    omega
  refine ⟨i, hlt, ?_⟩
  rwa [refillTest_iff (toInt_sentAt (by omega)), Nat.mul_add, Nat.mul_comm frameStep i]

/-- **The frames up to a number stay in range if and only if `sent` has not left the range of an
`int`.** -/
theorem captureInRange_map_sentAt (n : Nat) :
    CaptureInRange ((List.range n).map sentAt) ↔ n ≤ 2434788 := by
  constructor
  · intro h
    by_contra hn
    have hlast := h.indices (sentAt 2434788)
      (List.mem_map.2 ⟨2434788, List.mem_range.2 (by omega), rfl⟩)
    rw [indicesStay_iff, toInt_sentAt le_rfl] at hlast
    simp only [frameStep] at hlast
    omega
  · intro hn
    constructor
    · intro sent hsent
      obtain ⟨k, hk, rfl⟩ := List.mem_map.1 hsent
      rw [List.mem_range] at hk
      rw [indicesStay_iff, toInt_sentAt (by omega)]
      simp only [frameStep]
      omega
    · intro k hk
      rw [List.length_map, List.length_range] at hk
      obtain ⟨i, hi, htest⟩ := exists_refillTest (k := k) (by omega)
      refine ⟨i, by omega, sentAt (k + i), ?_, htest⟩
      rw [List.getElem?_map, List.getElem?_range (by omega)]
      rfl

section Loop

variable [Zero α] (vars : ConfigVars) (inputFile : Int32)

/-- A run of the loop stays in range if and only if it sends no more than 2434788 frames. -/
theorem captureInRange_frames (ds : List (Device α)) (buffer : Nat → α) :
    CaptureInRange ((frames vars inputFile ds { buffer }).map Frame.sent) ↔
      (frames vars inputFile ds { buffer }).length ≤ 2434788 := by
  have hstart : ({ buffer } : SendLoop α).sent = sentAt 0 := rfl
  rw [map_sent_frames vars inputFile ds hstart, ← List.range_eq_range', captureInRange_map_sentAt]

/-- With a file for its input the loop makes a frame in every turn. -/
theorem length_frames_file (husb : vars.useUsb = false) (hheadset : vars.useHeadset = false)
    (hfile : vars.useInputFile = true) (ds : List (Device α)) (s : SendLoop α) :
    (frames vars inputFile ds s).length = ds.length := by
  induction ds generalizing s with
  | nil => rfl
  | cons d ds ih =>
    have hframe : (sendTurn vars inputFile d s).2.toList.length = 1 := by
      simp [sendTurn, SendLoop.input, husb, hheadset, hfile]
    rw [frames, List.length_append, hframe, ih, List.length_cons, Nat.add_comm]

end Loop

/-- Whatever the settings are and the devices deliver, a run that sends `n` frames stays in
range. -/
def FramesInRange (α : Type) [Zero α] (n : Nat) : Prop :=
  ∀ (vars : ConfigVars) (inputFile : Int32) (ds : List (Device α)) (buffer : Nat → α),
    (frames vars inputFile ds { buffer }).length = n →
      CaptureInRange ((frames vars inputFile ds { buffer }).map Frame.sent)

/-- A run of `n` frames, of a file that could not be opened. -/
theorem length_frames_silence (α : Type) [Zero α] (n : Nat) :
    (frames { useInputFile := true } (-1) (List.replicate n (⟨0, 0, fun _ => 0⟩ : Device α))
      { buffer := fun _ => 0 }).length = n := by
  rw [length_frames_file _ _ rfl rfl rfl, List.length_replicate]

/-- **`n` frames stay in range if and only if there are no more than 2434788 of them.** -/
theorem captureInRange_iff (α : Type) [Zero α] (n : Nat) : FramesInRange α n ↔ n ≤ 2434788 := by
  constructor
  · intro h
    have hlen := length_frames_silence α n
    have hrun := (captureInRange_frames _ _ _ _).1 (h _ _ _ _ hlen)
    rwa [hlen] at hrun
  · rintro hn vars inputFile ds buffer hlen
    rwa [captureInRange_frames, hlen]

/-- After thirteen and a half hours, with a file that could not be opened. -/
theorem not_captureInRange : ¬ FramesInRange Int 2434789 := by
  intro h
  have hlen := length_frames_silence Int 2434789
  have hrun := (captureInRange_frames _ _ _ _).1 (h _ _ _ _ hlen)
  omega

/-! ## The loop of the input file -/

/-- What is read of a frame is in the buffer as long as its indices are. -/
theorem forall_isSome_frameTaps_iff {buffer : Nat → α} {sent : Int32} :
    (∀ samples ∈ frameTaps buffer sent, ∀ sample ∈ samples, sample.isSome) ↔
      IndicesStay sent := by
  have hread : ∀ index, (readBuffer buffer index).isSome ↔ InBuffer index := by
    intro index
    rw [readBuffer]
    split
    · next h => exact iff_of_true rfl h
    · next h => exact iff_of_false Bool.false_ne_true h
  simp [frameTaps, IndicesStay, hread]

/-- The index of a sample while the sums are numbers an `int` can have. -/
theorem toInt_tapIndex_of_lt {sent : Int32} {x : Nat} (hsent : sent.toInt = x)
    (hroom : x + 878 < 2 ^ 31) {i j : Nat} (hi : i < 160) (hj : j < 5) :
    (tapIndex sent i j).toInt = ((11 * i / 2 + x + j) % bufSize : Nat) := by
  have hsum : ((x : Int) + (11 * i / 2 + j : Nat)).bmod (2 ^ 32) = (11 * i / 2 + x + j : Nat) := by
    rw [Int.bmod_def]
    omega
  rw [toInt_tapIndex sent hi hj, hsent, hsum, Int.tmod_eq_emod_of_nonneg (Int.natCast_nonneg _),
    ← Int.natCast_mod]

/-- The loop has the variables of the one that counts without a limit. -/
structure SendLoop.Follows (s : SendLoop α) (t : Sender α) : Prop where
  buffer : s.buffer = t.buffer
  sent : s.sent.toInt = t.sent

theorem frameTaps_eq {buffer : Nat → α} {sent : Int32} {x : Nat} (hsent : sent.toInt = x)
    (hroom : x + 878 < 2 ^ 31) :
    frameTaps buffer sent = (taps buffer x).map (List.map some) := by
  have hread : ∀ i < 160, ∀ j < 5, readBuffer buffer (tapIndex sent i j) =
      some (buffer ((11 * i / 2 + x + j) % bufSize)) := by
    intro i hi j hj
    have hindex := toInt_tapIndex_of_lt hsent hroom hi hj
    have hmod : (11 * i / 2 + x + j) % bufSize < bufSize := Nat.mod_lt _ (by decide)
    have hin : InBuffer (tapIndex sent i j) := ⟨by omega, by omega⟩
    rw [readBuffer, if_pos hin, hindex, Int.toNat_natCast]
  simp only [frameTaps, taps, List.map_map]
  refine List.map_congr_left fun i hi => ?_
  rw [Function.comp_apply, List.map_map]
  exact List.map_congr_left fun j hj => hread i (List.mem_range.1 hi) j (List.mem_range.1 hj)

/-- **A turn with the file for its input is a frame of the file**, as long as the sums are numbers
an `int` can have. -/
theorem sendTurn_file [Zero α] {vars : ConfigVars} (husb : vars.useUsb = false)
    (hheadset : vars.useHeadset = false) (hfile : vars.useInputFile = true) {inputFile : Int32}
    (hopen : inputFile ≠ -1) {file : Nat → α} {s : SendLoop α} {t t' : Sender α}
    {frame : List (List α)} {d : Device α} (hd : ∀ p, d.samples p = file (t.position + p))
    (hfollows : s.Follows t) (h : sendFrame file t = some (t', frame)) :
    (sendTurn vars inputFile d s).2 = some ⟨s.sent, frame.map (List.map some)⟩ ∧
      (sendTurn vars inputFile d s).1.Follows t' := by
  have htest : RefillTest s.sent ↔ t.sent % bufSize ≥ bufSize - frameStep :=
    refillTest_iff hfollows.sent
  have hbuffer : (s.input vars inputFile d).buffer = (t.input file).buffer := by
    simp only [SendLoop.input, husb, hheadset, hfile, hopen, if_false, if_true, Bool.false_eq_true]
    rw [Sender.input]
    by_cases hfull : t.sent % bufSize ≥ bufSize - frameStep
    · rw [if_pos (htest.2 hfull), if_pos hfull, Sender.refill, funext hd]
    · rw [if_neg (fun hrefill => hfull (htest.1 hrefill)), if_neg hfull, hfollows.buffer]
  have hresult : (s.input vars inputFile d).result = 1 := by
    simp only [SendLoop.input, husb, hheadset, hfile, if_false, if_true, Bool.false_eq_true]
  have hsent : (t.input file).sent = t.sent := by
    rw [Sender.input]
    split
    · rfl
    · rfl
  rw [sendFrame] at h
  split at h
  · next hroom =>
    obtain ⟨rfl, rfl⟩ := Prod.mk.inj (Option.some.inj h)
    rw [hsent] at hroom ⊢
    have hpos : (s.input vars inputFile d).result ≥ 0 := by
      rw [hresult]
      decide
    have hstep : (Int32.ofNat frameStep).toInt = frameStep := by decide
    simp only [intLimit, frameStep] at hroom
    rw [sendTurn, if_pos hpos, sent_input, hbuffer, frameTaps_eq hfollows.sent (by omega)]
    refine ⟨rfl, rfl, ?_⟩
    show (s.sent + Int32.ofNat frameStep).toInt = (t.sent + frameStep : Nat)
    rw [Int32.toInt_add, hfollows.sent, hstep, Int.bmod_def]
    simp only [frameStep]
    omega
  · exact absurd h (Option.some_ne_none _).symm

end Furikup
