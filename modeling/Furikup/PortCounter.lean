import Furikup.Lib.Counter
import Furikup.Steps

/-!
# The port numbers of the calls

Each call of `createLocalSdp` takes two pairs of ports, one for RTP and one for RTCP each, from the
counter `portCount`, which starts at 30000 and is never set back.

* `SdpCall` and `sdpCall` — a call of `createLocalSdp`, for its ports.  `ports_of_run` — the ports
  depend on nothing but how many calls there were.
* `Allocated` — what two calls in a row should have allocated.
* `portsAllocated_iff` — **which calls get ports**: the first 8884, and those after the counter has
  wrapped and come back to positive numbers.
* `Reachable.ports` — in the engine the calls are the descriptions that were sent.
-/

set_option autoImplicit false

namespace Furikup

open CText

/-! ## Calls of `createLocalSdp` -/

/-- What `createLocalSdp` is called with. -/
structure SdpCall where
  cfg : Config
  net : Net
  jpegSupported : Bool
  remoteSdp : Option SdpMessage

/-- A call, as a step of the port globals. -/
def sdpCall (call : SdpCall) (ports : Ports) : C Ports := do
  let (_, ports) ← createLocalSdp call.cfg call.net call.jpegSupported call.remoteSdp ports
  pure ports

theorem ports_of_createLocalSdp {cfg : Config} {net : Net} {jpegSupported : Bool}
    {remoteSdp : Option SdpMessage} {ports ports' : Ports} {sdp : Text}
    (h : createLocalSdp cfg net jpegSupported remoteSdp ports = .ok (sdp, ports')) :
    ports' = ports.next := by
  cases remoteSdp with
  | none =>
    rw [createLocalSdp_offer, Except.ok.injEq, Prod.mk.injEq] at h
    exact h.2.symm
  | some remoteSdp => exact congrArg Prod.snd (createLocalSdp_answer_iff.1 h).2

/-- A call that comes to its end has taken the next ports. -/
theorem sdpCall_eq_ok {call : SdpCall} {ports ports' : Ports}
    (h : sdpCall call ports = .ok ports') : ports' = ports.next := by
  obtain ⟨⟨sdp, ports₁⟩, hsdp, h⟩ := bind_eq_ok.1 h
  rw [pure_eq_ok.1 h]
  exact ports_of_createLocalSdp hsdp

/-- An offer always comes to its end. -/
theorem sdpCall_offer (cfg : Config) (net : Net) (jpegSupported : Bool) (ports : Ports) :
    sdpCall ⟨cfg, net, jpegSupported, none⟩ ports = .ok ports.next := by
  rw [sdpCall, createLocalSdp_offer, ok_bind]
  rfl

/-- The port globals after `n` calls. -/
def portsAfter : Nat → Ports
  | 0 => {}
  | n + 1 => (portsAfter n).next

/-- **Whatever the calls are about, the ports only depend on how many there were.** -/
theorem ports_of_run {calls : List SdpCall} {m : Nat} {ports : Ports}
    (h : Machine.run sdpCall calls (portsAfter m) = .ok ports) :
    ports = portsAfter (m + calls.length) := by
  induction calls generalizing m with
  | nil =>
    rw [Machine.run_nil, Except.ok.injEq] at h
    exact h.symm
  | cons call calls ih =>
    obtain ⟨ports₁, hcall, hrun⟩ := Machine.run_cons_ok.1 h
    rw [sdpCall_eq_ok hcall] at hrun
    rw [ih (m := m + 1) hrun, List.length_cons, Nat.add_right_comm, Nat.add_assoc]

/-- So many calls can be made. -/
theorem run_offers (call : SdpCall) (hoffer : call.remoteSdp = none) (n m : Nat) :
    Machine.run sdpCall (List.replicate n call) (portsAfter m) = .ok (portsAfter (m + n)) := by
  induction n generalizing m with
  | zero => rfl
  | succ n ih =>
    have hcall : sdpCall call (portsAfter m) = .ok (portsAfter (m + 1)) := by
      obtain ⟨cfg, net, jpegSupported, remoteSdp⟩ := call
      obtain rfl : remoteSdp = none := hoffer
      exact sdpCall_offer cfg net jpegSupported (portsAfter m)
    rw [List.replicate_succ, Machine.run_cons_ok]
    exact ⟨_, hcall, by rw [ih (m + 1), Nat.add_right_comm, Nat.add_assoc]⟩

/-! ## The counter -/

/-- The counter after `n` calls, and the ports of the call after them. -/
theorem portCount_portsAfter (n : Nat) :
    (portsAfter n).portCount = Counter.after 30000 4 n := by
  induction n with
  | zero => rfl
  | succ n ih =>
    rw [Counter.after_succ, ← ih, portsAfter, Ports.next, Int32.add_assoc]
    rfl

/-- The counter is a multiple of four, whether it has wrapped or not. -/
theorem toInt_after_ports (n : Nat) :
    (Counter.after 30000 4 n).toInt = ((30000 + 4 * n : Nat) : Int).bmod (2 ^ 32) := by
  rw [Counter.toInt_after, Nat.cast_add, Nat.cast_mul, Int.mul_comm (n : Int)]
  rfl

theorem toInt_audioPort (n : Nat) :
    (portsAfter (n + 1)).audioPort.toInt = ((30000 + 4 * n : Nat) : Int).bmod (2 ^ 32) := by
  rw [← toInt_after_ports, ← portCount_portsAfter]
  rfl

/-- There is always room for the two ports between the counter and the end of the range. -/
theorem toInt_videoPort (n : Nat) :
    (portsAfter (n + 1)).videoPort.toInt = (portsAfter (n + 1)).audioPort.toInt + 2 := by
  have hvideo : (portsAfter (n + 1)).videoPort = (portsAfter (n + 1)).audioPort + 2 := rfl
  have htwo : (2 : Int32).toInt = 2 := by decide
  rw [hvideo, Int32.toInt_add, htwo, toInt_audioPort]
  simp only [Int.bmod_def]
  omega

/-! ## Pairs of ports -/

/-- A port for RTP, with the next one for RTCP. -/
def portPair (p : Int32) : Finset Int :=
  {p.toInt, p.toInt + 1}

/-- An even port that UDP has, with room for the companion. -/
def EvenUdpPort (p : Int32) : Prop :=
  0 < p.toInt ∧ p.toInt % 2 = 0 ∧ p.toInt + 1 ≤ 65535

/-- What a call of `createLocalSdp` allocates, after another one has. -/
structure Allocated (before after : Ports) : Prop where
  audio : EvenUdpPort after.audioPort
  video : EvenUdpPort after.videoPort
  apart : Disjoint (portPair after.audioPort) (portPair after.videoPort)
  previous : ∀ p ∈ [before.audioPort, before.videoPort],
    ∀ q ∈ [after.audioPort, after.videoPort], Disjoint (portPair p) (portPair q)

/-- The `n`-th call, counted from one, allocates what it should. -/
def PortsAllocated (n : Nat) : Prop :=
  ∀ calls : List SdpCall, calls.length + 1 = n →
    ∀ before, Machine.run sdpCall calls {} = .ok before →
      ∀ call after, sdpCall call before = .ok after → Allocated before after

theorem disjoint_portPair_iff {p q : Int32} :
    Disjoint (portPair p) (portPair q) ↔ p.toInt + 2 ≤ q.toInt ∨ q.toInt + 2 ≤ p.toInt := by
  simp only [portPair, Finset.disjoint_insert_left, Finset.disjoint_singleton_left,
    Finset.mem_insert, Finset.mem_singleton]
  omega

/-- The call after `n` others allocates what it should exactly if its first port is a port with
three more behind it. -/
theorem allocated_iff (n : Nat) :
    Allocated (portsAfter n) (portsAfter (n + 1)) ↔
      0 < (portsAfter (n + 1)).audioPort.toInt ∧ (portsAfter (n + 1)).audioPort.toInt ≤ 65532 := by
  have haudio := toInt_audioPort n
  have hvideo := toInt_videoPort n
  constructor
  · intro h
    obtain ⟨hpos, -, -⟩ := h.audio
    obtain ⟨-, -, hmax⟩ := h.video
    omega
  · rintro ⟨hpos, hmax⟩
    have heven : (portsAfter (n + 1)).audioPort.toInt % 4 = 0 := by
      rw [haudio, Int.bmod_def]
      omega
    refine ⟨⟨hpos, by omega, by omega⟩, ⟨by omega, by omega, by omega⟩, ?_, ?_⟩
    · rw [disjoint_portPair_iff]
      omega
    · simp only [List.mem_cons, List.not_mem_nil, or_false, forall_eq_or_imp, forall_eq,
        disjoint_portPair_iff]
      cases n with
      | zero =>
        have hbefore : (portsAfter 0).audioPort.toInt = 0 ∧ (portsAfter 0).videoPort.toInt = 0 :=
          ⟨rfl, rfl⟩
        omega
      | succ n =>
        have haudio₀ := toInt_audioPort n
        have hvideo₀ := toInt_videoPort n
        rw [Int.bmod_def] at haudio haudio₀
        omega

/-- The numbers of the calls whose first port is one. -/
theorem toInt_audioPort_mem_iff (n : Nat) :
    0 < (portsAfter (n + 1)).audioPort.toInt ∧ (portsAfter (n + 1)).audioPort.toInt ≤ 65532 ↔
      n % 2 ^ 30 ≤ 8883 ∨ 2 ^ 30 - 7500 < n % 2 ^ 30 := by
  rw [toInt_audioPort, Int.bmod_def]
  omega

/-- All calls after `n` others allocate the same ports, and an offer is one of them. -/
theorem portsAllocated_succ_iff (n : Nat) :
    PortsAllocated (n + 1) ↔ Allocated (portsAfter n) (portsAfter (n + 1)) := by
  constructor
  · intro h
    have hrun := run_offers ⟨{}, {}, false, none⟩ rfl n 0
    rw [Nat.zero_add] at hrun
    exact h _ (by rw [List.length_replicate]) _ hrun _ _ (sdpCall_offer {} {} false _)
  · intro h calls hlen before hrun call after hcall
    obtain rfl : calls.length = n := Nat.succ.inj hlen
    have hbefore := ports_of_run (m := 0) hrun
    rw [Nat.zero_add] at hbefore
    rw [sdpCall_eq_ok hcall, hbefore]
    exact h

/-- **The `n`-th call gets two pairs of UDP ports of its own if and only if it is one of the first
8884, or one of those for which the counter has wrapped and is positive again.** -/
theorem portsAllocated_iff (n : Nat) :
    PortsAllocated n ↔ (n - 1) % 2 ^ 30 ≤ 8883 ∨ 2 ^ 30 - 7500 < (n - 1) % 2 ^ 30 := by
  cases n with
  | zero => exact iff_of_true (fun calls hlen => absurd hlen (Nat.succ_ne_zero _)) (by decide)
  | succ n =>
    rw [Nat.add_sub_cancel, portsAllocated_succ_iff, allocated_iff, toInt_audioPort_mem_iff]

/-- The 8885th call gets the port 65536. -/
theorem not_portsAllocated : ¬ PortsAllocated 8885 := by
  rw [portsAllocated_succ_iff, allocated_iff, toInt_audioPort, Int.bmod_def]
  omega

/-! ## The engine -/

/-- The request carries a description. -/
def Action.hasSdp : Action → Bool
  | .invite .. => true
  | .answer _ _ (some _) _ => true
  | _ => false

/-- The ports are those of the last description that was sent. -/
def PortsCounted (s : Core) : Prop :=
  s.ports = portsAfter (s.requests.countP Action.hasSdp)

theorem PortsCounted.hangup {s : Core} (hs : PortsCounted s) : PortsCounted s.hangup := by
  rw [Core.hangup]
  split
  · exact hs
  · exact hs

/-- A step sends a description with the next ports, or leaves the ports alone. -/
theorem portsCounted_arm {cfg : Config} {i : Input} {s s' : Core} (harm : Arm cfg i s s')
    (hs : PortsCounted s) : PortsCounted s' := by
  cases harm with
  | makeCall _ _ _ hsdp | answerCall _ _ hsdp =>
    refine (ports_of_createLocalSdp hsdp).trans ?_
    rw [hs]
    exact congrArg portsAfter (List.countP_cons_of_pos rfl).symm
  | hangup | disconnectCall => exact hs.hangup
  | _ => exact hs

/-- **In every state of the engine the ports are those of as many calls of `createLocalSdp` as
descriptions were sent.** -/
theorem Reachable.ports {cfg : Config} {e : Engine} (h : Reachable cfg e) :
    e.ports = portsAfter (e.requests.countP Action.hasSdp) :=
  h.core (P := PortsCounted) (fun _ _ _ _ _ => rfl) fun _ _ _ harm hs => portsCounted_arm harm hs

end Furikup
