import TpmFuzzer.Harness.Streams
import TpmFuzzer.Harness.Wrapper
import TpmFuzzer.Session.Refinement

/-!
# The three programs

`proto-fuzzer.cc`, `fuzzer.cc` and `tester.cc` against any platform.  A campaign runs one input
after another in one process, so that the platform and the session layer's global state go from each
to the next.

* The commands of a proto campaign are those of an abstract one, in which every input meets a fresh
  `Layer` with unlimited room for its commands (`campaign_refines`).
* `fuzzer.cc` on what an input sent, written one command after another, leads the same platform
  through the same exchanges, and so does `tester.cc` (`campaign_reproduced`).
* The calls on the platform are in order in any campaign of any of them (`campaigns_inOrder`).
-/

namespace Harness

open Bytes Tpm Traced Session Parser Proto Runs

variable {P : Type} (pl : Platform P) (C : Crypto) (mu : Tss2Mu)

/-- The platform, and the commands of the inputs with their responses. -/
structure Bench (P : Type) where
  tpm : P
  exchanges : List (Bytes × Bytes)

/-- The bench of the proto fuzzer, with the session layer's global state. -/
structure ProtoBench (P : Type) extends Bench P where
  session : SessionState

/-! ## fuzzer.cc and tester.cc -/

/-- `TPMSendCommand` with a response buffer of `kMaxBuffers`. -/
def sendCommand (request : Bytes) (b : Bench P) : Bench P :=
  let (tpm, response) := tpmSendCommand pl kDefaultLocality request kMaxBuffers b.tpm
  ⟨tpm, b.exchanges ++ [(request, response)]⟩

/-- `LLVMFuzzerTestOneInput`. -/
def llvmFuzzerTestOneInput (data : Bytes) (b : Bench P) : Bench P × Int :=
  match parseCommands data [] with
  | (false, _) => (b, 1)
  | (true, commands) =>
    let tpm := tpmManufactureIfNeeded pl b.tpm
    let tpm := tpmStartup pl tpm
    let tpm := sendTPM2StartupCommand pl tpm
    let b := commands.foldl (fun b cmd => sendCommand pl cmd b) ⟨tpm, b.exchanges⟩
    let tpm := sendTPM2ShutdownCommand pl b.tpm
    let tpm := tpmShutdown pl tpm
    (⟨tpm, b.exchanges⟩, 0)

/-- `main` of `tester.cc` on a corpus file that can be read. -/
def testerMain (data : Bytes) (b : Bench P) : Bench P × Int :=
  if data.length = 0 then (b, 1)
  else match parseCommands data [] with
    | (false, _) => (b, 1)
    | (true, commands) =>
      let tpm := tpmManufactureIfNeeded pl b.tpm
      let tpm := tpmStartup pl tpm
      let tpm := sendTPM2StartupCommand pl tpm
      let b := commands.foldl (fun b command => sendCommand pl command b) ⟨tpm, b.exchanges⟩
      let tpm := sendTPM2ShutdownCommand pl b.tpm
      let tpm := tpmShutdown pl tpm
      (⟨tpm, b.exchanges⟩, 0)

/-! ## proto-fuzzer.cc -/

/-- A command through the session layer to the TPM, and its response through the layer. -/
def executeCommandBuffer (buf : Bytes) (b : ProtoBench P) : ProtoBench P :=
  if buf.length = 0 then b
  else
    let (tpm, response) := tpmSendCommand pl kDefaultLocality buf kMaxBuffers b.tpm
    let session := (sessionAuthProcessResponse b.session (some response) response.length).val
    ⟨⟨tpm, b.exchanges ++ [(buf, response)]⟩, session⟩

/-- The body of the loop over the commands of a sequence. -/
def fuzzCommand (cmd : TPMCommand) (b : ProtoBench P) : ProtoBench P :=
  match marshalCommand mu cmd with
  | none => b
  | some commandBuffer =>
    let buf := commandBuffer ++ List.replicate 64 0
    let r := (sessionAuthPatchCommand C b.session (some buf) commandBuffer.length buf.length).val
    executeCommandBuffer pl ((r.buf.getD []).take r.size) { b with session := r.state }

/-- `DEFINE_PROTO_FUZZER`. -/
def defineProtoFuzzer (sequence : TPMCommandSequence) (b : ProtoBench P) : ProtoBench P :=
  let tpm := tpmManufactureIfNeeded pl b.tpm
  let tpm := tpmStartup pl tpm
  let tpm := sendTPM2StartupCommand pl tpm
  let session := sessionAuthReset
  let b := sequence.foldl (fun b cmd => fuzzCommand pl C mu cmd b) ⟨⟨tpm, b.exchanges⟩, session⟩
  let tpm := sendTPM2ShutdownCommand pl b.tpm
  let tpm := tpmShutdown pl tpm
  ⟨⟨tpm, b.exchanges⟩, b.session⟩

/-! ## What an input is to do -/

/-- The TPM comes up as new and is started. -/
def bringUp (s : P) : P := sendTPM2StartupCommand pl (tpmStartup pl (tpmManufactureIfNeeded pl s))

/-- The shutdown command, and the power off. -/
def bringDown (s : P) : P := tpmShutdown pl (sendTPM2ShutdownCommand pl s)

/-- A command is sent as the layer wants it, which learns from the response. -/
def layerExchange (s : Bench P × Layer) (m : Bytes) : Bench P × Layer :=
  let (l, request) := s.2.patch C m (m.length + 48)
  let (tpm, response) := tpmSendCommand pl kDefaultLocality request kMaxBuffers s.1.tpm
  (⟨tpm, s.1.exchanges ++ [(request, response)]⟩, l.process response)

/-- One input: the messages, between a start and a shutdown, by a layer that knows nothing. -/
def abstractInput (b : Bench P) (messages : List Bytes) : Bench P :=
  let b := (run (layerExchange pl C) (⟨bringUp pl b.tpm, b.exchanges⟩, Layer.empty) messages).1
  ⟨bringDown pl b.tpm, b.exchanges⟩

/-! ## The room for a command -/

theorem length_authorised (names : ObjectNames) (s : ArmedSession) (code : UInt32)
    (handles : List UInt32) (entry : AuthEntry) (params : Bytes) :
    (Layer.authorised C names s code handles entry params).length =
      71 + 4 * handles.length + params.length := by
  simp only [Layer.authorised, length_message, List.length_append, length_handleBytes,
    length_write32, List.length_cons, tpm2b, length_write16, Crypto.length_hmacSha256]
  have hcaller : nonceCaller.length = 16 := rfl
  omega

/-- The auth entry grows by 48 bytes at most. -/
theorem rewrite_room {names : ObjectNames} {s : ArmedSession} {m : Bytes} (hmsg : IsMessage m)
    (htag : Tpm.read16 m 0 = TPM2_ST_SESSIONS) {room : Nat} (hroom : m.length + 48 ≤ room) :
    Layer.rewrite C names s m room = Layer.rewrite C names s m (m.length + 48) := by
  unfold Layer.rewrite
  dsimp only
  cases hattr : lookupCommandAttr (Tpm.read32 m 6) with
  | none => rfl
  | some attr =>
    dsimp only
    cases hread : (readTagged attr).run (m.drop 10) with
    | none => rfl
    | some res =>
      obtain ⟨⟨handles, entry, params⟩, rest⟩ := res
      obtain ⟨c, rfl, rfl, rfl, hm, rfl, rfl⟩ := exists_taggedCommand hmsg htag hattr hread
      have hlen := c.length_encode
      have hsize : c.size = 14 + 4 * c.attr.handleCount + c.authSize + c.params.length := rfl
      have hauth : 9 ≤ c.authSize := by
        rw [TaggedCommand.authSize, AuthEntry.length_encode]
        omega
      have hhandles := c.handles_length
      dsimp only
      rw [length_authorised]
      have hfits : 71 + 4 * c.handles.length + c.params.length ≤ c.encode.length + 48 := by omega
      have hfits' := Nat.le_trans hfits hroom
      simp only [hfits, hfits', and_true]

theorem patch_room (l : Layer) (m : Bytes) {room : Nat} (hroom : m.length + 48 ≤ room) :
    l.patch C m room = l.patch C m (m.length + 48) := by
  unfold Layer.patch
  split
  · next hmsg =>
    dsimp only
    split
    · rfl
    · cases l.session with
      | none => rfl
      | some s =>
        dsimp only
        split
        · next hpath => rw [rewrite_room C hmsg hpath.2 hroom]
        · rfl
  · rfl

/-! ## The proto fuzzer does what an input is to do -/

/-- `Implements` between two commands of an input. -/
structure Follows (b : ProtoBench P) (s : Bench P × Layer) : Prop where
  bench : b.toBench = s.1
  layer : Implements b.session s.2

variable {pl} in
theorem fuzzCommand_follows {b : ProtoBench P} {s : Bench P × Layer} (h : Follows b s)
    {cmd : TPMCommand} {m : Bytes} (hm : marshalCommand mu cmd = some m) :
    Follows (fuzzCommand pl C mu cmd b) (layerExchange pl C s m) := by
  obtain ⟨s, l⟩ := s
  obtain ⟨rfl, himpl⟩ := h
  obtain ⟨hframe, hlt⟩ := marshalCommand_isFrame hm
  have hk : kMaxBuffer = 1048576 := rfl
  have hbuf : (m ++ List.replicate 64 (0 : UInt8)).length = m.length + 64 := by simp
  -- the patched command is the layer's, and not empty
  have hpatch := implements_patch C himpl (m ++ List.replicate 64 0)
    (show m.length ≤ (m ++ List.replicate 64 (0 : UInt8)).length by omega) (Nat.le_refl _)
  rw [List.take_left, hbuf, patch_room C l m (show m.length + 48 ≤ m.length + 64 by omega)]
    at hpatch
  obtain ⟨hstate, buf, hr, htake, -⟩ := hpatch
  have hpatched : patched C b.session m = (l.patch C m (m.length + 48)).2 := by
    simp only [patched, hbuf, hr, Option.getD_some]
    exact htake
  have hne : ¬ (l.patch C m (m.length + 48)).2.length = 0 := by
    have := (patched_isFrame C b.session hframe (by omega)).ten_le
    rw [hpatched] at this
    omega
  unfold fuzzCommand layerExchange executeCommandBuffer
  simp only [hm, hbuf, hr, Option.getD_some, htake]
  rw [if_neg hne]
  refine ⟨rfl, ?_⟩
  have hprocess := implements_process hstate (tpmSendCommand pl kDefaultLocality
    (l.patch C m (m.length + 48)).2 kMaxBuffers b.tpm).2 (Nat.le_refl _)
  rw [List.take_length] at hprocess
  exact hprocess

theorem fuzzCommands_follow (sequence : TPMCommandSequence) {b : ProtoBench P} {s : Bench P × Layer}
    (h : Follows b s) : Follows (sequence.foldl (fun b cmd => fuzzCommand pl C mu cmd b) b)
      (run (layerExchange pl C) s (marshalled mu sequence)) := by
  induction sequence generalizing b s with
  | nil => exact h
  | cons cmd sequence ih =>
    rw [List.foldl_cons]
    cases hm : marshalCommand mu cmd with
    | none =>
      have hskip : fuzzCommand pl C mu cmd b = b := by
        unfold fuzzCommand
        rw [hm]
      rw [hskip, marshalled, List.filterMap_cons_none hm]
      exact ih h
    | some m =>
      rw [marshalled, List.filterMap_cons_some hm]
      exact ih (fuzzCommand_follows C mu h hm)

theorem defineProtoFuzzer_eq (sequence : TPMCommandSequence) (b : ProtoBench P) :
    (defineProtoFuzzer pl C mu sequence b).toBench = abstractInput pl C b.toBench
      (marshalled mu sequence) := by
  have hfollows := fuzzCommands_follow pl C mu sequence
    (b := ⟨⟨bringUp pl b.tpm, b.exchanges⟩, sessionAuthReset⟩)
    (s := (⟨bringUp pl b.tpm, b.exchanges⟩, Layer.empty)) ⟨rfl, implements_zero⟩
  unfold abstractInput
  rw [← hfollows.bench]
  rfl

/-- Whatever state the platform and the session layer are in at first, a campaign leads the platform
through the exchanges of the abstract one: nothing of the session layer outlasts its input.  The
abstract layer has 48 bytes of headroom for a command, and would send the same with any more. -/
theorem campaign_refines (sequences : List TPMCommandSequence) (b : ProtoBench P) :
    (run (fun b sequence => defineProtoFuzzer pl C mu sequence b) b sequences).toBench =
        run (abstractInput pl C) b.toBench (sequences.map (marshalled mu)) ∧
      ∀ (l : Layer) (m : Bytes) (room : Nat), m.length + 48 ≤ room →
        l.patch C m room = l.patch C m (m.length + 48) := by
  refine ⟨?_, fun l m room hroom => patch_room C l m hroom⟩
  induction sequences generalizing b with
  | nil => rfl
  | cons sequence sequences ih =>
    have hfirst := defineProtoFuzzer_eq pl C mu sequence b
    have hrest := ih (defineProtoFuzzer pl C mu sequence b)
    rw [hfirst] at hrest
    exact hrest

/-! ## What was sent can be sent again -/

/-- The requests one after the other. -/
def sendAll (requests : List Bytes) (b : Bench P) : Bench P :=
  requests.foldl (fun b request => sendCommand pl request b) b

theorem exchanges_sendAll (requests : List Bytes) (b : Bench P) :
    ∃ new, (sendAll pl requests b).exchanges = b.exchanges ++ new ∧
      new.map Prod.fst = requests := by
  induction requests generalizing b with
  | nil => exact ⟨[], (List.append_nil _).symm, rfl⟩
  | cons request requests ih =>
    obtain ⟨new, hnew, hfst⟩ := ih (sendCommand pl request b)
    refine ⟨(request, (tpmSendCommand pl kDefaultLocality request kMaxBuffers b.tpm).2) ::
      new, ?_, ?_⟩
    · rw [sendAll, List.foldl_cons, ← sendAll, hnew]
      simp [sendCommand]
    · rw [List.map_cons, hfst]

/-- The loop over a sequence sends frames. -/
theorem fuzzCommands_sendAll (sequence : TPMCommandSequence) (b : ProtoBench P) :
    ∃ requests, (∀ f ∈ requests, IsFrame f) ∧
      (sequence.foldl (fun b cmd => fuzzCommand pl C mu cmd b) b).toBench =
        sendAll pl requests b.toBench := by
  induction sequence generalizing b with
  | nil => exact ⟨[], by simp, rfl⟩
  | cons cmd sequence ih =>
    obtain ⟨requests, hframes, hrest⟩ := ih (fuzzCommand pl C mu cmd b)
    cases hm : marshalCommand mu cmd with
    | none =>
      have hskip : fuzzCommand pl C mu cmd b = b := by
        unfold fuzzCommand
        rw [hm]
      rw [hskip] at hrest
      exact ⟨requests, hframes, by rw [List.foldl_cons, hskip, hrest]⟩
    | some m =>
      obtain ⟨hframe, hlt⟩ := marshalCommand_isFrame hm
      have hk : kMaxBuffer = 1048576 := rfl
      have hpatched := patched_isFrame C b.session hframe (by omega)
      have hsend : (fuzzCommand pl C mu cmd b).toBench =
          sendCommand pl (patched C b.session m) b.toBench := by
        have hne : ¬ (patched C b.session m).length = 0 := by
          have := hpatched.ten_le
          omega
        unfold fuzzCommand executeCommandBuffer
        rw [hm]
        exact congrArg ProtoBench.toBench (if_neg hne)
      refine ⟨patched C b.session m :: requests, ?_, ?_⟩
      · rintro f (_ | ⟨_, hf⟩)
        · exact hpatched
        · exact hframes f hf
      · rw [List.foldl_cons, hrest, hsend, sendAll, sendAll, List.foldl_cons]

/-- The byte parser cuts the commands out of the file again. -/
theorem llvmFuzzerTestOneInput_flatten {requests : List Bytes} (h : ∀ f ∈ requests, IsFrame f)
    (b : Bench P) :
    llvmFuzzerTestOneInput pl requests.flatten b =
      (let sent := sendAll pl requests ⟨bringUp pl b.tpm, b.exchanges⟩
       (⟨bringDown pl sent.tpm, sent.exchanges⟩, 0)) := by
  unfold llvmFuzzerTestOneInput
  rw [parseCommands_flatten h]
  rfl

/-- `tester.cc` refuses the empty file, for which `fuzzer.cc` starts the TPM and stops it. -/
theorem testerMain_eq (data : Bytes) (b : Bench P) :
    testerMain pl data b = if data = [] then (b, 1) else llvmFuzzerTestOneInput pl data b := by
  unfold testerMain llvmFuzzerTestOneInput
  by_cases h : data = []
  · rw [if_pos h, if_pos (by rw [h]; rfl)]
  · rw [if_neg h, if_neg (by simpa using h)]

/-- The commands of an input one after another, as a file for the byte parser. -/
def reproducer (sequence : TPMCommandSequence) (b : ProtoBench P) : Bytes :=
  (((defineProtoFuzzer pl C mu sequence b).exchanges.drop b.exchanges.length).map Prod.fst).flatten

/-- For each input what it sent, in one file. -/
def reproducers : ProtoBench P → List TPMCommandSequence → List Bytes
  | _, [] => []
  | b, sequence :: sequences =>
    reproducer pl C mu sequence b :: reproducers (defineProtoFuzzer pl C mu sequence b) sequences

theorem fuzzer_reproduces (sequence : TPMCommandSequence) (b : ProtoBench P) :
    llvmFuzzerTestOneInput pl (reproducer pl C mu sequence b) b.toBench =
      ((defineProtoFuzzer pl C mu sequence b).toBench, 0) := by
  obtain ⟨requests, hframes, hsent⟩ := fuzzCommands_sendAll pl C mu sequence
    (⟨⟨bringUp pl b.tpm, b.exchanges⟩, sessionAuthReset⟩ : ProtoBench P)
  have hbench : (defineProtoFuzzer pl C mu sequence b).toBench =
      (let sent := sendAll pl requests ⟨bringUp pl b.tpm, b.exchanges⟩
       ⟨bringDown pl sent.tpm, sent.exchanges⟩) := by
    rw [← hsent]
    rfl
  obtain ⟨new, hnew, hfst⟩ := exchanges_sendAll pl requests ⟨bringUp pl b.tpm, b.exchanges⟩
  have hfile : reproducer pl C mu sequence b = requests.flatten := by
    rw [reproducer, hbench]
    show (((sendAll pl requests _).exchanges.drop b.exchanges.length).map Prod.fst).flatten = _
    rw [hnew, List.drop_left, hfst]
  rw [hfile, llvmFuzzerTestOneInput_flatten pl hframes, hbench]

/-- The files of a campaign lead `fuzzer.cc`, and `tester.cc` if none is empty, through the same
exchanges to the same state of the platform. -/
theorem campaign_reproduced (sequences : List TPMCommandSequence) (b : ProtoBench P) :
    let files := reproducers pl C mu b sequences
    let after := (run (fun b sequence => defineProtoFuzzer pl C mu sequence b) b sequences).toBench
    run (fun b data => (llvmFuzzerTestOneInput pl data b).1) b.toBench files = after ∧
      ((∀ data ∈ files, data ≠ []) → run (fun b data => (testerMain pl data b).1) b.toBench files =
        after) := by
  intro files after
  have hfuzzer : run (fun b data => (llvmFuzzerTestOneInput pl data b).1)
      b.toBench files = after := by
    simp only [files, after]
    clear files after
    induction sequences generalizing b with
    | nil => rfl
    | cons sequence sequences ih =>
      have hfirst := fuzzer_reproduces pl C mu sequence b
      have hrest := ih (defineProtoFuzzer pl C mu sequence b)
      show run _ (llvmFuzzerTestOneInput pl (reproducer pl C mu sequence b) b.toBench).1 _ = _
      rw [hfirst]
      exact hrest
  refine ⟨hfuzzer, fun hne => ?_⟩
  rw [← hfuzzer]
  exact run_related (R := Eq) (fun data hdata _ _ heq => by
    subst heq
    rw [testerMain_eq, if_neg (hne data hdata)]) rfl

/-- A platform without a state, and a TPM that answers nothing. -/
def silent : Platform Unit where
  nvEnable := id
  nvNeedsManufacture := fun s => (s, false)
  manufacture := fun s => (s, 0)
  nvDisable := fun _ => id
  signalPowerOn := id
  signalReset := id
  setNvAvail := id
  localitySet := fun _ => id
  runCommand := fun _ _ s => (s, [])
  hashEnd := id
  nvCommit := id
  clearNvAvail := id
  signalPowerOff := id

/-- A campaign of one input, a Clear under a password: its file is not empty, and the tester takes
it. -/
theorem clearCampaign_reproduced :
    let start : ProtoBench Unit := ⟨⟨(), []⟩, SessionState.zero⟩
    let sequences : List TPMCommandSequence := [[.clear
      { header := some { tag := TPM_ST_SESSIONS, commandCode := TPM_CC_CLEAR }
        authHandle := TPM_RH_LOCKOUT, sessions := [{ sessionHandle := 0x40000009 }] }]]
    let files := reproducers silent clearDigests Tss2Mu.standard start sequences
    files.map List.length = [27] ∧
      run (fun b data => (testerMain silent data b).1) start.toBench files =
        (run (fun b sequence => defineProtoFuzzer silent clearDigests Tss2Mu.standard sequence b)
          start sequences).toBench := by
  intro start sequences files
  have hlength : files.map List.length = [27] := by decide +kernel
  refine ⟨hlength, ?_⟩
  refine (campaign_reproduced silent clearDigests Tss2Mu.standard sequences start).2
    fun data hdata => ?_
  rintro rfl
  have hzero : ([] : Bytes).length ∈ files.map List.length := List.mem_map_of_mem hdata
  rw [hlength] at hzero
  exact absurd hzero (by decide)

/-! ## The order of the calls -/

/-- An input of one of the three programs. -/
inductive Input
  | sequence (sequence : TPMCommandSequence)
  | bytes (data : Bytes)
  | corpus (data : Bytes)

/-- An input of one of the three programs. -/
def runInput (b : ProtoBench P) : Input → ProtoBench P
  | .sequence sequence => defineProtoFuzzer pl C mu sequence b
  | .bytes data => { b with toBench := (llvmFuzzerTestOneInput pl data b.toBench).1 }
  | .corpus data => { b with toBench := (testerMain pl data b.toBench).1 }

theorem inOrder_sendAll {requests : List Bytes} (hframes : ∀ f ∈ requests, IsFrame f)
    {b : Bench (P × List PlatCall)} {last : Bytes} (h : InOrder b.tpm.2 (Use.running last)) :
    ∃ last, InOrder (sendAll pl.logged requests b).tpm.2 (Use.running last) := by
  induction requests generalizing b last with
  | nil => exact ⟨last, h⟩
  | cons request requests ih =>
    obtain ⟨hframe, hframes⟩ := List.forall_mem_cons.mp hframes
    exact ih hframes (inOrder_sendCommand pl h hframe kMaxBuffers)

/-- A start, frames and a shutdown. -/
theorem inOrder_session {requests : List Bytes} (hframes : ∀ f ∈ requests, IsFrame f)
    {b : Bench (P × List PlatCall)} (h : InOrder b.tpm.2 Use.off) :
    InOrder (bringDown pl.logged
      (sendAll pl.logged requests ⟨bringUp pl.logged b.tpm, b.exchanges⟩).tpm).2 Use.off := by
  obtain ⟨nv, hmade⟩ := inOrder_manufacture pl h
  have hstarted := inOrder_sendStartup pl (inOrder_startup pl hmade)
  obtain ⟨last, hsent⟩ := inOrder_sendAll pl hframes
    (b := ⟨bringUp pl.logged b.tpm, b.exchanges⟩) hstarted
  exact inOrder_shutdown pl (inOrder_sendShutdown pl hsent)

theorem inOrder_llvmFuzzerTestOneInput (data : Bytes) {b : Bench (P × List PlatCall)}
    (h : InOrder b.tpm.2 Use.off) :
    InOrder (llvmFuzzerTestOneInput pl.logged data b).1.tpm.2 Use.off := by
  obtain ⟨rest, hsplit, -⟩ := parseCommands_splits data []
  have hframes := hsplit.frames
  unfold llvmFuzzerTestOneInput
  split
  · exact h
  · next commands hparse =>
    rw [hparse] at hframes
    exact inOrder_session pl hframes h

theorem inOrder_runInput {b : ProtoBench (P × List PlatCall)} (h : InOrder b.tpm.2 Use.off)
    (input : Input) :
    InOrder (runInput pl.logged C mu b input).tpm.2 Use.off := by
  cases input with
  | sequence sequence =>
    have hsame := fuzzer_reproduces pl.logged C mu sequence b
    have hfuzzer := inOrder_llvmFuzzerTestOneInput pl (reproducer pl.logged C mu sequence b) h
    rw [hsame] at hfuzzer
    exact hfuzzer
  | bytes data => exact inOrder_llvmFuzzerTestOneInput pl data h
  | corpus data =>
    show InOrder (testerMain pl.logged data b.toBench).1.tpm.2 Use.off
    rw [testerMain_eq]
    split
    · exact h
    · exact inOrder_llvmFuzzerTestOneInput pl data h

/-- From a TPM that is off, any inputs of the three programs use the platform in order and leave it
off. -/
theorem campaigns_inOrder (s : P) (exchanges : List (Bytes × Bytes)) (session : SessionState)
    (inputs : List Input) :
    InOrder (run (runInput pl.logged C mu) ⟨⟨(s, []), exchanges⟩, session⟩ inputs).tpm.2 Use.off :=
  run_invariant' (I := fun b : ProtoBench (P × List PlatCall) =>
    InOrder b.tpm.2 Use.off) inOrder_nil
    (fun _ input h => inOrder_runInput pl C mu h input) inputs

end Harness
