import TpmFuzzer.Parser.ByteParser
import TpmFuzzer.Proto.Encoding
import TpmFuzzer.Python.Command
import TpmFuzzer.Session.Rewrite

/-!
# The command streams of the two fuzz targets

`proto-fuzzer.cc` marshals each message, lets the session layer patch it and sends it; `fuzzer.cc`
splits a byte stream and sends the pieces.  Whatever writes a command here writes a frame of the
parser:

* `MarshalCommand` (`marshalCommand_isFrame`),
* `SessionAuthPatchCommand`, for any command and session state (`patched_isFrame`),
* `TPMCommand.__bytes__` of the seed generator (`bytes_isFrame`),

so that `parseCommands` cuts a concatenation of them back into exactly these (`streams_agree`).
-/

namespace Harness

open Bytes Tpm Traced Session Parser Proto

/-! ## The marshaller -/

theorem marshalCommand_isFrame {mu : Tss2Mu} {c : Proto.TPMCommand} {m : Bytes}
    (h : marshalCommand mu c = some m) : IsFrame m ∧ m.length ≤ kMaxBuffer := by
  rw [marshalCommand_eq, Option.bind_eq_some_iff] at h
  obtain ⟨x, hx, h⟩ := h
  split at h
  · next hfit =>
    cases h
    obtain ⟨header, rest, rfl⟩ := encode_header hx
    have hten : 10 ≤ (header.encode ++ rest).length := by
      rw [List.length_append, length_header]
      omega
    have hk : kMaxBuffer = 1048576 := rfl
    have hlen := length_withSize (show 6 ≤ (header.encode ++ rest).length by omega)
    have hframe := isFrame_take_poke hten (by omega) (Nat.le_refl (header.encode ++ rest).length)
    refine ⟨?_, by rw [hlen]; exact hfit⟩
    rw [← withSize, ← hlen, List.take_length] at hframe
    exact hframe
  · cases h

/-! ## The session layer -/

variable (C : Crypto)

/-- Lengths through the writes of the rewrite: `L` is the length of the buffer. -/
theorem length_poke_eq {b src : Bytes} {off L : Nat} (hb : b.length = L)
    (h : off + src.length ≤ L) :
    (poke b off src).length = L := by
  rw [length_poke (by omega), hb]

theorem length_shiftCpBuffer_eq {b : Bytes} {cpOff cpSize newCpOff L : Nat} (hb : b.length = L)
    (h : newCpOff + cpSize ≤ L) : (shiftCpBuffer b cpOff cpSize newCpOff).val.length = L := by
  have hslice : (slice b cpOff cpSize).length ≤ cpSize := List.length_take_le _ _
  simp only [shiftCpBuffer, val_ite, val_bind, val_pure, Mem.val_bytes, Mem.val_store]
  split
  · exact length_poke_eq hb (by omega)
  · exact hb

theorem length_padZero_eq {b : Bytes} {w newCpOff L : Nat} (hb : b.length = L) (h : newCpOff ≤ L) :
    (padZero b w newCpOff).val.length = L := by
  simp only [padZero, val_ite, val_pure, Mem.val_store]
  split
  · exact hb
  · exact length_poke_eq hb (by rw [List.length_replicate]; omega)

/-- The rewrite stays inside the buffer and writes the new size last. -/
theorem patchAuthArea_resizes {buf : Bytes} {cap size : Nat} {area : AuthArea}
    {entry : AuthEntryFields} {hmacOut : Bytes} (hcap : cap ≤ buf.length)
    (hoff : 10 ≤ area.authSizeOff) (hauth : area.authOff = area.authSizeOff + 4)
    (hend : area.authOff + area.authSize ≤ size) (hnonce : entry.nonceOff = area.authOff + 4)
    (hentry : entry.nonceOff + (2 + entry.origNonceSize) + 1 + (2 + entry.origHmacSize) =
      area.authOff + area.authSize) (hmac : hmacOut.length = 32) :
    (patchAuthArea buf cap size area entry nonceCaller hmacOut).val = (buf, size) ∨
      ∃ b n, (patchAuthArea buf cap size area entry nonceCaller hmacOut).val =
        (poke b 2 (write32 (UInt32.ofNat n)), n) ∧ b.length = buf.length ∧ 10 ≤ n ∧ n ≤ cap := by
  have hcaller : nonceCaller.length = 16 := rfl
  simp only [patchAuthArea, val_bind, val_ite, val_pure, Mem.val_sum, Mem.val_diff, Mem.val_diff32,
    Mem.val_store, hcaller]
  split
  · exact Or.inl rfl
  · next hfit =>
    right
    refine ⟨_, _, rfl, ?_, by omega, by omega⟩
    -- from the last write back to the first: each lies before the new end, within the capacity
    refine length_poke_eq ?_ (by rw [length_write32]; omega)
    refine length_padZero_eq ?_ (by omega)
    refine length_poke_eq ?_ (by omega)
    refine length_poke_eq ?_ (by rw [length_write16]; omega)
    refine length_poke_eq ?_ (by rw [List.length_singleton]; omega)
    refine length_poke_eq ?_ (by omega)
    refine length_poke_eq ?_ (by rw [length_write16]; omega)
    exact length_shiftCpBuffer_eq rfl (by omega)

/-- The HMAC path leaves the command alone or resizes it. -/
theorem patchSessionCommand_resizes (st : SessionState) {buf : Bytes} {cap size : Nat}
    (code : UInt32) (hcap : cap ≤ buf.length) :
    (patchSessionCommand C st buf size cap code).val = (buf, size) ∨
      ∃ b n, (patchSessionCommand C st buf size cap code).val =
        (poke b 2 (write32 (UInt32.ofNat n)), n) ∧ b.length = buf.length ∧ 10 ≤ n ∧ n ≤ cap := by
  unfold patchSessionCommand
  cases ha : lookupCommandAttr code with
  | none => exact Or.inl rfl
  | some attr =>
    simp only [val_bind]
    cases hf : (findAuthArea buf size attr).val with
    | none => exact Or.inl rfl
    | some area =>
      obtain ⟨rfl, hend⟩ := findAuthArea_eq_some hf
      simp only [val_bind]
      cases hp : (parseAuthEntry st.handle buf ⟨10 + 4 * attr.handleCount,
          10 + 4 * attr.handleCount + 4, (Tpm.read32 buf (10 + 4 * attr.handleCount)).toNat⟩).val
          with
      | none => exact Or.inl rfl
      | some entry =>
        obtain ⟨-, hnonce, hentry, -, -⟩ := parseAuthEntry_eq_some hp
        simp only [val_bind]
        split
        · exact Or.inl rfl
        · exact patchAuthArea_resizes hcap (by simp only; omega) rfl hend hnonce hentry
            (length_computeHmac C)

/-- Any call leaves a well-formed command alone or resizes it. -/
theorem sessionAuthPatchCommand_resizes (st : SessionState) {buf : Bytes} {cap size : Nat}
    (h : GoodHeader buf size cap) (hcap : cap ≤ buf.length) :
    ∃ b n, (sessionAuthPatchCommand C st (some buf) size cap).val.buf = some b ∧
      (sessionAuthPatchCommand C st (some buf) size cap).val.size = n ∧
      ((b = buf ∧ n = size) ∨
        ∃ b', b = poke b' 2 (write32 (UInt32.ofNat n)) ∧ b'.length = buf.length ∧
          10 ≤ n ∧ n ≤ cap) := by
  rw [sessionAuthPatchCommand_good C st h]
  dsimp only
  split
  · exact ⟨_, _, rfl, rfl, Or.inl ⟨rfl, rfl⟩⟩
  split
  · exact ⟨_, _, rfl, rfl, Or.inl ⟨rfl, rfl⟩⟩
  split
  · exact ⟨_, _, rfl, rfl, Or.inl ⟨rfl, rfl⟩⟩
  · refine ⟨_, _, rfl, rfl, ?_⟩
    rcases patchSessionCommand_resizes C { st with lastCommandCode := Tpm.read32 buf 6 }
      (Tpm.read32 buf 6) hcap with hr | ⟨b, n, hr, hb⟩
    · rw [hr]
      exact Or.inl ⟨rfl, rfl⟩
    · rw [hr]
      exact Or.inr ⟨b, rfl, hb⟩

/-- `command_buffer` with room for the HMAC, patched in the state `st`: the prefix that is sent. -/
def patched (st : SessionState) (m : Bytes) : Bytes :=
  let buf := m ++ List.replicate 64 0
  let r := (sessionAuthPatchCommand C st (some buf) m.length buf.length).val
  (r.buf.getD []).take r.size

theorem patched_isFrame (st : SessionState) {m : Bytes} (h : IsFrame m)
    (hlt : m.length + 64 < 2 ^ 32) : IsFrame (patched C st m) := by
  have hbuf : (m ++ List.replicate 64 (0 : UInt8)).length = m.length + 64 := by simp
  have hgood : GoodHeader (m ++ List.replicate 64 0) m.length (m ++ List.replicate 64 0).length :=
    ⟨h.ten_le, by omega, h.read_length _⟩
  obtain ⟨b, n, hb, hn, hr⟩ := sessionAuthPatchCommand_resizes C st hgood (Nat.le_refl _)
  unfold patched
  simp only [hb, hn, Option.getD_some]
  rcases hr with ⟨rfl, rfl⟩ | ⟨b', rfl, hlen, hten, hcap⟩
  · rw [List.take_left]
    exact h
  · exact isFrame_take_poke hten (by omega) (by omega)

/-! ## The fuzz targets -/

/-- `fuzzer.cc`: the commands it sends, none at all when the parser rejects the input. -/
def fuzzerRequests (data : Bytes) : List Bytes :=
  match parseCommands data [] with
  | (true, commands) => commands
  | (false, _) => []

/-- The marshalled commands of a sequence; what does not marshal is skipped. -/
def marshalled (mu : Tss2Mu) (sequence : TPMCommandSequence) : List Bytes :=
  sequence.filterMap (marshalCommand mu)

/-- `proto-fuzzer.cc`: what it sends when the session layer is in `states i` at command `i`. -/
def protoFuzzerRequests (states : Nat → SessionState) (ms : List Bytes) : List Bytes :=
  ms.mapIdx fun i m => patched C (states i) m

theorem marshalled_isFrame (mu : Tss2Mu) (sequence : TPMCommandSequence) :
    ∀ m ∈ marshalled mu sequence, IsFrame m ∧ m.length ≤ kMaxBuffer := by
  intro m hm
  obtain ⟨c, -, hc⟩ := List.mem_filterMap.mp hm
  exact marshalCommand_isFrame hc

theorem protoFuzzerRequests_isFrame (mu : Tss2Mu) (sequence : TPMCommandSequence)
    (states : Nat → SessionState) :
    ∀ p ∈ protoFuzzerRequests C states (marshalled mu sequence), IsFrame p := by
  intro p hp
  obtain ⟨i, hi, rfl⟩ := List.mem_mapIdx.mp hp
  obtain ⟨hframe, hlen⟩ := marshalled_isFrame mu sequence _ (List.getElem_mem hi)
  have hk : kMaxBuffer = 1048576 := rfl
  exact patched_isFrame C (states i) hframe (by omega)

theorem fuzzerRequests_flatten {fs : List Bytes} (h : ∀ f ∈ fs, IsFrame f) :
    fuzzerRequests fs.flatten = fs := by
  rw [fuzzerRequests, parseCommands_flatten h]

/-! ## The seed generator -/

theorem bytes_isFrame {c : Python.TPMCommand} {b : Bytes} (h : c.bytes = .ok b) : IsFrame b := by
  unfold Python.TPMCommand.bytes at h
  simp only [Py.bind_eq_ok, Py.toBytes_eq_ok, Py.pure_eq_ok, Except.ok.injEq] at h
  obtain ⟨tag, ⟨t, -, -, rfl⟩, size, ⟨n, hn, hlt, rfl⟩, cc, ⟨k, -, -, rfl⟩, rfl⟩ := h
  have hsize : n = 10 + c.params.length := by
    have : c.commandSize = 10 + c.params.length := rfl
    omega
  have hlen : (be 2 t ++ be 4 n ++ be 4 k ++ c.params).length = n := by
    simp only [List.length_append, length_be]
    omega
  rw [show Python.TPMCommand.ST_LEN = 2 from rfl, show Python.TPMCommand.SIZE_LEN = 4 from rfl,
    show Python.TPMCommand.CC_LEN = 4 from rfl] at *
  refine ⟨by omega, by omega, ?_⟩
  rw [hlen, List.append_assoc, List.append_assoc]
  exact slice_append (length_be 2 t) (length_be 4 n)

theorem serializeSequence_flatten {commands : List Python.TPMCommand} {bs : List Bytes}
    (h : List.Forall₂ (fun c b => c.bytes = .ok b) commands bs) :
    Python.serializeSequence commands = .ok bs.flatten ∧ ∀ b ∈ bs, IsFrame b := by
  induction h with
  | nil => exact ⟨rfl, by simp⟩
  | cons hc _ ih =>
    obtain ⟨hser, hframes⟩ := ih
    unfold Python.serializeSequence at hser ⊢
    constructor
    · rw [Python.joinBytes, hc, Py.ok_bind, hser, Py.ok_bind, List.flatten_cons]
      rfl
    · intro b hb
      rcases List.mem_cons.mp hb with rfl | hb
      · exact bytes_isFrame hc
      · exact hframes b hb

/-! ## The streams agree -/

/-- `fuzzer.cc` cuts the concatenation of what the marshaller, the patcher or the seed generator
wrote back into the same buffers in the same order: the streams of the two targets are the same. -/
theorem streams_agree (mu : Tss2Mu) (sequence : TPMCommandSequence) (states : Nat → SessionState)
    (commands : List Python.TPMCommand) (bs before : List Bytes)
    (hbs : List.Forall₂ (fun c b => c.bytes = .ok b) commands bs) :
    let ms := marshalled mu sequence
    let ps := protoFuzzerRequests C states ms
    (∀ f ∈ ms ++ ps, 10 ≤ f.length ∧ slice f 2 4 = be 4 f.length) ∧
    parseCommands ms.flatten before = (true, ms) ∧
    parseCommands ps.flatten before = (true, ps) ∧
    fuzzerRequests ps.flatten = ps ∧
    ∃ data, Python.serializeSequence commands = .ok data ∧
      parseCommands data before = (true, bs) := by
  intro ms ps
  have hms : ∀ m ∈ ms, IsFrame m := fun m hm => (marshalled_isFrame mu sequence m hm).1
  have hps : ∀ p ∈ ps, IsFrame p := protoFuzzerRequests_isFrame C mu sequence states
  obtain ⟨hser, hframes⟩ := serializeSequence_flatten hbs
  refine ⟨?_, parseCommands_flatten hms before, parseCommands_flatten hps before,
    fuzzerRequests_flatten hps, _, hser, parseCommands_flatten hframes before⟩
  intro f hf
  rcases List.mem_append.mp hf with hf | hf
  · exact ⟨(hms f hf).ten_le, (hms f hf).length_field⟩
  · exact ⟨(hps f hf).ten_le, (hps f hf).length_field⟩

/-- A `TPM2_Clear` for the armed session, an empty message, and a `TPM2_GetRandom` of the seed
generator. -/
theorem clear_getRandom_streams :
    let clear : Proto.TPMCommand := .clear
      { header := some { tag := TPM_ST_SESSIONS, commandCode := TPM_CC_CLEAR }
        authHandle := 0x4000000A
        sessions := [{ sessionHandle := 0x02000000, sessionAttributes := 1 }] }
    let ms := marshalled Tss2Mu.standard [clear, .notSet, clear]
    let ps := protoFuzzerRequests clearDigests (fun _ => armedState) ms
    ms.map List.length = [27, 27] ∧ ps.map List.length = [75, 75] ∧
    parseCommands ms.flatten [] = (true, ms) ∧
    parseCommands ps.flatten [] = (true, ps) ∧
    ∃ data, Python.serializeSequence [⟨Python.TPM_ST_NO_SESSIONS, 0x17B, [0, 4]⟩] = .ok data ∧
      parseCommands data [] = (true, [[0x80, 0x01, 0, 0, 0, 12, 0, 0, 0x01, 0x7B, 0, 4]]) := by
  intro clear ms ps
  obtain ⟨-, hms, hps, -, hdata⟩ := streams_agree clearDigests Tss2Mu.standard
    [clear, .notSet, clear]
    (fun _ => armedState) [⟨Python.TPM_ST_NO_SESSIONS, 0x17B, [0, 4]⟩]
    [[0x80, 0x01, 0, 0, 0, 12, 0, 0, 0x01, 0x7B, 0, 4]] [] (.cons rfl .nil)
  exact ⟨by decide +kernel, by decide +kernel, hms, hps, hdata⟩

end Harness
