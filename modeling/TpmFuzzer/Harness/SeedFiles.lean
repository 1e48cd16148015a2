import TpmFuzzer.Harness.Drivers
import TpmFuzzer.Proto.NormalForms
import TpmFuzzer.Python.ByteReading

/-!
# Seed files

What the two fuzzers send for a seed of the generator.

* `fuzzer.cc` sends the commands of a byte seed one by one; each is laid out as its arguments say,
  exactly if it is well-formed (`byteSeeds_reach`).
* On the two seeds of the same commands the two fuzzers lead a platform through the same exchanges,
  unless a session comes up that the session layer takes over (`twoSeeds_same`).  The message seed
  goes through the post-processors first, so that it is the post-processed message which has to
  agree with the command.
-/

namespace Harness

open Bytes Tpm Traced Session Parser Proto Runs Reading
open Python (ByteCommand Agrees serializeSequence)

variable {P : Type} (pl : Platform P) (C : Crypto)

/-! ## The byte seed -/

theorem serializeSequence_eq_ok {commands : List Python.TPMCommand} {data : Bytes}
    (h : serializeSequence commands = .ok data) :
    ∃ bs, List.Forall₂ (fun c b => c.bytes = .ok b) commands bs ∧ data = bs.flatten ∧
      ∀ b ∈ bs, IsFrame b := by
  unfold serializeSequence at h
  induction commands generalizing data with
  | nil =>
    cases h
    exact ⟨[], .nil, rfl, by simp⟩
  | cons c commands ih =>
    obtain ⟨b, rest, hb, hrest, rfl⟩ := Python.joinBytes_cons_eq_ok h
    obtain ⟨bs, hbs, rfl, hframes⟩ := ih hrest
    refine ⟨b :: bs, .cons hb hbs, rfl, ?_⟩
    exact List.forall_mem_cons.mpr ⟨bytes_isFrame hb, hframes⟩

/-- The commands of the file, between a start and a shutdown. -/
theorem fuzzer_sends {commands : List Python.TPMCommand} {data : Bytes}
    (h : serializeSequence commands = .ok data) (b : Bench P) :
    ∃ bs, List.Forall₂ (fun c b => c.bytes = .ok b) commands bs ∧ llvmFuzzerTestOneInput pl data b =
      (let sent := sendAll pl bs ⟨bringUp pl b.tpm, b.exchanges⟩
       (⟨bringDown pl sent.tpm, sent.exchanges⟩, 0)) := by
  obtain ⟨bs, hbs, rfl, hframes⟩ := serializeSequence_eq_ok h
  exact ⟨bs, hbs, llvmFuzzerTestOneInput_flatten pl hframes b⟩

theorem byteCommands_read {seed : List ByteCommand} {commands : List Python.TPMCommand}
    {bs : List Bytes} (hbuild : List.Forall₂ (fun c cmd => c.build = .ok cmd) seed commands)
    (hbs : List.Forall₂ (fun c b => c.bytes = .ok b) commands bs) :
    List.Forall₂ (fun c m => (∃ w, whole readCommand m = some w ∧ c.Says m.length w) ↔
      c.WellFormed) seed bs := by
  induction hbuild generalizing bs with
  | nil =>
    cases hbs
    exact .nil
  | cons hc _ ih =>
    cases hbs with
    | cons hb hbs => exact .cons (Python.byteCommand_reads_iff hc hb) (ih hbs)

/-- From the seed to the requests: what is sent are the bytes of the commands of the seed, in order,
and each is laid out as its arguments say exactly if it is well-formed. -/
theorem byteSeeds_reach {seed : List ByteCommand} {commands : List Python.TPMCommand} {data : Bytes}
    (hbuild : List.Forall₂ (fun c cmd => c.build = .ok cmd) seed commands)
    (hdata : serializeSequence commands = .ok data) (b : Bench P) :
    ∃ new : List (Bytes × Bytes),
      (llvmFuzzerTestOneInput pl data b).1.exchanges = b.exchanges ++ new ∧
      (llvmFuzzerTestOneInput pl data b).2 = 0 ∧
      List.Forall₂ (fun c request => c.bytes = .ok request) commands (new.map Prod.fst) ∧
      List.Forall₂ (fun c request =>
          (∃ w, whole readCommand request = some w ∧ c.Says request.length w) ↔ c.WellFormed)
        seed (new.map Prod.fst) := by
  obtain ⟨bs, hbs, hrun⟩ := fuzzer_sends pl hdata b
  obtain ⟨new, hnew, hfst⟩ := exchanges_sendAll pl bs ⟨bringUp pl b.tpm, b.exchanges⟩
  rw [hrun]
  refine ⟨new, hnew, rfl, ?_, ?_⟩
  · rw [hfst]
    exact hbs
  · rw [hfst]
    exact byteCommands_read hbuild hbs

theorem twoBanks_wellFormed : Python.twoBanks.WellFormed := by
  intro p hp
  obtain rfl := List.mem_singleton.mp hp
  intro h hh
  obtain rfl | rfl := List.mem_pair.mp hh <;> rfl

/-- PCR 8 is extended and the clock read: two requests, and the first names PCR 8 and the digests of
the two banks. -/
theorem twoBanks_reach : ∃ commands data extend clock w digests,
    List.Forall₂ (fun c cmd => ByteCommand.build c = .ok cmd)
      [Python.twoBanks, .readClock] commands ∧
    serializeSequence commands = .ok data ∧
    (llvmFuzzerTestOneInput silent data ⟨(), []⟩).1.exchanges.map Prod.fst = [extend, clock] ∧
    whole readCommand extend = some w ∧ w.commandSize.toNat = extend.length ∧
    w.handles.map UInt32.toNat = [8] ∧ w.params = [.digests digests] ∧
    digests.map TPMT_HA.digest = [List.replicate 20 0xAA, List.replicate 32 0xBB] := by
  have hbuild : List.Forall₂ (fun c cmd => ByteCommand.build c = .ok cmd)
      [Python.twoBanks, .readClock] _ := .cons rfl (.cons rfl .nil)
  obtain ⟨new, hnew, -, -, hread⟩ := byteSeeds_reach silent hbuild rfl ⟨(), []⟩
  rw [List.nil_append] at hnew
  obtain ⟨extend, requests, hextend, hrest, hnew'⟩ := List.forall₂_cons_left_iff.mp hread
  obtain ⟨clock, requests, -, hnil, rfl⟩ := List.forall₂_cons_left_iff.mp hrest
  obtain rfl := List.forall₂_nil_left_iff.mp hnil
  obtain ⟨w, hw, hsays⟩ := hextend.mpr twoBanks_wellFormed
  obtain ⟨v, vs, hv, hvs, hhandles⟩ := List.forall₂_cons_left_iff.mp hsays.handles
  obtain rfl := List.forall₂_nil_left_iff.mp hvs
  obtain ⟨p, ps, hp, hps, hparams⟩ := List.forall₂_cons_left_iff.mp hsays.params
  obtain rfl := List.forall₂_nil_left_iff.mp hps
  cases p with
  | digests ds =>
    obtain ⟨d, rest, hd, htwo, rfl⟩ := List.forall₂_cons_left_iff.mp hp
    obtain ⟨e, none, he, hone, rfl⟩ := List.forall₂_cons_left_iff.mp htwo
    obtain rfl := List.forall₂_nil_left_iff.mp hone
    refine ⟨_, _, extend, clock, w, [d, e], hbuild, rfl, ?_, hw, hsays.commandSize, ?_, hparams, ?_⟩
    · rw [hnew, hnew']
    · rw [hhandles, List.map_singleton]
      exact congrArg (fun n => [n]) (Int.ofNat_inj.mp hv)
    · show [d.digest, e.digest] = _
      rw [hd.digest, he.digest]
  | _ => exact hp.elim

/-! ## The two seeds -/

/-- No session, and none that is about to come up. -/
def Unarmed (l : Layer) : Prop := l.session = none ∧ l.start ≠ some true

/-- A message that does not ask for a session which the layer could authorise commands for. -/
def Harmless (m : Bytes) : Prop :=
  Tpm.read32 m 6 = TPM2_CC_StartAuthSession → Layer.compatible m = false

theorem patch_unarmed {l : Layer} (hl : Unarmed l) {m : Bytes} (hm : Harmless m) (room : Nat) :
    Unarmed (l.patch C m room).1 ∧ (l.patch C m room).2 = m := by
  unfold Layer.patch
  split
  · dsimp only
    split
    · next hstart =>
      rw [hm hstart]
      exact ⟨⟨hl.1, by simp⟩, rfl⟩
    · rw [hl.1]
      exact ⟨⟨rfl, hl.2⟩, rfl⟩
  · exact ⟨hl, rfl⟩

theorem process_unarmed {l : Layer} (hl : Unarmed l) (m : Bytes) : Unarmed (l.process m) := by
  obtain ⟨hsession, hstart⟩ := hl
  unfold Layer.process
  split
  · split
    · next htrue => exact absurd htrue hstart
    · exact ⟨hsession, by simp⟩
    · rw [hsession]
      exact ⟨hsession, hstart⟩
  · exact ⟨hsession, hstart⟩

/-- Without a session of its own the layer changes nothing. -/
theorem run_unarmed {ms : List Bytes} (hms : ∀ m ∈ ms, Harmless m) {s : Bench P × Layer}
    (hs : Unarmed s.2) :
    (run (layerExchange pl C) s ms).1 = sendAll pl ms s.1 := by
  induction ms generalizing s with
  | nil => rfl
  | cons m ms ih =>
    obtain ⟨hm, hms⟩ := List.forall_mem_cons.mp hms
    obtain ⟨hpatch, hsame⟩ := patch_unarmed C hs hm (m.length + 48)
    have hstep : (layerExchange pl C s m).1 = sendCommand pl m s.1 := by
      unfold layerExchange sendCommand
      dsimp only
      rw [hsame]
    have hnext : Unarmed (layerExchange pl C s m).2 := process_unarmed hpatch _
    have hrest := ih hms hnext
    rw [hstep] at hrest
    exact hrest

theorem marshalled_of_agree {mu : Tss2Mu} {commands : List Python.TPMCommand}
    {messages : List TPMCommand} {bs : List Bytes} (h : List.Forall₂ (Agrees mu) commands messages)
    (hbs : List.Forall₂ (fun c b => c.bytes = .ok b) commands bs) :
    marshalled mu messages = bs := by
  induction h generalizing bs with
  | nil =>
    cases hbs
    rfl
  | cons hc _ ih =>
    cases hbs with
    | cons hb hbs =>
      obtain ⟨b, hb', hm⟩ := hc
      obtain rfl := Except.ok.inj (hb'.symm.trans hb)
      rw [marshalled, List.filterMap_cons_some hm]
      exact congrArg _ (ih hbs)

/-- The post-processor leaves a normal message as it is. -/
theorem agrees_postProcess {mu : Tss2Mu} {c : Python.TPMCommand} {m : TPMCommand}
    (h : Agrees mu c m) (hm : m.Normal) : Agrees mu c (postProcess m) := by
  rw [(normal_iff m).mp hm]
  exact h

/-- Commands that agree with their post-processed messages: both fuzzers lead the platform to the
same state through the same exchanges. -/
theorem twoSeeds_same {mu : Tss2Mu} {commands : List Python.TPMCommand}
    {messages : TPMCommandSequence} {data : Bytes}
    (hagree : List.Forall₂ (fun c m => Agrees mu c (postProcess m)) commands messages)
    (hdata : serializeSequence commands = .ok data)
    (hharmless : ∀ c ∈ commands, ∀ m, c.bytes = .ok m → Harmless m) (b : ProtoBench P) :
    (defineProtoFuzzer pl C mu (messages.map postProcess) b).toBench =
      (llvmFuzzerTestOneInput pl data b.toBench).1 := by
  obtain ⟨bs, hbs, hrun⟩ := fuzzer_sends pl hdata b.toBench
  have hms : ∀ m ∈ bs, Harmless m := by
    intro m hm
    obtain ⟨i, hi, rfl⟩ := List.getElem_of_mem hm
    have hc := hbs.get (hbs.length_eq ▸ hi) hi
    exact hharmless _ (List.getElem_mem _) _ hc
  have hmarshalled := marshalled_of_agree (List.forall₂_map_right_iff.mpr hagree) hbs
  rw [hrun, defineProtoFuzzer_eq, hmarshalled, abstractInput,
    run_unarmed pl C hms ⟨rfl, by simp [Layer.empty]⟩]

/-- A Clear and an event for PCR 8. -/
theorem clearSeeds_same : ∃ clear event clearMsg eventMsg data,
    Python.TPMClear.init = .ok clear ∧ clear.toProto = .ok clearMsg ∧
    Python.TPMPCREvent.init 8 [1, 2, 3] = .ok event ∧ event.toProto = .ok eventMsg ∧
    serializeSequence [clear.toTPMCommand, event.toTPMCommand] = .ok data ∧
    (defineProtoFuzzer silent clearDigests Tss2Mu.standard
      ([clearMsg, eventMsg].map postProcess) ⟨⟨(), []⟩, SessionState.zero⟩).toBench =
        (llvmFuzzerTestOneInput silent data ⟨(), []⟩).1 := by
  have hclear : Agrees Tss2Mu.standard _ _ :=
    Python.TPMClear.agrees (rfl : Python.TPMClear.init = .ok _) rfl
  have hevent : Agrees Tss2Mu.standard _ _ :=
    Python.TPMPCREvent.agrees (by decide) (rfl : Python.TPMPCREvent.init 8 [1, 2, 3] = .ok _) rfl
  have hclear' := agrees_postProcess hclear ⟨⟨_, rfl⟩, by decide, List.cons_ne_nil _ _⟩
  have hevent' := agrees_postProcess hevent ⟨_, rfl⟩
  refine ⟨_, _, _, _, _, rfl, rfl, rfl, rfl, rfl, ?_⟩
  refine twoSeeds_same silent clearDigests (.cons hclear' (.cons hevent' .nil)) rfl ?_
    ⟨⟨(), []⟩, SessionState.zero⟩
  intro c hc m hm
  obtain rfl | rfl := List.mem_pair.mp hc <;> cases hm <;> exact fun h => absurd h (by decide)

end Harness
