import TpmFuzzer.Proto.Encoding

/-!
# When `MarshalCommand` returns false

The marshaller dispatches on type names, and a type without a case would silently drop the command.
Every field of the fifteen commands has a case; what is left are a value that its field on the wire
cannot hold (`TPMCommand.Overflows`) and a command that is longer than the buffer:

    marshalCommand mu c = none  ↔  c = notSet ∨ c.Overflows ∨ kMaxBuffer < c.wireLength
                                                                        (marshalCommand_refuses)
-/

namespace Proto

open Bytes Tpm Writer

/-- A value that does not fit the 16 bits it has, or is counted by, on the wire. -/
def TPMCommand.Overflows : TPMCommand → Prop
  | .getrandom m => m.bytesRequested.toNat > 65535
  | .setprimarypolicy m => (m.authPolicy.getD {}).buffer.length > 65535
  | .pcrsetauthpolicy m => (m.authPolicy.getD {}).buffer.length > 65535
  | _ => False

/-- The bytes of all fields together. -/
def TPMCommand.wireLength (privateSize : Nat) (c : TPMCommand) : Nat :=
  ((c.fields.getD []).map fun f => written (f.encode privateSize)).sum

/-- The fields of one command that have no encoding. -/
theorem encode_eq_none {privateSize : Nat} {c : TPMCommand} {fs : List Field}
    (h : c.fields = some fs) :
    c.encode privateSize = none ↔ ∃ f ∈ fs, f.encode privateSize = none := by
  rw [TPMCommand.encode, h, Option.bind_some, joinAll_eq_none_iff]

/-- Every kind of field that the commands have is marshalled, but for a `bytes_requested` of more
than 16 bits and a digest whose length is one. -/
theorem encode_eq_none_iff (privateSize : Nat) (c : TPMCommand) :
    c.encode privateSize = none ↔ c = .notSet ∨ c.Overflows := by
  cases c with
  | notSet => simp [TPMCommand.encode, TPMCommand.fields]
  | _ =>
    rw [encode_eq_none rfl]
    simp [TPMCommand.Overflows, Field.encode, Message.encode, Elements.encode, Field.header,
      Field.sessions, Field.word, Field.rh, Field.alg, Field.data, Field.digest, Field.publicKeyRsa,
      Field.rsaDecrypt, Field.pcrs, Field.inSensitive, Field.inPublic]

theorem length_encode {privateSize : Nat} {c : TPMCommand} {x : Bytes}
    (h : c.encode privateSize = some x) :
    x.length = c.wireLength privateSize := by
  unfold TPMCommand.encode at h
  obtain ⟨fs, hfs, h⟩ := Option.bind_eq_some_iff.mp h
  rw [TPMCommand.wireLength, hfs, Option.getD_some]
  exact length_joinAll h

/-- A command is dropped for no other reason, and what is sent has the length of its fields. -/
theorem marshalCommand_refuses (mu : Tss2Mu) (c : TPMCommand) :
    (marshalCommand mu c = none ↔
      c = .notSet ∨ c.Overflows ∨ c.wireLength mu.privateSize > kMaxBuffer) ∧
    ∀ out, marshalCommand mu c = some out → out.length = c.wireLength mu.privateSize := by
  rw [marshalCommand_eq]
  cases henc : c.encode mu.privateSize with
  | none =>
    have hreason := (encode_eq_none_iff mu.privateSize c).mp henc
    constructor
    · refine iff_of_true rfl ?_
      rcases hreason with h | h
      · exact Or.inl h
      · exact Or.inr (Or.inl h)
    · intro out h
      cases h
  | some x =>
    have hno : ¬ (c = .notSet ∨ c.Overflows) := by
      intro h
      rw [(encode_eq_none_iff mu.privateSize c).mpr h] at henc
      cases henc
    have hlen := length_encode henc
    rw [Option.bind_some]
    by_cases hfit : x.length ≤ kMaxBuffer
    · rw [if_pos hfit]
      constructor
      · refine iff_of_false nofun ?_
        rintro (h | h | h)
        · exact hno (Or.inl h)
        · exact hno (Or.inr h)
        · omega
      · intro out h
        cases h
        obtain ⟨header, rest, hhead⟩ := encode_header henc
        have hten : 10 ≤ x.length := by
          rw [hhead, List.length_append, length_header]
          omega
        rw [length_withSize (by omega), hlen]
    · rw [if_neg hfit]
      constructor
      · exact iff_of_true rfl (Or.inr (Or.inr (by omega)))
      · intro out h
        cases h

end Proto
