import TpmFuzzer.Lib.Frames
import TpmFuzzer.Tpm.Wire

/-!
# `parseCommands`

The byte parser cuts its input at the length field of each command.  `IsFrame` is its grammar: at
least a header, fewer than 2^32 bytes, and the length in bytes 2 to 5.

    Frames.Splits IsFrame data (parseCommands data _).2 rest           (parseCommands_splits)
    (parseCommands data _).1 = true  ↔  rest = []

so `parseCommands` accepts exactly the concatenations of frames (`parseCommands_spec`).
-/

namespace Parser

open Bytes Tpm Frames

def kHeaderTagLen : Nat := 2
def kHeaderCommandSizeLen : Nat := 4
def kHeaderCommandCodeLen : Nat := 4

/-- The `while` loop: every round that does not return consumes at least a header. -/
def parseLoop (data : Bytes) (offset : Nat) (commands : List Bytes) : Bool × List Bytes :=
  if offset < data.length then
    if offset + kHeaderTagLen + kHeaderCommandSizeLen + kHeaderCommandCodeLen > data.length then
      (false, commands)
    else
      let length := (read32 data (offset + kHeaderTagLen)).toNat
      if length < kHeaderTagLen + kHeaderCommandSizeLen + kHeaderCommandCodeLen then
        (false, commands)
      else if offset + length > data.length then (false, commands)
      else parseLoop data (offset + length) (commands ++ [slice data offset length])
  else (true, commands)
termination_by data.length - offset
decreasing_by
  next hlt _ hbig _ =>
  have : 10 ≤ (read32 data (offset + kHeaderTagLen)).toNat := Nat.not_lt.mp hbig
  omega

/-- The result and what `commands` holds after the call; it is cleared first. -/
def parseCommands (data : Bytes) (_commands : List Bytes) : Bool × List Bytes :=
  parseLoop data 0 []

/-! ## The grammar -/

/-- A frame: `L` bytes with 10 ≤ L < 2^32 that carry L big-endian in bytes 2 to 5. -/
structure IsFrame (f : Bytes) : Prop where
  ten_le : 10 ≤ f.length
  length_lt : f.length < 2 ^ 32
  length_field : slice f 2 4 = be 4 f.length

theorem IsFrame.read_length {f : Bytes} (h : IsFrame f) (rest : Bytes) :
    (read32 (f ++ rest) 2).toNat = f.length := by
  have h10 := h.ten_le
  rw [read32_append_left (by omega), toNat_read32 (by omega), h.length_field,
    ofBe_be_of_lt (by have := h.length_lt; omega)]

/-- The bytes a length field spans are a frame. -/
theorem isFrame_of_read_length {f : Bytes} (h10 : 10 ≤ f.length)
    (h : (read32 f 2).toNat = f.length) : IsFrame f := by
  refine ⟨h10, by rw [← h]; exact (read32 f 2).toNat_lt, ?_⟩
  have hb := be_ofBe (slice f 2 4)
  rw [length_slice (by omega), ← toNat_read32 (by omega), h] at hb
  exact hb.symm

/-- The first `n` bytes of a buffer that has `n` written into its length field. -/
theorem isFrame_take_poke {b : Bytes} {n : Nat} (h10 : 10 ≤ n) (hlt : n < 2 ^ 32)
    (hn : n ≤ b.length) :
    IsFrame ((poke b 2 (write32 (UInt32.ofNat n))).take n) := by
  have hlen : (poke b 2 (write32 (UInt32.ofNat n))).length = b.length :=
    length_poke (by rw [length_write32]; omega)
  have htake : ((poke b 2 (write32 (UInt32.ofNat n))).take n).length = n := by
    rw [List.length_take, hlen]
    omega
  refine ⟨by omega, by omega, ?_⟩
  rw [htake, slice_take (by omega), poke, slice_append (by simp; omega) (length_write32 _),
    write32_eq_be, UInt32.toNat_ofNat_of_lt' hlt]

theorem selfDelimiting_isFrame : SelfDelimiting IsFrame := by
  refine ⟨?_, ?_⟩
  · rintro f hf rfl
    exact absurd hf.ten_le (by decide)
  · intro f g a b hf hg h
    have hlen : f.length = g.length := by
      rw [← hf.read_length a, ← hg.read_length b, h]
    exact List.append_inj_left h hlen

/-! ## The loop -/

/-- One round, in terms of the bytes that are left. -/
theorem parseLoop_eq (commands : List Bytes) (done rest : Bytes) :
    parseLoop (done ++ rest) done.length commands =
      if rest = [] then (true, commands)
      else if rest.length < 10 then (false, commands)
      else if (read32 rest 2).toNat < 10 ∨ rest.length <
          (read32 rest 2).toNat then (false, commands)
      else parseLoop (done ++ rest) (done.length + (read32 rest 2).toNat)
        (commands ++ [rest.take (read32 rest 2).toNat]) := by
  have hhead : kHeaderTagLen + kHeaderCommandSizeLen + kHeaderCommandCodeLen = 10 := rfl
  have hsum : done.length + kHeaderTagLen + kHeaderCommandSizeLen + kHeaderCommandCodeLen =
      done.length + 10 := rfl
  have hread : read32 (done ++ rest) (done.length + kHeaderTagLen) = read32 rest 2 :=
    read32_append_right done rest 2
  have hslice : ∀ n, slice (done ++ rest) done.length n = rest.take n := by
    intro n
    rw [slice_append_right (Nat.add_zero _).symm]
    rfl
  rw [parseLoop, hread, hhead, hsum, List.length_append]
  simp only [hslice]
  by_cases hnil : rest = []
  · rw [if_neg (by simp [hnil]), if_pos hnil]
  · have hpos := List.length_pos_iff.mpr hnil
    rw [if_pos (by omega), if_neg hnil]
    by_cases hshort : rest.length < 10
    · rw [if_pos (by omega), if_pos hshort]
    · rw [if_neg (by omega), if_neg hshort]
      by_cases hsmall : (read32 rest 2).toNat < 10
      · rw [if_pos hsmall, if_pos (Or.inl hsmall)]
      · rw [if_neg hsmall]
        by_cases hpast : rest.length < (read32 rest 2).toNat
        · rw [if_pos (by omega), if_pos (Or.inr hpast)]
        · rw [if_neg (by omega), if_neg (by omega)]

/-- No frame stands where a round returns false. -/
theorem unframed_of_bad {rest : Bytes} (h : rest.length < 10 ∨ (read32 rest 2).toNat < 10 ∨
    rest.length < (read32 rest 2).toNat) : Unframed IsFrame rest := by
  rintro f tail hf rfl
  have hlen := hf.read_length tail
  have h10 := hf.ten_le
  rw [hlen, List.length_append] at h
  omega

/-- The loop appends the frames of what is left, and returns true when nothing is left behind them.
The induction is on the number of bytes left. -/
theorem parseLoop_spec : ∀ (n : Nat) (rest : Bytes), rest.length ≤ n →
    ∀ (done : Bytes) (commands : List Bytes), ∃ fs tail,
      (parseLoop (done ++ rest) done.length commands).2 = commands ++ fs ∧
        Splits IsFrame rest fs tail ∧
        ((parseLoop (done ++ rest) done.length commands).1 = true ↔ tail = []) := by
  intro n
  induction n with
  | zero =>
    intro rest hn done commands
    have hnil : rest = [] := List.length_eq_zero_iff.mp (by omega)
    subst hnil
    rw [parseLoop_eq, if_pos rfl]
    exact ⟨[], [], by simp, ⟨by simp, rfl, selfDelimiting_isFrame.unframed_nil⟩, by simp⟩
  | succ n ih =>
    intro rest hn done commands
    rw [parseLoop_eq]
    by_cases hnil : rest = []
    · subst hnil
      rw [if_pos rfl]
      exact ⟨[], [], by simp, ⟨by simp, rfl, selfDelimiting_isFrame.unframed_nil⟩, by simp⟩
    · rw [if_neg hnil]
      by_cases hbad : rest.length < 10 ∨ (read32 rest 2).toNat < 10 ∨
          rest.length < (read32 rest 2).toNat
      · -- one of the three rejections: what is left stays unframed
        refine ⟨[], rest, ?_, ⟨by simp, rfl, unframed_of_bad hbad⟩, ?_⟩
        · split
          · simp
          · rw [if_pos (by omega)]
            simp
        · split
          · simp [hnil]
          · rw [if_pos (by omega)]
            simp [hnil]
      · -- a frame is cut off and the loop goes on behind it
        generalize hL : (read32 rest 2).toNat = L at hbad
        have htake : (rest.take L).length = L := by
          rw [List.length_take]
          omega
        have hframe : IsFrame (rest.take L) := by
          refine isFrame_of_read_length (by omega) ?_
          have happ : read32 (rest.take L ++ rest.drop L) 2 = read32 (rest.take L) 2 :=
            read32_append_left (by omega)
          rw [List.take_append_drop] at happ
          rw [htake, ← happ, hL]
        obtain ⟨fs, tail, hcs, hsplit, hok⟩ := ih (rest.drop L) (by rw [List.length_drop]; omega)
          (done ++ rest.take L) (commands ++ [rest.take L])
        rw [List.append_assoc, List.take_append_drop, List.length_append, htake] at hcs hok
        rw [if_neg (by omega), if_neg (by omega)]
        refine ⟨rest.take L :: fs, tail, by rw [hcs]; simp, ⟨?_, ?_, hsplit.unframed⟩, hok⟩
        · intro f hf
          rcases List.mem_cons.mp hf with rfl | hf
          · exact hframe
          · exact hsplit.frames f hf
        · rw [List.flatten_cons, List.append_assoc, ← hsplit.eq_append, List.take_append_drop]

/-! ## The parser -/

/-- `parseCommands` splits its input, and succeeds when the split leaves nothing. -/
theorem parseCommands_splits (data : Bytes) (before : List Bytes) :
    ∃ rest, Splits IsFrame data (parseCommands data before).2 rest ∧
      ((parseCommands data before).1 = true ↔ rest = []) := by
  obtain ⟨fs, rest, hcs, hsplit, hok⟩ := parseLoop_spec data.length data (Nat.le_refl _) [] []
  refine ⟨rest, ?_, hok⟩
  rw [parseCommands, show (parseLoop data 0 []).2 = fs from hcs]
  exact hsplit

/-- A concatenation of frames is cut back into them. -/
theorem parseCommands_flatten {fs : List Bytes} (h : ∀ f ∈ fs, IsFrame f) (before : List Bytes) :
    parseCommands fs.flatten before = (true, fs) := by
  obtain ⟨rest, hsplit, hok⟩ := parseCommands_splits fs.flatten before
  obtain ⟨hfs, hrest⟩ := selfDelimiting_isFrame.splits_unique hsplit
    ⟨h, (List.append_nil _).symm, selfDelimiting_isFrame.unframed_nil⟩
  exact Prod.ext (hok.mpr hrest) hfs

/-- `parseCommands` accepts exactly the concatenations of frames; on success it returns the only
list of frames the input consists of, on failure the longest list of frames at its start, behind
which something is left that starts with no frame. -/
theorem parseCommands_spec (data : Bytes) (before : List Bytes) :
    let ok := (parseCommands data before).1
    let commands := (parseCommands data before).2
    (ok = true ↔ ∃ fs : List Bytes, (∀ f ∈ fs, IsFrame f) ∧ fs.flatten = data) ∧
    (∀ f ∈ commands, IsFrame f) ∧
    (ok = true → commands.flatten = data ∧
      ∀ fs : List Bytes, (∀ f ∈ fs, IsFrame f) → fs.flatten = data → fs = commands) ∧
    (ok = false → ∃ rest, data = commands.flatten ++ rest ∧ rest ≠ [] ∧ Unframed IsFrame rest ∧
      ∀ (fs : List Bytes) tail, (∀ f ∈ fs, IsFrame f) → data = fs.flatten ++ tail →
        ∃ more, commands = fs ++ more) := by
  intro ok commands
  obtain ⟨rest, hsplit, hok⟩ := parseCommands_splits data before
  have hall : ok = true → commands.flatten = data := by
    intro h
    have heq := hsplit.eq_append
    rw [hok.mp h, List.append_nil] at heq
    exact heq.symm
  refine ⟨⟨fun h => ⟨commands, hsplit.frames, hall h⟩, ?_⟩, hsplit.frames, ?_, ?_⟩
  · rintro ⟨fs, hfs, rfl⟩
    exact congrArg Prod.fst (parseCommands_flatten hfs before)
  · intro h
    refine ⟨hall h, fun fs hfs hdata => ?_⟩
    exact selfDelimiting_isFrame.flatten_inj hfs hsplit.frames (hdata.trans (hall h).symm)
  · intro h
    refine ⟨rest, hsplit.eq_append, ?_, hsplit.unframed, fun fs tail hfs hdata => ?_⟩
    · intro hnil
      exact absurd (hok.mpr hnil)
        (by rw [show (parseCommands data before).1 = false from h]; decide)
    · exact selfDelimiting_isFrame.exists_append_of_flatten hfs hsplit.frames hsplit.unframed
        (hdata.symm.trans hsplit.eq_append)

end Parser
